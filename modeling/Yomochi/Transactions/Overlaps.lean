import Yomochi.Transactions.Ledger

/-! Requests that overlap: an update writes the columns that it has changed over a row that others
may have changed since it was read. -/

namespace Yomochi.Transactions

open Foundation Recurring

/-! The amounts of the rows. -/

section Amounts

theorem loads_of_made {transaction : Transaction} {money : Money}
    (made : moneyFactory transaction.amount = .ok money) : loads transaction = true := by
  unfold loads
  rw [made]
  rfl

theorem loads_congr {first second : Transaction} (same : first.amount = second.amount) :
    loads first = loads second := by
  unfold loads
  rw [same]

theorem updated_amount {store : Store} {command : UpdateTransactionCommand}
    {read current : Transaction} (made : updatedTransaction store command read = .ok current) :
    ∃ amount, command.newAmount read = .ok amount ∧
      current.amount = amount.getD read.amount := by
  unfold updatedTransaction at made
  split at made
  · cases made
  · split at made
    · cases made
    · rename_i amount given
      cases made
      exact ⟨amount, given, rfl⟩

theorem new_amount_made {command : UpdateTransactionCommand} {read : Transaction} {money : Money}
    (given : command.newAmount read = .ok (some money)) : moneyFactory money = .ok money := by
  unfold UpdateTransactionCommand.newAmount at given
  split at given
  · dsimp only at given
    split at given
    · cases given
    · rename_i currency known
      split at given
      · rename_i rawAmount named
        cases made : Money.fromString rawAmount currency with
        | error error =>
            rw [made] at given
            cases given
        | ok other =>
            rw [made] at given
            cases given
            exact money_factory_from_string made
      · cases made : Money.of (readAmount read.amount.amount) currency with
        | error error =>
            rw [made] at given
            cases given
        | ok other =>
            rw [made] at given
            cases given
            exact money_factory_of made
  · cases given

theorem updated_loads {store : Store} {command : UpdateTransactionCommand}
    {read current : Transaction} (valid : loads read = true)
    (made : updatedTransaction store command read = .ok current) : loads current = true := by
  obtain ⟨amount, given, same⟩ := updated_amount made
  cases amount with
  | none =>
      rw [loads_congr same]
      exact valid
  | some money =>
      have made := new_amount_made given
      have priced : moneyFactory current.amount = .ok money := by
        rw [same]
        exact made
      exact loads_of_made priced

end Amounts

/-- The update writes both the amount and the currency or neither of them, or the one that it does
not write is as it was read. -/
def AmountKept (read current row : Transaction) : Prop :=
  (current.amount.amount = read.amount.amount → current.amount.currency ≠ read.amount.currency →
    row.amount.amount = read.amount.amount) ∧
  (current.amount.currency = read.amount.currency → current.amount.amount ≠ read.amount.amount →
    row.amount.currency = read.amount.currency)

instance (read current row : Transaction) : Decidable (AmountKept read current row) :=
  inferInstanceAs (Decidable (_ ∧ _))

theorem flush_amount {read current row : Transaction} (kept : AmountKept read current row) :
    (flush read current row).amount = row.amount ∨
      (flush read current row).amount = current.amount := by
  unfold flush flushColumn
  dsimp only
  by_cases amount : current.amount.amount = read.amount.amount
  · rw [if_pos amount]
    by_cases currency : current.amount.currency = read.amount.currency
    · rw [if_pos currency]
      exact .inl rfl
    · rw [if_neg currency, kept.1 amount currency, ← amount]
      exact .inr rfl
  · rw [if_neg amount]
    by_cases currency : current.amount.currency = read.amount.currency
    · rw [if_pos currency, kept.2 currency amount, ← currency]
      exact .inr rfl
    · rw [if_neg currency]
      exact .inr rfl

structure Write where
  command : UpdateTransactionCommand
  read : Transaction
  current : Transaction
  row : Transaction

def writing (s : State) : Action → Option Write
  | .commitChanged request =>
      match s.requests request with
      | .changed command read current =>
          (s.store.transactions.get read.id).map fun row => ⟨command, read, current, row⟩
      | _ => none
  | _ => none

theorem writing_at {s : State} {request : RequestId} {command : UpdateTransactionCommand}
    {read current row : Transaction} (was : s.requests request = .changed command read current)
    (stored : s.store.transactions.get read.id = some row) :
    (⟨command, read, current, row⟩ : Write) ∈ writing s (.commitChanged request) := by
  simp only [writing, was, stored]
  rfl

/-- No update writes one of the amount and the currency beside a new value of the other. -/
def Unmixed (s : State) (action : Action) : Prop :=
  ∀ write ∈ writing s action, AmountKept write.read write.current write.row

instance (s : State) (action : Action) : Decidable (Unmixed s action) :=
  inferInstanceAs (Decidable (∀ write ∈ writing s action, AmountKept _ _ _))

/-- Every amount that is stored or on its way can be loaded. -/
structure Priced (s : State) : Prop where
  rows : ∀ row ∈ s.store.transactions.rows, loads row = true
  added : ∀ request session, s.requests request = .adding session →
    ∀ row ∈ session.added, loads row = true
  loaded : ∀ request command read, s.requests request = .loaded command read → loads read = true
  changed : ∀ request command read current, s.requests request = .changed command read current →
    loads current = true

section Priced

variable {s t : State} {action : Action}

theorem priced_rows (priced : Priced s) (unmixed : Unmixed s action)
    (outcome : Outcome s action t) : ∀ row ∈ t.store.transactions.rows, loads row = true := by
  cases outcome with
  | turned _ _ => exact priced.rows
  | added _ _ _ => exact priced.rows
  | untouched _ _ => exact priced.rows
  | category _ => exact priced.rows
  | inserted was admitted commits =>
      intro row member
      change row ∈ _ at member
      rw [(commit_eq_ok commits).appended] at member
      rcases List.mem_append.mp member with old | new
      · exact priced.rows row old
      · exact priced.added _ _ was row new
  | written was touched stored admitted unique =>
      intro row member
      rw [(write_allowed admitted unique).1] at member
      rcases Table.mem_replace member with same | ⟨old, _⟩
      · rw [same]
        rcases flush_amount (unmixed _ (writing_at was stored)) with kept | new
        · rw [loads_congr kept]
          exact priced.rows _ (Table.mem_of_get stored)
        · rw [loads_congr new]
          exact priced.changed _ _ _ _ was
      · exact priced.rows row old
  | removed was => exact fun row member => priced.rows row (List.mem_filter.mp member).1
  | rule =>
      intro row member
      rw [insert_rule_transactions] at member
      exact priced.rows row member
  | @ruleRemoved id userId =>
      dsimp only [removeRule]
      split
      · exact priced.rows
      · intro row member
        obtain ⟨old, inside, same⟩ := List.mem_map.mp member
        have amount : row.amount = old.amount := by
          rw [← same]
          split <;> rfl
        rw [loads_congr amount]
        exact priced.rows old inside

theorem priced_step (priced : Priced s) (unmixed : Unmixed s action)
    (taken : step s action = some t) : Priced t := by
  have outcome := step_outcome taken
  constructor
  · exact priced_rows priced unmixed outcome
  · intro request session phase row member
    have before {earlier : Session} (was : s.requests request = .arrived ∧ earlier = .start ∨
        s.requests request = .adding earlier) (inside : row ∈ earlier.added) :
        loads row = true := by
      obtain ⟨held, there, old⟩ := held_before was inside
      exact priced.added request held there row old
    rcases outcome_phase outcome phase with same | becomes
    · exact priced.added request session same row member
    · cases becomes with
      | turned turns =>
          cases turns with
          | adding was => exact before was member
      | added _ was _ _ valid =>
          rcases created_member member with old | new
          · exact before was old
          · rw [new]
            exact valid
  · intro request command read phase
    rcases outcome_phase outcome phase with same | becomes
    · exact priced.loaded request command read same
    · cases becomes with
      | turned turns =>
          cases turns with
          | loaded found => exact (mem_of_load found).2.2.2
  · intro request command read current phase
    rcases outcome_phase outcome phase with same | becomes
    · exact priced.changed request command read current same
    · cases becomes with
      | turned turns =>
          cases turns with
          | changed was made => exact updated_loads (priced.loaded _ _ _ was) made

end Priced

theorem priced_start {initial : Store}
    (loadable : ∀ row ∈ initial.transactions.rows, loads row = true) : Priced (.start initial) where
  rows := loadable
  added := by
    intro request session adding
    cases adding
  loaded := by
    intro request command read loaded
    cases loaded
  changed := by
    intro request command read current changed
    cases changed

/-- Rows that can be loaded stay so, as long as no update writes one of the amount and the currency
beside a new value of the other. -/
theorem amounts_load_unmixed {initial : Store}
    (loadable : ∀ row ∈ initial.transactions.rows, loads row = true) {actions : List Action}
    (unmixed : Along step Unmixed (.start initial) actions) :
    Visits step (fun s => ∀ row ∈ s.store.transactions.rows, loads row = true) (.start initial)
      actions :=
  visits_of_along (fun _ _ _ unmixed taken priced => priced_step priced unmixed taken)
    (fun _ priced => priced.rows) unmixed (priced_start loadable)

def taxiUpdate (fields : List Field) (rawAmount currency merchant : Option String) :
    UpdateTransactionCommand :=
  ⟨⟨3⟩, ⟨1⟩, fields, rawAmount, currency, none, none, merchant, none, none⟩

theorem purse_loads : ∀ row ∈ purse.transactions.rows, loads row = true := by decide +kernel

/-- One update writes the merchant while another one writes both the amount and the currency. -/
theorem amounts_load_unmixed_taxi :
    Visits step (fun s => ∀ row ∈ s.store.transactions.rows, loads row = true) (.start purse)
      [.load 0 (taxiUpdate [.merchant] none none (some "Cab")),
        .load 1 (taxiUpdate [.amount, .currency] (some "1500") (some "JPY") none),
        .change 1, .change 0, .commitChanged 1, .commitChanged 0] :=
  amounts_load_unmixed purse_loads (by decide +kernel)

theorem outcome_unnamed {s t : State} {action : Action} (outcome : Outcome s action t)
    {request : RequestId} (apart : action.request ≠ some request) :
    t.requests request = s.requests request := by
  have other {changed : RequestId} (own : action.request = some changed) : request ≠ changed := by
    intro equal
    rw [equal] at apart
    exact apart own
  cases outcome with
  | turned own _ => exact Function.update_of_ne (other own) _ _
  | added _ _ _ => exact Function.update_of_ne (other rfl) _ _
  | inserted _ _ _ => exact Function.update_of_ne (other rfl) _ _
  | untouched _ _ => exact Function.update_of_ne (other rfl) _ _
  | written _ _ _ _ _ => exact Function.update_of_ne (other rfl) _ _
  | removed _ => exact Function.update_of_ne (other rfl) _ _
  | category _ => rfl
  | rule => rfl
  | ruleRemoved => rfl

/-! A row that does not load. -/

def target : Phase → Option TransactionId
  | .loaded _ read => some read.id
  | .changed _ read _ => some read.id
  | .removing id _ => some id
  | _ => none

/-- A row with an amount that does not load, which no request has loaded. -/
structure Stuck (id : TransactionId) (userId : UserId) (amount : Money) (s : State) : Prop where
  stored : ∃ row ∈ s.store.transactions.rows, row.id = id ∧ row.userId = userId ∧
    row.amount = amount
  free : ∀ request, target (s.requests request) ≠ some id

section Stuck

variable {s t : State} {action : Action} {id : TransactionId} {userId : UserId} {amount : Money}

theorem load_apart {row : Transaction} (invalid : ∀ row : Transaction, row.amount = amount →
      loads row = false) (stuck : Stuck id userId amount s) {other : TransactionId}
    {reader : UserId} (found : load s.store other reader = some row) : row.id ≠ id := by
  obtain ⟨held, inside, key, _, same⟩ := stuck.stored
  obtain ⟨stored, _, _, valid⟩ := mem_of_load found
  intro equal
  have one := List.inj_on_of_nodup_map s.store.transactions.unique stored inside
    (equal.trans key.symm)
  rw [one, invalid held same] at valid
  cases valid

theorem free_step (invalid : ∀ row : Transaction, row.amount = amount → loads row = false)
    (stuck : Stuck id userId amount s) (outcome : Outcome s action t) (request : RequestId) :
    target (t.requests request) ≠ some id := by
  rcases outcome_phase outcome rfl with same | becomes
  · rw [← same]
    exact stuck.free request
  · generalize t.requests request = phase at becomes
    cases becomes with
    | turned turns =>
        cases turns with
        | done => nofun
        | adding _ => nofun
        | loaded found =>
            intro equal
            exact load_apart invalid stuck found (Option.some.inj equal)
        | changed was made =>
            have before := stuck.free request
            rw [was] at before
            exact before
        | removing found =>
            intro equal
            have key := (mem_of_load found).2.1
            exact load_apart invalid stuck found (key.trans (Option.some.inj equal))
    | added _ _ _ _ _ => nofun
    | committed => nofun
    | removed _ _ => nofun

theorem stuck_stored (stuck : Stuck id userId amount s) (outcome : Outcome s action t) :
    ∃ row ∈ t.store.transactions.rows, row.id = id ∧ row.userId = userId ∧
      row.amount = amount := by
  obtain ⟨row, stored, key, own, same⟩ := stuck.stored
  cases outcome with
  | turned _ _ => exact ⟨row, stored, key, own, same⟩
  | added _ _ _ => exact ⟨row, stored, key, own, same⟩
  | untouched _ _ => exact ⟨row, stored, key, own, same⟩
  | category _ => exact ⟨row, stored, key, own, same⟩
  | inserted was admitted commits =>
      refine ⟨row, ?_, key, own, same⟩
      dsimp only
      rw [(commit_eq_ok commits).appended]
      exact List.mem_append_left _ stored
  | @written request _ read _ old was touched found admitted unique =>
      have apart : row.id ≠ old.id := by
        intro equal
        apply stuck.free request
        rw [was, ← key, equal, Table.key_of_get found]
        rfl
      refine ⟨row, ?_, key, own, same⟩
      dsimp only
      rw [(write_allowed admitted unique).1]
      exact List.mem_map.mpr ⟨row, stored, if_neg apart⟩
  | @removed request other reader was =>
      refine ⟨row, List.mem_filter.mpr ⟨stored, ?_⟩, key, own, same⟩
      have apart : row.id ≠ other := by
        intro equal
        apply stuck.free request
        rw [was, ← key, equal]
        rfl
      simp [addresses, apart]
  | rule =>
      refine ⟨row, ?_, key, own, same⟩
      dsimp only
      rw [insert_rule_transactions]
      exact stored
  | @ruleRemoved rule reader =>
      dsimp only [removeRule]
      split
      · exact ⟨row, stored, key, own, same⟩
      · by_cases fired : firedBy rule row = true
        · exact ⟨forget row, List.mem_map.mpr ⟨row, stored, if_pos fired⟩, key, own, same⟩
        · exact ⟨row, List.mem_map.mpr ⟨row, stored, if_neg fired⟩, key, own, same⟩

end Stuck

/-- A row whose amount does not load is out of reach of every request that comes after: it is stored
with that amount for ever. -/
theorem unloadable_stays {s : State} {row : Transaction}
    (stored : row ∈ s.store.transactions.rows) (invalid : loads row = false)
    (free : ∀ request, target (s.requests request) ≠ some row.id) (actions : List Action) :
    Visits step (Stuck row.id row.userId row.amount) s actions := by
  have bad (other : Transaction) (same : other.amount = row.amount) : loads other = false := by
    rw [loads_congr same]
    exact invalid
  have along : Along step (fun _ _ => True) s actions :=
    along_always (fun _ _ => trivial) s actions
  apply visits_of_along _ (fun _ stuck => stuck) along ⟨⟨row, stored, rfl, rfl, rfl⟩, free⟩
  intro s action t _ taken stuck
  exact ⟨stuck_stored stuck (step_outcome taken), free_step bad stuck (step_outcome taken)⟩

theorem unnamed_stays {s t : State} {actions : List Action} {request : RequestId}
    (reached : run step s actions = some t)
    (apart : ∀ action ∈ actions, action.request ≠ some request) :
    t.requests request = s.requests request := by
  induction actions generalizing s with
  | nil =>
      cases reached
      rfl
  | cons action actions ih =>
      obtain ⟨next, taken, rest⟩ := run_cons_eq_some.mp reached
      rw [List.forall_mem_cons] at apart
      rw [ih rest apart.2]
      exact outcome_unnamed (step_outcome taken) apart.1

/-- One update makes the ten dollars ten and a half, the other one makes them yen. -/
def mixed : List Action :=
  [.load 0 (taxiUpdate [.amount] (some "10.50") none none),
    .load 1 (taxiUpdate [.currency] none (some "JPY") none),
    .change 0, .change 1, .commitChanged 0, .commitChanged 1]

theorem mixed_runs : (run step (.start purse) mixed).isSome = true := by decide +kernel

theorem unloadable_stays_taxi :
    Visits step (Stuck ⟨1⟩ ⟨3⟩ ⟨21 / 2, "JPY"⟩) ((run step (.start purse) mixed).get mixed_runs)
      [.load 2 (taxiUpdate [.currency] none (some "USD") none), .find 3 ⟨1⟩ ⟨3⟩,
        .commitRemoved 3] := by
  have stored : { taxi with amount := ⟨21 / 2, "JPY"⟩ } ∈
      ((run step (.start purse) mixed).get mixed_runs).store.transactions.rows := by
    decide +kernel
  apply unloadable_stays stored (by decide +kernel)
  intro request
  have ended : target (((run step (.start purse) mixed).get mixed_runs).requests request) =
      none := by
    match request with
    | 0 => decide +kernel
    | 1 => decide +kernel
    | request + 2 =>
        have apart : ∀ action ∈ mixed, action.request ≠ some (request + 2) := by
          simp [mixed, Action.request]
        rw [unnamed_stays (Option.some_get _).symm apart]
        rfl
  rw [ended]
  nofun

end Yomochi.Transactions
