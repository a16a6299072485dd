import Yomochi.Foundation.Metering
import Yomochi.Foundation.Redis
import Yomochi.Foundation.Uuid

/-! The daily token budget: a counter for each user and day that a chat reads when it starts and
adds to when it ends, while other chats of the user are under way. -/

namespace Yomochi.Chat.TokenBudget

open Foundation

def TTL_SECONDS : Nat := 25 * 3600

def secondsPerDay : Nat := 86400

def dayOf (time : Nat) : Nat := time / secondsPerDay

structure Key where
  userId : UUID
  day : Nat
  deriving DecidableEq

structure ChatTokenBudgetExceededError where
  current : Nat
  limit : Nat
  deriving DecidableEq, Repr

abbrev Counters := Keys Key Nat

/-- GET, where a key that is absent counts as 0. -/
def current (counters : Counters) (now : Nat) (key : Key) : Nat :=
  (counters.get now key).getD 0

def check (limit : Nat) (counters : Counters) (now : Nat) (key : Key) :
    Except ChatTokenBudgetExceededError Unit :=
  if limit ≤ current counters now key then .error ⟨current counters now key, limit⟩ else .ok ()

def record (counters : Counters) (now : Nat) (key : Key) (tokens : Nat) : Counters :=
  if tokens = 0 then counters
  else counters.set key (current counters now key + tokens) (now + TTL_SECONDS)

structure OpenChat where
  id : Nat
  userId : UUID
  since : Nat
  deriving DecidableEq

structure Bill where
  userId : UUID
  day : Nat
  tokens : Nat
  deriving DecidableEq

structure State where
  counters : Counters
  now : Nat
  chats : List OpenChat
  bills : List Bill

/-- The key of a command is made at the time `keyed`; the command is executed now. -/
inductive Action
  | wait (seconds : Nat)
  | start (chat : Nat) (userId : UUID) (keyed : Nat)
  | finish (chat : Nat) (tokens keyed : Nat)

def spent (userId : UUID) (day : Nat) : List Bill → Nat
  | [] => 0
  | bill :: bills =>
      if bill.userId = userId ∧ bill.day = day then bill.tokens + spent userId day bills
      else spent userId day bills

def step (limit : Nat) (s : State) : Action → Option State
  | .wait seconds => some { s with now := s.now + seconds }
  | .start chat userId keyed =>
      match check limit s.counters s.now ⟨userId, dayOf keyed⟩ with
      | .error _ => some s
      | .ok _ => some { s with chats := ⟨chat, userId, s.now⟩ :: s.chats }
  | .finish chat tokens keyed =>
      (s.chats.find? fun other => decide (other.id = chat)).map fun open_ =>
        { s with
          counters := record s.counters s.now ⟨open_.userId, dayOf keyed⟩ tokens
          chats := s.chats.eraseP fun other => decide (other.id = chat)
          bills := ⟨open_.userId, dayOf keyed, tokens⟩ :: s.bills }

/-- The times of a command: it takes less than an hour. -/
def Prompt (s : State) (keyed : Nat) : Prop := keyed ≤ s.now ∧ s.now < keyed + 3600

def PromptAction (s : State) : Action → Prop
  | .wait _ => True
  | .start _ _ keyed => Prompt s keyed
  | .finish _ _ keyed => Prompt s keyed

/-! The counters hold the bills of their day. -/

/-- A counter is there as long as its day is, and an hour longer. -/
structure Counts (s : State) : Prop where
  absent : ∀ key, s.counters.entry key = none → spent key.userId key.day s.bills = 0
  holds : ∀ key value expiry, s.counters.entry key = some (value, expiry) →
    value = spent key.userId key.day s.bills ∧
      key.day * secondsPerDay + TTL_SECONDS ≤ expiry

theorem day_start (time : Nat) : dayOf time * secondsPerDay ≤ time := Nat.div_mul_le_self _ _

theorem day_end (time : Nat) : time < dayOf time * secondsPerDay + secondsPerDay := by
  simp only [dayOf, secondsPerDay]
  omega

theorem current_spent {s : State} (counts : Counts s) {keyed : Nat} (prompt : Prompt s keyed)
    (userId : UUID) :
    current s.counters s.now ⟨userId, dayOf keyed⟩ = spent userId (dayOf keyed) s.bills := by
  rw [current, Keys.get]
  cases found : s.counters.entry ⟨userId, dayOf keyed⟩ with
  | none => exact (counts.absent _ found).symm
  | some entry =>
      obtain ⟨value, expiry⟩ := entry
      obtain ⟨same, lasts⟩ := counts.holds _ value expiry found
      have ends := day_end keyed
      have lives : s.now < expiry := by
        have late := prompt.2
        simp only [TTL_SECONDS, secondsPerDay] at lasts ends
        omega
      simp only [Option.bind_some, lives, if_true, Option.getD_some]
      exact same

theorem record_entry (counters : Counters) (now : Nat) (key other : Key) {tokens : Nat}
    (some : tokens ≠ 0) :
    (record counters now key tokens).entry other =
      if other = key then .some (current counters now key + tokens, now + TTL_SECONDS)
      else counters.entry other := by
  rw [record, if_neg some, Keys.entry_set]

theorem spent_cons (userId : UUID) (day : Nat) (bill : Bill) (bills : List Bill) :
    spent userId day (bill :: bills) =
      (if bill.userId = userId ∧ bill.day = day then bill.tokens else 0) +
        spent userId day bills := by
  rw [spent]
  split
  · rfl
  · rw [Nat.zero_add]

theorem step_counts {limit : Nat} {s t : State} {a : Action} (prompt : PromptAction s a)
    (taken : step limit s a = some t) (counts : Counts s) : Counts t := by
  cases a with
  | wait seconds =>
      cases taken
      exact ⟨counts.absent, counts.holds⟩
  | start chat userId keyed =>
      simp only [step] at taken
      split at taken
      · cases taken
        exact counts
      · cases taken
        exact ⟨counts.absent, counts.holds⟩
  | finish chat tokens keyed =>
      obtain ⟨open_, _, rfl⟩ := Option.map_eq_some_iff.mp taken
      by_cases zero : tokens = 0
      · have same (userId : UUID) (day : Nat) :
            spent userId day (⟨open_.userId, dayOf keyed, tokens⟩ :: s.bills) =
              spent userId day s.bills := by
          rw [spent_cons, zero, ite_self, Nat.zero_add]
        constructor
        · intro key none
          rw [same]
          simp only [record, zero, if_true] at none
          exact counts.absent key none
        · intro key value expiry found
          rw [same]
          simp only [record, zero, if_true] at found
          exact counts.holds key value expiry found
      · have known := current_spent counts prompt open_.userId
        have start := day_start keyed
        constructor
        · intro key none
          rw [record_entry _ _ _ _ zero] at none
          split at none
          · cases none
          · rename_i other
            have apart : ¬ (open_.userId = key.userId ∧ dayOf keyed = key.day) :=
              fun same => other (by rw [same.1, same.2])
            rw [spent_cons, if_neg apart, Nat.zero_add]
            exact counts.absent key none
        · intro key value expiry found
          rw [record_entry _ _ _ _ zero] at found
          split at found
          · rename_i same
            subst same
            cases found
            refine ⟨?_, ?_⟩
            · rw [known, spent_cons, if_pos ⟨rfl, rfl⟩, Nat.add_comm]
            · exact Nat.add_le_add_right (Nat.le_trans start prompt.1) _
          · rename_i other
            have apart : ¬ (open_.userId = key.userId ∧ dayOf keyed = key.day) :=
              fun same => other (by rw [same.1, same.2])
            rw [spent_cons, if_neg apart, Nat.zero_add]
            exact counts.holds key value expiry found

/-! How far the budget of a day is overspent. -/

def inFlight (userId : UUID) (day : Nat) (chats : List OpenChat) : Nat :=
  chats.countP fun chat => decide (chat.userId = userId ∧ dayOf chat.since ≤ day)

/-- At most `jobs` chats of a user are under way, and no chat uses more than `most` tokens. A check
is made on the day of its key, and a bill is written after the chat's check. -/
def Sparing (jobs most : Nat) (s : State) : Action → Prop
  | .wait _ => True
  | .start _ userId keyed => dayOf keyed = dayOf s.now ∧
      s.chats.countP (fun chat => decide (chat.userId = userId)) < jobs
  | .finish id tokens keyed => tokens ≤ most ∧
      ∀ chat ∈ s.chats, chat.id = id → chat.since ≤ keyed

def Guarded (jobs most : Nat) (s : State) (a : Action) : Prop :=
  PromptAction s a ∧ Sparing jobs most s a

def Past (s : State) : Prop := ∀ bill ∈ s.bills, bill.day ≤ dayOf s.now

theorem spent_future {s : State} (past : Past s) (userId : UUID) {day : Nat}
    (future : dayOf s.now < day) : spent userId day s.bills = 0 := by
  unfold Past at past
  generalize s.bills = bills at past
  induction bills with
  | nil => rfl
  | cons bill bills ih =>
      have early := past bill List.mem_cons_self
      have apart : ¬ (bill.userId = userId ∧ bill.day = day) := fun same => by omega
      rw [spent_cons, if_neg apart, Nat.zero_add]
      exact ih fun other member => past other (List.mem_cons_of_mem _ member)

theorem day_mono {first second : Nat} (le : first ≤ second) : dayOf first ≤ dayOf second :=
  Nat.div_le_div_right le

theorem step_past {limit : Nat} {s t : State} {a : Action} (prompt : PromptAction s a)
    (taken : step limit s a = some t) (past : Past s) : Past t := by
  cases a with
  | wait seconds =>
      cases taken
      intro bill member
      exact Nat.le_trans (past bill member) (day_mono (Nat.le_add_right _ _))
  | start chat userId keyed =>
      simp only [step] at taken
      split at taken
      · cases taken
        exact past
      · cases taken
        exact past
  | finish chat tokens keyed =>
      obtain ⟨open_, _, rfl⟩ := Option.map_eq_some_iff.mp taken
      intro bill member
      rcases List.mem_cons.mp member with rfl | before
      · exact day_mono prompt.1
      · exact past bill before

theorem perm_erase_found {p : OpenChat → Bool} {chats : List OpenChat} {open_ : OpenChat}
    (found : chats.find? p = some open_) : chats.Perm (open_ :: chats.eraseP p) := by
  induction chats with
  | nil => cases found
  | cons chat chats ih =>
      by_cases here : p chat = true
      · rw [List.find?_cons_of_pos here] at found
        cases found
        rw [List.eraseP_cons_of_pos here]
      · rw [List.find?_cons_of_neg here] at found
        rw [List.eraseP_cons_of_neg here]
        exact ((ih found).cons chat).trans (List.Perm.swap open_ chat _)

theorem in_flight_erase (userId : UUID) (day : Nat) {p : OpenChat → Bool} {chats : List OpenChat}
    {open_ : OpenChat} (found : chats.find? p = some open_) :
    inFlight userId day chats = inFlight userId day (chats.eraseP p) +
      if open_.userId = userId ∧ dayOf open_.since ≤ day then 1 else 0 := by
  rw [inFlight, (perm_erase_found found).countP_eq, List.countP_cons]
  simp only [decide_eq_true_eq]
  rfl

theorem in_flight_few (userId : UUID) (day : Nat) (chats : List OpenChat) :
    inFlight userId day chats ≤ chats.countP fun chat => decide (chat.userId = userId) := by
  apply List.countP_mono_left
  intro chat _ counted
  exact decide_eq_true (of_decide_eq_true counted).1

def meter (userId : UUID) (day : Nat) (s : State) : Meter :=
  ⟨spent userId day s.bills, inFlight userId day s.chats⟩

/-- Seen from one user and day, every step is one of a meter that is read at the start of a chat
and added to at its end. -/
theorem step_meter {limit jobs most : Nat} {s t : State} {a : Action}
    (guarded : Guarded jobs most s a) (taken : step limit s a = some t)
    (counts : Counts s) (past : Past s) (userId : UUID) (day : Nat) :
    ∃ uses, run (Metering.step ⟨limit, jobs, most⟩) (meter userId day s) uses =
      some (meter userId day t) := by
  obtain ⟨prompt, sparing⟩ := guarded
  cases a with
  | wait seconds =>
      cases taken
      exact ⟨[], rfl⟩
  | start chat owner keyed =>
      simp only [step] at taken
      split at taken
      · cases taken
        exact ⟨[], rfl⟩
      · rename_i passed
        cases taken
        by_cases mine : owner = userId ∧ dayOf s.now ≤ day
        · refine ⟨[.accept], ?_⟩
          have few : inFlight userId day s.chats < jobs :=
            Nat.lt_of_le_of_lt (in_flight_few userId day s.chats) (mine.1 ▸ sparing.2)
          have unspent : spent userId day s.bills ≤ limit - 1 := by
            rcases Nat.lt_or_eq_of_le mine.2 with later | same
            · rw [spent_future past userId later]
              exact Nat.zero_le _
            · have known := current_spent counts prompt userId
              rw [sparing.1, same] at known
              rw [check, sparing.1, same, mine.1] at passed
              split at passed
              · cases passed
              · omega
          have admitted : spent userId day s.bills ≤ limit - 1 ∧
              inFlight userId day s.chats < jobs := ⟨unspent, few⟩
          have counted : inFlight userId day (⟨chat, owner, s.now⟩ :: s.chats) =
              inFlight userId day s.chats + 1 := by
            simp only [inFlight, List.countP_cons, mine, and_self, decide_true, if_true]
          simp only [run, Metering.step, meter, admitted, if_true, counted, and_self,
            Option.bind_some]
        · refine ⟨[], ?_⟩
          have counted : inFlight userId day (⟨chat, owner, s.now⟩ :: s.chats) =
              inFlight userId day s.chats := by
            simp only [inFlight, List.countP_cons, mine, decide_false, Bool.false_eq_true,
              if_false, Nat.add_zero]
          simp only [run_nil, meter, counted]
  | finish id tokens keyed =>
      obtain ⟨open_, found, rfl⟩ := Option.map_eq_some_iff.mp taken
      have erased := in_flight_erase userId day found
      have since : open_.since ≤ keyed := by
        have known := List.find?_some found
        exact sparing.2 open_ (List.mem_of_find?_eq_some found) (by simpa using known)
      have billed := spent_cons userId day ⟨open_.userId, dayOf keyed, tokens⟩ s.bills
      by_cases mine : open_.userId = userId ∧ dayOf open_.since ≤ day
      · rw [if_pos mine] at erased
        refine ⟨[.settle (if open_.userId = userId ∧ dayOf keyed = day then tokens else 0)], ?_⟩
        have small : (if open_.userId = userId ∧ dayOf keyed = day then tokens else 0) ≤ most := by
          split
          · exact sparing.1
          · exact Nat.zero_le _
        have some : 0 < inFlight userId day s.chats := by omega
        simp only [run, Metering.step, meter, some, small, and_self, if_true, Option.bind_some,
          billed, Option.some.injEq, Meter.mk.injEq]
        omega
      · rw [if_neg mine] at erased
        refine ⟨[], ?_⟩
        have apart : ¬ (open_.userId = userId ∧ dayOf keyed = day) := by
          intro same
          have ordered := day_mono since
          exact mine ⟨same.1, by omega⟩
        rw [if_neg apart, Nat.zero_add] at billed
        simp only [run_nil, meter, billed, Option.some.injEq, Meter.mk.injEq, true_and]
        omega

def Invariant (s : State) : Prop := Counts s ∧ Past s

theorem step_invariant {limit jobs most : Nat} (s : State) (a : Action) (t : State)
    (guarded : Guarded jobs most s a) (taken : step limit s a = some t) (start : Invariant s) :
    Invariant t :=
  ⟨step_counts guarded.1 taken start.1, step_past guarded.1 taken start.2⟩

def fresh (now : Nat) : State := ⟨⟨fun _ => none⟩, now, [], []⟩

theorem fresh_invariant (now : Nat) : Invariant (fresh now) :=
  ⟨⟨fun _ _ => rfl, nofun⟩, nofun⟩

/-- In every order of the users' chats, a check that is prompt is refused exactly when the bills of
its day have reached the limit; and the bills of a day pass the limit by no more than the chats use
that one user has under way at a time. -/
theorem daily_budget_kept {limit jobs most now : Nat} {actions : List Action} {s : State}
    (guarded : Along (step limit) (Guarded jobs most) (fresh now) actions)
    (reached : run (step limit) (fresh now) actions = some s) (userId : UUID) :
    (∀ keyed, Prompt s keyed →
      (check limit s.counters s.now ⟨userId, dayOf keyed⟩ = .ok () ↔
        spent userId (dayOf keyed) s.bills < limit)) ∧
    ∀ day, spent userId day s.bills ≤ limit - 1 + jobs * most := by
  have invariant : Invariant s :=
    run_invariant step_invariant guarded reached (fresh_invariant now)
  constructor
  · intro keyed prompt
    rw [check, current_spent invariant.1 prompt userId]
    split
    · rename_i full
      exact iff_of_false nofun (Nat.not_lt.mpr full)
    · rename_i left
      exact iff_of_true rfl (Nat.lt_of_not_le left)
  · intro day
    have metered : ∃ uses, run (Metering.step ⟨limit, jobs, most⟩) (meter userId day (fresh now))
        uses = some (meter userId day s) := by
      apply run_project_along step_invariant _ guarded reached (fresh_invariant now)
      intro s a t allowed taken start
      exact step_meter allowed taken start.1 start.2 userId day
    obtain ⟨uses, used⟩ := metered
    exact Metering.run_bounded used

instance (s : State) (keyed : Nat) : Decidable (Prompt s keyed) :=
  inferInstanceAs (Decidable (_ ∧ _))

instance (jobs most : Nat) (s : State) : (a : Action) → Decidable (Guarded jobs most s a)
  | .wait _ => .isTrue ⟨trivial, trivial⟩
  | .start _ userId keyed => inferInstanceAs (Decidable (Prompt s keyed ∧
      dayOf keyed = dayOf s.now ∧
        s.chats.countP (fun chat => decide (chat.userId = userId)) < jobs))
  | .finish id tokens keyed => inferInstanceAs (Decidable (Prompt s keyed ∧ tokens ≤ most ∧
      ∀ chat ∈ s.chats, chat.id = id → chat.since ≤ keyed))

/-- Two chats that both pass their check, and are billed 16 tokens with a limit of 10. -/
theorem daily_budget_kept_two :
    let user : UUID := ⟨7, by decide⟩
    let actions : List Action := [.start 0 user 100, .start 1 user 100, .wait 60,
      .finish 0 8 160, .finish 1 8 160, .start 2 user 160]
    ∃ s, run (step 10) (fresh 100) actions = some s ∧
      (check 10 s.counters s.now ⟨user, dayOf 160⟩ = .ok () ↔ spent user (dayOf 160) s.bills < 10) ∧
      ∀ day, spent user day s.bills ≤ 10 - 1 + 2 * 8 := by
  intro user actions
  have guarded : Along (step 10) (Guarded 2 8) (fresh 100) actions := by decide +kernel
  have ends : (run (step 10) (fresh 100) actions).map State.now = some 160 := by decide +kernel
  obtain ⟨s, reached, now⟩ := Option.map_eq_some_iff.mp ends
  obtain ⟨checked, bounded⟩ := daily_budget_kept guarded reached user
  exact ⟨s, reached, checked 160 (by rw [Prompt, now]; decide), bounded⟩

end Yomochi.Chat.TokenBudget
