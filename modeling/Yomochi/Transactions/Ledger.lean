import Yomochi.Transactions.Lifecycle

/-! The ledger of the transactions: which rows have come and gone, and what the audit events say
of them. -/

namespace Yomochi.Transactions

open Foundation Recurring
open Listing (AuditEventType)

def came (initial : Store) (s : State) : List Owned :=
  initial.transactions.rows.map owned ++ s.inserted

/-- Every row that has come is stored or has been deleted, and no id has come twice. There is one
creation event for each new row of a user, and at least one deletion event for each that has gone;
a row whose deletion was committed is gone. -/
structure Ledger (initial : Store) (s : State) : Prop where
  rows : (s.store.transactions.rows.map owned ++ s.deleted).Perm (came initial s)
  single : ((came initial s).map Prod.fst).Nodup
  created : ∀ userId, s.audit.count (.TRANSACTION_CREATED, userId) =
    (s.inserted.map Prod.snd).count userId
  removed : ∀ userId, (s.deleted.map Prod.snd).count userId ≤
    s.audit.count (.TRANSACTION_DELETED, userId)
  gone : ∀ request id, s.requests request = .removed id → id ∈ s.deleted.map Prod.fst
  constrained : ∀ row ∈ s.store.transactions.rows, s.store.admitsTransaction row = true

/-- The rows that sessions still hold have ids of their own, and a deletion under way is one of a
row that has come. -/
structure Kept (initial : Store) (s : State) : Prop extends Ledger initial s where
  generated : ∀ id ∈ (came initial s).map Prod.fst, id ∈ s.generated
  pending : ∀ request session, s.requests request = .adding session →
    ∀ row ∈ session.added, row.id ∈ s.generated ∧ row.id ∉ (came initial s).map Prod.fst
  apart : ∀ first second left right, first ≠ second → s.requests first = .adding left →
    s.requests second = .adding right → ∀ row ∈ left.added, ∀ other ∈ right.added,
      row.id ≠ other.id
  targets : ∀ request id userId, s.requests request = .removing id userId →
    (id, userId) ∈ came initial s

/-! The constraints of the rows. -/

section Constraints

variable {store after : Store} {row : Transaction}

theorem admits_mono
    (categories : ∀ id, (store.categories.get id).isSome = true →
      (after.categories.get id).isSome = true)
    (rules : ∀ id, (store.rules.get id).isSome = true → (after.rules.get id).isSome = true)
    (admitted : store.admitsTransaction row = true) : after.admitsTransaction row = true := by
  unfold Store.admitsTransaction Store.knowsCategory at admitted ⊢
  simp only [Bool.and_eq_true, Option.all_eq_true] at admitted ⊢
  obtain ⟨⟨fits, known⟩, fired⟩ := admitted
  exact ⟨⟨fits, fun id given => categories id (known id given)⟩,
    fun id given => rules id (fired id given)⟩

theorem inserted_some {Key Row : Type} [DecidableEq Key] {key : Row → Key}
    {table next : Table key} {row : Row} (stored : table.insert row = some next) (k : Key)
    (known : (table.get k).isSome = true) : (next.get k).isSome = true := by
  rw [Table.get_insert stored]
  split
  · rfl
  · exact known

theorem insert_rule_transactions (store : Store) (rule : RecurringRule) :
    (store.insertRule rule).transactions = store.transactions := by
  rcases insert_rule_cases store rule with same | ⟨rules, _, _, same⟩
  · rw [same]
  · rw [same]

theorem insert_rule_admits (rule : RecurringRule) (admitted : store.admitsTransaction row = true) :
    (store.insertRule rule).admitsTransaction row = true := by
  rcases insert_rule_cases store rule with same | ⟨rules, _, stored, same⟩
  · rw [same]
    exact admitted
  · rw [same]
    refine admits_mono ?_ ?_ admitted
    · exact fun _ known => known
    · exact fun id known => inserted_some stored id known

theorem commits_admit {session : Session} (commits : session.commit store = .ok after)
    (admitted : store.admitsTransaction row = true) : after.admitsTransaction row = true := by
  have written := commit_eq_ok commits
  apply admits_mono _ _ admitted
  · intro id known
    rw [written.categories]
    exact known
  · intro id known
    rw [written.rules, Table.get_update, Option.isSome_map]
    exact known

theorem forget_admits (admitted : store.admitsTransaction row = true) :
    store.admitsTransaction (forget row) = true := by
  unfold Store.admitsTransaction forget at *
  simp only [Bool.and_eq_true] at admitted ⊢
  exact ⟨admitted.1, rfl⟩

theorem delete_rule_admits {id : RecurringRuleId} {userId : UserId}
    (admitted : ∀ row ∈ store.transactions.rows, store.admitsTransaction row = true) :
    ∀ row ∈ (removeRule store id userId).transactions.rows,
      (removeRule store id userId).admitsTransaction row = true := by
  unfold removeRule
  split
  · exact admitted
  · intro row member
    obtain ⟨old, inside, same⟩ := List.mem_map.mp member
    have before := admitted old inside
    have keeps (other : RecurringRuleId) (apart : other ≠ id)
        (known : (store.rules.get other).isSome = true) :
        ((store.rules.delete fun rule => rule.id = id).get other).isSome = true := by
      rw [Table.get_delete]
      obtain ⟨rule, found⟩ := Option.isSome_iff_exists.mp known
      have key := Table.key_of_get found
      rw [found, Option.filter_some, if_pos]
      · rfl
      · simp [key, apart]
    rw [← same]
    by_cases fired : firedBy id old = true
    · rw [if_pos fired]
      have kept := forget_admits before
      unfold Store.admitsTransaction Store.knowsCategory at kept ⊢
      simp only [Bool.and_eq_true] at kept ⊢
      exact ⟨kept.1, rfl⟩
    · rw [if_neg fired]
      unfold Store.admitsTransaction Store.knowsCategory at before ⊢
      simp only [Bool.and_eq_true, Option.all_eq_true] at before ⊢
      refine ⟨before.1, ?_⟩
      intro other given
      apply keeps other _ (before.2 other given)
      intro equal
      subst equal
      exact fired (decide_eq_true given)

end Constraints

theorem write_allowed {store : Store} {row : Transaction}
    (admitted : store.admitsTransaction row = true)
    (unique : (recurringKeys (store.transactions.replace row).rows).Nodup) :
    (store.writeTransaction row).transactions = store.transactions.replace row ∧
      (store.writeTransaction row).rules = store.rules ∧
      (store.writeTransaction row).categories = store.categories := by
  unfold Store.writeTransaction
  rw [if_pos admitted, dif_pos unique]
  exact ⟨rfl, rfl, rfl⟩

theorem flush_owned (read current row : Transaction) : owned (flush read current row) = owned row :=
  rfl

section Outcomes

variable {s t : State} {action : Action}

theorem outcome_constrained (outcome : Outcome s action t)
    (before : ∀ row ∈ s.store.transactions.rows, s.store.admitsTransaction row = true) :
    ∀ row ∈ t.store.transactions.rows, t.store.admitsTransaction row = true := by
  cases outcome with
  | turned _ _ => exact before
  | added _ _ _ => exact before
  | untouched _ _ => exact before
  | inserted was admitted commits =>
      intro row member
      apply commits_admit commits
      change row ∈ _ at member
      rw [(commit_eq_ok commits).appended] at member
      rcases List.mem_append.mp member with old | new
      · exact before row old
      · exact List.all_eq_true.mp admitted row new
  | written was touched stored admitted unique =>
      obtain ⟨rows, rules, categories⟩ := write_allowed admitted unique
      intro row member
      apply admits_mono (fun id known => by rw [categories]; exact known)
        (fun id known => by rw [rules]; exact known)
      rw [rows] at member
      rcases Table.mem_replace member with same | ⟨old, _⟩
      · rw [same]
        exact admitted
      · exact before row old
  | removed was =>
      intro row member
      exact before row (List.mem_filter.mp member).1
  | category stored =>
      intro row member
      exact admits_mono (fun id known => inserted_some stored id known) (fun _ known => known)
        (before row member)
  | rule =>
      intro row member
      apply insert_rule_admits
      rw [insert_rule_transactions] at member
      exact before row member
  | ruleRemoved => exact delete_rule_admits before

/-! The rows that come and go. -/

/-- The rows, the lists of those that came and went, and the creation and deletion events stay as
they are. -/
structure Quiet (s t : State) : Prop where
  rows : t.store.transactions.rows.map owned = s.store.transactions.rows.map owned
  inserted : t.inserted = s.inserted
  deleted : t.deleted = s.deleted
  created : ∀ userId, t.audit.count (.TRANSACTION_CREATED, userId) =
    s.audit.count (.TRANSACTION_CREATED, userId)
  removed : ∀ userId, t.audit.count (.TRANSACTION_DELETED, userId) =
    s.audit.count (.TRANSACTION_DELETED, userId)

theorem replace_owned {transactions : Table Transaction.id} {row old : Transaction}
    (stored : old ∈ transactions.rows) (same : owned row = owned old) :
    (transactions.replace row).rows.map owned = transactions.rows.map owned := by
  unfold Table.replace Table.update
  rw [List.map_map]
  apply List.map_congr_left
  intro other inside
  have ids : row.id = old.id := congrArg Prod.fst same
  by_cases addressed : other.id = row.id
  · have equal := List.inj_on_of_nodup_map transactions.unique inside stored
      (addressed.trans ids)
    rw [Function.comp_apply, if_pos addressed, same, equal]
  · rw [Function.comp_apply, if_neg addressed]

theorem delete_rule_owned (store : Store) (id : RecurringRuleId) (userId : UserId) :
    (removeRule store id userId).transactions.rows.map owned =
      store.transactions.rows.map owned := by
  unfold removeRule
  split
  · rfl
  · dsimp only [Table.updateWhere, Table.update]
    rw [List.map_map]
    apply List.map_congr_left
    intro row _
    rw [Function.comp_apply]
    split
    · rfl
    · rfl

theorem recorded_count (audit : List (AuditEventType × UserId)) (event : AuditEventType)
    (apart : event ≠ .TRANSACTION_UPDATED) (reader userId : UserId) :
    (audit ++ [(AuditEventType.TRANSACTION_UPDATED, reader)]).count (event, userId) =
      audit.count (event, userId) := by
  rw [List.count_append, List.count_singleton, if_neg, Nat.add_zero]
  intro same
  exact apart (congrArg Prod.fst (eq_of_beq same)).symm

theorem quiet_recorded {s t : State} {reader : UserId}
    (rows : t.store.transactions.rows.map owned = s.store.transactions.rows.map owned)
    (inserted : t.inserted = s.inserted) (deleted : t.deleted = s.deleted)
    (audit : t.audit = s.audit ++ [(.TRANSACTION_UPDATED, reader)]) : Quiet s t where
  rows := rows
  inserted := inserted
  deleted := deleted
  created userId := by
    rw [audit]
    apply recorded_count
    decide
  removed userId := by
    rw [audit]
    apply recorded_count
    decide

theorem quiet_silent {s t : State}
    (rows : t.store.transactions.rows.map owned = s.store.transactions.rows.map owned)
    (inserted : t.inserted = s.inserted) (deleted : t.deleted = s.deleted)
    (audit : t.audit = s.audit) : Quiet s t where
  rows := rows
  inserted := inserted
  deleted := deleted
  created userId := by rw [audit]
  removed userId := by rw [audit]

theorem outcome_quiet (outcome : Outcome s action t) :
    Quiet s t ∨
      (∃ request session store, action = .commitCreated request ∧
        s.requests request = .adding session ∧ session.commit s.store = .ok store ∧
        t = { s.setPhase request .done with
          store := store
          inserted := s.inserted ++ session.added.map owned
          audit := s.audit ++ session.added.map fun row => (.TRANSACTION_CREATED, row.userId)
          committed := s.committed ++ [.created session] }) ∨
      ∃ request id userId, s.requests request = .removing id userId ∧
        t = s.commitRemoved request id userId := by
  cases outcome with
  | turned _ _ => exact .inl (quiet_silent rfl rfl rfl rfl)
  | added _ _ _ => exact .inl (quiet_silent rfl rfl rfl rfl)
  | inserted was _ commits => exact .inr (.inl ⟨_, _, _, rfl, was, commits, rfl⟩)
  | untouched _ _ => exact .inl (quiet_recorded rfl rfl rfl rfl)
  | written was touched stored admitted unique =>
      refine .inl (quiet_recorded ?_ rfl rfl rfl)
      dsimp only
      rw [(write_allowed admitted unique).1]
      exact replace_owned (Table.mem_of_get stored) (flush_owned _ _ _)
  | removed was => exact .inr (.inr ⟨_, _, _, was, rfl⟩)
  | category _ => exact .inl (quiet_silent rfl rfl rfl rfl)
  | rule =>
      refine .inl (quiet_silent ?_ rfl rfl rfl)
      dsimp only
      rw [insert_rule_transactions]
  | ruleRemoved => exact .inl (quiet_silent (delete_rule_owned _ _ _) rfl rfl rfl)

/-! The requests. -/

theorem created_member {store : Store} {script : FireScript} {session : Session}
    {command : CreateTransactionCommand} {row : Transaction}
    (member : row ∈ (createTransaction store script session command).2.added) :
    row ∈ session.added ∨ row = newTransaction command script := by
  have added (inside : row ∈ (session.add (newTransaction command script)).added) :
      row ∈ session.added ∨ row = newTransaction command script := by
    rcases List.mem_append.mp inside with old | new
    · exact .inl old
    · exact .inr (List.mem_singleton.mp new)
  unfold createTransaction at member
  split at member
  · exact .inl member
  · split at member
    · exact .inl member
    · split at member
      · exact .inl member
      · dsimp only at member
        split at member
        · exact added member
        · exact added member

theorem mem_of_load {store : Store} {id : TransactionId} {userId : UserId} {row : Transaction}
    (found : load store id userId = some row) :
    row ∈ store.transactions.rows ∧ row.id = id ∧ row.userId = userId ∧ loads row = true := by
  obtain ⟨got, valid⟩ := Option.filter_eq_some_iff.mp found
  obtain ⟨stored, own⟩ := Option.filter_eq_some_iff.mp got
  exact ⟨Table.mem_of_get stored, Table.key_of_get stored, of_decide_eq_true own, valid⟩

inductive Becomes (s : State) (action : Action) (t : State) (request : RequestId) : Phase → Prop
  | turned {phase : Phase} (turns : Turns s request phase) : Becomes s action t request phase
  | added {session : Session} {command : CreateTransactionCommand} {script : FireScript}
      (create : action = .create request command script)
      (was : s.requests request = .arrived ∧ session = .start ∨
        s.requests request = .adding session)
      (unused : script.transactionId ∉ s.generated) (given : script.transactionId ∈ t.generated)
      (priced : loads (newTransaction command script) = true) :
      Becomes s action t request (.adding (createTransaction s.store script session command).2)
  | committed : Becomes s action t request .done
  | removed {id : TransactionId} {userId : UserId}
      (was : s.requests request = .removing id userId)
      (committed : t = s.commitRemoved request id userId) : Becomes s action t request (.removed id)

theorem outcome_phase (outcome : Outcome s action t) {request : RequestId} {phase : Phase}
    (there : t.requests request = phase) :
    s.requests request = phase ∨ Becomes s action t request phase := by
  cases outcome with
  | turned _ turns =>
      rcases update_cases there with same | ⟨rfl, rfl⟩
      · exact .inl same
      · exact .inr (.turned turns)
  | added was unused priced =>
      rcases update_cases there with same | ⟨rfl, rfl⟩
      · exact .inl same
      · exact .inr (.added rfl was unused
          (List.mem_append_right _ (List.mem_singleton_self _)) priced)
  | inserted _ _ _ =>
      rcases update_cases there with same | ⟨rfl, rfl⟩
      · exact .inl same
      · exact .inr .committed
  | untouched _ _ =>
      rcases update_cases there with same | ⟨rfl, rfl⟩
      · exact .inl same
      · exact .inr .committed
  | written _ _ _ _ _ =>
      rcases update_cases there with same | ⟨rfl, rfl⟩
      · exact .inl same
      · exact .inr .committed
  | removed was =>
      rcases update_cases there with same | ⟨rfl, rfl⟩
      · exact .inl same
      · exact .inr (.removed was rfl)
  | category _ => exact .inl there
  | rule => exact .inl there
  | ruleRemoved => exact .inl there

theorem held_before {request : RequestId} {session : Session} {row : Transaction}
    (was : s.requests request = .arrived ∧ session = .start ∨
      s.requests request = .adding session) (member : row ∈ session.added) :
    ∃ earlier, s.requests request = .adding earlier ∧ row ∈ earlier.added := by
  rcases was with ⟨_, empty⟩ | was
  · rw [empty] at member
    cases member
  · exact ⟨session, was, member⟩

theorem outcome_adding (outcome : Outcome s action t) {request : RequestId} {session : Session}
    (phase : t.requests request = .adding session) {row : Transaction}
    (member : row ∈ session.added) :
    (∃ earlier, s.requests request = .adding earlier ∧ row ∈ earlier.added) ∨
      ∃ command script, action = .create request command script ∧
        row.id = script.transactionId ∧ row.id ∉ s.generated ∧ row.id ∈ t.generated := by
  rcases outcome_phase outcome phase with same | becomes
  · exact .inl ⟨session, same, member⟩
  · cases becomes with
    | turned turns =>
        cases turns with
        | adding was => exact .inl (held_before was member)
    | added create was unused given _ =>
        rcases created_member member with old | new
        · exact .inl (held_before was old)
        · refine .inr ⟨_, _, create, ?_⟩
          rw [new]
          exact ⟨rfl, unused, given⟩

theorem outcome_generated (outcome : Outcome s action t) : s.generated ⊆ t.generated := by
  cases outcome with
  | added _ _ _ => exact List.subset_append_left _ _
  | _ => exact List.Subset.refl _

theorem outcome_removing (outcome : Outcome s action t) {request : RequestId}
    {id : TransactionId} {userId : UserId} (phase : t.requests request = .removing id userId) :
    s.requests request = .removing id userId ∨
      (id, userId) ∈ s.store.transactions.rows.map owned := by
  rcases outcome_phase outcome phase with same | becomes
  · exact .inl same
  · cases becomes with
    | turned turns =>
        cases turns with
        | removing found =>
            obtain ⟨stored, key, own, _⟩ := mem_of_load found
            refine .inr (List.mem_map.mpr ⟨_, stored, ?_⟩)
            rw [owned, key, own]

theorem outcome_removed (outcome : Outcome s action t) {request : RequestId}
    {id : TransactionId} (phase : t.requests request = .removed id) :
    s.requests request = .removed id ∨
      ∃ userId, s.requests request = .removing id userId ∧
        t = s.commitRemoved request id userId := by
  rcases outcome_phase outcome phase with same | becomes
  · exact .inl same
  · cases becomes with
    | turned turns => cases turns
    | removed was committed => exact .inr ⟨_, was, committed⟩

end Outcomes

/-! What a step preserves. -/

section Steps

variable {initial : Store} {s t : State} {action : Action}

theorem removed_perm (s : State) (id : TransactionId) (userId : UserId) :
    ((removeTransaction s.store id userId).transactions.rows.map owned ++
      (s.deleted ++ (s.store.transactions.rows.filter (addresses id userId)).map owned)).Perm
        (s.store.transactions.rows.map owned ++ s.deleted) := by
  have parts : ((removeTransaction s.store id userId).transactions.rows.map owned ++
      (s.store.transactions.rows.filter (addresses id userId)).map owned).Perm
        (s.store.transactions.rows.map owned) := by
    rw [← List.map_append]
    exact (List.perm_append_comm.trans (List.filter_append_perm _ _)).map owned
  apply (List.perm_append_comm.append_left _).trans
  rw [← List.append_assoc]
  exact parts.append_right _

/-- A DELETE addresses one row at most, and it is the user's. -/
theorem addressed_count (store : Store) (id : TransactionId) (userId other : UserId) :
    (((store.transactions.rows.filter (addresses id userId)).map owned).map Prod.snd).count other ≤
      if other = userId then 1 else 0 := by
  have only : ∀ row ∈ store.transactions.rows.filter (addresses id userId),
      row.id = id ∧ row.userId = userId := by
    intro row member
    simpa [addresses] using (List.mem_filter.mp member).2
  have owners : ((store.transactions.rows.filter (addresses id userId)).map owned).map Prod.snd =
      List.replicate (store.transactions.rows.filter (addresses id userId)).length userId := by
    rw [List.map_map, List.eq_replicate_iff]
    constructor
    · rw [List.length_map]
    · intro owner member
      obtain ⟨row, inside, same⟩ := List.mem_map.mp member
      rw [← same]
      exact (only row inside).2
  have one : (store.transactions.rows.filter (addresses id userId)).length ≤ 1 := by
    have keys : ((store.transactions.rows.filter (addresses id userId)).map Transaction.id).Nodup :=
      store.transactions.unique.sublist (List.filter_sublist.map _)
    have same : (store.transactions.rows.filter (addresses id userId)).map Transaction.id =
        List.replicate (store.transactions.rows.filter (addresses id userId)).length id := by
      rw [List.eq_replicate_iff]
      constructor
      · rw [List.length_map]
      · intro key member
        obtain ⟨row, inside, equal⟩ := List.mem_map.mp member
        rw [← equal]
        exact (only row inside).1
    rw [same, List.nodup_replicate] at keys
    exact keys
  rw [owners, List.count_replicate]
  by_cases mine : other = userId
  · rw [if_pos mine, if_pos (beq_iff_eq.mpr mine.symm)]
    exact one
  · rw [if_neg mine, if_neg]
    intro equal
    exact mine (beq_iff_eq.mp equal).symm

theorem outcome_came (outcome : Outcome s action t) :
    came initial t = came initial s ∨
      ∃ request session, action = .commitCreated request ∧
        s.requests request = .adding session ∧ t.requests request = .done ∧
        came initial t = came initial s ++ session.added.map owned ∧
        (session.added.map Transaction.id).Nodup := by
  rcases outcome_quiet outcome with quiet | ⟨request, session, store, commit, was, commits, rfl⟩ |
    ⟨request, id, userId, was, rfl⟩
  · exact .inl (congrArg (initial.transactions.rows.map owned ++ ·) quiet.inserted)
  · refine .inr ⟨request, session, commit, was, Function.update_self _ _ _,
      (List.append_assoc _ _ _).symm, ?_⟩
    have unique := store.transactions.unique
    rw [(commit_eq_ok commits).appended, List.map_append] at unique
    exact (List.nodup_append.mp unique).2.1
  · exact .inl rfl

theorem came_subset (outcome : Outcome s action t) : came initial s ⊆ came initial t := by
  rcases outcome_came outcome with same | ⟨_, session, _, _, _, more, _⟩
  · rw [same]
    exact List.Subset.refl _
  · rw [more]
    exact List.subset_append_left _ _

theorem deleted_subset (outcome : Outcome s action t) : s.deleted ⊆ t.deleted := by
  rcases outcome_quiet outcome with quiet | ⟨_, _, _, _, _, _, rfl⟩ | ⟨_, _, _, _, rfl⟩
  · rw [quiet.deleted]
    exact List.Subset.refl _
  · exact List.Subset.refl _
  · exact List.subset_append_left _ _

theorem rows_step (outcome : Outcome s action t)
    (rows : (s.store.transactions.rows.map owned ++ s.deleted).Perm (came initial s)) :
    (t.store.transactions.rows.map owned ++ t.deleted).Perm (came initial t) := by
  rcases outcome_quiet outcome with quiet | ⟨request, session, store, _, was, commits, rfl⟩ |
    ⟨request, id, userId, was, rfl⟩
  · rw [quiet.rows, quiet.deleted, came, quiet.inserted]
    exact rows
  · dsimp only [came]
    rw [(commit_eq_ok commits).appended, List.map_append, List.append_assoc,
      ← List.append_assoc (initial.transactions.rows.map owned)]
    apply (List.perm_append_comm.append_left _).trans
    rw [← List.append_assoc]
    exact rows.append_right _
  · exact (removed_perm s id userId).trans rows

theorem single_step (kept : Kept initial s) (outcome : Outcome s action t) :
    ((came initial t).map Prod.fst).Nodup := by
  rcases outcome_came outcome with same | ⟨request, session, _, was, _, more, unique⟩
  · rw [same]
    exact kept.single
  · rw [more, List.map_append, List.nodup_append]
    refine ⟨kept.single, ?_, ?_⟩
    · rw [List.map_map]
      exact unique
    · intro id before other new equal
      rw [List.map_map] at new
      obtain ⟨row, inside, same⟩ := List.mem_map.mp new
      apply (kept.pending request session was row inside).2
      change row.id = other at same
      rw [same, ← equal]
      exact before

theorem created_step (kept : Kept initial s) (outcome : Outcome s action t) (userId : UserId) :
    t.audit.count (.TRANSACTION_CREATED, userId) = (t.inserted.map Prod.snd).count userId := by
  rcases outcome_quiet outcome with quiet | ⟨request, session, store, _, was, commits, rfl⟩ |
    ⟨request, id, owner, was, rfl⟩
  · rw [quiet.created, quiet.inserted]
    exact kept.created userId
  · dsimp only
    rw [List.count_append, kept.created, List.map_append, List.count_append, List.map_map]
    congr 1
    rw [List.count_eq_countP, List.count_eq_countP, List.countP_map, List.countP_map]
    apply List.countP_congr
    intro row _
    simp [owned]
  · change (s.audit ++ [_]).count _ = _
    rw [List.count_append, List.count_singleton, if_neg, Nat.add_zero]
    · exact kept.created userId
    · intro same
      cases congrArg Prod.fst (eq_of_beq same)

theorem removed_step (kept : Kept initial s) (outcome : Outcome s action t) (userId : UserId) :
    (t.deleted.map Prod.snd).count userId ≤ t.audit.count (.TRANSACTION_DELETED, userId) := by
  rcases outcome_quiet outcome with quiet | ⟨request, session, store, _, was, commits, rfl⟩ |
    ⟨request, id, owner, was, rfl⟩
  · rw [quiet.removed, quiet.deleted]
    exact kept.removed userId
  · dsimp only
    rw [List.count_append]
    exact Nat.le_add_right_of_le (kept.removed userId)
  · change ((s.deleted ++ _).map Prod.snd).count userId ≤ (s.audit ++ [_]).count _
    rw [List.map_append, List.count_append, List.count_append, List.count_singleton]
    apply Nat.add_le_add (kept.removed userId)
    apply (addressed_count s.store id owner userId).trans
    by_cases mine : userId = owner
    · rw [if_pos mine, if_pos]
      rw [mine]
      exact beq_self_eq_true _
    · rw [if_neg mine]
      exact Nat.zero_le _

theorem gone_step (kept : Kept initial s) (outcome : Outcome s action t) (request : RequestId)
    (id : TransactionId) (phase : t.requests request = .removed id) :
    id ∈ t.deleted.map Prod.fst := by
  rcases outcome_removed outcome phase with before | ⟨userId, was, rfl⟩
  · have there := kept.gone request id before
    obtain ⟨pair, inside, same⟩ := List.mem_map.mp there
    exact List.mem_map.mpr ⟨pair, deleted_subset outcome inside, same⟩
  · have known := kept.rows.symm.subset (kept.targets request id userId was)
    apply List.mem_map.mpr
    refine ⟨(id, userId), ?_, rfl⟩
    rcases List.mem_append.mp known with stored | deleted
    · obtain ⟨row, inside, same⟩ := List.mem_map.mp stored
      apply List.mem_append_right
      refine List.mem_map.mpr ⟨row, List.mem_filter.mpr ⟨inside, ?_⟩, same⟩
      cases same
      simp [addresses]
    · exact List.mem_append_left _ deleted

theorem generated_step (kept : Kept initial s) (outcome : Outcome s action t) :
    ∀ id ∈ (came initial t).map Prod.fst, id ∈ t.generated := by
  intro id member
  apply outcome_generated outcome
  rcases outcome_came outcome with same | ⟨request, session, _, was, _, more, _⟩
  · rw [same] at member
    exact kept.generated id member
  · rw [more, List.map_append, List.map_map] at member
    rcases List.mem_append.mp member with old | new
    · exact kept.generated id old
    · obtain ⟨row, inside, same⟩ := List.mem_map.mp new
      rw [← same]
      exact (kept.pending request session was row inside).1

theorem pending_step (kept : Kept initial s) (outcome : Outcome s action t) (request : RequestId)
    (session : Session) (phase : t.requests request = .adding session) :
    ∀ row ∈ session.added, row.id ∈ t.generated ∧ row.id ∉ (came initial t).map Prod.fst := by
  intro row member
  have before : row.id ∈ t.generated ∧ row.id ∉ (came initial s).map Prod.fst := by
    rcases outcome_adding outcome phase member with ⟨earlier, was, inside⟩ |
      ⟨_, _, _, _, unused, given⟩
    · obtain ⟨given, fresh⟩ := kept.pending request earlier was row inside
      exact ⟨outcome_generated outcome given, fresh⟩
    · exact ⟨given, fun known => unused (kept.generated _ known)⟩
  refine ⟨before.1, ?_⟩
  rcases outcome_came outcome with same | ⟨other, held, commit, was, done, more, _⟩
  · rw [same]
    exact before.2
  · -- The rows that have just come are those of another session.
    rw [more, List.map_append, List.map_map]
    intro known
    rcases List.mem_append.mp known with old | new
    · exact before.2 old
    · obtain ⟨row', inside', same⟩ := List.mem_map.mp new
      have different : request ≠ other := by
        intro equal
        rw [equal, done] at phase
        cases phase
      rcases outcome_adding outcome phase member with ⟨earlier, still, inside⟩ |
        ⟨_, _, create, _⟩
      · exact kept.apart request other earlier held different still was row inside row' inside'
          same.symm
      · rw [commit] at create
        cases create

theorem apart_step (kept : Kept initial s) (outcome : Outcome s action t)
    (first second : RequestId) (left right : Session) (different : first ≠ second)
    (one : t.requests first = .adding left) (two : t.requests second = .adding right) :
    ∀ row ∈ left.added, ∀ other ∈ right.added, row.id ≠ other.id := by
  intro row member other member'
  rcases outcome_adding outcome one member with ⟨_, was, inside⟩ | ⟨_, _, create, _, unused, _⟩
  · rcases outcome_adding outcome two member' with ⟨_, was', inside'⟩ | ⟨_, _, _, _, unused, _⟩
    · exact kept.apart first second _ _ different was was' row inside other inside'
    · intro same
      rw [← same] at unused
      exact unused (kept.pending first _ was row inside).1
  · rcases outcome_adding outcome two member' with ⟨_, was', inside'⟩ | ⟨_, _, create', _⟩
    · intro same
      rw [same] at unused
      exact unused (kept.pending second _ was' other inside').1
    · rw [create] at create'
      cases create'
      exact absurd rfl different

theorem targets_step (kept : Kept initial s) (outcome : Outcome s action t) (request : RequestId)
    (id : TransactionId) (userId : UserId) (phase : t.requests request = .removing id userId) :
    (id, userId) ∈ came initial t := by
  apply came_subset outcome
  rcases outcome_removing outcome phase with before | stored
  · exact kept.targets request id userId before
  · exact kept.rows.subset (List.mem_append_left _ stored)

theorem kept_step (kept : Kept initial s) (taken : step s action = some t) : Kept initial t := by
  have outcome := step_outcome taken
  constructor
  · constructor
    · exact rows_step outcome kept.rows
    · exact single_step kept outcome
    · exact created_step kept outcome
    · exact removed_step kept outcome
    · exact gone_step kept outcome
    · exact outcome_constrained outcome kept.constrained
  · exact generated_step kept outcome
  · exact pending_step kept outcome
  · exact apart_step kept outcome
  · exact targets_step kept outcome

end Steps

theorem kept_start {initial : Store}
    (constrained : ∀ row ∈ initial.transactions.rows, initial.admitsTransaction row = true) :
    Kept initial (.start initial) := by
  have ids : (came initial (.start initial)).map Prod.fst =
      initial.transactions.rows.map Transaction.id := by
    change ((initial.transactions.rows.map owned) ++ []).map Prod.fst = _
    rw [List.append_nil, List.map_map]
    rfl
  constructor
  · constructor
    · exact List.Perm.refl _
    · rw [ids]
      exact initial.transactions.unique
    · intro userId
      rfl
    · intro userId
      exact Nat.le_refl 0
    · intro request id removed
      cases removed
    · exact constrained
  · intro id known
    rw [ids] at known
    exact known
  · intro request session adding
    cases adding
  · intro first second left right _ adding
    cases adding
  · intro request id userId removing
    cases removing

/-! What a run can make of the rows. -/

/-- What a later state shows of an earlier one: the audit events are still there; a row is stored
under its id, its user and its time of creation, unless it has been deleted; and what had been
deleted is not stored. -/
structure Continues (s t : State) : Prop where
  audit : s.audit <+: t.audit
  deleted : s.deleted ⊆ t.deleted
  stays : ∀ row ∈ s.store.transactions.rows, owned row ∈ t.deleted ∨
    ∃ later ∈ t.store.transactions.rows, owned later = owned row ∧
      later.createdAt = row.createdAt
  absent : ∀ id ∈ s.deleted.map Prod.fst, t.store.transactions.get id = none

section Continues

variable {initial : Store} {s t u : State} {action : Action}

theorem absent_of_kept (kept : Kept initial s) :
    ∀ id ∈ s.deleted.map Prod.fst, s.store.transactions.get id = none := by
  intro id deleted
  have single : ((s.store.transactions.rows.map owned ++ s.deleted).map Prod.fst).Nodup :=
    (kept.rows.map Prod.fst).nodup_iff.mpr kept.single
  rw [List.map_append, List.map_map] at single
  rw [Table.get_eq_none_iff]
  intro stored
  exact (List.nodup_append.mp single).2.2 id stored id deleted rfl

theorem continues_refl (kept : Kept initial s) : Continues s s where
  audit := List.prefix_refl _
  deleted := List.Subset.refl _
  stays row stored := .inr ⟨row, stored, rfl, rfl⟩
  absent := absent_of_kept kept

theorem continues_trans (first : Continues s t) (second : Continues t u) : Continues s u where
  audit := first.audit.trans second.audit
  deleted := List.Subset.trans first.deleted second.deleted
  stays := by
    intro row stored
    rcases first.stays row stored with gone | ⟨later, inside, same, made⟩
    · exact .inl (second.deleted gone)
    · rcases second.stays later inside with gone | ⟨last, there, same', made'⟩
      · rw [same] at gone
        exact .inl gone
      · exact .inr ⟨last, there, same'.trans same, made'.trans made⟩
  absent := by
    intro id deleted
    obtain ⟨pair, inside, same⟩ := List.mem_map.mp deleted
    exact second.absent id (List.mem_map.mpr ⟨pair, first.deleted inside, same⟩)

theorem outcome_audit (outcome : Outcome s action t) : s.audit <+: t.audit := by
  cases outcome with
  | inserted _ _ _ => exact List.prefix_append _ _
  | untouched _ _ => exact List.prefix_append _ _
  | written _ _ _ _ _ => exact List.prefix_append _ _
  | removed _ => exact List.prefix_append _ _
  | _ => exact List.prefix_refl _

/-- A row that is written over keeps its id, its user and its time of creation. -/
theorem outcome_stays (outcome : Outcome s action t) {row : Transaction}
    (stored : row ∈ s.store.transactions.rows) :
    owned row ∈ t.deleted ∨ ∃ later ∈ t.store.transactions.rows, owned later = owned row ∧
      later.createdAt = row.createdAt := by
  cases outcome with
  | turned _ _ => exact .inr ⟨row, stored, rfl, rfl⟩
  | added _ _ _ => exact .inr ⟨row, stored, rfl, rfl⟩
  | untouched _ _ => exact .inr ⟨row, stored, rfl, rfl⟩
  | category _ => exact .inr ⟨row, stored, rfl, rfl⟩
  | inserted was admitted commits =>
      refine .inr ⟨row, ?_, rfl, rfl⟩
      dsimp only
      rw [(commit_eq_ok commits).appended]
      exact List.mem_append_left _ stored
  | @written request command read current old was touched found admitted unique =>
      dsimp only
      rw [(write_allowed admitted unique).1]
      by_cases same : row.id = old.id
      · have equal := List.inj_on_of_nodup_map s.store.transactions.unique stored
          (Table.mem_of_get found) same
        subst equal
        refine .inr ⟨flush read current row, ?_, rfl, rfl⟩
        exact List.mem_map.mpr ⟨row, stored, if_pos rfl⟩
      · exact .inr ⟨row, List.mem_map.mpr ⟨row, stored, if_neg same⟩, rfl, rfl⟩
  | @removed request id userId was =>
      by_cases met : addresses id userId row = true
      · apply Or.inl
        apply List.mem_append_right
        exact List.mem_map.mpr ⟨row, List.mem_filter.mpr ⟨stored, met⟩, rfl⟩
      · refine .inr ⟨row, List.mem_filter.mpr ⟨stored, ?_⟩, rfl, rfl⟩
        rw [Bool.not_eq_true] at met
        rw [met]
        rfl
  | rule =>
      refine .inr ⟨row, ?_, rfl, rfl⟩
      dsimp only
      rw [insert_rule_transactions]
      exact stored
  | @ruleRemoved id userId =>
      dsimp only [removeRule]
      split
      · exact .inr ⟨row, stored, rfl, rfl⟩
      · by_cases fired : firedBy id row = true
        · exact .inr ⟨forget row, List.mem_map.mpr ⟨row, stored, if_pos fired⟩, rfl, rfl⟩
        · exact .inr ⟨row, List.mem_map.mpr ⟨row, stored, if_neg fired⟩, rfl, rfl⟩

theorem continues_step (kept : Kept initial s) (taken : step s action = some t) :
    Continues s t where
  audit := outcome_audit (step_outcome taken)
  deleted := deleted_subset (step_outcome taken)
  stays _ stored := outcome_stays (step_outcome taken) stored
  absent := by
    intro id deleted
    obtain ⟨pair, inside, same⟩ := List.mem_map.mp deleted
    exact absent_of_kept (kept_step kept taken) id
      (List.mem_map.mpr ⟨pair, deleted_subset (step_outcome taken) inside, same⟩)

end Continues

/-- Whatever requests come, and however their statements fall between one another, the ledger is
kept in every state, and every later state continues every earlier one. -/
theorem transactions_ledger (initial : Store)
    (constrained : ∀ row ∈ initial.transactions.rows, initial.admitsTransaction row = true)
    (actions : List Action) :
    Visits step (Ledger initial) (.start initial) actions ∧
      Throughout step Continues (.start initial) actions := by
  have along : Along step (fun _ _ => True) (.start initial) actions :=
    along_always (fun _ _ => trivial) _ _
  have start := kept_start constrained
  have preserved (s : State) (action : Action) (t : State) (_ : True)
      (taken : step s action = some t) (kept : Kept initial s) : Kept initial t :=
    kept_step kept taken
  constructor
  · exact visits_of_along preserved (fun _ kept => kept.toLedger) along start
  · apply throughout_of_along (fun _ kept => continues_refl kept) _ preserved _ along start
    · exact fun _ _ _ first second => continues_trans first second
    · exact fun _ _ _ _ taken kept => continues_step kept taken

theorem taxi_year : 1 ≤ 2026 ∧ 2026 ≤ maxYear := by decide

def taxi : Transaction where
  id := ⟨1⟩
  userId := ⟨3⟩
  amount := ⟨10, "USD"⟩
  date := ⟨2026, 6, 1, taxi_year, by decide, by decide⟩
  type := .EXPENSE
  merchant := some "Taxi"
  notes := none
  categoryId := none
  createdAt := 0
  recurringRuleId := none

def purse : Store := ⟨.empty, ⟨[taxi], List.nodup_singleton _⟩, .empty, List.nodup_nil⟩

theorem purse_constrained :
    ∀ row ∈ purse.transactions.rows, purse.admitsTransaction row = true := by
  decide +kernel

/-- The row is deleted twice: there are two deletion events. -/
theorem transactions_ledger_taxi :
    Visits step (Ledger purse) (.start purse)
        [.find 0 ⟨1⟩ ⟨3⟩, .find 1 ⟨1⟩ ⟨3⟩, .commitRemoved 0, .commitRemoved 1] ∧
      Throughout step Continues (.start purse)
        [.find 0 ⟨1⟩ ⟨3⟩, .find 1 ⟨1⟩ ⟨3⟩, .commitRemoved 0, .commitRemoved 1] :=
  transactions_ledger purse purse_constrained _

end Yomochi.Transactions
