import Mathlib.Data.List.Pairwise
import Yomochi.Users.Registration

/-! Which accounts there are, whatever requests come: one for each e-mail. -/

namespace Yomochi.Users.Registration

open Foundation
open Listing (AuditEventType)

def identity (row : UserRow) : UserId × Email × Timestamp := (row.id, row.email, row.createdAt)

/-- A user that a request has made or read is one of the rows, with the password of the day. -/
def Stored (s : State) (user : UserRow) : Prop := identity user ∈ s.users.rows.map identity

def Phase.account : Phase → Option UserRow
  | .registered user | .found user _ | .verified user | .signedIn user => some user
  | _ => none

/-- No two accounts share a key; what a registration or a login answers is one of them, and no
e-mail is registered twice, in whatever case it was written. A new account has two audit events. A
session is one of an account, of a registration that goes on, or of one that was rolled back, which
has left no account. -/
structure Accounts (config : Config) (initial : List UserId) (s : State) : Prop where
  apart : s.users.rows.Pairwise fun first second => ¬Clash config first second
  known : ∀ request user, (s.requests request).account = some user → Stored s user
  single : ∀ first second left right, s.requests first = .registered left →
    s.requests second = .registered right →
      config.databaseLower left.email.value = config.databaseLower right.email.value →
        first = second
  theirs : ∀ first second left right, s.requests first = .registered left →
    s.requests second = .signedIn right →
      config.databaseLower left.email.value = config.databaseLower right.email.value →
        identity left = identity right
  audited : ∀ id, s.audit.count (.USER_REGISTERED, id) =
    if id ∈ s.users.rows.map UserRow.id ∧ id ∉ initial then 2 else 0
  sessions : ∀ id ∈ s.sessions, id ∈ s.users.rows.map UserRow.id ∨
    id ∈ s.flushed.map UserRow.id ∨ id ∈ s.abandoned
  abandoned : ∀ id ∈ s.abandoned, id ∉ s.users.rows.map UserRow.id

/-- The rows of open transactions share no key with any other, and a registration that goes on has
an id of its own. -/
structure Sound (config : Config) (initial : List UserId) (s : State) : Prop where
  held : (s.users.rows ++ s.flushed).Pairwise fun first second => ¬Clash config first second
  generated : ∀ row ∈ s.users.rows ++ s.flushed, row.id ∈ s.generated
  retired : ∀ id ∈ s.abandoned, id ∈ s.generated ∧ ∀ row ∈ s.users.rows ++ s.flushed, row.id ≠ id
  fresh : ∀ request user, (s.requests request).pending = some user →
    user.id ∈ s.generated ∧ user.id ∉ s.users.rows.map UserRow.id ∧ user.id ∉ s.abandoned
  inserted : ∀ request user,
    s.requests request = .flushed user ∨ s.requests request = .saved user → user ∈ s.flushed
  distinct : ∀ first second left right, first ≠ second →
    (s.requests first).pending = some left → (s.requests second).pending = some right →
      left.id ≠ right.id
  stays : ∀ id ∈ initial, id ∈ s.users.rows.map UserRow.id
  known : ∀ request user, (s.requests request).account = some user → Stored s user
  answered : ∀ first second left right, first ≠ second → s.requests first = .registered left →
    s.requests second = .registered right → left.id ≠ right.id
  audited : ∀ id, s.audit.count (.USER_REGISTERED, id) =
    if id ∈ s.users.rows.map UserRow.id ∧ id ∉ initial then 2 else 0
  sessions : ∀ id ∈ s.sessions, id ∈ s.users.rows.map UserRow.id ∨
    id ∈ s.flushed.map UserRow.id ∨ id ∈ s.abandoned

theorem clash_symm {config : Config} {first second : UserRow} (clash : Clash config first second) :
    Clash config second first := by
  rcases clash with same | same | same
  · exact .inl same.symm
  · exact .inr (.inl same.symm)
  · exact .inr (.inr same.symm)

instance freeSymm (config : Config) :
    Std.Symm fun first second : UserRow => ¬Clash config first second :=
  ⟨fun _ _ free clash => free (clash_symm clash)⟩

theorem clash_identity {config : Config} {first second left right : UserRow}
    (one : identity first = identity left) (two : identity second = identity right)
    (clash : Clash config first second) : Clash config left right := by
  simp only [identity, Prod.mk.injEq] at one two
  unfold Clash at clash ⊢
  rw [← one.1, ← one.2.1, ← two.1, ← two.2.1]
  exact clash

theorem stored_row {s : State} {user : UserRow} (stored : Stored s user) :
    ∃ row ∈ s.users.rows, identity row = identity user := List.mem_map.mp stored

theorem stored_id {s : State} {user : UserRow} (stored : Stored s user) :
    user.id ∈ s.users.rows.map UserRow.id := by
  obtain ⟨row, inside, same⟩ := stored_row stored
  exact List.mem_map.mpr ⟨row, inside, congrArg Prod.fst same⟩

/-- Two stored users that clash are one account. -/
theorem stored_clash {config : Config} {s : State} {left right : UserRow}
    (apart : s.users.rows.Pairwise fun first second => ¬Clash config first second)
    (one : Stored s left) (two : Stored s right) (clash : Clash config left right) :
    identity left = identity right := by
  obtain ⟨first, inside, same⟩ := stored_row one
  obtain ⟨second, inside', same'⟩ := stored_row two
  by_cases equal : first = second
  · rw [← same, ← same', equal]
  · have free := apart.forall inside inside' equal
    exact absurd (clash_identity same.symm same'.symm clash) free

theorem accounts_of_sound {config : Config} {initial : List UserId} {s : State}
    (sound : Sound config initial s) : Accounts config initial s := by
  have apart := (List.pairwise_append.mp sound.held).1
  have registered (request : RequestId) (user : UserRow)
      (phase : s.requests request = .registered user) : Stored s user :=
    sound.known request user (by rw [phase, Phase.account])
  have signedIn (request : RequestId) (user : UserRow)
      (phase : s.requests request = .signedIn user) : Stored s user :=
    sound.known request user (by rw [phase, Phase.account])
  constructor
  · exact apart
  · exact sound.known
  · intro first second left right one two same
    by_contra different
    apply sound.answered first second left right different one two
    have equal := stored_clash apart (registered first left one) (registered second right two)
      (.inr (.inr same))
    exact congrArg Prod.fst equal
  · intro first second left right one two same
    exact stored_clash apart (registered first left one) (signedIn second right two)
      (.inr (.inr same))
  · exact sound.audited
  · exact sound.sessions
  · intro id gone stored
    obtain ⟨row, inside, same⟩ := List.mem_map.mp stored
    exact (sound.retired id gone).2 row (List.mem_append_left _ inside) same

section Steps

variable {config : Config} {initial : List UserId} {s t : State}

theorem outcome_rows (outcome : Outcome config s t) :
    t.users.rows.map identity = s.users.rows.map identity ∧
        (∀ id, t.audit.count (.USER_REGISTERED, id) = s.audit.count (.USER_REGISTERED, id)) ∨
      ∃ request user users phase, s.requests request = .saved user ∧
        s.users.insert user = some users ∧ (phase = .registered user ∨ phase = .done) ∧
        t = { (s.release user).setPhase request phase with
          users := users
          audit := s.audit ++ [(.USER_REGISTERED, user.id), (.USER_REGISTERED, user.id)] } := by
  cases outcome with
  | committed was stored answer => exact .inr ⟨_, _, _, _, was, stored, answer, rfl⟩
  | loggedIn was answer recorded =>
      refine .inl ⟨rfl, ?_⟩
      intro id
      rcases recorded with rfl | rfl
      · simp
      · rfl
  | changed userId passwordHash =>
      refine .inl ⟨?_, fun _ => rfl⟩
      change (s.users.rows.map _).map identity = _
      rw [List.map_map]
      apply List.map_congr_left
      intro row _
      dsimp only [Function.comp_apply]
      split
      · rfl
      · rfl
  | _ => exact .inl ⟨rfl, fun _ => rfl⟩

theorem map_ids (rows : List UserRow) :
    rows.map UserRow.id = (rows.map identity).map Prod.fst := by
  rw [List.map_map]
  rfl

theorem outcome_subset (outcome : Outcome config s t) :
    s.users.rows.map identity <+: t.users.rows.map identity := by
  rcases outcome_rows outcome with ⟨same, _⟩ | ⟨_, user, users, _, _, stored, _, rfl⟩
  · exact same ▸ List.prefix_refl _
  · have longer : s.users.rows <+: users.rows :=
      ⟨[user], (Table.insert_eq_some stored).2.symm⟩
    exact longer.map identity

theorem stored_step (outcome : Outcome config s t) {user : UserRow} (stored : Stored s user) :
    Stored t user := (outcome_subset outcome).subset stored

theorem outcome_generated (outcome : Outcome config s t) : s.generated ⊆ t.generated := by
  cases outcome with
  | hashed unused => exact List.subset_append_left _ _
  | _ => exact List.Subset.refl _

inductive Becomes (s t : State) (request : RequestId) : Phase → Prop
  | turned {phase : Phase} (turns : Turns s phase) : Becomes s t request phase
  | hashed {user : UserRow} (unused : user.id ∉ s.generated)
      (made : t = { s.setPhase request (.hashed user) with
        generated := s.generated ++ [user.id] }) : Becomes s t request (.hashed user)
  | flushed {user : UserRow} (was : s.requests request = .hashed user)
      (held : user ∈ t.flushed) : Becomes s t request (.flushed user)
  | saved {user : UserRow} (was : s.requests request = .flushed user) :
      Becomes s t request (.saved user)
  | registered {user : UserRow} (was : s.requests request = .saved user)
      (stored : user ∈ t.users.rows) : Becomes s t request (.registered user)
  | verified {user : UserRow} {password : RawPassword}
      (was : s.requests request = .found user password) : Becomes s t request (.verified user)
  | signedIn {user : UserRow} (was : s.requests request = .verified user) :
      Becomes s t request (.signedIn user)

theorem outcome_phase (outcome : Outcome config s t) {request : RequestId} {phase : Phase}
    (there : t.requests request = phase) :
    s.requests request = phase ∨ Becomes s t request phase := by
  cases outcome with
  | turned turns =>
      rcases update_cases there with same | ⟨_, rfl⟩
      · exact .inl same
      · exact .inr (.turned turns)
  | hashed unused =>
      rcases update_cases there with same | ⟨rfl, rfl⟩
      · exact .inl same
      · exact .inr (.hashed unused rfl)
  | flushed was free =>
      rcases update_cases there with same | ⟨rfl, rfl⟩
      · exact .inl same
      · exact .inr (.flushed was (List.mem_append_right _ (List.mem_singleton_self _)))
  | saved was =>
      rcases update_cases there with same | ⟨rfl, rfl⟩
      · exact .inl same
      · exact .inr (.saved was)
  | committed was stored answer =>
      rcases update_cases there with same | ⟨rfl, rfl⟩
      · exact .inl same
      · rcases answer with rfl | rfl
        · apply Or.inr
          apply Becomes.registered was
          dsimp only
          rw [(Table.insert_eq_some stored).2]
          exact List.mem_append_right _ (List.mem_singleton_self _)
        · exact .inr (.turned .done)
  | givenUp was =>
      rcases update_cases there with same | ⟨rfl, rfl⟩
      · exact .inl same
      · exact .inr (.turned .done)
  | verified was =>
      rcases update_cases there with same | ⟨rfl, rfl⟩
      · exact .inl same
      · exact .inr (.verified was)
  | loggedIn was answer recorded =>
      rcases update_cases there with same | ⟨rfl, rfl⟩
      · exact .inl same
      · rcases answer with rfl | rfl
        · exact .inr (.signedIn was)
        · exact .inr (.turned .done)
  | changed userId passwordHash => exact .inl there

theorem outcome_pending (outcome : Outcome config s t) {request : RequestId} {user : UserRow}
    (pending : (t.requests request).pending = some user) :
    (s.requests request).pending = some user ∨
      user.id ∉ s.generated ∧ t = { s.setPhase request (.hashed user) with
        generated := s.generated ++ [user.id] } := by
  generalize there : t.requests request = phase at pending
  rcases outcome_phase outcome there with same | becomes
  · rw [same]
    exact .inl pending
  · cases becomes with
    | turned turns => cases turns <;> cases pending
    | hashed unused made =>
        cases pending
        exact .inr ⟨unused, made⟩
    | flushed was _ =>
        rw [was]
        exact .inl pending
    | saved was =>
        rw [was]
        exact .inl pending
    | registered _ _ => cases pending
    | verified _ => cases pending
    | signedIn _ => cases pending

theorem outcome_account (outcome : Outcome config s t) {request : RequestId} {user : UserRow}
    (account : (t.requests request).account = some user) :
    (s.requests request).account = some user ∨ user ∈ s.users.rows ∨ user ∈ t.users.rows := by
  generalize there : t.requests request = phase at account
  rcases outcome_phase outcome there with same | becomes
  · rw [same]
    exact .inl account
  · cases becomes with
    | turned turns =>
        cases turns with
        | done => cases account
        | checked email password => cases account
        | found password stored =>
            cases account
            exact .inr (.inl stored)
    | hashed _ _ => cases account
    | flushed _ _ => cases account
    | saved _ => cases account
    | registered _ stored =>
        cases account
        exact .inr (.inr stored)
    | verified was =>
        rw [was]
        exact .inl account
    | signedIn was =>
        rw [was]
        exact .inl account

theorem held_step (sound : Sound config initial s) (outcome : Outcome config s t) :
    (t.users.rows ++ t.flushed).Pairwise fun first second => ¬Clash config first second := by
  obtain ⟨stored, open_, across⟩ := List.pairwise_append.mp sound.held
  cases outcome with
  | flushed was free =>
      dsimp only
      rw [← List.append_assoc]
      apply List.pairwise_append.mpr
      refine ⟨sound.held, List.pairwise_singleton _ _, ?_⟩
      intro row member other new
      rw [List.mem_singleton.mp new]
      exact free row member
  | @committed request user users phase was inserted answer =>
      dsimp only
      have held := sound.inserted request user (.inr was)
      rw [(Table.insert_eq_some inserted).2]
      apply List.pairwise_append.mpr
      refine ⟨?_, open_.sublist List.filter_sublist, ?_⟩
      · apply List.pairwise_append.mpr
        refine ⟨stored, List.pairwise_singleton _ _, ?_⟩
        intro row member other new
        rw [List.mem_singleton.mp new]
        exact across row member user held
      · intro row member other kept
        obtain ⟨inside, different⟩ := List.mem_filter.mp kept
        rcases List.mem_append.mp member with old | new
        · exact across row old other inside
        · rw [List.mem_singleton.mp new]
          apply open_.forall held inside
          rintro rfl
          exact of_decide_eq_true different rfl
  | givenUp was =>
      exact sound.held.sublist (List.Sublist.append_left List.filter_sublist _)
  | changed userId passwordHash =>
      change (s.users.rows.map _ ++ s.flushed).Pairwise _
      have same (row : UserRow) :
          identity (if row.id = userId then setHash passwordHash row else row) = identity row := by
        split
        · rfl
        · rfl
      apply List.pairwise_append.mpr
      refine ⟨?_, open_, ?_⟩
      · apply List.pairwise_map.mpr
        apply stored.imp
        intro first second free clash
        exact free (clash_identity (by simpa using same first) (by simpa using same second) clash)
      · intro row member other inside clash
        obtain ⟨old, there, rfl⟩ := List.mem_map.mp member
        exact across old there other inside (clash_identity (by simpa using same old) rfl clash)
  | _ => exact sound.held

theorem outcome_ids (outcome : Outcome config s t) {row : UserRow}
    (member : row ∈ t.users.rows ++ t.flushed)
    (inserted : ∀ request user, s.requests request = .saved user → user ∈ s.flushed) :
    (∃ old ∈ s.users.rows ++ s.flushed, old.id = row.id) ∨
      ∃ request, s.requests request = .hashed row := by
  cases outcome with
  | flushed was free =>
      dsimp only at member
      rw [← List.append_assoc] at member
      rcases List.mem_append.mp member with old | new
      · exact .inl ⟨row, old, rfl⟩
      · rw [List.mem_singleton.mp new]
        exact .inr ⟨_, was⟩
  | committed was stored answer =>
      dsimp only at member
      rw [(Table.insert_eq_some stored).2] at member
      refine .inl ⟨row, ?_, rfl⟩
      rcases List.mem_append.mp member with old | kept
      · rcases List.mem_append.mp old with before | new
        · exact List.mem_append_left _ before
        · rw [List.mem_singleton.mp new]
          exact List.mem_append_right _ (inserted _ _ was)
      · exact List.mem_append_right _ (List.mem_filter.mp kept).1
  | givenUp was =>
      refine .inl ⟨row, ?_, rfl⟩
      rcases List.mem_append.mp member with old | kept
      · exact List.mem_append_left _ old
      · exact List.mem_append_right _ (List.mem_filter.mp kept).1
  | changed userId passwordHash =>
      rcases List.mem_append.mp member with stored | held
      · obtain ⟨old, there, same⟩ := List.mem_map.mp stored
        refine .inl ⟨old, List.mem_append_left _ there, ?_⟩
        rw [← same]
        dsimp only
        split
        · rfl
        · rfl
      · exact .inl ⟨row, List.mem_append_right _ held, rfl⟩
  | _ => exact .inl ⟨row, member, rfl⟩

theorem generated_step (sound : Sound config initial s) (outcome : Outcome config s t) :
    ∀ row ∈ t.users.rows ++ t.flushed, row.id ∈ t.generated := by
  intro row member
  apply outcome_generated outcome
  rcases outcome_ids outcome member fun request user was => sound.inserted request user (.inr was)
    with ⟨old, there, same⟩ | ⟨request, was⟩
  · rw [← same]
    exact sound.generated old there
  · exact (sound.fresh request row (by rw [was, Phase.pending])).1

theorem outcome_abandoned (outcome : Outcome config s t) {id : UserId} (gone : id ∈ t.abandoned) :
    id ∈ s.abandoned ∨ ∃ request user,
      (s.requests request = .flushed user ∨ s.requests request = .saved user) ∧ id = user.id ∧
        t = s.giveUp request user := by
  cases outcome with
  | givenUp was =>
      rcases List.mem_append.mp gone with old | new
      · exact .inl old
      · exact .inr ⟨_, _, was, List.mem_singleton.mp new, rfl⟩
  | _ => exact .inl gone

theorem retired_step (sound : Sound config initial s) (outcome : Outcome config s t) :
    ∀ id ∈ t.abandoned,
      id ∈ t.generated ∧ ∀ row ∈ t.users.rows ++ t.flushed, row.id ≠ id := by
  intro id gone
  rcases outcome_abandoned outcome gone with before | ⟨request, user, was, rfl, rfl⟩
  · refine ⟨outcome_generated outcome (sound.retired id before).1, ?_⟩
    intro row member
    rcases outcome_ids outcome member fun request user was => sound.inserted request user (.inr was)
      with ⟨old, there, same⟩ | ⟨request, was⟩
    · rw [← same]
      exact (sound.retired id before).2 old there
    · intro same
      rw [← same] at before
      exact (sound.fresh request row (by rw [was, Phase.pending])).2.2 before
  · have held := sound.inserted request user was
    refine ⟨sound.generated user (List.mem_append_right _ held), ?_⟩
    intro row member
    rcases List.mem_append.mp member with stored | kept
    · intro same
      exact (List.pairwise_append.mp sound.held).2.2 row stored user held (.inl same)
    · exact of_decide_eq_true (List.mem_filter.mp kept).2

/-- A request that goes on with its user is none that has just ended, and another user's row is not
the one that has come or gone. -/
theorem apart_of_ended (sound : Sound config initial s) {request ended : RequestId}
    {user other : UserRow} (before : (s.requests request).pending = some user)
    (after : (t.requests request).pending = some user)
    (was : s.requests ended = .flushed other ∨ s.requests ended = .saved other)
    (idle : (t.requests ended).pending = none) : user.id ≠ other.id := by
  have different : request ≠ ended := by
    rintro rfl
    rw [idle] at after
    cases after
  have pending : (s.requests ended).pending = some other := by
    rcases was with was | was
    · rw [was, Phase.pending]
    · rw [was, Phase.pending]
  exact sound.distinct request ended user other different before pending

theorem answer_pending {phase : Phase} {user : UserRow}
    (answer : phase = .registered user ∨ phase = .done) : phase.pending = none := by
  rcases answer with rfl | rfl
  · rfl
  · rfl

theorem ended {request : RequestId} {phase : Phase} (idle : phase.pending = none) :
    (Function.update s.requests request phase request).pending = none := by
  rw [Function.update_self]
  exact idle

theorem fresh_step (sound : Sound config initial s) (outcome : Outcome config s t)
    (request : RequestId) (user : UserRow) (pending : (t.requests request).pending = some user) :
    user.id ∈ t.generated ∧ user.id ∉ t.users.rows.map UserRow.id ∧ user.id ∉ t.abandoned := by
  rcases outcome_pending outcome pending with before | ⟨unused, rfl⟩
  · obtain ⟨given, absent, going⟩ := sound.fresh request user before
    refine ⟨outcome_generated outcome given, ?_, ?_⟩
    · rcases outcome_rows outcome with ⟨same, _⟩ |
        ⟨other, row, users, phase, was, inserted, answer, rfl⟩
      · rw [map_ids, same, ← map_ids]
        exact absent
      · dsimp only
        rw [(Table.insert_eq_some inserted).2, List.map_append]
        intro member
        rcases List.mem_append.mp member with old | new
        · exact absent old
        · have different := apart_of_ended sound before pending (.inr was)
            (ended (answer_pending answer))
          exact different (List.mem_singleton.mp new)
    · intro gone
      rcases outcome_abandoned outcome gone with old | ⟨other, row, was, same, rfl⟩
      · exact going old
      · exact apart_of_ended sound before pending was (ended rfl) same
  · refine ⟨List.mem_append_right _ (List.mem_singleton_self _), ?_, ?_⟩
    · intro stored
      obtain ⟨row, inside, same⟩ := List.mem_map.mp stored
      rw [← same] at unused
      exact unused (sound.generated row (List.mem_append_left _ inside))
    · exact fun gone => unused (sound.retired user.id gone).1

theorem outcome_flushed (outcome : Outcome config s t) {user : UserRow} (held : user ∈ s.flushed) :
    user ∈ t.flushed ∨ ∃ request other,
      (s.requests request = .flushed other ∨ s.requests request = .saved other) ∧
        user.id = other.id ∧ (t.requests request).pending = none := by
  cases outcome with
  | flushed was free => exact .inl (List.mem_append_left _ held)
  | @committed request other users phase was stored answer =>
      by_cases same : user.id = other.id
      · exact .inr ⟨request, other, .inr was, same, ended (answer_pending answer)⟩
      · exact .inl (List.mem_filter.mpr ⟨held, decide_eq_true same⟩)
  | @givenUp request other was =>
      by_cases same : user.id = other.id
      · exact .inr ⟨request, other, was, same, ended rfl⟩
      · exact .inl (List.mem_filter.mpr ⟨held, decide_eq_true same⟩)
  | _ => exact .inl held

theorem inserted_step (sound : Sound config initial s) (outcome : Outcome config s t)
    (request : RequestId) (user : UserRow)
    (there : t.requests request = .flushed user ∨ t.requests request = .saved user) :
    user ∈ t.flushed := by
  have pending : (t.requests request).pending = some user := by
    rcases there with there | there
    · rw [there, Phase.pending]
    · rw [there, Phase.pending]
  have stays (was : s.requests request = .flushed user ∨ s.requests request = .saved user) :
      user ∈ t.flushed := by
    have before : (s.requests request).pending = some user := by
      rcases was with was | was
      · rw [was, Phase.pending]
      · rw [was, Phase.pending]
    rcases outcome_flushed outcome (sound.inserted request user was) with held |
      ⟨other, row, past, same, idle⟩
    · exact held
    · exact absurd same (apart_of_ended sound before pending past idle)
  rcases there with there | there
  · rcases outcome_phase outcome there with same | becomes
    · exact stays (.inl same)
    · cases becomes with
      | turned turns => cases turns
      | flushed _ held => exact held
  · rcases outcome_phase outcome there with same | becomes
    · exact stays (.inr same)
    · cases becomes with
      | turned turns => cases turns
      | saved was => exact stays (.inl was)

theorem distinct_step (sound : Sound config initial s) (outcome : Outcome config s t)
    (first second : RequestId) (left right : UserRow) (different : first ≠ second)
    (one : (t.requests first).pending = some left)
    (two : (t.requests second).pending = some right) : left.id ≠ right.id := by
  rcases outcome_pending outcome one with before | ⟨unused, made⟩
  · rcases outcome_pending outcome two with before' | ⟨unused', _⟩
    · exact sound.distinct first second left right different before before'
    · intro same
      rw [← same] at unused'
      exact unused' (sound.fresh first left before).1
  · rcases outcome_pending outcome two with before' | ⟨unused', made'⟩
    · intro same
      rw [same] at unused
      exact unused (sound.fresh second right before').1
    · -- One step makes one user.
      rw [made] at two
      change (Function.update s.requests first _ second).pending = some right at two
      rw [Function.update_of_ne different.symm] at two
      exact absurd (sound.fresh second right two).1 unused'

theorem known_step (sound : Sound config initial s) (outcome : Outcome config s t)
    (request : RequestId) (user : UserRow) (account : (t.requests request).account = some user) :
    Stored t user := by
  rcases outcome_account outcome account with before | stored | stored
  · exact stored_step outcome (sound.known request user before)
  · exact stored_step outcome (List.mem_map_of_mem stored)
  · exact List.mem_map_of_mem stored

theorem outcome_registered (outcome : Outcome config s t) {request : RequestId} {user : UserRow}
    (there : t.requests request = .registered user) :
    s.requests request = .registered user ∨ s.requests request = .saved user := by
  rcases outcome_phase outcome there with same | becomes
  · exact .inl same
  · cases becomes with
    | turned turns => cases turns
    | registered was _ => exact .inr was

theorem answered_step (sound : Sound config initial s) (outcome : Outcome config s t)
    (first second : RequestId) (left right : UserRow) (different : first ≠ second)
    (one : t.requests first = .registered left) (two : t.requests second = .registered right) :
    left.id ≠ right.id := by
  have known (request : RequestId) (user : UserRow)
      (there : s.requests request = .registered user) :
      user.id ∈ s.users.rows.map UserRow.id :=
    stored_id (sound.known request user (by rw [there, Phase.account]))
  have pending (request : RequestId) (user : UserRow) (there : s.requests request = .saved user) :
      (s.requests request).pending = some user := by rw [there, Phase.pending]
  rcases outcome_registered outcome one with before | saved
  · rcases outcome_registered outcome two with before' | saved'
    · exact sound.answered first second left right different before before'
    · intro same
      apply (sound.fresh second right (pending second right saved')).2.1
      rw [← same]
      exact known first left before
  · rcases outcome_registered outcome two with before' | saved'
    · intro same
      apply (sound.fresh first left (pending first left saved)).2.1
      rw [same]
      exact known second right before'
    · exact sound.distinct first second left right different (pending first left saved)
        (pending second right saved')

theorem stays_step (sound : Sound config initial s) (outcome : Outcome config s t) :
    ∀ id ∈ initial, id ∈ t.users.rows.map UserRow.id := by
  intro id early
  have before := sound.stays id early
  rw [map_ids] at before ⊢
  exact List.map_subset Prod.fst (outcome_subset outcome).subset before

theorem audited_step (sound : Sound config initial s) (outcome : Outcome config s t) (id : UserId) :
    t.audit.count (.USER_REGISTERED, id) =
      if id ∈ t.users.rows.map UserRow.id ∧ id ∉ initial then 2 else 0 := by
  rcases outcome_rows outcome with ⟨same, counted⟩ |
    ⟨request, user, users, phase, was, inserted, _, rfl⟩
  · rw [map_ids, same, ← map_ids, counted]
    exact sound.audited id
  · have absent := (sound.fresh request user (by rw [was, Phase.pending])).2.1
    dsimp only
    rw [List.count_append, sound.audited, (Table.insert_eq_some inserted).2, List.map_append]
    by_cases new : id = user.id
    · subst new
      have late : user.id ∉ initial := fun early => absent (sound.stays user.id early)
      simp [absent, late]
    · have other : (AuditEventType.USER_REGISTERED, user.id) ≠ (.USER_REGISTERED, id) := by
        intro same
        exact new (congrArg Prod.snd same).symm
      have none : [(AuditEventType.USER_REGISTERED, user.id),
          (.USER_REGISTERED, user.id)].count (.USER_REGISTERED, id) = 0 := by
        rw [List.count_cons_of_ne other, List.count_cons_of_ne other, List.count_nil]
      rw [none]
      simp [new]

theorem sessions_step (sound : Sound config initial s) (outcome : Outcome config s t) (id : UserId)
    (session : id ∈ t.sessions) : id ∈ t.users.rows.map UserRow.id ∨
      id ∈ t.flushed.map UserRow.id ∨ id ∈ t.abandoned := by
  cases outcome with
  | flushed was free =>
      rcases sound.sessions id session with stored | held | gone
      · exact .inl stored
      · dsimp only
        rw [List.map_append]
        exact .inr (.inl (List.mem_append_left _ held))
      · exact .inr (.inr gone)
  | @saved request user was =>
      rcases List.mem_append.mp session with old | new
      · exact sound.sessions id old
      · rw [List.mem_singleton.mp new]
        have held := sound.inserted request user (.inl was)
        exact .inr (.inl (List.mem_map_of_mem held))
  | @committed request user users phase was inserted answer =>
      dsimp only
      rw [(Table.insert_eq_some inserted).2, List.map_append]
      rcases sound.sessions id session with stored | held | gone
      · exact .inl (List.mem_append_left _ stored)
      · obtain ⟨row, inside, rfl⟩ := List.mem_map.mp held
        by_cases same : row.id = user.id
        · rw [same]
          exact .inl (List.mem_append_right _ (List.mem_singleton_self _))
        · refine .inr (.inl (List.mem_map_of_mem (List.mem_filter.mpr ⟨inside, ?_⟩)))
          exact decide_eq_true same
      · exact .inr (.inr gone)
  | @givenUp request user was =>
      rcases sound.sessions id session with stored | held | gone
      · exact .inl stored
      · obtain ⟨row, inside, rfl⟩ := List.mem_map.mp held
        by_cases same : row.id = user.id
        · rw [same]
          exact .inr (.inr (List.mem_append_right _ (List.mem_singleton_self _)))
        · refine .inr (.inl (List.mem_map_of_mem (List.mem_filter.mpr ⟨inside, ?_⟩)))
          exact decide_eq_true same
      · exact .inr (.inr (List.mem_append_left _ gone))
  | @verified request user password was =>
      rcases List.mem_append.mp session with old | new
      · exact sound.sessions id old
      · rw [List.mem_singleton.mp new]
        exact .inl (stored_id (sound.known request user (by rw [was, Phase.account])))
  | changed userId passwordHash =>
      have same := (outcome_subset (@Outcome.changed config s userId passwordHash)).subset
      rcases sound.sessions id session with stored | held
      · rw [map_ids] at stored
        apply Or.inl
        rw [map_ids]
        exact List.map_subset Prod.fst same stored
      · exact .inr held
  | _ => exact sound.sessions id session

theorem sound_step {action : Action} (sound : Sound config initial s)
    (taken : step config s action = some t) : Sound config initial t := by
  have outcome := step_outcome taken
  constructor
  · exact held_step sound outcome
  · exact generated_step sound outcome
  · exact retired_step sound outcome
  · exact fresh_step sound outcome
  · exact inserted_step sound outcome
  · exact distinct_step sound outcome
  · exact stays_step sound outcome
  · exact known_step sound outcome
  · exact answered_step sound outcome
  · exact audited_step sound outcome
  · exact sessions_step sound outcome

end Steps

theorem sound_start {config : Config} {users : Table UserRow.id}
    (apart : users.rows.Pairwise fun first second => ¬Clash config first second) :
    Sound config (users.rows.map UserRow.id) (.start users) := by
  have rows : (State.start users).users.rows ++ (State.start users).flushed = users.rows :=
    List.append_nil _
  constructor
  · rw [rows]
    exact apart
  · rw [rows]
    intro row member
    exact List.mem_map_of_mem member
  · intro id gone
    cases gone
  · intro request user pending
    cases pending
  · intro request user there
    rcases there with there | there
    · cases there
    · cases there
  · intro first second left right _ pending
    cases pending
  · exact fun _ early => early
  · intro request user account
    cases account
  · intro first second left right _ answer
    cases answer
  · intro id
    symm
    apply if_neg
    exact fun both => both.2 both.1
  · intro id session
    cases session

/-- What a later state shows of an earlier one: no account has changed but for its password, and
the audit events are still there. -/
structure Continues (s t : State) : Prop where
  accounts : s.users.rows.map identity <+: t.users.rows.map identity
  audit : s.audit <+: t.audit

theorem continues_refl (s : State) : Continues s s := ⟨List.prefix_refl _, List.prefix_refl _⟩

theorem continues_trans {s t u : State} (first : Continues s t) (second : Continues t u) :
    Continues s u :=
  ⟨first.accounts.trans second.accounts, first.audit.trans second.audit⟩

theorem continues_step {config : Config} {s t : State} {action : Action}
    (taken : step config s action = some t) : Continues s t where
  accounts := outcome_subset (step_outcome taken)
  audit := by
    cases step_outcome taken with
    | committed was stored answer => exact List.prefix_append _ _
    | loggedIn was answer recorded =>
        rcases recorded with rfl | rfl
        · exact List.prefix_append _ _
        · exact List.prefix_refl _
    | _ => exact List.prefix_refl _

/-- `str.lower` and `lower` of the letters that ASCII has, and a hasher that keeps passwords. -/
def plain : Config where
  lower := fun value => value.map fun c => if 65 ≤ c ∧ c ≤ 90 then c + 32 else c
  databaseLower := fun value => value.map fun c => if 65 ≤ c ∧ c ≤ 90 then c + 32 else c
  verify := fun password hash => password.value == hash

/-- The same e-mail, written in two ways, is registered by two requests at a time: the second
waits, and its statement is refused when the first is committed. Then the user logs in. -/
def race : List Action :=
  [.getByEmail 0 (text "Ana@mail.org") "long enough",
    .getByEmail 1 (text "ana@MAIL.org") "another one", .hash 0 ⟨1⟩ "long enough" 5,
    .hash 1 ⟨2⟩ "another one" 6, .flush 0, .saveSession 0, .commit 0 .committed, .flush 1,
    .findAccount 2 (text " ANA@mail.org") "long enough", .verify 2, .commitLogin 2 .committed]

end Yomochi.Users.Registration
