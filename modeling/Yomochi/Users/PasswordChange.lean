import Yomochi.Users.Credentials

/-! When a password change ends the sessions of the old password. -/

namespace Yomochi.Users

open Foundation

/-- Every session that is accepted was made by a login that read the user's row since the last
committed password change. -/
def NoOldSession (s : State) : Prop :=
  ∀ id userId session, s.redis.get s.clock id userId = some session →
    s.authenticated id = s.versions userId

/-- A login saves its session before the next password change of the user reads the index: no
change has been committed since the login read the row, and none that has read the index is on
its way. -/
def LoginsApart (s : State) : Action → Prop
  | .saveSession request _ _ _ _ _ => ∀ login ∈ (s.requests request).login,
      login.2 = s.versions login.1.id ∧
        ∀ holder ∈ s.locks login.1.id, (s.requests holder).covers = none
  | _ => True

instance (s : State) : ∀ a, Decidable (LoginsApart s a)
  | .saveSession request _ _ _ _ _ =>
      inferInstanceAs (Decidable (∀ login ∈ (s.requests request).login,
        login.2 = s.versions login.1.id ∧
          ∀ holder ∈ s.locks login.1.id, (s.requests holder).covers = none))
  | .pass _ | .startPasswordReset _ | .getByEmail _ _ _ | .verifyLogin _ | .getById _ _ _ _
  | .verifyCurrent _ | .getValid _ _ _ _ | .getUser _ | .hash _ _ | .saveUser _ | .invalidate _
  | .zrange _ | .deleteAll _ | .commit _ | .rollback _ => .isTrue trivial

/-- A session is accepted until its key is gone or its end has passed. -/
def whileUsable (session : Session) (expiry : Timestamp) : Timestamp := min expiry session.expiresAt

/-- What holds along a run whose logins keep apart from the password changes. -/
structure Current (s : State) : Prop where
  lock : ∀ request userId, (s.requests request).locked = some userId → s.locks userId = some request
  covered : ∀ request userId ids, (s.requests request).covers = some (userId, ids) →
    Covered whileUsable s.redis s.clock userId ids
  indexed : Indexed whileUsable s.redis s.clock
  current : ∀ id session expiry, s.redis.sessions.entry id = some (session, expiry) →
    s.clock < whileUsable session expiry → s.authenticated id = s.versions session.userId

theorem current_start (users : Table User.id) : Current (.start users) where
  lock := fun _ _ held => by cases held
  covered := fun _ _ _ read => by cases read
  indexed := indexed_empty
  current := fun _ _ _ stored => by cases stored

theorem no_old_session_of_current (s : State) (current : Current s) : NoOldSession s := by
  intro id userId session found
  obtain ⟨here, accepted⟩ := Option.filter_eq_some_iff.mp found
  obtain ⟨expiry, stored, lives⟩ := Keys.get_eq_some.mp here
  obtain ⟨owner, usable⟩ := (Bool.and_eq_true_iff).mp accepted
  rw [← of_decide_eq_true owner]
  exact current.current id session expiry stored (Nat.lt_min.mpr ⟨lives, of_decide_eq_true usable⟩)

theorem locked_of_covers {phase : Phase} {userId : UserId} {ids : List SessionId}
    (covers : phase.covers = some (userId, ids)) : phase.locked = some userId := by
  cases phase with
  | indexRead write read =>
      cases covers
      rfl
  | revoked write =>
      cases covers
      rfl
  | _ => cases covers

section

variable {config : Config} {s : State} {request : RequestId}

theorem current_passed (current : Current s) (elapsed : Nat) :
    Current { s with clock := s.clock + elapsed } where
  lock := current.lock
  covered := fun request userId ids covers =>
    covered_later (current.covered request userId ids covers) (Nat.le_add_right _ _)
  indexed := indexed_later current.indexed (Nat.le_add_right _ _)
  current := by
    intro id session expiry stored lives
    exact current.current id session expiry stored (Nat.lt_of_le_of_lt (Nat.le_add_right _ _) lives)

theorem current_moved {phase : Phase} (current : Current s)
    (lock : phase.locked = (s.requests request).locked)
    (covers : ∀ userId ids, phase.covers = some (userId, ids) →
      ids = (s.redis.index userId).zrange) : Current (s.setPhase request phase) where
  lock := by
    apply set_phase_all (P := fun other p => ∀ userId, p.locked = some userId →
      s.locks userId = some other)
    · intro other _
      exact current.lock other
    · intro userId held
      exact current.lock request userId (lock.symm.trans held)
  covered := by
    apply set_phase_all (P := fun _ p => ∀ userId ids, p.covers = some (userId, ids) →
      Covered whileUsable s.redis s.clock userId ids)
    · intro other _
      exact current.covered other
    · intro userId ids read
      rw [covers userId ids read]
      exact covered_of_indexed current.indexed userId
  indexed := current.indexed
  current := current.current

theorem covered_logged_in {session : Session} {now : Timestamp} (current : Current s)
    (apart : ∀ holder ∈ s.locks session.userId, (s.requests holder).covers = none)
    {other : RequestId} {userId : UserId} {ids : List SessionId}
    (covers : (s.requests other).covers = some (userId, ids)) :
    Covered whileUsable (s.redis.save s.clock now session) s.clock userId ids := by
  apply covered_save (current.covered other userId ids covers)
  -- The request that has read the index holds the lock of its user.
  rintro - rfl
  have holds := current.lock other session.userId (locked_of_covers covers)
  cases covers.symm.trans (apart other holds)

theorem current_logged_in {session : Session} {version : Nat} {now : Timestamp} (current : Current s)
    (past : now ≤ s.clock) (latest : version = s.versions session.userId)
    (apart : ∀ holder ∈ s.locks session.userId, (s.requests holder).covers = none) :
    Current ((s.logIn session version now).setPhase request .done) where
  lock := by
    apply set_phase_all (P := fun other p => ∀ userId, p.locked = some userId →
      s.locks userId = some other)
    · intro other _
      exact current.lock other
    · intro userId held
      cases held
  covered := by
    apply set_phase_all (P := fun _ p => ∀ userId ids, p.covers = some (userId, ids) →
      Covered whileUsable (s.redis.save s.clock now session) s.clock userId ids)
    · intro other _ userId ids covers
      exact covered_logged_in current apart covers
    · intro userId ids covers
      cases covers
  indexed := by
    apply indexed_save current.indexed past
    intro _
    exact Nat.min_le_right _ _
  current := by
    intro id stored expiry found lives
    simp only [State.setPhase, State.logIn, Redis.save] at found ⊢
    split at found
    · rename_i dead
      rw [if_pos dead]
      exact current.current id stored expiry found lives
    · rename_i positive
      rw [if_neg positive]
      rw [Keys.entry_set] at found
      split at found
      · rename_i same
        cases found
        rw [same, Function.update_self]
        exact latest
      · rename_i different
        rw [Function.update_of_ne different]
        exact current.current id stored expiry found lives

theorem current_locked {write : PasswordWrite} (current : Current s)
    (free : s.locks write.userId = none) :
    Current (({ s with locks := Function.update s.locks write.userId (some request) } : State).setPhase
      request (.updated write)) where
  lock := by
    apply set_phase_all (P := fun other p => ∀ userId, p.locked = some userId →
      Function.update s.locks write.userId (some request) userId = some other)
    · intro other _ userId held
      have holds := current.lock other userId held
      have different : userId ≠ write.userId := by
        rintro rfl
        cases free.symm.trans holds
      rw [Function.update_of_ne different]
      exact holds
    · intro userId held
      cases held
      exact Function.update_self _ _ _
  covered := by
    apply set_phase_all (P := fun _ p => ∀ userId ids, p.covers = some (userId, ids) →
      Covered whileUsable s.redis s.clock userId ids)
    · intro other _
      exact current.covered other
    · intro userId ids covers
      cases covers
  indexed := current.indexed
  current := current.current

theorem current_deleted {write : PasswordWrite} {ids : List SessionId} (current : Current s)
    (read : s.requests request = .indexRead write ids) :
    Current (({ s with redis := s.redis.deleteAll write.userId ids } : State).setPhase request
      (.revoked write)) where
  lock := by
    apply set_phase_all (P := fun other p => ∀ userId, p.locked = some userId →
      s.locks userId = some other)
    · intro other _
      exact current.lock other
    · intro userId held
      exact current.lock request userId (by rw [read]; exact held)
  covered := by
    apply set_phase_all (P := fun _ p => ∀ userId others, p.covers = some (userId, others) →
      Covered whileUsable (s.redis.deleteAll write.userId ids) s.clock userId others)
    · intro other _ userId others covers
      exact covered_delete_all (current.covered other userId others covers) _ _
    · intro userId others covers
      cases covers
      exact covered_nil_delete_all (current.covered request write.userId ids (by rw [read]; rfl))
  indexed :=
    indexed_delete_all current.indexed (current.covered request write.userId ids (by rw [read]; rfl))
  current := by
    intro id session expiry stored lives
    exact current.current id session expiry (Keys.entry_delete_eq_some.mp stored).2 lives

/-- The locks of the others outlive the end of a transaction. -/
theorem lock_unlock (current : Current s) {other : RequestId} (different : other ≠ request)
    {userId : UserId} (held : (s.requests other).locked = some userId) :
    (s.unlock request).locks userId = some other := by
  have holds := current.lock other userId held
  simp [State.unlock, holds, different]

theorem current_rolled_back (current : Current s) :
    Current ((s.unlock request).setPhase request .done) where
  lock := by
    apply set_phase_all (P := fun other p => ∀ userId, p.locked = some userId →
      (s.unlock request).locks userId = some other)
    · intro other different userId held
      exact lock_unlock current different held
    · intro userId held
      cases held
  covered := by
    apply set_phase_all (P := fun _ p => ∀ userId ids, p.covers = some (userId, ids) →
      Covered whileUsable s.redis s.clock userId ids)
    · intro other _
      exact current.covered other
    · intro userId ids covers
      cases covers
  indexed := current.indexed
  current := current.current

theorem current_committed {write : PasswordWrite} (current : Current s)
    (revoked : s.requests request = .revoked write) (users : Table User.id)
    (tokens : Table PasswordResetToken.id) (confirmed : List PasswordResetTokenId) :
    Current ((({ s with
      users := users
      tokens := tokens
      versions := Function.update s.versions write.userId (s.versions write.userId + 1)
      confirmed := confirmed } : State).unlock request).setPhase request .done) where
  lock := (current_rolled_back current).lock
  covered := (current_rolled_back current).covered
  indexed := current.indexed
  current := by
    intro id session expiry stored lives
    -- No session of the user is left to be an old one.
    have different : session.userId ≠ write.userId := by
      intro same
      have gone := current.covered request write.userId [] (by rw [revoked]; rfl)
      exact List.not_mem_nil (gone id session expiry stored lives same)
    simp only [State.setPhase, State.unlock, Function.update_of_ne different]
    exact current.current id session expiry stored lives

theorem current_step (config : Config) (s : State) (a : Action) (t : State)
    (apart : LoginsApart s a) (taken : step config s a = some t) (current : Current s) :
    Current t := by
  cases step_effect taken with
  | passed elapsed => exact current_passed current elapsed
  | started fresh inserted => exact ⟨current.lock, current.covered, current.indexed, current.current⟩
  | moved plain lock known covers => exact current_moved current lock covers
  | @loggedIn request user version _ _ _ _ _ verified past =>
      have login : (user, version) ∈ (s.requests request).login := by rw [verified]; rfl
      obtain ⟨latest, free⟩ := apart (user, version) login
      exact current_logged_in current past latest free
  | locked plain hashed free => exact current_locked current free
  | deleted read => exact current_deleted current read
  | committed revoked => exact current_committed current revoked _ _ _
  | rolledBack request => exact current_rolled_back current

end

/-- When the logins keep apart from the password changes, no session of an old password is
left once a change is committed. -/
theorem no_old_session_of_apart (config : Config) (users : Table User.id) (actions : List Action)
    (along : Along (step config) LoginsApart (.start users) actions) :
    Visits (step config) NoOldSession (.start users) actions :=
  visits_of_along (current_step config) no_old_session_of_current along (current_start users)

/-- A login, a password change that revokes its session, and a login with the new password. -/
def changedRun : List Action :=
  [.getByEmail 0 "alice@example.com" "secret123", .verifyLogin 0,
    .saveSession 0 ⟨1⟩ 0 0 "laptop" "10.0.0.1",
    .getById 1 ⟨7⟩ "secret123" "brandnewpass1", .verifyCurrent 1, .hash 1 "brandnewpass1",
    .saveUser 1, .zrange 1, .deleteAll 1, .commit 1,
    .getByEmail 2 "alice@example.com" "brandnewpass1", .verifyLogin 2,
    .saveSession 2 ⟨2⟩ 0 0 "laptop" "10.0.0.1"]

theorem no_old_session_changed_run :
    Visits (step plaintext) NoOldSession (.start aliceOnly) changedRun :=
  no_old_session_of_apart plaintext aliceOnly changedRun (by decide +kernel)

/-- The login has verified the old password before the change, and saves its session after it. -/
def overtakenRun : List Action :=
  [.getByEmail 0 "alice@example.com" "secret123", .verifyLogin 0,
    .getById 1 ⟨7⟩ "secret123" "brandnewpass1", .verifyCurrent 1, .hash 1 "brandnewpass1",
    .saveUser 1, .zrange 1, .commit 1, .saveSession 0 ⟨1⟩ 0 0 "laptop" "10.0.0.1"]

theorem old_session_left : ¬ ∀ (config : Config) (users : Table User.id) (actions : List Action)
    (s : State), run (step config) (.start users) actions = some s → NoOldSession s := by
  intro claimed
  have left : (run (step plaintext) (.start aliceOnly) overtakenRun).any (fun s =>
      (s.redis.get s.clock ⟨1⟩ ⟨7⟩).isSome &&
        decide (s.authenticated ⟨1⟩ ≠ s.versions ⟨7⟩)) = true := by
    decide +kernel
  obtain ⟨s, reached, old⟩ := (Option.any_eq_true _ _).mp left
  obtain ⟨usable, different⟩ := (Bool.and_eq_true_iff).mp old
  obtain ⟨session, found⟩ := Option.isSome_iff_exists.mp usable
  exact of_decide_eq_true different (claimed plaintext aliceOnly overtakenRun s reached _ _ session found)

end Yomochi.Users
