import Yomochi.Users.Credentials

/-! How often a password-reset token changes the password. -/

namespace Yomochi.Users

open Foundation

/-- No token has been used by two committed resets. -/
def SingleUse (s : State) : Prop := s.confirmed.Nodup

/-- A reset that commits finds its token still stored, so that its DELETE deletes it. -/
def TokenStored (s : State) : Action → Prop
  | .commit request => ∀ id ∈ (s.requests request).token, s.tokens.get id ≠ none
  | _ => True

/-- The tokens that resets have used are gone, and those they are about to use are there unless
one of them has. -/
structure Accounted (s : State) : Prop where
  used : ∀ id ∈ s.confirmed, s.tokens.get id = none
  known : ∀ request id, (s.requests request).token = some id →
    s.tokens.get id ≠ none ∨ id ∈ s.confirmed

theorem accounted_start (users : Table User.id) : Accounted (.start users) where
  used := fun _ member => by cases member
  known := fun _ _ found => by cases found

section

variable {s : State} {request : RequestId}

theorem accounted_started {token : PasswordResetToken} {tokens : Table PasswordResetToken.id}
    (accounted : Accounted s) (fresh : token.id ∉ s.confirmed)
    (inserted : s.tokens.insert token = some tokens) :
    Accounted { s with tokens := tokens } where
  used := by
    intro id member
    have different : token.id ≠ id := by
      rintro rfl
      exact fresh member
    rw [Table.get_insert inserted, if_neg different]
    exact accounted.used id member
  known := by
    intro request id found
    rcases accounted.known request id found with stored | used
    · left
      rw [Table.get_insert inserted]
      split
      · simp
      · exact stored
    · exact .inr used

theorem accounted_set_phase {phase : Phase} (accounted : Accounted s)
    (known : ∀ id, phase.token = some id → s.tokens.get id ≠ none ∨ id ∈ s.confirmed) :
    Accounted (s.setPhase request phase) where
  used := accounted.used
  known := by
    apply set_phase_all (P := fun _ p => ∀ id, p.token = some id →
      s.tokens.get id ≠ none ∨ id ∈ s.confirmed)
    · intro other _
      exact accounted.known other
    · exact known

theorem accounted_committed {write : PasswordWrite} (accounted : Accounted s) (users : Table User.id)
    (versions : UserId → Nat) :
    Accounted ((({ s with
      users := users
      tokens := s.tokens.delete fun token => some token.id = write.token
      versions := versions
      confirmed := s.confirmed ++ write.token.toList } : State).unlock request).setPhase
        request .done) := by
  apply accounted_set_phase
  · constructor
    · intro id member
      change (s.tokens.delete _).get id = none
      rw [Table.get_delete]
      cases stored : s.tokens.get id with
      | none => rfl
      | some token =>
          rcases List.mem_append.mp member with earlier | last
          · cases stored.symm.trans (accounted.used id earlier)
          · have addressed : write.token = some id := by simpa using last
            simp [Option.filter, addressed, Table.key_of_get stored]
    · intro other id found
      change (s.tokens.delete _).get id ≠ none ∨ id ∈ s.confirmed ++ write.token.toList
      by_cases addressed : write.token = some id
      · exact .inr (List.mem_append_right _ (by simp [addressed]))
      · rcases accounted.known other id found with stored | used
        · left
          obtain ⟨token, here⟩ := Option.ne_none_iff_exists'.mp stored
          have kept : ¬ some token.id = write.token := by
            rw [Table.key_of_get here]
            exact fun same => addressed same.symm
          rw [Table.get_delete, here]
          simp [Option.filter, kept]
        · exact .inr (List.mem_append_left _ used)
  · intro id found
    cases found

theorem accounted_step (config : Config) (s : State) (a : Action) (t : State)
    (taken : step config s a = some t) (accounted : Accounted s) : Accounted t := by
  cases step_effect taken with
  | passed elapsed => exact ⟨accounted.used, accounted.known⟩
  | started fresh inserted => exact accounted_started accounted fresh inserted
  | @moved _ request _ plain lock known covers =>
      apply accounted_set_phase accounted
      intro id found
      rcases known id found with before | stored
      · exact accounted.known request id before
      · exact .inl stored
  | loggedIn verified past =>
      refine accounted_set_phase ⟨accounted.used, accounted.known⟩ ?_
      intro id found
      cases found
  | @locked _ request write plain hashed free =>
      refine accounted_set_phase ⟨accounted.used, accounted.known⟩ ?_
      intro id found
      exact accounted.known request id (by rw [hashed]; exact found)
  | @deleted request write ids read =>
      refine accounted_set_phase ⟨accounted.used, accounted.known⟩ ?_
      intro id found
      exact accounted.known request id (by rw [read]; exact found)
  | committed revoked => exact accounted_committed accounted _ _
  | rolledBack request =>
      refine accounted_set_phase ⟨accounted.used, accounted.known⟩ ?_
      intro id found
      cases found

/-- A commit uses its token up, which is the first time exactly when the token is stored. -/
theorem single_use_commit {write : PasswordWrite} (accounted : Accounted s)
    (revoked : s.requests request = .revoked write) (single : SingleUse s) :
    (s.confirmed ++ write.token.toList).Nodup ↔ TokenStored s (.commit request) := by
  have single : s.confirmed.Nodup := single
  simp only [TokenStored, revoked, Phase.token]
  cases reset : write.token with
  | none => simpa using single
  | some id =>
      have fresh : id ∉ s.confirmed ↔ s.tokens.get id ≠ none := by
        constructor
        · intro unused
          have known := accounted.known request id (by rw [revoked]; exact reset)
          exact known.resolve_right unused
        · intro stored used
          exact stored (accounted.used id used)
      have apart : (s.confirmed ++ [id]).Nodup ↔ id ∉ s.confirmed := by
        rw [List.nodup_append]
        constructor
        · intro nodup member
          exact nodup.2.2 id member id (List.mem_singleton_self id) rfl
        · intro unused
          refine ⟨single, List.nodup_singleton id, ?_⟩
          rintro other member last same rfl
          exact unused (List.mem_singleton.mp same ▸ member)
      simpa [apart] using fresh

theorem single_use_step (config : Config) (s : State) (a : Action) (t : State)
    (taken : step config s a = some t) (accounted : Accounted s) (single : SingleUse s) :
    SingleUse t ↔ TokenStored s a := by
  cases step_effect taken with
  | committed revoked => exact single_use_commit accounted revoked single
  | moved plain lock known covers =>
      cases a with
      | commit request => cases plain
      | _ => exact ⟨fun _ => trivial, fun _ => single⟩
  | locked plain hashed free =>
      cases a with
      | commit request => cases plain
      | _ => exact ⟨fun _ => trivial, fun _ => single⟩
  | _ => exact ⟨fun _ => trivial, fun _ => single⟩

end

/-- In a run no token is used twice exactly when every reset that commits finds its token still
stored. -/
theorem single_use_iff (config : Config) (users : Table User.id) (actions : List Action) (s : State)
    (reached : run (step config) (.start users) actions = some s) :
    Visits (step config) SingleUse (.start users) actions ↔
      Along (step config) TokenStored (.start users) actions :=
  visits_iff_along (accounted_step config) (single_use_step config) reached (accounted_start users)
    List.nodup_nil

def mailed : PasswordResetToken := ⟨⟨5⟩, ⟨7⟩, "token", 3600 * second⟩

def doubleReset : List Action :=
  [.startPasswordReset mailed, .getValid 0 "token" "firstpass1" 0, .getValid 1 "token" "secondpass1" 0,
    .getUser 0, .hash 0 "firstpass1", .saveUser 0, .invalidate 0, .zrange 0, .commit 0,
    .getUser 1, .hash 1 "secondpass1", .saveUser 1, .invalidate 1, .zrange 1, .commit 1]

theorem double_reset_reached : ∃ s, run (step plaintext) (.start aliceOnly) doubleReset = some s ∧
    s.confirmed = [mailed.id, mailed.id] := by
  have ends : (run (step plaintext) (.start aliceOnly) doubleReset).any (fun s =>
      decide (s.confirmed = [mailed.id, mailed.id])) = true := by
    decide +kernel
  obtain ⟨s, reached, twice⟩ := (Option.any_eq_true _ _).mp ends
  exact ⟨s, reached, of_decide_eq_true twice⟩

theorem single_use_iff_double_reset :
    Visits (step plaintext) SingleUse (.start aliceOnly) doubleReset ↔
      Along (step plaintext) TokenStored (.start aliceOnly) doubleReset := by
  obtain ⟨s, reached, _⟩ := double_reset_reached
  exact single_use_iff plaintext aliceOnly doubleReset s reached

theorem not_single_use : ¬ ∀ (config : Config) (users : Table User.id) (actions : List Action)
    (s : State), run (step config) (.start users) actions = some s → SingleUse s := by
  intro claimed
  obtain ⟨s, reached, twice⟩ := double_reset_reached
  have single := claimed plaintext aliceOnly doubleReset s reached
  rw [SingleUse, twice] at single
  exact absurd single (by decide)

end Yomochi.Users
