import Yomochi.Listing.Timelines
import Yomochi.Users.Credentials

/-! Registrations and logins beside one another, a statement a step. An INSERT that is not
committed yet holds its keys, and another one of the same keys waits for it. -/

namespace Yomochi.Users.Registration

open Foundation
open Listing (AuditEventType)

structure InvalidEmailError where
  value : Text
  deriving DecidableEq

/-- `_EMAIL_RE`: no blanks, one `@` behind some text, and a dot with text on both sides of it
behind the `@`. -/
def matchesEmail (value : Text) : Bool :=
  match value.splitOn '@'.toNat with
  | [front, domain] =>
      !front.isEmpty && !value.any isSpace && (domain.drop 1).dropLast.contains '.'.toNat
  | _ => false

structure StorageError where
  deriving DecidableEq

structure Email where
  value : Text
  matched : matchesEmail value = true
  deriving DecidableEq

/-- `Email(value)`, with `str.lower`. -/
def Email.of (lower : Text → Text) (value : Text) : Except InvalidEmailError Email :=
  if matched : matchesEmail (lower (strip value)) = true then .ok ⟨lower (strip value), matched⟩
  else .error ⟨lower (strip value)⟩

structure UserRow where
  id : UserId
  email : Email
  passwordHash : String
  createdAt : Timestamp
  deriving DecidableEq

/-- `lower` is `str.lower`, `databaseLower` the `lower` of the index `uq_users_email_lower`, and
`verify` that of the password hasher. -/
structure Config where
  lower : Text → Text
  databaseLower : Text → Text
  verify : RawPassword → String → Bool

/-- Two rows with a key in common: `pk_users`, `ix_users_email` or `uq_users_email_lower`. -/
def Clash (config : Config) (first second : UserRow) : Prop :=
  first.id = second.id ∨ first.email = second.email ∨
    config.databaseLower first.email.value = config.databaseLower second.email.value

instance (config : Config) (first second : UserRow) : Decidable (Clash config first second) :=
  inferInstanceAs (Decidable (_ ∨ _ ∨ _))

inductive Phase
  | arrived
  | checked (email : Email) (password : RawPassword)
  | hashed (user : UserRow)
  | flushed (user : UserRow)
  | saved (user : UserRow)
  | registered (user : UserRow)
  | found (user : UserRow) (password : RawPassword)
  | verified (user : UserRow)
  | signedIn (user : UserRow)
  | done

/-- The user that a registration has made, and that is not committed or given up. -/
def Phase.pending : Phase → Option UserRow
  | .hashed user | .flushed user | .saved user => some user
  | _ => none

/-- `generated` holds the ids that the generator has given, `flushed` the rows of open transactions,
`sessions` the users of the sessions that were saved, and `abandoned` the users of transactions that
were rolled back. -/
structure State where
  users : Table UserRow.id
  requests : RequestId → Phase
  generated : List UserId
  flushed : List UserRow
  sessions : List UserId
  abandoned : List UserId
  audit : List (AuditEventType × UserId)

def State.start (users : Table UserRow.id) : State :=
  ⟨users, fun _ => .arrived, users.rows.map UserRow.id, [], [], [], []⟩

inductive Action
  | getByEmail (request : RequestId) (email : Text) (password : String)
  | hash (request : RequestId) (id : UserId) (passwordHash : String) (createdAt : Timestamp)
  | flush (request : RequestId)
  | saveSession (request : RequestId)
  | commit (request : RequestId) (outcome : CommitOutcome)
  | rollback (request : RequestId)
  | findAccount (request : RequestId) (email : Text) (password : String)
  | verify (request : RequestId)
  | commitLogin (request : RequestId) (outcome : CommitOutcome)
  | changePassword (userId : UserId) (passwordHash : String)

namespace State

def setPhase (s : State) (request : RequestId) (phase : Phase) : State :=
  { s with requests := Function.update s.requests request phase }

/-- `get_by_email` sees what is committed. The server takes no text with a zero in it. -/
def getByEmail (s : State) (email : Email) : Except StorageError (Option UserRow) :=
  if email.value.contains 0 then .error ⟨⟩
  else .ok (s.users.rows.find? fun row => row.email = email)

def release (s : State) (user : UserRow) : State :=
  { s with flushed := s.flushed.filter fun row => row.id ≠ user.id }

def giveUp (s : State) (request : RequestId) (user : UserRow) : State :=
  { (s.release user).setPhase request .done with abandoned := s.abandoned ++ [user.id] }

end State

/-- `CreateUserUseCase` up to its lookup. -/
def check (config : Config) (s : State) (request : RequestId) (email : Text) (password : String) :
    State :=
  match Email.of config.lower email, RawPassword.of password with
  | .ok email, .ok password =>
      match s.getByEmail email with
      | .ok none => s.setPhase request (.checked email password)
      | _ => s.setPhase request .done
  | _, _ => s.setPhase request .done

/-- `save` of the repository, with its flush. -/
def flush (config : Config) (s : State) (request : RequestId) (user : UserRow) : Option State :=
  if user.email.value.length > 254 ∨ ∃ row ∈ s.users.rows, Clash config row user then
    some (s.setPhase request .done)
  else if ∃ row ∈ s.flushed, Clash config row user then none
  else some { s.setPhase request (.flushed user) with flushed := s.flushed ++ [user] }

/-- The commit of a registration: the use case and the controller have each recorded the event. -/
def commit (s : State) (request : RequestId) (user : UserRow) (outcome : CommitOutcome) : State :=
  if outcome.applied then
    match s.users.insert user with
    | none => s.giveUp request user
    | some users =>
        { (s.release user).setPhase request
            (match outcome with
            | .committed => .registered user
            | .raised _ _ => .done) with
          users := users
          audit := s.audit ++
            [(.USER_REGISTERED, user.id), (.USER_REGISTERED, user.id)] }
  else s.giveUp request user

/-- `LoginUseCase` up to its lookup. -/
def findAccount (config : Config) (s : State) (request : RequestId) (email : Text)
    (password : String) : State :=
  match Email.of config.lower email, RawPassword.of password with
  | .ok email, .ok password =>
      match s.getByEmail email with
      | .ok (some user) => s.setPhase request (.found user password)
      | _ => s.setPhase request .done
  | _, _ => s.setPhase request .done

/-- The check of the hash that was read; a login that passes it saves its session. -/
def verify (config : Config) (s : State) (request : RequestId) (user : UserRow)
    (password : RawPassword) : State :=
  if config.verify password user.passwordHash then
    { s.setPhase request (.verified user) with sessions := s.sessions ++ [user.id] }
  else s.setPhase request .done

def commitLogin (s : State) (request : RequestId) (user : UserRow) (outcome : CommitOutcome) :
    State :=
  { s.setPhase request
      (match outcome with
      | .committed => .signedIn user
      | .raised _ _ => .done) with
    audit := if outcome.applied then s.audit ++ [(.USER_LOGIN, user.id)] else s.audit }

def setHash (passwordHash : String) (row : UserRow) : UserRow :=
  { row with passwordHash := passwordHash }

theorem set_hash_id (passwordHash : String) (row : UserRow) :
    (setHash passwordHash row).id = row.id := rfl

def step (config : Config) (s : State) : Action → Option State
  | .getByEmail request email password =>
      match s.requests request with
      | .arrived => some (check config s request email password)
      | _ => none
  | .hash request id passwordHash createdAt =>
      match s.requests request with
      | .checked email _ =>
          if id ∈ s.generated then none
          else
            some { s.setPhase request (.hashed ⟨id, email, passwordHash, createdAt⟩) with
              generated := s.generated ++ [id] }
      | _ => none
  | .flush request =>
      match s.requests request with
      | .hashed user => flush config s request user
      | _ => none
  | .saveSession request =>
      match s.requests request with
      | .flushed user =>
          some { s.setPhase request (.saved user) with sessions := s.sessions ++ [user.id] }
      | _ => none
  | .commit request outcome =>
      match s.requests request with
      | .saved user => some (commit s request user outcome)
      | _ => none
  | .rollback request =>
      match s.requests request with
      | .flushed user | .saved user => some (s.giveUp request user)
      | .registered _ | .signedIn _ | .done => none
      | _ => some (s.setPhase request .done)
  | .findAccount request email password =>
      match s.requests request with
      | .arrived => some (findAccount config s request email password)
      | _ => none
  | .verify request =>
      match s.requests request with
      | .found user password => some (verify config s request user password)
      | _ => none
  | .commitLogin request outcome =>
      match s.requests request with
      | .verified user => some (commitLogin s request user outcome)
      | _ => none
  | .changePassword userId passwordHash =>
      some { s with users :=
        s.users.updateAt userId (setHash passwordHash) (set_hash_id passwordHash) }

/-! What a step can do. -/

inductive Turns (s : State) : Phase → Prop
  | done : Turns s .done
  | checked (email : Email) (password : RawPassword) : Turns s (.checked email password)
  | found {user : UserRow} (password : RawPassword) (stored : user ∈ s.users.rows) :
      Turns s (.found user password)

inductive Outcome (config : Config) (s : State) : State → Prop
  | turned {request : RequestId} {phase : Phase} (turns : Turns s phase) :
      Outcome config s (s.setPhase request phase)
  | hashed {request : RequestId} {user : UserRow} (unused : user.id ∉ s.generated) :
      Outcome config s { s.setPhase request (.hashed user) with
        generated := s.generated ++ [user.id] }
  | flushed {request : RequestId} {user : UserRow} (was : s.requests request = .hashed user)
      (free : ∀ row ∈ s.users.rows ++ s.flushed, ¬Clash config row user) :
      Outcome config s
        { s.setPhase request (.flushed user) with flushed := s.flushed ++ [user] }
  | saved {request : RequestId} {user : UserRow} (was : s.requests request = .flushed user) :
      Outcome config s
        { s.setPhase request (.saved user) with sessions := s.sessions ++ [user.id] }
  | committed {request : RequestId} {user : UserRow} {users : Table UserRow.id} {phase : Phase}
      (was : s.requests request = .saved user) (stored : s.users.insert user = some users)
      (answer : phase = .registered user ∨ phase = .done) :
      Outcome config s
        { (s.release user).setPhase request phase with
          users := users
          audit := s.audit ++ [(.USER_REGISTERED, user.id), (.USER_REGISTERED, user.id)] }
  | givenUp {request : RequestId} {user : UserRow}
      (was : s.requests request = .flushed user ∨ s.requests request = .saved user) :
      Outcome config s (s.giveUp request user)
  | verified {request : RequestId} {user : UserRow} {password : RawPassword}
      (was : s.requests request = .found user password) :
      Outcome config s
        { s.setPhase request (.verified user) with sessions := s.sessions ++ [user.id] }
  | loggedIn {request : RequestId} {user : UserRow} {phase : Phase}
      {audit : List (AuditEventType × UserId)} (was : s.requests request = .verified user)
      (answer : phase = .signedIn user ∨ phase = .done)
      (recorded : audit = s.audit ++ [(.USER_LOGIN, user.id)] ∨ audit = s.audit) :
      Outcome config s { s.setPhase request phase with audit := audit }
  | changed (userId : UserId) (passwordHash : String) :
      Outcome config s
        { s with
          users := s.users.updateAt userId (setHash passwordHash) (set_hash_id passwordHash) }

section Outcomes

variable {config : Config} {s t : State}

theorem check_outcome (request : RequestId) (email : Text) (password : String) :
    Outcome config s (check config s request email password) := by
  unfold check
  split
  · split
    · exact .turned (.checked _ _)
    · exact .turned .done
  · exact .turned .done

theorem find_outcome (request : RequestId) (email : Text) (password : String) :
    Outcome config s (findAccount config s request email password) := by
  unfold findAccount
  split
  · split
    · rename_i found
      apply Outcome.turned
      apply Turns.found
      unfold State.getByEmail at found
      split at found
      · cases found
      · exact List.mem_of_find?_eq_some (Except.ok.inj found)
    · exact .turned .done
  · exact .turned .done

theorem flush_outcome {request : RequestId} {user : UserRow}
    (was : s.requests request = .hashed user) (taken : flush config s request user = some t) :
    Outcome config s t := by
  unfold flush at taken
  split at taken
  · cases taken
    exact .turned .done
  · rename_i fits
    split at taken
    · cases taken
    · rename_i free
      cases taken
      apply Outcome.flushed was
      intro row member clash
      rcases List.mem_append.mp member with stored | held
      · exact fits (.inr ⟨row, stored, clash⟩)
      · exact free ⟨row, held, clash⟩

theorem commit_outcome {request : RequestId} {user : UserRow}
    (was : s.requests request = .saved user) (outcome : CommitOutcome) :
    Outcome config s (commit s request user outcome) := by
  unfold commit
  split
  · split
    · exact .givenUp (.inr was)
    · rename_i stored
      apply Outcome.committed was stored
      cases outcome with
      | committed => exact .inl rfl
      | raised applied error => exact .inr rfl
  · exact .givenUp (.inr was)

theorem verify_outcome {request : RequestId} {user : UserRow} {password : RawPassword}
    (was : s.requests request = .found user password) :
    Outcome config s (verify config s request user password) := by
  unfold verify
  split
  · exact .verified was
  · exact .turned .done

theorem login_outcome {request : RequestId} {user : UserRow}
    (was : s.requests request = .verified user) (outcome : CommitOutcome) :
    Outcome config s (commitLogin s request user outcome) := by
  apply Outcome.loggedIn was
  · cases outcome with
    | committed => exact .inl rfl
    | raised applied error => exact .inr rfl
  · split
    · exact .inl rfl
    · exact .inr rfl

theorem step_outcome {action : Action} (taken : step config s action = some t) :
    Outcome config s t := by
  cases action with
  | getByEmail request email password =>
      simp only [step] at taken
      split at taken
      · cases taken
        exact check_outcome request email password
      · cases taken
  | hash request id passwordHash createdAt =>
      simp only [step] at taken
      split at taken
      · rename_i email password was
        split at taken
        · cases taken
        · rename_i unused
          cases taken
          exact @Outcome.hashed config s request ⟨id, email, passwordHash, createdAt⟩ unused
      · cases taken
  | flush request =>
      simp only [step] at taken
      split at taken
      · rename_i user was
        exact flush_outcome was taken
      · cases taken
  | saveSession request =>
      simp only [step] at taken
      split at taken
      · rename_i user was
        cases taken
        exact .saved was
      · cases taken
  | commit request outcome =>
      simp only [step] at taken
      split at taken
      · rename_i user was
        cases taken
        exact commit_outcome was outcome
      · cases taken
  | rollback request =>
      simp only [step] at taken
      split at taken
      · rename_i user was
        cases taken
        exact .givenUp (.inl was)
      · rename_i user was
        cases taken
        exact .givenUp (.inr was)
      · cases taken
      · cases taken
      · cases taken
      · cases taken
        exact .turned .done
  | findAccount request email password =>
      simp only [step] at taken
      split at taken
      · cases taken
        exact find_outcome request email password
      · cases taken
  | verify request =>
      simp only [step] at taken
      split at taken
      · rename_i user password was
        cases taken
        exact verify_outcome was
      · cases taken
  | commitLogin request outcome =>
      simp only [step] at taken
      split at taken
      · rename_i user was
        cases taken
        exact login_outcome was outcome
      · cases taken
  | changePassword userId passwordHash =>
      cases taken
      exact .changed userId passwordHash

end Outcomes

end Yomochi.Users.Registration
