import Yomochi.Foundation.Runs
import Yomochi.Foundation.Table
import Yomochi.Users.Sessions

/-! Concurrent requests of `LoginUseCase`, `ChangePasswordUseCase` and
`ConfirmPasswordResetUseCase`. Each statement is one step, and sees what is committed. -/

namespace Yomochi.Users

open Foundation

structure WeakPasswordError where
  message : String
  deriving DecidableEq, Repr

structure RawPassword where
  value : String
  bounds : 8 ≤ value.length ∧ value.length ≤ 72
  deriving DecidableEq

def RawPassword.of (value : String) : Except WeakPasswordError RawPassword :=
  if short : value.length < 8 then .error ⟨"Password must be at least 8 characters"⟩
  else if long : 72 < value.length then .error ⟨"Password must be at most 72 characters"⟩
  else .ok ⟨value, Nat.le_of_not_lt short, Nat.le_of_not_lt long⟩

structure User where
  id : UserId
  email : String
  passwordHash : String
  deriving DecidableEq

structure PasswordResetTokenId where
  value : Uuid
  deriving DecidableEq, Repr

structure PasswordResetToken where
  id : PasswordResetTokenId
  userId : UserId
  tokenHash : String
  expiresAt : Timestamp
  deriving DecidableEq

structure Config where
  verify : RawPassword → String → Bool
  sha256 : String → String
  sessionTtl : Nat

structure PasswordWrite where
  userId : UserId
  newHash : String
  token : Option PasswordResetTokenId
  deriving DecidableEq

/-- How far a request has come. `version` counts the password changes of the user that were
committed when the login read the row. -/
inductive Phase
  | arrived
  | loggingIn (user : User) (version : Nat) (rawPassword : String)
  | loginVerified (user : User) (version : Nat)
  | changing (user : User) (currentPassword newPassword : String)
  | resetting (token : PasswordResetToken) (newPassword : String)
  | accepted (user : User) (newPassword : String) (token : Option PasswordResetTokenId)
  | hashed (write : PasswordWrite)
  | updated (write : PasswordWrite)
  | invalidated (write : PasswordWrite)
  | indexRead (write : PasswordWrite) (ids : List SessionId)
  | revoked (write : PasswordWrite)
  | done
  deriving DecidableEq

/-- `locks` are the row locks on `users`. `versions` counts the committed password changes,
`authenticated` tells for a session at which count its login read the row, and `confirmed` are
the tokens of the committed resets. -/
structure State where
  clock : Timestamp
  users : Table User.id
  tokens : Table PasswordResetToken.id
  redis : Redis
  locks : UserId → Option RequestId
  requests : RequestId → Phase
  versions : UserId → Nat
  authenticated : SessionId → Nat
  confirmed : List PasswordResetTokenId

def State.start (users : Table User.id) : State where
  clock := 0
  users := users
  tokens := .empty
  redis := .empty
  locks := fun _ => none
  requests := fun _ => .arrived
  versions := fun _ => 0
  authenticated := fun _ => 0
  confirmed := []

inductive Action
  | pass (elapsed : Nat)
  | startPasswordReset (token : PasswordResetToken)
  | getByEmail (request : RequestId) (email rawPassword : String)
  | verifyLogin (request : RequestId)
  | saveSession (request : RequestId) (id : SessionId) (issuedAt now : Timestamp)
      (userAgent ip : String)
  | getById (request : RequestId) (userId : UserId) (currentPassword newPassword : String)
  | verifyCurrent (request : RequestId)
  | getValid (request : RequestId) (token newPassword : String) (now : Timestamp)
  | getUser (request : RequestId)
  | hash (request : RequestId) (newHash : String)
  | saveUser (request : RequestId)
  | invalidate (request : RequestId)
  | zrange (request : RequestId)
  | deleteAll (request : RequestId)
  | commit (request : RequestId)
  | rollback (request : RequestId)

variable (config : Config)

def State.setPhase (s : State) (request : RequestId) (phase : Phase) : State :=
  { s with requests := Function.update s.requests request phase }

def startPasswordReset (s : State) (token : PasswordResetToken) : Option State :=
  if token.id ∈ s.confirmed ∨ (s.tokens.rows.any fun row => row.tokenHash = token.tokenHash) then none
  else (s.tokens.insert token).map fun tokens => { s with tokens := tokens }

/-- `get_by_email` of a login; without a row the credentials are invalid. -/
def getByEmail (s : State) (request : RequestId) (email rawPassword : String) : Option State :=
  if s.requests request = .arrived then
    match s.users.rows.find? fun user => user.email = email with
    | none => some (s.setPhase request .done)
    | some user => some (s.setPhase request (.loggingIn user (s.versions user.id) rawPassword))
  else none

def verifyLogin (s : State) (request : RequestId) : Option State :=
  match s.requests request with
  | .loggingIn user version rawPassword =>
      match RawPassword.of rawPassword with
      | .error _ => some (s.setPhase request .done)
      | .ok raw =>
          if config.verify raw user.passwordHash then
            some (s.setPhase request (.loginVerified user version))
          else some (s.setPhase request .done)
  | _ => none

def newSession (user : User) (id : SessionId) (issuedAt : Timestamp) (userAgent ip : String) :
    Session :=
  ⟨id, user.id, issuedAt + config.sessionTtl, userAgent, ip⟩

/-- The session is live with this step: what follows in a login only writes its audit event. -/
def State.logIn (s : State) (session : Session) (version : Nat) (now : Timestamp) : State :=
  { s with
    redis := s.redis.save s.clock now session
    authenticated :=
      if session.ttl now = 0 then s.authenticated
      else Function.update s.authenticated session.id version }

def saveSession (s : State) (request : RequestId) (id : SessionId) (issuedAt now : Timestamp)
    (userAgent ip : String) : Option State :=
  match s.requests request with
  | .loginVerified user version =>
      if issuedAt ≤ now ∧ now ≤ s.clock then
        some ((s.logIn (newSession config user id issuedAt userAgent ip) version now).setPhase
          request .done)
      else none
  | _ => none

def getById (s : State) (request : RequestId) (userId : UserId)
    (currentPassword newPassword : String) : Option State :=
  if s.requests request = .arrived then
    match s.users.get userId with
    | none => some (s.setPhase request .done)
    | some user => some (s.setPhase request (.changing user currentPassword newPassword))
  else none

def verifyCurrent (s : State) (request : RequestId) : Option State :=
  match s.requests request with
  | .changing user currentPassword newPassword =>
      match RawPassword.of currentPassword with
      | .error _ => some (s.setPhase request .done)
      | .ok current =>
          if config.verify current user.passwordHash then
            some (s.setPhase request (.accepted user newPassword none))
          else some (s.setPhase request .done)
  | _ => none

/-- `get_valid` reads the clock before, at `now`. -/
def getValid (s : State) (request : RequestId) (token newPassword : String) (now : Timestamp) :
    Option State :=
  if s.requests request = .arrived ∧ now ≤ s.clock then
    match s.tokens.rows.find? fun row =>
      decide (row.tokenHash = config.sha256 token) && decide (now < row.expiresAt) with
    | none => some (s.setPhase request .done)
    | some row => some (s.setPhase request (.resetting row newPassword))
  else none

def getUser (s : State) (request : RequestId) : Option State :=
  match s.requests request with
  | .resetting token newPassword =>
      match s.users.get token.userId with
      | none => some (s.setPhase request .done)
      | some user => some (s.setPhase request (.accepted user newPassword (some token.id)))
  | _ => none

/-- The hash of the new password is salted: it is never the old one. -/
def hash (s : State) (request : RequestId) (newHash : String) : Option State :=
  match s.requests request with
  | .accepted user newPassword token =>
      match RawPassword.of newPassword with
      | .error _ => some (s.setPhase request .done)
      | .ok _ =>
          if newHash = user.passwordHash then none
          else some (s.setPhase request (.hashed ⟨user.id, newHash, token⟩))
  | _ => none

/-- `save` flushes: the UPDATE waits for the row lock and takes it. A row that is gone is a
storage error. -/
def saveUser (s : State) (request : RequestId) : Option State :=
  match s.requests request with
  | .hashed write =>
      match s.users.get write.userId, s.locks write.userId with
      | none, _ => some (s.setPhase request .done)
      | some _, some _ => none
      | some _, none =>
          some (({ s with locks := Function.update s.locks write.userId (some request) } : State).setPhase
            request (.updated write))
  | _ => none

/-- The DELETE of the token of a reset. It does not ask how many rows it deleted. -/
def invalidate (s : State) (request : RequestId) : Option State :=
  match s.requests request with
  | .updated write =>
      if write.token = none then none else some (s.setPhase request (.invalidated write))
  | _ => none

def readIndex (s : State) (request : RequestId) (write : PasswordWrite) : State :=
  if (s.redis.index write.userId).zrange = [] then s.setPhase request (.revoked write)
  else s.setPhase request (.indexRead write (s.redis.index write.userId).zrange)

def zrange (s : State) (request : RequestId) : Option State :=
  match s.requests request with
  | .updated write => if write.token = none then some (readIndex s request write) else none
  | .invalidated write => some (readIndex s request write)
  | _ => none

def deleteAll (s : State) (request : RequestId) : Option State :=
  match s.requests request with
  | .indexRead write ids =>
      some (({ s with redis := s.redis.deleteAll write.userId ids } : State).setPhase request
        (.revoked write))
  | _ => none

def setHash (newHash : String) (user : User) : User := { user with passwordHash := newHash }

@[simp] theorem setHash_id (newHash : String) (user : User) : (setHash newHash user).id = user.id := rfl

def State.unlock (s : State) (request : RequestId) : State :=
  { s with locks := fun userId =>
      if s.locks userId = some request then none else s.locks userId }

/-- The end of the request scope applies the UPDATE and the DELETE. -/
def commit (s : State) (request : RequestId) : Option State :=
  match s.requests request with
  | .revoked write =>
      some (({ s with
        users := s.users.updateAt write.userId (setHash write.newHash) (setHash_id write.newHash)
        tokens := s.tokens.delete fun token => some token.id = write.token
        versions := Function.update s.versions write.userId (s.versions write.userId + 1)
        confirmed := s.confirmed ++ write.token.toList } : State).unlock request |>.setPhase request .done)
  | _ => none

/-- Anything raised on the way, and a commit that fails. -/
def rollback (s : State) (request : RequestId) : State :=
  (s.unlock request).setPhase request .done

def step (s : State) : Action → Option State
  | .pass elapsed => some { s with clock := s.clock + elapsed }
  | .startPasswordReset token => startPasswordReset s token
  | .getByEmail request email rawPassword => getByEmail s request email rawPassword
  | .verifyLogin request => verifyLogin config s request
  | .saveSession request id issuedAt now userAgent ip =>
      saveSession config s request id issuedAt now userAgent ip
  | .getById request userId currentPassword newPassword =>
      getById s request userId currentPassword newPassword
  | .verifyCurrent request => verifyCurrent config s request
  | .getValid request token newPassword now => getValid config s request token newPassword now
  | .getUser request => getUser s request
  | .hash request newHash => hash s request newHash
  | .saveUser request => saveUser s request
  | .invalidate request => invalidate s request
  | .zrange request => zrange s request
  | .deleteAll request => deleteAll s request
  | .commit request => commit s request
  | .rollback request => some (rollback s request)

/-! What a step can do. -/

namespace Phase

def locked : Phase → Option UserId
  | .updated write | .invalidated write | .indexRead write _ | .revoked write => some write.userId
  | _ => none

def token : Phase → Option PasswordResetTokenId
  | .resetting token _ => some token.id
  | .accepted _ _ token => token
  | .hashed write | .updated write | .invalidated write | .indexRead write _ | .revoked write =>
      write.token
  | _ => none

/-- The sessions that a `revoke_all` which has read the index leaves to delete. -/
def covers : Phase → Option (UserId × List SessionId)
  | .indexRead write ids => some (write.userId, ids)
  | .revoked write => some (write.userId, [])
  | _ => none

def login : Phase → Option (User × Nat)
  | .loginVerified user version => some (user, version)
  | _ => none

end Phase

/-- Neither the save of a session nor a commit. -/
def Action.Plain : Action → Prop
  | .saveSession _ _ _ _ _ _ | .commit _ => False
  | _ => True

variable {config}

inductive Effect (config : Config) (s : State) : Action → State → Prop
  | passed (elapsed : Nat) : Effect config s (.pass elapsed) { s with clock := s.clock + elapsed }
  | started {token : PasswordResetToken} {tokens : Table PasswordResetToken.id}
      (fresh : token.id ∉ s.confirmed) (inserted : s.tokens.insert token = some tokens) :
      Effect config s (.startPasswordReset token) { s with tokens := tokens }
  | moved {a : Action} {request : RequestId} {phase : Phase} (plain : a.Plain)
      (lock : phase.locked = (s.requests request).locked)
      (known : ∀ id, phase.token = some id →
        (s.requests request).token = some id ∨ s.tokens.get id ≠ none)
      (covers : ∀ userId ids, phase.covers = some (userId, ids) →
        ids = (s.redis.index userId).zrange) :
      Effect config s a (s.setPhase request phase)
  | loggedIn {request : RequestId} {user : User} {version : Nat} {id : SessionId}
      {issuedAt now : Timestamp} {userAgent ip : String}
      (verified : s.requests request = .loginVerified user version) (past : now ≤ s.clock) :
      Effect config s (.saveSession request id issuedAt now userAgent ip)
        ((s.logIn (newSession config user id issuedAt userAgent ip) version now).setPhase
          request .done)
  | locked {a : Action} {request : RequestId} {write : PasswordWrite} (plain : a.Plain)
      (hashed : s.requests request = .hashed write) (free : s.locks write.userId = none) :
      Effect config s a
        (({ s with locks := Function.update s.locks write.userId (some request) } : State).setPhase
          request (.updated write))
  | deleted {request : RequestId} {write : PasswordWrite} {ids : List SessionId}
      (read : s.requests request = .indexRead write ids) :
      Effect config s (.deleteAll request)
        (({ s with redis := s.redis.deleteAll write.userId ids } : State).setPhase request
          (.revoked write))
  | committed {request : RequestId} {write : PasswordWrite}
      (revoked : s.requests request = .revoked write) :
      Effect config s (.commit request)
        (({ s with
          users := s.users.updateAt write.userId (setHash write.newHash) (setHash_id write.newHash)
          tokens := s.tokens.delete fun token => some token.id = write.token
          versions := Function.update s.versions write.userId (s.versions write.userId + 1)
          confirmed := s.confirmed ++ write.token.toList } : State).unlock request |>.setPhase
            request .done)
  | rolledBack (request : RequestId) :
      Effect config s (.rollback request) ((s.unlock request).setPhase request .done)

section

variable {s t : State} {request : RequestId} {a : Action}

/-- A request that has updated no row yet may give up, and one that has found no token go on. -/
theorem idle_moved {phase : Phase} (plain : a.Plain)
    (idle : (s.requests request).locked = none) (free : phase.locked = none)
    (known : phase.token = none ∨ phase.token = (s.requests request).token) :
    Effect config s a (s.setPhase request phase) := by
  refine .moved plain (free.trans idle.symm) ?_ ?_
  · intro id found
    rcases known with absent | same
    · cases absent.symm.trans found
    · exact .inl (same.symm.trans found)
  · intro userId ids covers
    cases phase with
    | indexRead write ids => cases free
    | revoked write => cases free
    | _ => cases covers

theorem start_password_reset_effect {token : PasswordResetToken}
    (taken : startPasswordReset s token = some t) :
    Effect config s (.startPasswordReset token) t := by
  unfold startPasswordReset at taken
  split at taken
  · cases taken
  · rename_i fresh
    obtain ⟨tokens, inserted, rfl⟩ := Option.map_eq_some_iff.mp taken
    exact .started (fun used => fresh (.inl used)) inserted

theorem get_by_email_effect {email rawPassword : String}
    (taken : getByEmail s request email rawPassword = some t) :
    Effect config s (.getByEmail request email rawPassword) t := by
  unfold getByEmail at taken
  split at taken
  · rename_i arrived
    split at taken
    · cases taken
      exact idle_moved trivial (by rw [arrived]; rfl) rfl (.inl rfl)
    · cases taken
      exact idle_moved trivial (by rw [arrived]; rfl) rfl (.inl rfl)
  · cases taken

theorem verify_login_effect (taken : verifyLogin config s request = some t) :
    Effect config s (.verifyLogin request) t := by
  unfold verifyLogin at taken
  split at taken
  · rename_i phase
    have idle : (s.requests request).locked = none := by rw [phase]; rfl
    split at taken
    · cases taken
      exact idle_moved trivial idle rfl (.inl rfl)
    · split at taken
      · cases taken
        exact idle_moved trivial idle rfl (.inl rfl)
      · cases taken
        exact idle_moved trivial idle rfl (.inl rfl)
  · cases taken

theorem save_session_effect {id : SessionId} {issuedAt now : Timestamp} {userAgent ip : String}
    (taken : saveSession config s request id issuedAt now userAgent ip = some t) :
    Effect config s (.saveSession request id issuedAt now userAgent ip) t := by
  unfold saveSession at taken
  split at taken
  · rename_i verified
    split at taken
    · rename_i times
      cases taken
      exact .loggedIn verified times.2
    · cases taken
  · cases taken

theorem get_by_id_effect {userId : UserId} {currentPassword newPassword : String}
    (taken : getById s request userId currentPassword newPassword = some t) :
    Effect config s (.getById request userId currentPassword newPassword) t := by
  unfold getById at taken
  split at taken
  · rename_i arrived
    split at taken
    · cases taken
      exact idle_moved trivial (by rw [arrived]; rfl) rfl (.inl rfl)
    · cases taken
      exact idle_moved trivial (by rw [arrived]; rfl) rfl (.inl rfl)
  · cases taken

theorem verify_current_effect (taken : verifyCurrent config s request = some t) :
    Effect config s (.verifyCurrent request) t := by
  unfold verifyCurrent at taken
  split at taken
  · rename_i phase
    have idle : (s.requests request).locked = none := by rw [phase]; rfl
    split at taken
    · cases taken
      exact idle_moved trivial idle rfl (.inl rfl)
    · split at taken
      · cases taken
        exact idle_moved trivial idle rfl (.inl rfl)
      · cases taken
        exact idle_moved trivial idle rfl (.inl rfl)
  · cases taken

theorem get_valid_effect {token newPassword : String} {now : Timestamp}
    (taken : getValid config s request token newPassword now = some t) :
    Effect config s (.getValid request token newPassword now) t := by
  unfold getValid at taken
  split at taken
  · rename_i arrived
    have idle : (s.requests request).locked = none := by rw [arrived.1]; rfl
    split at taken
    · cases taken
      exact idle_moved trivial idle rfl (.inl rfl)
    · rename_i row found
      cases taken
      refine .moved trivial idle.symm ?_ (fun _ _ covers => by cases covers)
      intro id same
      cases same
      have stored := Table.get_of_mem (List.mem_of_find?_eq_some found)
      exact .inr (by rw [stored]; simp)
  · cases taken

theorem get_user_effect (taken : getUser s request = some t) :
    Effect config s (.getUser request) t := by
  unfold getUser at taken
  split at taken
  · rename_i phase
    have idle : (s.requests request).locked = none := by rw [phase]; rfl
    split at taken
    · cases taken
      exact idle_moved trivial idle rfl (.inl rfl)
    · cases taken
      exact idle_moved trivial idle rfl (.inr (by rw [phase]; rfl))
  · cases taken

theorem hash_effect {newHash : String} (taken : hash s request newHash = some t) :
    Effect config s (.hash request newHash) t := by
  unfold hash at taken
  split at taken
  · rename_i phase
    have idle : (s.requests request).locked = none := by rw [phase]; rfl
    split at taken
    · cases taken
      exact idle_moved trivial idle rfl (.inl rfl)
    · split at taken
      · cases taken
      · cases taken
        exact idle_moved trivial idle rfl (.inr (by rw [phase]; rfl))
  · cases taken

theorem save_user_effect (taken : saveUser s request = some t) :
    Effect config s (.saveUser request) t := by
  unfold saveUser at taken
  split at taken
  · rename_i hashed
    split at taken
    · cases taken
      exact idle_moved trivial (by rw [hashed]; rfl) rfl (.inl rfl)
    · cases taken
    · rename_i free
      cases taken
      exact .locked trivial hashed free
  · cases taken

theorem invalidate_effect (taken : invalidate s request = some t) :
    Effect config s (.invalidate request) t := by
  unfold invalidate at taken
  split at taken
  · rename_i phase
    split at taken
    · cases taken
    · cases taken
      refine .moved trivial (by rw [phase]; rfl) ?_ (fun _ _ covers => by cases covers)
      intro id found
      exact .inl (by rw [phase]; exact found)
  · cases taken

theorem read_index_moved {write : PasswordWrite} (plain : a.Plain)
    (lock : (s.requests request).locked = some write.userId)
    (token : (s.requests request).token = write.token) :
    Effect config s a (readIndex s request write) := by
  unfold readIndex
  split
  · rename_i empty
    refine .moved plain lock.symm (fun id found => .inl (token.trans found)) ?_
    intro userId ids covers
    cases covers
    exact empty.symm
  · refine .moved plain lock.symm (fun id found => .inl (token.trans found)) ?_
    intro userId ids covers
    cases covers
    rfl

theorem zrange_effect (taken : zrange s request = some t) : Effect config s (.zrange request) t := by
  unfold zrange at taken
  split at taken
  · rename_i phase
    split at taken
    · cases taken
      exact read_index_moved trivial (by rw [phase]; rfl) (by rw [phase]; rfl)
    · cases taken
  · rename_i phase
    cases taken
    exact read_index_moved trivial (by rw [phase]; rfl) (by rw [phase]; rfl)
  · cases taken

theorem delete_all_effect (taken : deleteAll s request = some t) :
    Effect config s (.deleteAll request) t := by
  unfold deleteAll at taken
  split at taken
  · rename_i read
    cases taken
    exact .deleted read
  · cases taken

theorem commit_effect (taken : commit s request = some t) : Effect config s (.commit request) t := by
  unfold commit at taken
  split at taken
  · rename_i revoked
    cases taken
    exact .committed revoked
  · cases taken

theorem step_effect (taken : step config s a = some t) : Effect config s a t := by
  cases a with
  | pass elapsed =>
      cases taken
      exact .passed elapsed
  | startPasswordReset token => exact start_password_reset_effect taken
  | getByEmail request email rawPassword => exact get_by_email_effect taken
  | verifyLogin request => exact verify_login_effect taken
  | saveSession request id issuedAt now userAgent ip => exact save_session_effect taken
  | getById request userId currentPassword newPassword => exact get_by_id_effect taken
  | verifyCurrent request => exact verify_current_effect taken
  | getValid request token newPassword now => exact get_valid_effect taken
  | getUser request => exact get_user_effect taken
  | hash request newHash => exact hash_effect taken
  | saveUser request => exact save_user_effect taken
  | invalidate request => exact invalidate_effect taken
  | zrange request => exact zrange_effect taken
  | deleteAll request => exact delete_all_effect taken
  | commit request => exact commit_effect taken
  | rollback request =>
      cases taken
      exact .rolledBack request

end

@[simp] theorem set_phase_self (s : State) (request : RequestId) (phase : Phase) :
    (s.setPhase request phase).requests request = phase := by
  simp [State.setPhase]

theorem set_phase_other {s : State} {request other : RequestId} {phase : Phase}
    (different : other ≠ request) : (s.setPhase request phase).requests other = s.requests other := by
  simp [State.setPhase, different]

theorem set_phase_all {s : State} {request : RequestId} {phase : Phase}
    {P : RequestId → Phase → Prop} (before : ∀ other, other ≠ request → P other (s.requests other))
    (changed : P request phase) (other : RequestId) :
    P other ((s.setPhase request phase).requests other) := by
  by_cases same : other = request
  · subst same
    rw [set_phase_self]
    exact changed
  · rw [set_phase_other same]
    exact before other same

def plaintext : Config := ⟨fun raw hash => raw.value = hash, id, 3600 * second⟩

def alice : User := ⟨⟨7⟩, "alice@example.com", "secret123"⟩

def aliceOnly : Table User.id := ⟨[alice], by decide⟩

end Yomochi.Users
