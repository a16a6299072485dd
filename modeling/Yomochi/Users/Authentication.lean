import Yomochi.Foundation.Runs
import Yomochi.Users.JwtRotation
import Yomochi.Users.Sessions

/-! Who a request comes from: the cookie's token, decoded with the keys of the day, and the session
that it names. Logins, logouts and revocations run beside one another, a command a step. -/

namespace Yomochi.Users.Authentication

open Foundation

structure Granted where
  id : UUID
  userId : UUID
  expiresAt : Timestamp
  userAgent : String
  ip : String
  deriving DecidableEq

namespace Granted

def key (granted : Granted) : SessionId := ⟨granted.id.int⟩

def owner (granted : Granted) : UserId := ⟨granted.userId.int⟩

def session (granted : Granted) : Session :=
  ⟨granted.key, granted.owner, granted.expiresAt, granted.userAgent, granted.ip⟩

def claims (granted : Granted) : Jwt.Session :=
  ⟨granted.id, granted.userId, granted.expiresAt⟩

end Granted

structure Identity where
  userId : UUID
  sessionId : UUID
  deriving DecidableEq

inductive AuthError
  | UnauthenticatedError
  | raised (error : Jwt.ClaimError)
  deriving DecidableEq

variable {Token : Type}

/-- `resolve_identity`: the token is decoded at one time, and the session is read at another. -/
def resolveIdentity (jwt : Jwt.PyJwt Token) (codec : Jwt.JwtCodec) (redis : Redis)
    (decodedAt readAt : Timestamp) : Option Token → Except AuthError Identity
  | none => .error .UnauthenticatedError
  | some token =>
      match codec.decode jwt token decodedAt with
      | .error error => .error (.raised error)
      | .ok none => .error .UnauthenticatedError
      | .ok (some (userId, sessionId)) =>
          match redis.get readAt ⟨sessionId.int⟩ ⟨userId.int⟩ with
          | none => .error .UnauthenticatedError
          | some _ => .ok ⟨userId, sessionId⟩

/-- What has been done to the sessions: one was saved, by a pipeline that ran at a time after the
clock had been read; one was revoked; those of a user were. -/
inductive Event
  | granted (session : Granted) (executed now : Timestamp)
  | revoked (id : UUID) (by_ : Identity)
  | revokedAll (userId : UserId) (ids : List SessionId)

inductive Phase
  | arrived
  | authenticated (identity : Identity)
  | revokingAll (userId : UserId) (ids : List SessionId)
  | done

structure State where
  clock : Timestamp
  redis : Redis
  requests : RequestId → Phase
  log : List Event

def State.start : State := ⟨0, .empty, fun _ => .arrived, []⟩

inductive Action (Token : Type)
  | pass (elapsed : Nat)
  | grant (session : Granted) (now : Timestamp)
  | authenticate (request : RequestId) (cookie : Option Token) (decodedAt : Timestamp)
  | logout (request : RequestId)
  | revokeSession (request : RequestId) (id : UUID)
  | changePassword (request : RequestId)
  | confirmReset (request : RequestId) (userId : UserId)
  | deleteAll (request : RequestId)

/-- What the deployments run with: PyJWT, an algorithm, and the keys of each time. -/
structure Deployment (Token : Type) where
  jwt : Jwt.PyJwt Token
  algorithm : Text
  schedule : Timestamp → Jwt.Window

def Deployment.codec (deployment : Deployment Token) (now : Timestamp) : Jwt.JwtCodec :=
  (deployment.schedule now).codec deployment.algorithm

def Deployment.token (deployment : Deployment Token) (issued : Timestamp) (granted : Granted) :
    Token :=
  (deployment.codec issued).encode deployment.jwt granted.claims

def State.setPhase (s : State) (request : RequestId) (phase : Phase) : State :=
  { s with requests := Function.update s.requests request phase }

/-- `save` of a login or a registration. -/
def grant (s : State) (session : Granted) (now : Timestamp) : Option State :=
  if s.clock < now then none
  else if session.session.ttl now = 0 then some s
  else
    some { s with
      redis := s.redis.save s.clock now session.session
      log := s.log ++ [.granted session s.clock now] }

def authenticate (deployment : Deployment Token) (s : State) (request : RequestId)
    (cookie : Option Token) (decodedAt : Timestamp) : Option State :=
  match s.requests request with
  | .arrived =>
      if s.clock < decodedAt then none
      else
        match resolveIdentity deployment.jwt (deployment.codec decodedAt) s.redis decodedAt s.clock
            cookie with
        | .ok identity => some (s.setPhase request (.authenticated identity))
        | .error _ => some (s.setPhase request .done)
  | _ => none

def revoke (s : State) (request : RequestId) (identity : Identity) (id : UUID) : State :=
  { s.setPhase request .done with
    redis := s.redis.revoke ⟨id.int⟩ ⟨identity.userId.int⟩
    log := s.log ++ [.revoked id identity] }

/-- The first command of `revoke_all`. -/
def zrange (s : State) (request : RequestId) (userId : UserId) : State :=
  let ids := (s.redis.index userId).zrange
  s.setPhase request (if ids = [] then .done else .revokingAll userId ids)

def step (deployment : Deployment Token) (s : State) : Action Token → Option State
  | .pass elapsed => some { s with clock := s.clock + elapsed }
  | .grant session now => grant s session now
  | .authenticate request cookie decodedAt => authenticate deployment s request cookie decodedAt
  | .logout request =>
      match s.requests request with
      | .authenticated identity => some (revoke s request identity identity.sessionId)
      | _ => none
  | .revokeSession request id =>
      match s.requests request with
      | .authenticated identity => some (revoke s request identity id)
      | _ => none
  | .changePassword request =>
      match s.requests request with
      | .authenticated identity => some (zrange s request ⟨identity.userId.int⟩)
      | _ => none
  | .confirmReset request userId =>
      match s.requests request with
      | .arrived => some (zrange s request userId)
      | _ => none
  | .deleteAll request =>
      match s.requests request with
      | .revokingAll userId ids =>
          some { s.setPhase request .done with
            redis := s.redis.deleteAll userId ids
            log := s.log ++ [.revokedAll userId ids] }
      | _ => none

/-! What the log says of a session. -/

def grantedIds (log : List Event) : List UUID :=
  log.filterMap fun event =>
    match event with
    | .granted session _ _ => some session.id
    | _ => none

def FreshIds (s : State) : Action Token → Prop
  | .grant session _ => session.id ∉ grantedIds s.log
  | _ => True

instance (s : State) : ∀ action : Action Token, Decidable (FreshIds s action)
  | .grant session _ => inferInstanceAs (Decidable (session.id ∉ grantedIds s.log))
  | .pass _ | .authenticate _ _ _ | .logout _ | .revokeSession _ _ | .changePassword _
  | .confirmReset _ _ | .deleteAll _ => .isTrue trivial

/-- The event ends the session: it names it, or the pipeline of a `revoke_all` of its user has its
key. -/
def Event.Ends (granted : Granted) : Event → Prop
  | .granted _ _ _ => False
  | .revoked id _ => id = granted.id
  | .revokedAll userId ids => userId = granted.owner ∧ granted.key ∈ ids

def keyExpiry (granted : Granted) (executed now : Timestamp) : Timestamp :=
  executed + granted.session.ttl now * second

/-- The session was saved, and nothing that was done since has ended it. -/
def Open (log : List Event) (granted : Granted) (executed now : Timestamp) : Prop :=
  ∃ before after, log = before ++ .granted granted executed now :: after ∧
    ∀ event ∈ after, ¬ event.Ends granted

def Saved (log : List Event) (userId : UserId) (id : SessionId) : Prop :=
  ∃ granted executed now, .granted granted executed now ∈ log ∧ granted.owner = userId ∧
    granted.key = id

def Known (log : List Event) (identity : Identity) : Prop :=
  ∃ granted executed now, .granted granted executed now ∈ log ∧
    granted.userId = identity.userId ∧ granted.id = identity.sessionId

section Log

variable {log : List Event} {event : Event} {granted other : Granted} {executed now : Timestamp}

theorem id_of_key (same : granted.key = other.key) : granted.id = other.id :=
  UUID.int_injective (SessionId.mk.inj same)

theorem open_mem (opened : Open log granted executed now) :
    .granted granted executed now ∈ log := by
  obtain ⟨before, after, split, _⟩ := opened
  rw [split]
  exact List.mem_append_right before List.mem_cons_self

theorem concat_split {before after : List Event} {last : Event}
    (split : log ++ [last] = before ++ event :: after) :
    (before = log ∧ event = last ∧ after = []) ∨
      ∃ rest, after = rest ++ [last] ∧ log = before ++ event :: rest := by
  rcases List.eq_nil_or_concat after with nothing | later
  · rw [nothing] at split
    obtain ⟨front, same⟩ := List.append_inj' split rfl
    exact .inl ⟨front.symm, (List.singleton_inj.mp same).symm, nothing⟩
  · obtain ⟨rest, final, whole⟩ := later
    rw [List.concat_eq_append] at whole
    rw [whole, ← List.cons_append, ← List.append_assoc] at split
    obtain ⟨front, same⟩ := List.append_inj' split rfl
    rw [← List.singleton_inj.mp same] at whole
    exact .inr ⟨rest, whole, front⟩

theorem open_concat : Open (log ++ [event]) granted executed now ↔
    event = .granted granted executed now ∨
      Open log granted executed now ∧ ¬ event.Ends granted := by
  constructor
  · intro opened
    obtain ⟨before, after, split, kept⟩ := opened
    rcases concat_split split with last | earlier
    · exact .inl last.2.1.symm
    · obtain ⟨rest, whole, front⟩ := earlier
      rw [whole] at kept
      exact .inr ⟨⟨before, rest, front, fun event inside =>
        kept event (List.mem_append_left _ inside)⟩,
        kept event (List.mem_append_right _ (List.mem_singleton_self event))⟩
  · intro found
    rcases found with same | opened
    · exact ⟨log, [], by rw [same], nofun⟩
    · obtain ⟨⟨before, after, split, kept⟩, alive⟩ := opened
      refine ⟨before, after ++ [event], by rw [split]; simp, ?_⟩
      intro other inside
      rcases List.mem_append.mp inside with earlier | last
      · exact kept other earlier
      · rw [List.mem_singleton.mp last]
        exact alive

theorem old_of_concat {other : Event} (inside : event ∈ log ++ [other])
    (different : event ≠ other) : event ∈ log :=
  (List.mem_append.mp inside).resolve_right fun last => different (List.mem_singleton.mp last)

theorem saved_concat {userId : UserId} {id : SessionId} (saved : Saved log userId id) :
    Saved (log ++ [event]) userId id := by
  obtain ⟨granted, executed, now, inside, same⟩ := saved
  exact ⟨granted, executed, now, List.mem_append_left _ inside, same⟩

theorem known_concat {identity : Identity} (known : Known log identity) :
    Known (log ++ [event]) identity := by
  obtain ⟨granted, executed, now, inside, same⟩ := known
  exact ⟨granted, executed, now, List.mem_append_left _ inside, same⟩

theorem mem_granted_ids (inside : .granted granted executed now ∈ log) :
    granted.id ∈ grantedIds log :=
  List.mem_filterMap.mpr ⟨_, inside, rfl⟩

end Log

/-- What holds along a run whose identifiers are fresh: the store has the sessions that are open,
and what it lists for a user was saved for the user. -/
structure Tracks (s : State) : Prop where
  distinct : ∀ granted executed now other later clock,
    .granted granted executed now ∈ s.log → .granted other later clock ∈ s.log →
      granted.id = other.id → granted = other ∧ executed = later ∧ now = clock
  stored : ∀ key session expiry, s.redis.sessions.entry key = some (session, expiry) ↔
    ∃ granted executed now, Open s.log granted executed now ∧ key = granted.key ∧
      session = granted.session ∧ expiry = keyExpiry granted executed now
  indexed : ∀ userId, ∀ id ∈ (s.redis.index userId).zrange, Saved s.log userId id
  pending : ∀ request userId ids, s.requests request = .revokingAll userId ids →
    ∀ id ∈ ids, Saved s.log userId id
  identities : ∀ request identity, s.requests request = .authenticated identity →
    Known s.log identity
  issuers : ∀ before id identity after, s.log = before ++ .revoked id identity :: after →
    Known before identity

theorem tracks_start : Tracks .start where
  distinct _ _ _ _ _ _ member := by cases member
  stored key session expiry := by
    constructor
    · intro absurdity
      cases absurdity
    · intro found
      obtain ⟨_, _, _, opened, _⟩ := found
      cases open_mem opened
  indexed _ _ member := by cases member
  pending _ _ _ phase := by cases phase
  identities _ _ phase := by cases phase
  issuers before _ _ after split := by
    have filled := congrArg List.length split
    simp [State.start] at filled

/-! What a step keeps. -/

section Steps

variable {s t : State}

theorem tracks_phase (tracks : Tracks s) (request : RequestId) {phase : Phase}
    (pending : ∀ userId ids, phase = .revokingAll userId ids → ∀ id ∈ ids, Saved s.log userId id)
    (identities : ∀ identity, phase = .authenticated identity → Known s.log identity) :
    Tracks (s.setPhase request phase) where
  distinct := tracks.distinct
  stored := tracks.stored
  indexed := tracks.indexed
  pending other userId ids found := by
    by_cases same : other = request
    · subst same
      exact pending userId ids (by simpa [State.setPhase] using found)
    · exact tracks.pending other userId ids (by simpa [State.setPhase, same] using found)
  identities other identity found := by
    by_cases same : other = request
    · subst same
      exact identities identity (by simpa [State.setPhase] using found)
    · exact tracks.identities other identity (by simpa [State.setPhase, same] using found)
  issuers := tracks.issuers

theorem tracks_done (tracks : Tracks s) (request : RequestId) :
    Tracks (s.setPhase request .done) := by
  apply tracks_phase tracks request
  · intro userId ids same
    cases same
  · intro identity same
    cases same

theorem listed_save {redis : Redis} {clock now : Timestamp} {session : Session} {userId : UserId}
    {id : SessionId} (listed : id ∈ ((redis.save clock now session).index userId).zrange) :
    userId = session.userId ∧ id = session.id ∨ id ∈ (redis.index userId).zrange := by
  unfold Redis.save at listed
  split at listed
  · exact .inr listed
  · obtain ⟨score, entry⟩ := SortedSet.mem_zrange.mp listed
    by_cases same : userId = session.userId
    · subst same
      simp only [Function.update_self, SortedSet.mem_zremrangebyscore, SortedSet.mem_zadd] at entry
      rcases entry.1 with new | old
      · exact .inl ⟨rfl, new.1⟩
      · exact .inr (SortedSet.mem_zrange.mpr ⟨score, old.1⟩)
    · simp only [Function.update_of_ne same] at entry
      exact .inr (SortedSet.mem_zrange.mpr ⟨score, entry⟩)

theorem tracks_grant {session : Granted} {now : Timestamp} (tracks : Tracks s)
    (fresh : session.id ∉ grantedIds s.log) (taken : grant s session now = some t) : Tracks t := by
  unfold grant at taken
  split at taken
  · cases taken
  · split at taken
    · cases taken
      exact tracks
    · rename_i positive
      cases taken
      -- a session that is open already is another one
      have other {granted : Granted} {executed clock : Timestamp}
          (inside : .granted granted executed clock ∈ s.log) : granted.id ≠ session.id :=
        fun same => fresh (same ▸ mem_granted_ids inside)
      refine ⟨?_, ?_, ?_, ?_, ?_, ?_⟩
      · intro first x m second y n one two same
        rcases List.mem_append.mp one with one | one
        · rcases List.mem_append.mp two with two | two
          · exact tracks.distinct first x m second y n one two same
          · cases List.mem_singleton.mp two
            exact absurd same (other one)
        · cases List.mem_singleton.mp one
          rcases List.mem_append.mp two with two | two
          · exact absurd same.symm (other two)
          · cases List.mem_singleton.mp two
            exact ⟨rfl, rfl, rfl⟩
      · intro key kept expiry
        have entry : (s.redis.save s.clock now session.session).sessions.entry key =
            if key = session.key then
              some (session.session, keyExpiry session s.clock now)
            else s.redis.sessions.entry key := by
          rw [Redis.save, if_neg positive]
          exact Keys.entry_set _ _ _ _ _
        simp only [entry, open_concat]
        constructor
        · intro found
          split at found
          · rename_i same
            cases found
            exact ⟨session, s.clock, now, .inl rfl, same, rfl, rfl⟩
          · obtain ⟨granted, executed, clock, opened, facts⟩ :=
              (tracks.stored key kept expiry).mp found
            exact ⟨granted, executed, clock, .inr ⟨opened, id⟩, facts⟩
        · intro found
          obtain ⟨granted, executed, clock, opened, named, held, until_⟩ := found
          rcases opened with same | before
          · cases same
            rw [if_pos named, held, until_]
          · have different : key ≠ session.key := by
              rw [named]
              exact fun same => other (open_mem before.1) (id_of_key same)
            rw [if_neg different]
            exact (tracks.stored key kept expiry).mpr
              ⟨granted, executed, clock, before.1, named, held, until_⟩
      · intro userId id listed
        rcases listed_save listed with new | old
        · exact ⟨session, s.clock, now, List.mem_append_right _ (List.mem_singleton_self _),
            new.1.symm, new.2.symm⟩
        · exact saved_concat (tracks.indexed userId id old)
      · exact fun request userId ids phase id inside =>
          saved_concat (tracks.pending request userId ids phase id inside)
      · exact fun request identity phase => known_concat (tracks.identities request identity phase)
      · intro before id identity after split
        rcases concat_split split with last | earlier
        · cases last.2.1
        · obtain ⟨rest, _, whole⟩ := earlier
          exact tracks.issuers before id identity rest whole

theorem tracks_revoke {request : RequestId} {identity : Identity} (tracks : Tracks s)
    (known : Known s.log identity) (id : UUID) : Tracks (revoke s request identity id) := by
  have phased := tracks_done tracks request
  refine ⟨?_, ?_, ?_, ?_, ?_, ?_⟩
  · intro first x m second y n one two
    exact tracks.distinct first x m second y n (old_of_concat one (by simp))
      (old_of_concat two (by simp))
  · intro key session expiry
    rw [revoke]
    simp only [Redis.revoke, Keys.entry_delete_eq_some, open_concat, tracks.stored]
    constructor
    · intro found
      obtain ⟨kept, granted, executed, now, opened, named, facts⟩ := found
      refine ⟨granted, executed, now, .inr ⟨opened, fun same => kept ?_⟩, named, facts⟩
      rw [named, List.mem_singleton, Granted.key, ← show id = granted.id from same]
    · intro found
      obtain ⟨granted, executed, now, opened, named, facts⟩ := found
      obtain ⟨opened, alive⟩ := opened.resolve_left (by simp)
      refine ⟨fun same => alive ?_, granted, executed, now, opened, named, facts⟩
      rw [named, List.mem_singleton] at same
      exact (UUID.int_injective (SessionId.mk.inj same)).symm
  · intro userId other listed
    apply saved_concat
    apply tracks.indexed
    obtain ⟨score, entry⟩ := SortedSet.mem_zrange.mp listed
    rw [SortedSet.mem_zrange]
    by_cases same : userId = ⟨identity.userId.int⟩
    · subst same
      simp only [revoke, Redis.revoke, Function.update_self, SortedSet.mem_zrem] at entry
      exact ⟨score, entry.1⟩
    · simp only [revoke, Redis.revoke, Function.update_of_ne same] at entry
      exact ⟨score, entry⟩
  · exact fun request userId ids phase id inside =>
      saved_concat (phased.pending request userId ids phase id inside)
  · exact fun request identity phase => known_concat (phased.identities request identity phase)
  · intro before other by_ after split
    rcases concat_split split with last | earlier
    · obtain ⟨same, event, _⟩ := last
      cases event
      rw [same]
      exact known
    · obtain ⟨rest, _, whole⟩ := earlier
      exact tracks.issuers before other by_ rest whole

theorem tracks_delete_all {request : RequestId} {userId : UserId} {ids : List SessionId}
    (tracks : Tracks s) (phase : s.requests request = .revokingAll userId ids) :
    Tracks { s.setPhase request .done with
      redis := s.redis.deleteAll userId ids
      log := s.log ++ [.revokedAll userId ids] } := by
  have phased := tracks_done tracks request
  refine ⟨?_, ?_, ?_, ?_, ?_, ?_⟩
  · intro first x m second y n one two
    exact tracks.distinct first x m second y n (old_of_concat one (by simp))
      (old_of_concat two (by simp))
  · intro key session expiry
    simp only [Redis.deleteAll, Keys.entry_delete_eq_some, open_concat, tracks.stored]
    constructor
    · intro found
      obtain ⟨kept, granted, executed, now, opened, named, facts⟩ := found
      refine ⟨granted, executed, now, .inr ⟨opened, fun ends => kept ?_⟩, named, facts⟩
      rw [named]
      exact ends.2
    · intro found
      obtain ⟨granted, executed, now, opened, named, facts⟩ := found
      obtain ⟨opened, alive⟩ := opened.resolve_left (by simp)
      refine ⟨fun listed => alive ?_, granted, executed, now, opened, named, facts⟩
      -- a key that the pipeline has is that of a session of its user
      rw [named] at listed
      obtain ⟨other, later, clock, inside, owner, key⟩ :=
        tracks.pending request userId ids phase _ listed
      have same := tracks.distinct other later clock granted executed now inside
        (open_mem opened) (id_of_key key)
      rw [same.1] at owner
      exact ⟨owner.symm, listed⟩
  · intro other id listed
    apply saved_concat
    apply tracks.indexed
    by_cases same : other = userId
    · subst same
      simp only [Redis.deleteAll, Function.update_self] at listed
      cases listed
    · simpa only [Redis.deleteAll, Function.update_of_ne same] using listed
  · exact fun request userId ids phase id inside =>
      saved_concat (phased.pending request userId ids phase id inside)
  · exact fun request identity phase => known_concat (phased.identities request identity phase)
  · intro before id identity after split
    rcases concat_split split with last | earlier
    · cases last.2.1
    · obtain ⟨rest, _, whole⟩ := earlier
      exact tracks.issuers before id identity rest whole

theorem tracks_zrange (tracks : Tracks s) (request : RequestId) (userId : UserId) :
    Tracks (zrange s request userId) := by
  apply tracks_phase tracks
  · intro other ids found
    split at found
    · cases found
    · cases found
      exact tracks.indexed userId
  · intro identity found
    split at found <;> cases found

/-- An identity that is resolved is that of a session that lives. -/
theorem resolved_open {Token : Type} {jwt : Jwt.PyJwt Token} {codec : Jwt.JwtCodec}
    {decodedAt readAt : Timestamp} {cookie : Option Token} {identity : Identity}
    (tracks : Tracks s)
    (resolved : resolveIdentity jwt codec s.redis decodedAt readAt cookie = .ok identity) :
    ∃ granted executed now, Open s.log granted executed now ∧
      granted.userId = identity.userId ∧ granted.id = identity.sessionId ∧
      readAt < keyExpiry granted executed now ∧ readAt < granted.expiresAt := by
  unfold resolveIdentity at resolved
  split at resolved
  · cases resolved
  · split at resolved
    · cases resolved
    · cases resolved
    · rename_i userId sessionId _
      split at resolved
      · cases resolved
      · rename_i session found
        cases resolved
        obtain ⟨read, met⟩ := Option.filter_eq_some_iff.mp found
        simp only [Bool.and_eq_true, decide_eq_true_eq] at met
        obtain ⟨expiry, entry, lives⟩ := Keys.get_eq_some.mp read
        obtain ⟨granted, executed, now, opened, named, held, until_⟩ :=
          (tracks.stored _ _ _).mp entry
        rw [held] at met
        rw [until_] at lives
        have user : granted.userId = userId := UUID.int_injective (UserId.mk.inj met.1)
        have id : granted.id = sessionId := UUID.int_injective (SessionId.mk.inj named.symm)
        exact ⟨granted, executed, now, opened, user, id, lives, met.2⟩

theorem known_of_resolved {Token : Type} {jwt : Jwt.PyJwt Token} {codec : Jwt.JwtCodec}
    {decodedAt readAt : Timestamp} {cookie : Option Token} {identity : Identity}
    (tracks : Tracks s)
    (resolved : resolveIdentity jwt codec s.redis decodedAt readAt cookie = .ok identity) :
    Known s.log identity := by
  obtain ⟨granted, executed, now, opened, user, id, _⟩ := resolved_open tracks resolved
  exact ⟨granted, executed, now, open_mem opened, user, id⟩

theorem tracks_authenticate {Token : Type} {deployment : Deployment Token} {request : RequestId}
    {cookie : Option Token} {decodedAt : Timestamp} (tracks : Tracks s)
    (taken : authenticate deployment s request cookie decodedAt = some t) : Tracks t := by
  unfold authenticate at taken
  split at taken
  · split at taken
    · cases taken
    · split at taken
      · rename_i identity resolved
        cases taken
        apply tracks_phase tracks request
        · intro userId ids other
          cases other
        · intro other same
          cases same
          exact known_of_resolved tracks resolved
      · cases taken
        exact tracks_done tracks request
  · cases taken

end Steps

section Runs

variable {Token : Type} {deployment : Deployment Token} {s t : State}

theorem tracks_step (s : State) (action : Action Token) (t : State) (fresh : FreshIds s action)
    (taken : step deployment s action = some t) (tracks : Tracks s) : Tracks t := by
  cases action with
  | pass elapsed =>
      cases taken
      exact ⟨tracks.distinct, tracks.stored, tracks.indexed, tracks.pending, tracks.identities,
        tracks.issuers⟩
  | grant session now => exact tracks_grant tracks fresh taken
  | authenticate request cookie decodedAt => exact tracks_authenticate tracks taken
  | logout request =>
      simp only [step] at taken
      split at taken
      · rename_i identity phase
        cases taken
        exact tracks_revoke tracks (tracks.identities request identity phase) _
      · cases taken
  | revokeSession request id =>
      simp only [step] at taken
      split at taken
      · rename_i identity phase
        cases taken
        exact tracks_revoke tracks (tracks.identities request identity phase) _
      · cases taken
  | changePassword request =>
      simp only [step] at taken
      split at taken
      · cases taken
        exact tracks_zrange tracks request _
      · cases taken
  | confirmReset request userId =>
      simp only [step] at taken
      split at taken
      · cases taken
        exact tracks_zrange tracks request userId
      · cases taken
  | deleteAll request =>
      simp only [step] at taken
      split at taken
      · rename_i userId ids phase
        cases taken
        exact tracks_delete_all tracks phase
      · cases taken

theorem tracks_run {actions : List (Action Token)}
    (fresh : Along (step deployment) FreshIds .start actions)
    (reached : run (step deployment) .start actions = some s) : Tracks s :=
  run_invariant tracks_step fresh reached tracks_start

theorem log_step (s : State) (action : Action Token) (t : State)
    (taken : step deployment s action = some t) : s.log <+: t.log := by
  cases action with
  | pass elapsed =>
      cases taken
      exact List.prefix_rfl
  | grant session now =>
      simp only [step, grant] at taken
      split at taken
      · cases taken
      · split at taken
        · cases taken
          exact List.prefix_rfl
        · cases taken
          exact List.prefix_append _ _
  | authenticate request cookie decodedAt =>
      simp only [step, authenticate] at taken
      split at taken
      · split at taken
        · cases taken
        · split at taken
          · cases taken
            exact List.prefix_rfl
          · cases taken
            exact List.prefix_rfl
      · cases taken
  | logout request =>
      simp only [step] at taken
      split at taken
      · cases taken
        exact List.prefix_append _ _
      · cases taken
  | revokeSession request id =>
      simp only [step] at taken
      split at taken
      · cases taken
        exact List.prefix_append _ _
      · cases taken
  | changePassword request =>
      simp only [step] at taken
      split at taken
      · cases taken
        exact List.prefix_rfl
      · cases taken
  | confirmReset request userId =>
      simp only [step] at taken
      split at taken
      · cases taken
        exact List.prefix_rfl
      · cases taken
  | deleteAll request =>
      simp only [step] at taken
      split at taken
      · cases taken
        exact List.prefix_append _ _
      · cases taken

theorem log_run {actions : List (Action Token)}
    (reached : run (step deployment) s actions = some t) : s.log <+: t.log := by
  induction actions generalizing s with
  | nil =>
      cases reached
      exact List.prefix_rfl
  | cons action actions ih =>
      obtain ⟨u, taken, rest⟩ := run_cons_eq_some.mp reached
      exact (log_step s action u taken).trans (ih rest)

end Runs

/-! What a token is worth. -/

/-- When a token is accepted for itself: the key that signed it is among those of the day, and its
last whole second has not begun. -/
def Deployment.Accepts (deployment : Deployment Token) (granted : Granted)
    (issued decodedAt : Timestamp) : Prop :=
  (deployment.schedule issued).signingKey ∈ (deployment.schedule decodedAt).keys ∧
    (decodedAt : Int) < granted.claims.expiry * Jwt.second

instance (deployment : Deployment Token) (granted : Granted) (issued decodedAt : Timestamp) :
    Decidable (deployment.Accepts granted issued decodedAt) :=
  inferInstanceAs (Decidable (_ ∧ _))

/-- Neither the key nor the session itself has run out, and nothing has ended the session. -/
def State.Lives (s : State) (granted : Granted) (executed now : Timestamp) : Prop :=
  s.clock < keyExpiry granted executed now ∧ s.clock < granted.expiresAt ∧
    Open s.log granted executed now

/-- Who the requests come from, in a state: the token of a session that was saved counts exactly
while the token is accepted and the session lives; no cookie whatever counts for a session that
does not live; and only who had a session of its own has revoked one. -/
structure AuthenticatesExactly (deployment : Deployment Token) (s : State) : Prop where
  own : ∀ granted executed now, .granted granted executed now ∈ s.log → ∀ issued decodedAt,
    deployment.Accepts granted issued decodedAt → s.Lives granted executed now →
      resolveIdentity deployment.jwt (deployment.codec decodedAt) s.redis decodedAt s.clock
        (some (deployment.token issued granted)) = .ok ⟨granted.userId, granted.id⟩
  refused : ∀ granted executed now, .granted granted executed now ∈ s.log → ∀ issued decodedAt,
    ¬ (deployment.Accepts granted issued decodedAt ∧ s.Lives granted executed now) →
      resolveIdentity deployment.jwt (deployment.codec decodedAt) s.redis decodedAt s.clock
        (some (deployment.token issued granted)) = .error .UnauthenticatedError
  only : ∀ cookie decodedAt identity,
    resolveIdentity deployment.jwt (deployment.codec decodedAt) s.redis decodedAt s.clock cookie =
        .ok identity →
      ∃ granted executed now, s.Lives granted executed now ∧
        granted.userId = identity.userId ∧ granted.id = identity.sessionId
  issuers : ∀ before id identity after, s.log = before ++ .revoked id identity :: after →
    Known before identity

section Tokens

variable {deployment : Deployment Token} {carries : Token → Option Jwt.Payload}
  {signed : Token → Text → Bool} {refuses : Jwt.Payload → Int → Bool} {s : State}
  {granted : Granted} {executed now issued decodedAt : Timestamp}

theorem decode_token
    (documented : Jwt.Documented deployment.jwt deployment.algorithm carries signed refuses) :
    (deployment.codec decodedAt).decode deployment.jwt (deployment.token issued granted) decodedAt =
      .ok (if deployment.Accepts granted issued decodedAt then some (granted.userId, granted.id)
        else none) := by
  have decoded := Jwt.decode_eq documented
    (Jwt.carries_encode documented (deployment.schedule issued) granted.claims)
    granted.claims.well_formed decodedAt (deployment.schedule decodedAt)
  have accepted := Jwt.decode_encode documented (deployment.schedule issued)
    (deployment.schedule decodedAt) granted.claims decodedAt
  rw [decoded] at accepted
  refine decoded.trans (congrArg Except.ok ?_)
  by_cases met : deployment.Accepts granted issued decodedAt
  · rw [if_pos met]
    exact Except.ok.inj (accepted.mpr met)
  · rw [if_neg met]
    apply if_neg
    intro passes
    rw [if_pos passes] at accepted
    exact met (accepted.mp rfl)

/-- The store answers for a saved session exactly while it lives. -/
theorem get_iff (tracks : Tracks s) (saved : .granted granted executed now ∈ s.log) :
    (∃ session, s.redis.get s.clock granted.key granted.owner = some session) ↔
      s.Lives granted executed now := by
  constructor
  · intro found
    obtain ⟨session, got⟩ := found
    obtain ⟨read, met⟩ := Option.filter_eq_some_iff.mp got
    simp only [Bool.and_eq_true, decide_eq_true_eq] at met
    obtain ⟨expiry, entry, lives⟩ := Keys.get_eq_some.mp read
    obtain ⟨other, later, clock, opened, named, held, until_⟩ := (tracks.stored _ _ _).mp entry
    obtain ⟨same, sameTime, sameClock⟩ := tracks.distinct granted executed now other later clock
      saved (open_mem opened) (id_of_key named)
    subst same
    subst sameTime
    subst sameClock
    rw [held] at met
    rw [until_] at lives
    exact ⟨lives, met.2, opened⟩
  · intro lives
    obtain ⟨early, unexpired, opened⟩ := lives
    have entry := (tracks.stored granted.key granted.session (keyExpiry granted executed now)).mpr
      ⟨granted, executed, now, opened, rfl, rfl, rfl⟩
    have read := Keys.get_eq_some.mpr ⟨_, entry, early⟩
    refine ⟨granted.session, Option.filter_eq_some_iff.mpr ⟨read, ?_⟩⟩
    rw [Bool.and_eq_true, decide_eq_true_iff, decide_eq_true_iff]
    exact ⟨rfl, unexpired⟩

end Tokens

/-- In every state that logins, requests, logouts and revocations lead to, in any order, requests
are authenticated exactly; and what has ended stays in the log of every later state. -/
theorem authenticates_exactly {deployment : Deployment Token}
    {carries : Token → Option Jwt.Payload} {signed : Token → Text → Bool}
    {refuses : Jwt.Payload → Int → Bool}
    (documented : Jwt.Documented deployment.jwt deployment.algorithm carries signed refuses)
    {actions : List (Action Token)} {s : State}
    (fresh : Along (step deployment) FreshIds .start actions)
    (reached : run (step deployment) .start actions = some s) :
    AuthenticatesExactly deployment s ∧
      ∀ more t, run (step deployment) s more = some t → s.log <+: t.log := by
  have tracks := tracks_run fresh reached
  refine ⟨⟨?_, ?_, ?_, tracks.issuers⟩, fun more t => log_run⟩
  · intro granted executed now saved issued decodedAt accepts lives
    obtain ⟨session, got⟩ := (get_iff tracks saved).mpr lives
    simp only [resolveIdentity, decode_token documented, if_pos accepts]
    change (match s.redis.get s.clock granted.key granted.owner with
      | none => _
      | some _ => _) = _
    rw [got]
  · intro granted executed now saved issued decodedAt refused
    by_cases accepts : deployment.Accepts granted issued decodedAt
    · simp only [resolveIdentity, decode_token documented, if_pos accepts]
      change (match s.redis.get s.clock granted.key granted.owner with
        | none => _
        | some _ => _) = _
      cases got : s.redis.get s.clock granted.key granted.owner with
      | none => rfl
      | some session =>
          exact absurd ⟨accepts, (get_iff tracks saved).mp ⟨session, got⟩⟩ refused
    · simp only [resolveIdentity, decode_token documented, if_neg accepts]
  · intro cookie decodedAt identity resolved
    obtain ⟨granted, executed, now, opened, user, id, early, unexpired⟩ :=
      resolved_open tracks resolved
    exact ⟨granted, executed, now, ⟨early, unexpired, opened⟩, user, id⟩

def plainDeployment : Deployment Jwt.Plain.Token :=
  ⟨Jwt.Plain.jwt, text "HS256", fun _ => ⟨text "key", []⟩⟩

def laptop : Granted := ⟨⟨1, by decide⟩, ⟨7, by decide⟩, 3600 * second, "laptop", "10.0.0.1"⟩

/-- A login, a request with its token, which logs out, and the token again. -/
def logoutRun : List (Action Jwt.Plain.Token) :=
  [.grant laptop 0, .pass 5, .authenticate 0 (some (plainDeployment.token 0 laptop)) 4, .logout 0,
    .authenticate 1 (some (plainDeployment.token 0 laptop)) 5]

theorem authenticates_exactly_logout : ∃ s,
    run (step plainDeployment) .start logoutRun = some s ∧
      AuthenticatesExactly plainDeployment s ∧
      ∀ more t, run (step plainDeployment) s more = some t → s.log <+: t.log := by
  have ends : (run (step plainDeployment) .start logoutRun).isSome = true := by decide +kernel
  obtain ⟨s, reached⟩ := Option.isSome_iff_exists.mp ends
  exact ⟨s, reached, authenticates_exactly (Jwt.Plain.documented (text "HS256"))
    (by decide +kernel) reached⟩

end Yomochi.Users.Authentication
