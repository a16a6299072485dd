import Mathlib.Logic.Function.Basic
import Yomochi.Foundation.Runs
import Yomochi.Foundation.Utf8
import Yomochi.Http.Idempotency

/-! The contents of the idempotency cache: what `IdempotencyMiddleware.dispatch` stores of a
response, and what `_decode_cached` makes of it. Any number of keys, sessions and requests. -/

namespace Yomochi.Http.Replay

open Foundation

structure Request where
  method : String
  path : Text
  idempotencyKey : Option Text
  sessionCookie : Option Text
  deriving DecidableEq

structure StreamingResponse where
  status : Nat
  body : Bytes
  headers : List (String × Text)
  mediaType : Option Text
  streaming : mediaType = none

def StreamingResponse.contentType (response : StreamingResponse) : Option Text :=
  response.headers.lookup "content-type"

structure Answer where
  status : Nat
  body : Bytes
  contentType : Option Text
  deriving DecidableEq

def StreamingResponse.answer (response : StreamingResponse) : Answer :=
  ⟨response.status, response.body, response.contentType⟩

/-- What the middleware takes from its surroundings: SHA-256 digests, the `Content-Type` that
Starlette makes of a media type, and the interpreter's recursion limit. -/
structure Platform where
  digest : Text → Text
  contentType : Text → Text
  recursionLimit : Nat
  positive : recursionLimit ≠ 0

def methods : List String := ["POST", "PUT", "PATCH"]

def cacheKey (platform : Platform) (request : Request) (key : Text) : Text :=
  let session := match request.sessionCookie with
    | some (c :: cookie) => platform.digest (c :: cookie)
    | _ => text "anon"
  text "idempotency:" ++ session ++ text ":" ++ platform.digest key

def keyOf (platform : Platform) (request : Request) : Option Text :=
  if request.method ∈ methods then request.idempotencyKey.map (cacheKey platform request) else none

def payloadFields (response : StreamingResponse) : List (Text × JsonField) :=
  [(text "body", .string (decodeReplace response.body)), (text "status", .nat response.status),
    (text "media_type", response.mediaType.elim .null .string)]

def payload (response : StreamingResponse) : Text :=
  dumpsObject (payloadFields response)

/-- `none` where `_decode_cached` raises. -/
def decodeCached (platform : Platform) (raw : Text) : Option Answer :=
  match loads (.python platform.recursionLimit) raw with
  | .ok (.object members) => do
      let body ← match memberOf members (text "body") with
        | some (.string body) => encodeStrict body
        | none | some .null => some []
        | _ => none
      let status ← match memberOf members (text "status") with
        | some (.int status) => some status.toNat
        | _ => none
      let mediaType ← match memberOf members (text "media_type") with
        | some (.string mediaType) => some (some mediaType)
        | none | some .null => some none
        | _ => none
      return ⟨status, body, mediaType.map platform.contentType⟩
  | _ => none

/-- A cached text, with the request and the response that it comes from. -/
structure Entry where
  raw : Text
  producer : Request
  response : StreamingResponse

structure Replayed where
  request : Request
  entry : Entry
  answer : Option Answer

inductive Phase
  | arrived (request : Request) (key : Text)
  | missed (request : Request) (key : Text)
  | waiting (polls : Nat) (request : Request) (key : Text)
  | running (request : Request) (key : Text)
  | released (key : Text)
  | done

structure State where
  cache : Text → Option Entry
  locks : Text → Bool
  requests : RequestId → Option Phase
  replays : List Replayed

def State.start : State where
  cache := fun _ => none
  locks := fun _ => false
  requests := fun _ => none
  replays := []

/-- `callNext` without an outcome is a handler that raises; `stored` says whether Redis took
the `SETEX`. `degrade` is a `RedisError` before the lock is held. -/
inductive Action
  | arrive (id : RequestId) (request : Request)
  | get (id : RequestId)
  | setNx (id : RequestId)
  | poll (id : RequestId)
  | callNext (id : RequestId) (outcome : Option StreamingResponse) (stored : Bool)
  | delete (id : RequestId)
  | degrade (id : RequestId)
  | expireEntry (key : Text)
  | expireLock (key : Text)

def put {Value : Type} (keys : Text → Value) (key : Text) (value : Value) : Text → Value :=
  fun other => if other = key then value else keys other

namespace State

def setPhase (s : State) (id : RequestId) (phase : Phase) : State :=
  { s with requests := Function.update s.requests id (some phase) }

def replay (platform : Platform) (s : State) (request : Request) (entry : Entry) : State :=
  { s with replays := s.replays ++ [⟨request, entry, decodeCached platform entry.raw⟩] }

def store (s : State) (key : Text) (request : Request) (response : StreamingResponse) : State :=
  { s with cache := put s.cache key (some ⟨payload response, request, response⟩) }

def setLock (s : State) (key : Text) (held : Bool) : State :=
  { s with locks := put s.locks key held }

end State

def isSuccess (response : StreamingResponse) : Bool :=
  decide (200 ≤ response.status ∧ response.status < 300)

def step (platform : Platform) (s : State) : Action → Option State
  | .arrive id request =>
      match s.requests id, keyOf platform request with
      | none, some key => some (s.setPhase id (.arrived request key))
      | none, none => some (s.setPhase id .done)
      | _, _ => none
  | .get id =>
      match s.requests id with
      | some (.arrived request key) =>
          match s.cache key with
          | some entry => some ((s.replay platform request entry).setPhase id .done)
          | none => some (s.setPhase id (.missed request key))
      | _ => none
  | .setNx id =>
      match s.requests id with
      | some (.missed request key) =>
          if s.locks key then some (s.setPhase id (.waiting lockMaxPolls request key))
          else some ((s.setLock key true).setPhase id (.running request key))
      | _ => none
  | .poll id =>
      match s.requests id with
      | some (.waiting (polls + 1) request key) =>
          match s.cache key with
          | some entry => some ((s.replay platform request entry).setPhase id .done)
          | none =>
              if polls = 0 then some (s.setPhase id .done)
              else some (s.setPhase id (.waiting polls request key))
      | _ => none
  | .callNext id outcome stored =>
      match s.requests id, outcome with
      | some (.running request key), some response =>
          if isSuccess response ∧ stored = true then
            some ((s.store key request response).setPhase id (.released key))
          else some (s.setPhase id (.released key))
      | some (.running _ key), none => some (s.setPhase id (.released key))
      | _, _ => none
  | .delete id =>
      match s.requests id with
      | some (.released key) => some ((s.setLock key false).setPhase id .done)
      | _ => none
  | .degrade id =>
      match s.requests id with
      | some (.arrived _ _) | some (.missed _ _) | some (.waiting _ _ _) =>
          some (s.setPhase id .done)
      | _ => none
  | .expireEntry key => some { s with cache := put s.cache key none }
  | .expireLock key => some (s.setLock key false)

/-- The replay is the response that was cached, to a request like the one that produced it. -/
def Replayed.Faithful (replayed : Replayed) : Prop :=
  replayed.answer = some replayed.entry.response.answer ∧
  replayed.request.method = replayed.entry.producer.method ∧
  replayed.request.path = replayed.entry.producer.path

def FaithfulReplays (s : State) : Prop := ∀ replayed ∈ s.replays, replayed.Faithful

/-- The cached response survives, and the request is like its producer. -/
def Replayable (request : Request) (entry : Entry) : Prop :=
  ValidUtf8 entry.response.body ∧ entry.response.contentType = none ∧
  request.method = entry.producer.method ∧ request.path = entry.producer.path

def reads (s : State) : Action → Option (Request × Text)
  | .get id =>
      match s.requests id with
      | some (.arrived request key) => some (request, key)
      | _ => none
  | .poll id =>
      match s.requests id with
      | some (.waiting (_ + 1) request key) => some (request, key)
      | _ => none
  | _ => none

/-- Whatever the action reads from the cache can be replayed faithfully. -/
def ReadsReplayable (s : State) (a : Action) : Prop :=
  ∀ request key entry, reads s a = some (request, key) → s.cache key = some entry →
    Replayable request entry

theorem read_fields (response : StreamingResponse) :
    readMembers (payloadFields response) =
      [(text "body", .string (decodeReplace response.body)),
        (text "status", .int response.status), (text "media_type", .null)] := by
  have body := read_units (decode_replace_scalars response.body)
  rw [payloadFields, response.streaming]
  simp only [readMembers, List.map_cons, List.map_nil, readField, Option.elim, body]
  rfl

theorem payload_writable (limit : Nat) {response : StreamingResponse}
    (success : isSuccess response = true) :
    WritableMembers (.python limit) (payloadFields response) := by
  intro member inside
  simp only [payloadFields, List.mem_cons, List.not_mem_nil, or_false] at inside
  have names : CodePoints (text "body") ∧ CodePoints (text "status") ∧
      CodePoints (text "media_type") := by
    decide
  rcases inside with rfl | rfl | rfl
  · refine ⟨names.1, ?_⟩
    exact code_points_of_scalars (decode_replace_scalars _)
  · refine ⟨names.2.1, ?_⟩
    intro most limit
    cases limit
    simp only [isSuccess, decide_eq_true_eq] at success
    have short : (Nat.toDigits 10 response.status).length ≤ 3 :=
      (Nat.length_toDigits_le_iff (by decide) (by decide)).mpr (by omega)
    simp only [decimal, List.length_map]
    omega
  · rw [response.streaming]
    exact ⟨names.2.2, trivial⟩

/-- The content type is lost, and so is what the reader had to replace in the body. -/
theorem decode_cached_payload (platform : Platform) {response : StreamingResponse}
    (success : isSuccess response = true) :
    decodeCached platform (payload response) =
      some ⟨response.status, encode (decodeReplace response.body), none⟩ := by
  have deep : (Dialect.python platform.recursionLimit).maxDepth ≠ some 0 := fun zero =>
    platform.positive (Option.some.inj zero)
  have scalars := decode_replace_scalars response.body
  have body (status : Json) : memberOf [(text "body", .string (decodeReplace response.body)),
      (text "status", status), (text "media_type", .null)] (text "body") =
        some (.string (decodeReplace response.body)) := rfl
  have status (body : Json) : memberOf [(text "body", body), (text "status", .int response.status),
      (text "media_type", .null)] (text "status") = some (.int response.status) := rfl
  have media (body status : Json) : memberOf [(text "body", body), (text "status", status),
      (text "media_type", .null)] (text "media_type") = some .null := rfl
  rw [decodeCached, payload, loads_dumps (payload_writable _ success) deep]
  simp only [read_fields, body, status, media, encodeStrict, if_pos scalars]
  rfl

theorem faithful_iff (platform : Platform) (request : Request) {entry : Entry}
    (written : entry.raw = payload entry.response) (success : isSuccess entry.response = true) :
    (Replayed.mk request entry (decodeCached platform entry.raw)).Faithful ↔
      Replayable request entry := by
  rw [Replayed.Faithful, Replayable, written, decode_cached_payload platform success,
    ← encode_decode_iff]
  simp only [StreamingResponse.answer, Option.some.injEq, Answer.mk.injEq, true_and]
  rw [eq_comm (a := none)]
  tauto

/-- Every cached text was written for a 2xx response. -/
def Written (s : State) : Prop :=
  ∀ key entry, s.cache key = some entry →
    entry.raw = payload entry.response ∧ isSuccess entry.response = true

variable {platform : Platform} {s t : State} {a : Action}

inductive Effect (platform : Platform) (s : State) (a : Action) (t : State) : Prop
  | quiet (cache : t.cache = s.cache) (replays : t.replays = s.replays)
      (misses : ∀ request key, reads s a = some (request, key) → s.cache key = none)
  | drops (key : Text) (cache : t.cache = put s.cache key none)
      (replays : t.replays = s.replays) (silent : reads s a = none)
  | stores (key : Text) (request : Request) (response : StreamingResponse)
      (success : isSuccess response = true)
      (cache : t.cache =
        put s.cache key (some ⟨payload response, request, response⟩))
      (replays : t.replays = s.replays) (silent : reads s a = none)
  | replays (request : Request) (key : Text) (entry : Entry)
      (asked : reads s a = some (request, key)) (hit : s.cache key = some entry)
      (cache : t.cache = s.cache)
      (replays : t.replays = s.replays ++ [⟨request, entry, decodeCached platform entry.raw⟩])

theorem effect_quiet (cache : t.cache = s.cache) (replays : t.replays = s.replays)
    (silent : reads s a = none) : Effect platform s a t :=
  .quiet cache replays fun request key asked => by rw [silent] at asked; cases asked

theorem step_effect (taken : step platform s a = some t) : Effect platform s a t := by
  cases a with
  | arrive id request =>
      simp only [step] at taken
      split at taken <;> cases taken <;> exact effect_quiet rfl rfl rfl
  | get id =>
      simp only [step] at taken
      split at taken
      · rename_i request key phase
        have asked : reads s (.get id) = some (request, key) := by simp [reads, phase]
        split at taken
        · rename_i entry hit
          cases taken
          exact .replays request key entry asked hit rfl rfl
        · rename_i missed
          cases taken
          refine .quiet rfl rfl fun other found same => ?_
          cases asked.symm.trans same
          exact missed
      · cases taken
  | setNx id =>
      simp only [step] at taken
      split at taken
      · split at taken <;> cases taken <;> exact effect_quiet rfl rfl rfl
      · cases taken
  | poll id =>
      simp only [step] at taken
      split at taken
      · rename_i polls request key phase
        have asked : reads s (.poll id) = some (request, key) := by simp [reads, phase]
        split at taken
        · rename_i entry hit
          cases taken
          exact .replays request key entry asked hit rfl rfl
        · rename_i missed
          have misses : ∀ other found, reads s (.poll id) = some (other, found) →
              s.cache found = none := by
            intro other found same
            cases asked.symm.trans same
            exact missed
          split at taken <;> cases taken <;> exact .quiet rfl rfl misses
      · cases taken
  | callNext id outcome stored =>
      simp only [step] at taken
      split at taken
      · rename_i request key response _
        split at taken
        · rename_i success
          cases taken
          exact .stores key request response success.1 rfl rfl rfl
        · cases taken
          exact effect_quiet rfl rfl rfl
      · cases taken
        exact effect_quiet rfl rfl rfl
      · cases taken
  | delete id =>
      simp only [step] at taken
      split at taken <;> cases taken
      exact effect_quiet rfl rfl rfl
  | degrade id =>
      simp only [step] at taken
      split at taken <;> cases taken <;> exact effect_quiet rfl rfl rfl
  | expireEntry key =>
      cases taken
      exact .drops key rfl rfl rfl
  | expireLock key =>
      cases taken
      exact effect_quiet rfl rfl rfl

theorem written_step (taken : step platform s a = some t) (written : Written s) : Written t := by
  intro key entry found
  cases step_effect taken with
  | quiet cache =>
      rw [cache] at found
      exact written key entry found
  | drops dropped cache =>
      rw [cache, put] at found
      split at found
      · cases found
      · exact written key entry found
  | stores stored request response success cache =>
      rw [cache, put] at found
      split at found
      · cases found
        exact ⟨rfl, success⟩
      · exact written key entry found
  | replays request asked other _ _ cache =>
      rw [cache] at found
      exact written key entry found

theorem reads_replayable_of_silent (silent : reads s a = none) : ReadsReplayable s a := by
  intro request key entry asked
  rw [silent] at asked
  cases asked

/-- A step keeps the replays faithful exactly when what it reads can be replayed. -/
theorem faithful_step (taken : step platform s a = some t) (written : Written s)
    (faithful : FaithfulReplays s) : FaithfulReplays t ↔ ReadsReplayable s a := by
  cases step_effect taken with
  | quiet cache replays misses =>
      refine iff_of_true (by rwa [FaithfulReplays, replays]) ?_
      intro request key entry asked hit
      rw [misses request key asked] at hit
      cases hit
  | drops key cache replays silent =>
      exact iff_of_true (by rwa [FaithfulReplays, replays]) (reads_replayable_of_silent silent)
  | stores key request response success cache replays silent =>
      exact iff_of_true (by rwa [FaithfulReplays, replays]) (reads_replayable_of_silent silent)
  | replays request key entry asked hit cache replays =>
      obtain ⟨raw, success⟩ := written key entry hit
      have exactly := faithful_iff platform request raw success
      constructor
      · intro after other found seen same present
        cases asked.symm.trans same
        cases hit.symm.trans present
        exact exactly.mp (after _ (by simp [replays]))
      · intro replayable replayed member
        rw [replays, List.mem_append, List.mem_singleton] at member
        rcases member with member | rfl
        · exact faithful replayed member
        · exact exactly.mpr (replayable request key entry asked hit)

theorem replays_faithful_iff (platform : Platform) (actions : List Action) (s : State)
    (reached : run (step platform) .start actions = some s) :
    Visits (step platform) FaithfulReplays .start actions ↔
      Along (step platform) ReadsReplayable .start actions := by
  have start : Written .start := by
    intro key entry found
    cases found
  exact visits_iff_along (fun _ _ _ taken written => written_step taken written)
    (fun _ _ _ taken written faithful => faithful_step taken written faithful)
    reached start (fun replayed member => by cases member)

def plainPlatform : Platform where
  digest := id
  contentType := id
  recursionLimit := 1000
  positive := by decide

def download : StreamingResponse where
  status := 200
  body := [0xFF]
  headers := [("content-type", text "application/octet-stream")]
  mediaType := none
  streaming := rfl

def sharedKey (path : String) : List Action :=
  let post (path : String) : Request := ⟨"POST", text path, some (text "key"), none⟩
  [.arrive 0 (post "/export"), .get 0, .setNx 0, .callNext 0 (some download) true, .delete 0,
    .arrive 1 (post path), .get 1]

theorem replays_faithful_shared_key : ∃ s,
    run (step plainPlatform) .start (sharedKey "/export") = some s ∧
    (Visits (step plainPlatform) FaithfulReplays .start (sharedKey "/export") ↔
      Along (step plainPlatform) ReadsReplayable .start (sharedKey "/export")) := by
  have ends : (run (step plainPlatform) .start (sharedKey "/export")).isSome = true := by
    decide +kernel
  obtain ⟨s, reached⟩ := Option.isSome_iff_exists.mp ends
  exact ⟨s, reached, replays_faithful_iff plainPlatform (sharedKey "/export") s reached⟩

/-- Another endpoint gets the export. -/
theorem not_faithful_shared_key : ¬ ∀ (platform : Platform) (actions : List Action) (s : State),
    run (step platform) .start actions = some s → FaithfulReplays s := by
  intro claimed
  have ends : (run (step plainPlatform) .start (sharedKey "/import")).map (fun s =>
      s.replays.map fun replayed => (replayed.request.path, replayed.entry.producer.path)) =
      some [(text "/import", text "/export")] := by
    rfl
  obtain ⟨s, reached, paths⟩ := Option.map_eq_some_iff.mp ends
  obtain ⟨replayed, member, path⟩ := List.mem_map.mp (paths ▸ List.mem_cons_self)
  have same := (claimed plainPlatform (sharedKey "/import") s reached replayed member).2.2
  rw [(Prod.mk.inj path).1, (Prod.mk.inj path).2] at same
  exact absurd same (by decide)

end Yomochi.Http.Replay
