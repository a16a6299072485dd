import Yomochi.Foundation.Table
import Yomochi.Http.Idempotency
import Yomochi.Recurring.UseCases

/-! The end of a request: its response goes out, and into the idempotency cache, while dishka
closes the request scope, whose session provider commits. Nothing orders the two. -/

namespace Yomochi.Http.Closing

open Foundation

abbrev Write (Db : Type) := Db → Option Db

def applyAll {Db : Type} : Db → List (Write Db) → Option Db
  | db, [] => some db
  | db, write :: writes => (write db).bind fun next => applyAll next writes

/-- What the handler ends with. An exception that has a registered handler becomes a response
inside of the scope; any other one is raised through it. -/
inductive Answer
  | response (response : Response)
  | raised

/-- A request in its handler and behind it. `sent` holds the statements of its transaction,
`pending` the merged rows that wait for a flush. Its response is cached under `lock`, the key
whose lock it holds. `died` says that its process has. -/
structure Handling (Db : Type) where
  lock : Option String
  sent : List (Write Db)
  pending : List (Write Db)
  aborted : Bool
  answer : Option Answer
  stored : Bool
  received : Bool
  committed : Option Bool
  died : Bool

/-- A replayed request gets the response that the handler of another one has made. -/
inductive Exchange (Db : Type)
  | handling (handling : Handling Db)
  | replayed (source : RequestId) (response : Response)

structure State (Db : Type) where
  db : Db
  cache : String → Option (RequestId × Response)
  requests : List RequestId
  exchanges : RequestId → Option (Exchange Db)

def State.start {Db : Type} (db : Db) : State Db := ⟨db, fun _ => none, [], fun _ => none⟩

inductive Action (Db : Type)
  | start (request : RequestId) (lock : Option String)
  | replay (request : RequestId) (key : String)
  | merge (request : RequestId) (write : Write Db)
  | execute (request : RequestId) (write : Write Db)
  | flush (request : RequestId)
  | answer (request : RequestId) (answer : Answer)
  | store (request : RequestId)
  | deliver (request : RequestId)
  | close (request : RequestId) (outcome : CommitOutcome)
  | crash (request : RequestId)
  | expire (key : String)

namespace Handling

variable {Db : Type}

def start (lock : Option String) : Handling Db := ⟨lock, [], [], false, none, false, false, none, false⟩

/-- `session.merge`: there is no autoflush. -/
def merge (handling : Handling Db) (write : Write Db) : Handling Db :=
  { handling with pending := handling.pending ++ [write] }

/-- Statements are sent. After one that fails the database refuses every other one. -/
def send (handling : Handling Db) (db : Db) (writes : List (Write Db)) : Handling Db :=
  if handling.aborted || (applyAll db (handling.sent ++ writes)).isNone then
    { handling with aborted := true }
  else { handling with sent := handling.sent ++ writes }

def flush (handling : Handling Db) (db : Db) : Handling Db :=
  { handling.send db handling.pending with pending := [] }

def success (handling : Handling Db) : Option Response :=
  match handling.answer with
  | some (.response response) => if response.isSuccess then some response else none
  | _ => none

/-- No statement has failed, and no row that waits for the flush violates a constraint. -/
def acceptable (handling : Handling Db) (db : Db) : Bool :=
  !handling.aborted && (applyAll db (handling.sent ++ handling.pending)).isSome

def commit (handling : Handling Db) (db : Db) (outcome : CommitOutcome) : Option Db :=
  if handling.aborted || !outcome.applied then none
  else applyAll db (handling.sent ++ handling.pending)

def awaits (handling : Handling Db) : Bool := handling.success.isSome && handling.committed.isNone

theorem commit_isSome (handling : Handling Db) (db : Db) {outcome : CommitOutcome}
    (applied : outcome.applied = true) :
    (handling.commit db outcome).isSome = handling.acceptable db := by
  unfold commit acceptable
  rw [applied]
  cases handling.aborted <;> simp

end Handling

section

variable {Db : Type}

def State.handling (s : State Db) (request : RequestId) : Option (Handling Db) :=
  match s.exchanges request with
  | some (.handling handling) => some handling
  | _ => none

def State.running (s : State Db) (request : RequestId) : Option (Handling Db) :=
  (s.handling request).filter fun handling => !handling.died

def State.set (s : State Db) (request : RequestId) (exchange : Exchange Db) : State Db :=
  { s with exchanges := Function.update s.exchanges request (some exchange) }

def State.enter (s : State Db) (request : RequestId) (exchange : Exchange Db) : State Db :=
  ({ s with requests := request :: s.requests } : State Db).set request exchange

def handle (s : State Db) (request : RequestId) (f : Handling Db → Handling Db) :
    Option (State Db) :=
  (s.running request).bind fun handling =>
    if handling.answer.isNone then some (s.set request (.handling (f handling))) else none

/-- `SETEX` of a 2xx response, by the holder of the lock. -/
def store (s : State Db) (request : RequestId) : Option (State Db) :=
  (s.running request).bind fun handling =>
    match handling.lock, handling.success with
    | some key, some response =>
        some (({ s with cache := Function.update s.cache key (some (request, response)) } :
          State Db).set request (.handling { handling with stored := true }))
    | _, _ => none

def deliver (s : State Db) (request : RequestId) : Option (State Db) :=
  (s.running request).bind fun handling =>
    match handling.answer with
    | some (.response _) => some (s.set request (.handling { handling with received := true }))
    | _ => none

def close (s : State Db) (request : RequestId) (outcome : CommitOutcome) : Option (State Db) :=
  (s.running request).bind fun handling =>
    match handling.answer, handling.committed with
    | some (.response _), none =>
        match handling.commit s.db outcome with
        | none => some (s.set request (.handling { handling with committed := some false }))
        | some db => some (({ s with db := db } : State Db).set request
            (.handling { handling with committed := some true }))
    | some .raised, none => some (s.set request (.handling { handling with committed := some false }))
    | _, _ => none

/-- The process dies, and the database rolls back what it had not committed. -/
def crash (s : State Db) (request : RequestId) : Option (State Db) :=
  (s.running request).map fun handling => s.set request (.handling { handling with
    committed := some (handling.committed.getD false)
    died := true })

def step (s : State Db) : Action Db → Option (State Db)
  | .start request lock =>
      if (s.exchanges request).isNone then some (s.enter request (.handling (.start lock)))
      else none
  | .replay request key =>
      if (s.exchanges request).isNone then
        (s.cache key).map fun cached => s.enter request (.replayed cached.1 cached.2)
      else none
  | .merge request write => handle s request fun handling => handling.merge write
  | .execute request write => handle s request fun handling => handling.send s.db [write]
  | .flush request => handle s request fun handling => handling.flush s.db
  | .answer request answer => handle s request fun handling => { handling with answer := some answer }
  | .store request => store s request
  | .deliver request => deliver s request
  | .close request outcome => close s request outcome
  | .crash request => crash s request
  | .expire key => some { s with cache := Function.update s.cache key none }

/-- The success that the handler of `source` has made is seen by a client, or is in the cache. -/
def Observed (s : State Db) (source : RequestId) : Prop :=
  (∃ handling, s.handling source = some handling ∧ handling.success.isSome = true ∧
    (handling.received = true ∨ handling.stored = true)) ∨
  ∃ request response, s.exchanges request = some (.replayed source response) ∧
    response.isSuccess = true

/-- The transaction is committed, or its scope is still open and a COMMIT would go through. -/
def Handling.Sound (handling : Handling Db) (db : Db) : Prop :=
  handling.committed = some true ∨
    handling.committed = none ∧ handling.died = false ∧ (handling.commit db .committed).isSome = true

/-- No success is seen whose transaction is lost, or would be. -/
def SuccessCommitted (s : State Db) : Prop :=
  ∀ source handling, Observed s source → s.handling source = some handling → handling.Sound s.db

/-- What waits for its commit behind a 2xx is acceptable to `db`. -/
def OthersAcceptable (s : State Db) (request : RequestId) (db : Db) : Prop :=
  ∀ other ∈ s.requests, other ≠ request → ∀ waiting ∈ s.handling other,
    waiting.awaits = true → waiting.acceptable db = true

/-- A handler answers with a 2xx when the database takes its rows, and no other request takes them
away before its commit; that COMMIT is applied, and the process does not die in front of it. -/
def KeepsSuccess (s : State Db) : Action Db → Prop
  | .answer request answer => ∀ handling ∈ s.running request,
      { handling with answer := some answer }.success.isSome = true →
        handling.acceptable s.db = true
  | .close request outcome => ∀ handling ∈ s.running request,
      (handling.awaits = true → outcome.applied = true) ∧
        ∀ db ∈ applyAll s.db (handling.sent ++ handling.pending), OthersAcceptable s request db
  | .crash request => ∀ handling ∈ s.running request, handling.awaits = false
  | _ => True

instance (s : State Db) (request : RequestId) (db : Db) :
    Decidable (OthersAcceptable s request db) :=
  inferInstanceAs (Decidable (∀ _ ∈ _, _))

instance (s : State Db) (a : Action Db) : Decidable (KeepsSuccess s a) :=
  match a with
  | .answer _ _ | .close _ _ | .crash _ => inferInstanceAs (Decidable (∀ _ ∈ _, _))
  | .start _ _ | .replay _ _ | .merge _ _ | .execute _ _ | .flush _ | .store _ | .deliver _
  | .expire _ => .isTrue trivial

structure Invariant (s : State Db) : Prop where
  known : ∀ request handling, s.handling request = some handling → request ∈ s.requests
  unanswered : ∀ request handling, s.handling request = some handling →
    handling.answer = none → handling.died = false → handling.committed = none
  sound : ∀ request handling, s.handling request = some handling →
    handling.success.isSome = true → handling.Sound s.db
  cached : ∀ key source response, s.cache key = some (source, response) →
    ∃ handling, s.handling source = some handling ∧ handling.success = some response
  replayed : ∀ request source response, s.exchanges request = some (.replayed source response) →
    ∃ handling, s.handling source = some handling ∧ handling.success = some response

end

section

variable {Db : Type} {s : State Db} {request : RequestId}

theorem handling_eq_some {handling : Handling Db} :
    s.handling request = some handling ↔ s.exchanges request = some (.handling handling) := by
  unfold State.handling
  split
  · rename_i found
    rw [found]
    simp
  · rename_i other
    constructor
    · intro none
      cases none
    · intro found
      exact absurd found (other handling)

theorem running_eq_some {handling : Handling Db} :
    s.running request = some handling ↔
      s.handling request = some handling ∧ handling.died = false := by
  rw [State.running, Option.filter_eq_some_iff, Bool.not_eq_true']

theorem exchanges_set_self (s : State Db) (request : RequestId) (exchange : Exchange Db) :
    (s.set request exchange).exchanges request = some exchange :=
  Function.update_self ..

theorem exchanges_set_other {other : RequestId} {exchange : Exchange Db}
    (different : other ≠ request) : (s.set request exchange).exchanges other = s.exchanges other :=
  Function.update_of_ne different ..

theorem handling_set_self (s : State Db) (request : RequestId) (handling : Handling Db) :
    (s.set request (.handling handling)).handling request = some handling :=
  handling_eq_some.mpr (exchanges_set_self s request _)

theorem handling_set_other {other : RequestId} {exchange : Exchange Db} (different : other ≠ request) :
    (s.set request exchange).handling other = s.handling other := by
  unfold State.handling
  rw [exchanges_set_other different]

theorem invariant_start (db : Db) : Invariant (.start db) where
  known := by
    intro request handling found
    cases found
  unanswered := by
    intro request handling found
    cases found
  sound := by
    intro request handling found
    cases found
  cached := by
    intro key source response found
    cases found
  replayed := by
    intro request source response found
    cases found

def Made (s : State Db) (source : RequestId) (response : Response) : Prop :=
  ∃ handling, s.handling source = some handling ∧ handling.success = some response

/-- What a request may become: it is closed behind its answer, it keeps its success, which stays
sound, and what it replays has been made. -/
structure Admissible (s : State Db) (request : RequestId) (exchange : Exchange Db) : Prop where
  known : request ∈ s.requests
  unanswered : ∀ new, exchange = .handling new → new.answer = none → new.died = false →
    new.committed = none
  kept : ∀ response, Made s request response →
    ∃ new, exchange = .handling new ∧ new.success = some response
  sound : ∀ new, exchange = .handling new → new.success.isSome = true → new.Sound s.db
  replayed : ∀ source response, exchange = .replayed source response → Made s source response

theorem made_set {exchange : Exchange Db} (admissible : Admissible s request exchange)
    {source : RequestId} {response : Response} (made : Made s source response) :
    Made (s.set request exchange) source response := by
  by_cases same : source = request
  · subst same
    obtain ⟨new, rfl, success⟩ := admissible.kept response made
    exact ⟨new, handling_set_self s source new, success⟩
  · obtain ⟨handling, inside, success⟩ := made
    exact ⟨handling, (handling_set_other same).trans inside, success⟩

theorem invariant_set {exchange : Exchange Db} (invariant : Invariant s)
    (admissible : Admissible s request exchange) : Invariant (s.set request exchange) where
  known := by
    intro other handling inside
    by_cases same : other = request
    · subst same
      exact admissible.known
    · rw [handling_set_other same] at inside
      exact invariant.known other handling inside
  unanswered := by
    intro other handling inside none alive
    by_cases same : other = request
    · subst same
      rw [handling_eq_some, exchanges_set_self] at inside
      exact admissible.unanswered handling (Option.some.inj inside) none alive
    · rw [handling_set_other same] at inside
      exact invariant.unanswered other handling inside none alive
  sound := by
    intro other handling inside success
    by_cases same : other = request
    · subst same
      rw [handling_eq_some, exchanges_set_self] at inside
      exact admissible.sound handling (Option.some.inj inside) success
    · rw [handling_set_other same] at inside
      exact invariant.sound other handling inside success
  cached := fun key source response inside =>
    made_set admissible (invariant.cached key source response inside)
  replayed := by
    intro other source response inside
    apply made_set admissible
    by_cases same : other = request
    · subst same
      rw [exchanges_set_self] at inside
      exact admissible.replayed source response (Option.some.inj inside)
    · rw [exchanges_set_other same] at inside
      exact invariant.replayed other source response inside

/-- A commit that takes nothing away from the successes that wait for theirs. -/
theorem invariant_db (db : Db) (invariant : Invariant s)
    (spared : ∀ request waiting, s.handling request = some waiting → waiting.awaits = true →
      waiting.acceptable db = true) : Invariant { s with db := db } where
  known := invariant.known
  unanswered := invariant.unanswered
  sound := by
    intro request handling inside success
    rcases invariant.sound request handling inside success with committed | ⟨waits, alive, _⟩
    · exact .inl committed
    · refine .inr ⟨waits, alive, ?_⟩
      rw [handling.commit_isSome db rfl]
      exact spared request handling inside (by simp [Handling.awaits, success, waits])
  cached := invariant.cached
  replayed := invariant.replayed

theorem not_made (absent : s.exchanges request = none) (response : Response) :
    ¬ Made s request response := by
  rintro ⟨handling, inside, _⟩
  rw [handling_eq_some, absent] at inside
  cases inside

theorem invariant_enter {exchange : Exchange Db} (invariant : Invariant s)
    (absent : s.exchanges request = none)
    (fresh : ∀ new, exchange = .handling new → new.committed = none ∧ new.success = none)
    (replayed : ∀ source response, exchange = .replayed source response → Made s source response) :
    Invariant (s.enter request exchange) := by
  have before : Invariant ({ s with requests := request :: s.requests } : State Db) :=
    ⟨fun other handling inside => List.mem_cons_of_mem _ (invariant.known other handling inside),
      invariant.unanswered, invariant.sound, invariant.cached, invariant.replayed⟩
  refine invariant_set before ⟨List.mem_cons_self, ?_, ?_, ?_, replayed⟩
  · exact fun new same _ _ => (fresh new same).1
  · exact fun response made => absurd made (not_made absent response)
  · intro new same success
    rw [(fresh new same).2] at success
    cases success

theorem admissible_handling {old new : Handling Db} (invariant : Invariant s)
    (found : s.handling request = some old)
    (unanswered : new.answer = none → new.died = false → new.committed = none)
    (kept : ∀ response, old.success = some response → new.success = some response)
    (sound : new.success.isSome = true → new.Sound s.db) :
    Admissible s request (.handling new) where
  known := invariant.known request old found
  unanswered := by
    intro other same
    cases same
    exact unanswered
  kept := by
    rintro response ⟨handling, inside, success⟩
    cases found.symm.trans inside
    exact ⟨new, rfl, kept response success⟩
  sound := by
    intro other same
    cases same
    exact sound
  replayed := by
    intro source response same
    cases same

/-- Before its answer a handler may do what it likes to its session. -/
theorem invariant_handle {f : Handling Db → Handling Db} {t : State Db}
    (taken : handle s request f = some t)
    (uncommitted : ∀ handling, (f handling).committed = handling.committed)
    (sound : ∀ handling, s.running request = some handling → (f handling).success.isSome = true →
      handling.answer = none → handling.committed = none → (f handling).Sound s.db)
    (invariant : Invariant s) : Invariant t := by
  obtain ⟨handling, ran, rest⟩ := Option.bind_eq_some_iff.mp taken
  obtain ⟨found, alive⟩ := running_eq_some.mp ran
  split at rest
  · rename_i unanswered
    cases rest
    have none := Option.isNone_iff_eq_none.mp unanswered
    have before := invariant.unanswered request handling found none alive
    apply invariant_set invariant
    apply admissible_handling invariant found
    · intro _ _
      rw [uncommitted handling]
      exact before
    · intro response success
      simp [Handling.success, none] at success
    · exact fun success => sound handling ran success none before
  · cases rest

theorem unanswered_success {handling : Handling Db} (none : handling.answer = none)
    (success : handling.success.isSome = true) : False := by
  simp [Handling.success, none] at success

theorem send_committed (handling : Handling Db) (db : Db) (writes : List (Write Db)) :
    (handling.send db writes).committed = handling.committed ∧
      (handling.send db writes).answer = handling.answer := by
  unfold Handling.send
  split <;> exact ⟨rfl, rfl⟩

theorem invariant_answer {answer : Answer} {t : State Db}
    (guard : KeepsSuccess s (.answer request answer)) (taken : step s (.answer request answer) = some t)
    (invariant : Invariant s) : Invariant t := by
  refine invariant_handle taken (fun _ => rfl) ?_ invariant
  intro handling ran success _ waits
  refine .inr ⟨waits, (running_eq_some.mp ran).2, ?_⟩
  rw [Handling.commit_isSome _ s.db rfl]
  exact guard handling ran success

/-- What is cached from now on has been made. -/
theorem invariant_cache (key : String) (entry : Option (RequestId × Response))
    (invariant : Invariant s)
    (made : ∀ source response, entry = some (source, response) → Made s source response) :
    Invariant { s with cache := Function.update s.cache key entry } where
  known := invariant.known
  unanswered := invariant.unanswered
  sound := invariant.sound
  cached := by
    intro other source response inside
    by_cases same : other = key
    · subst same
      exact made source response ((Function.update_self other entry s.cache).symm.trans inside)
    · exact invariant.cached other source response
        ((Function.update_of_ne same entry s.cache).symm.trans inside)
  replayed := invariant.replayed

theorem invariant_store {t : State Db} (taken : store s request = some t) (invariant : Invariant s) :
    Invariant t := by
  obtain ⟨handling, ran, rest⟩ := Option.bind_eq_some_iff.mp taken
  obtain ⟨found, _⟩ := running_eq_some.mp ran
  split at rest
  · rename_i key response _ success
    cases rest
    have cached := invariant_cache key (some (request, response)) invariant (by
      intro source other same
      cases same
      exact ⟨handling, found, success⟩)
    apply invariant_set cached
    exact admissible_handling cached found (invariant.unanswered request handling found)
      (fun _ before => before) (invariant.sound request handling found)
  · cases rest

theorem invariant_deliver {t : State Db} (taken : deliver s request = some t)
    (invariant : Invariant s) : Invariant t := by
  obtain ⟨handling, ran, rest⟩ := Option.bind_eq_some_iff.mp taken
  obtain ⟨found, _⟩ := running_eq_some.mp ran
  split at rest
  · cases rest
    apply invariant_set invariant
    exact admissible_handling invariant found (invariant.unanswered request handling found)
      (fun _ before => before) (invariant.sound request handling found)
  · cases rest

/-- What is closed has been answered, and a success is closed with its commit. -/
theorem admissible_close {handling : Handling Db} {committed : Bool} (invariant : Invariant s)
    (found : s.handling request = some handling) (answered : handling.answer ≠ none)
    (fine : handling.success.isSome = true → committed = true) :
    Admissible s request (.handling { handling with committed := some committed }) := by
  apply admissible_handling invariant found
  · exact fun unanswered => absurd unanswered answered
  · exact fun _ before => before
  · exact fun success => .inl (congrArg some (fine success))

theorem invariant_close {outcome : CommitOutcome} {t : State Db}
    (guard : KeepsSuccess s (.close request outcome)) (taken : close s request outcome = some t)
    (invariant : Invariant s) : Invariant t := by
  obtain ⟨handling, ran, rest⟩ := Option.bind_eq_some_iff.mp taken
  obtain ⟨found, _⟩ := running_eq_some.mp ran
  obtain ⟨applied, spared⟩ := guard handling ran
  split at rest
  · rename_i response answered waits
    split at rest
    · rename_i failed
      cases rest
      apply invariant_set invariant
      apply admissible_close invariant found (by simp [answered])
      intro success
      -- The invariant has kept its rows acceptable since the answer.
      rcases invariant.sound request handling found success with committed | ⟨_, _, goes⟩
      · rw [waits] at committed
        cases committed
      · have applied := applied (by simp [Handling.awaits, success, waits])
        rw [handling.commit_isSome s.db rfl, ← handling.commit_isSome s.db applied, failed] at goes
        cases goes
    · rename_i db committed
      cases rest
      have closed := invariant_set invariant
        (admissible_close invariant found (by simp [answered]) fun _ => rfl)
      refine invariant_db db closed ?_
      intro other waiting inside waits
      by_cases same : other = request
      · subst same
        rw [handling_set_self] at inside
        cases inside
        simp [Handling.awaits] at waits
      · rw [handling_set_other same] at inside
        have written : applyAll s.db (handling.sent ++ handling.pending) = some db := by
          unfold Handling.commit at committed
          split at committed
          · cases committed
          · exact committed
        exact spared db written other (invariant.known other waiting inside) same waiting inside
          waits
  · rename_i answered _
    cases rest
    apply invariant_set invariant
    apply admissible_close invariant found (by simp [answered])
    intro success
    simp [Handling.success, answered] at success
  · cases rest

theorem invariant_crash {t : State Db} (guard : KeepsSuccess s (.crash request))
    (taken : crash s request = some t) (invariant : Invariant s) : Invariant t := by
  obtain ⟨handling, ran, rfl⟩ := Option.map_eq_some_iff.mp taken
  obtain ⟨found, _⟩ := running_eq_some.mp ran
  apply invariant_set invariant
  apply admissible_handling invariant found
  · intro _ died
    cases died
  · exact fun _ before => before
  · intro success
    rcases invariant.sound request handling found success with committed | ⟨waits, _, _⟩
    · exact .inl (by simp [committed])
    · have idle := guard handling ran
      have made : handling.success.isSome = true := success
      simp [Handling.awaits, made, waits] at idle

theorem invariant_step (s : State Db) (a : Action Db) (t : State Db) (guard : KeepsSuccess s a)
    (taken : step s a = some t) (invariant : Invariant s) : Invariant t := by
  cases a with
  | start request lock =>
      simp only [step] at taken
      split at taken
      · rename_i absent
        cases taken
        refine invariant_enter invariant (Option.isNone_iff_eq_none.mp absent) ?_ ?_
        · intro new same
          cases same
          exact ⟨rfl, rfl⟩
        · intro source response same
          cases same
      · cases taken
  | replay request key =>
      simp only [step] at taken
      split at taken
      · rename_i absent
        obtain ⟨cached, found, rfl⟩ := Option.map_eq_some_iff.mp taken
        refine invariant_enter invariant (Option.isNone_iff_eq_none.mp absent) ?_ ?_
        · intro new same
          cases same
        · intro source response same
          cases same
          exact invariant.cached key cached.1 cached.2 found
      · cases taken
  | merge request write =>
      exact invariant_handle taken (fun _ => rfl)
        (fun _ _ success none _ => (unanswered_success none success).elim) invariant
  | execute request write =>
      refine invariant_handle taken (fun handling => (send_committed handling s.db [write]).1)
        (fun handling _ success none _ => ?_) invariant
      exact (unanswered_success ((send_committed handling s.db [write]).2.trans none) success).elim
  | flush request =>
      refine invariant_handle taken
        (fun handling => (send_committed handling s.db handling.pending).1)
        (fun handling _ success none _ => ?_) invariant
      exact (unanswered_success ((send_committed handling s.db handling.pending).2.trans none)
        success).elim
  | answer request answer => exact invariant_answer guard taken invariant
  | store request => exact invariant_store taken invariant
  | deliver request => exact invariant_deliver taken invariant
  | close request outcome => exact invariant_close guard taken invariant
  | crash request => exact invariant_crash guard taken invariant
  | expire key =>
      cases taken
      exact invariant_cache key none invariant (fun _ _ none => by cases none)

theorem success_committed_of_invariant (s : State Db) (invariant : Invariant s) :
    SuccessCommitted s := by
  intro source handling observed found
  have made : handling.success.isSome = true := by
    rcases observed with ⟨other, same, success, _⟩ | ⟨request, response, replayed, _⟩
    · cases found.symm.trans same
      exact success
    · obtain ⟨other, same, success⟩ := invariant.replayed request source response replayed
      cases found.symm.trans same
      simp [success]
  exact invariant.sound source handling found made

end

/-- Where the database takes the rows of every success from its answer on, every success that is
seen is committed. -/
theorem success_committed_of_kept {Db : Type} (db : Db) (actions : List (Action Db))
    (along : Along step KeepsSuccess (.start db) actions) :
    Visits step SuccessCommitted (.start db) actions :=
  visits_of_along invariant_step success_committed_of_invariant along (invariant_start db)

section

open Recurring

def insertTransaction (entry : Transaction) : Write Store := fun store =>
  if store.admitsTransaction entry then (Session.start.add entry).commit store |>.toOption else none

def statusOf : CreateError → Nat
  | .storageError => 503
  | .categoryIsGroup _ => 422

/-- The handler of a new transaction: the rows that the use case merges, the INSERT of the audit
event, and the response. -/
def createTransactionHandler (store : Store) (request : RequestId) (lock : Option String)
    (script : FireScript) (command : CreateTransactionCommand) : List (Action Store) :=
  match createTransaction store script .start command with
  | (.ok _, session) =>
      .start request lock ::
        session.added.map (fun entry => .merge request (insertTransaction entry)) ++
        [.execute request some, .answer request (.response ⟨201, "", some "application/json"⟩)]
  | (.error error, _) =>
      [.start request lock,
        .answer request (.response ⟨statusOf error, "", some "application/json"⟩)]

def emptyStore : Store := ⟨.empty, .empty, .empty, recurring_keys_nil⟩

def newYearsEve : Date := ⟨2025, 12, 31, by decide, by decide, by decide⟩

/-- A request with an idempotency key, and its response before its scope is closed. -/
def lunch (categoryId : Option CategoryId) : List (Action Store) :=
  createTransactionHandler emptyStore 0 (some "lunch") ⟨none, ⟨1⟩, 0, 0⟩
    ⟨⟨3⟩, ⟨12, "USD"⟩, newYearsEve, .EXPENSE, none, none, categoryId, none⟩ ++
    [.store 0, .deliver 0, .close 0 .committed]

theorem success_committed_lunch :
    Visits step SuccessCommitted (.start emptyStore) (lunch none) :=
  success_committed_of_kept emptyStore (lunch none) (by decide +kernel)

/-- The category does not exist: the client has its 201 and the cache, too, when the flush fails. -/
theorem not_success_committed : ¬ ∀ (Db : Type) (db : Db) (actions : List (Action Db)) (s : State Db),
    run step (.start db) actions = some s → SuccessCommitted s := by
  intro claimed
  have ends : (run step (.start emptyStore) (lunch (some ⟨7⟩))).any (fun s =>
      (s.handling 0).any fun handling => handling.success.isSome && handling.received &&
        handling.stored && decide (handling.committed = some false)) = true := by
    decide +kernel
  obtain ⟨s, reached, failed⟩ := (Option.any_eq_true _ _).mp ends
  obtain ⟨handling, found, facts⟩ := (Option.any_eq_true _ _).mp failed
  simp only [Bool.and_eq_true, decide_eq_true_eq] at facts
  obtain ⟨⟨⟨success, received⟩, _⟩, closed⟩ := facts
  rcases claimed Store emptyStore (lunch (some ⟨7⟩)) s reached 0 handling
    (.inl ⟨handling, found, success, .inl received⟩) found with committed | ⟨waits, _⟩
  · rw [closed] at committed
    cases committed
  · rw [closed] at waits
    cases waits

end

end Yomochi.Http.Closing
