import Mathlib.Logic.Function.Basic
import Yomochi.Foundation.Runs

/-! Requests that carry one `Idempotency-Key` in one session scope, between the Redis commands
of `IdempotencyMiddleware.dispatch`. Redis answers every command, and no handler outlives the
lock or the poll window. -/

namespace Yomochi.Http

open Foundation

abbrev RequestId := Nat

structure Response where
  status : Nat
  body : String
  mediaType : Option String
  deriving DecidableEq, Repr

def Response.isSuccess (response : Response) : Bool :=
  decide (200 ≤ response.status ∧ response.status < 300)

def lockMaxPolls : Nat := 50

/-- Where a request is in `dispatch`. `waiting` counts the polls left and names the request
that held the lock; `running` says whether the request holds it itself. -/
inductive Phase
  | arrived
  | missed
  | waiting (polls : Nat) (holder : RequestId)
  | running (locked : Bool)
  | responded (response : Response)
  | released
  | done
  deriving DecidableEq

def Phase.lastPoll : Phase → Bool
  | .waiting 1 _ => true
  | _ => false

/-- `successes` and `replays` are history: the handler runs that returned a 2xx response, and the
responses answered from the cache, since the cached entry last expired. -/
structure State where
  cache : Option Response
  lock : Option RequestId
  requests : RequestId → Phase
  successes : List (RequestId × Response)
  replays : List (RequestId × Response)

def State.start : State where
  cache := none
  lock := none
  requests := fun _ => .arrived
  successes := []
  replays := []

inductive Action
  | get (request : RequestId)
  | setNx (request : RequestId)
  | callNext (request : RequestId) (outcome : Option Response)
  | setEx (request : RequestId)
  | delete (request : RequestId)
  | poll (request : RequestId)
  | expire
  deriving DecidableEq

namespace State

def setPhase (s : State) (request : RequestId) (phase : Phase) : State :=
  { s with requests := Function.update s.requests request phase }

def replay (s : State) (request : RequestId) (response : Response) : State :=
  { s with replays := s.replays ++ [(request, response)] }

def succeed (s : State) (request : RequestId) (response : Response) : State :=
  if response.isSuccess then { s with successes := s.successes ++ [(request, response)] } else s

end State

def get (s : State) (request : RequestId) : Option State :=
  match s.requests request, s.cache with
  | .arrived, some cached => some ((s.replay request cached).setPhase request .done)
  | .arrived, none => some (s.setPhase request .missed)
  | _, _ => none

/-- `SET lock 1 NX`. The cache is not read again. -/
def setNx (s : State) (request : RequestId) : Option State :=
  match s.requests request, s.lock with
  | .missed, none =>
      some (({ s with lock := some request } : State).setPhase request (.running true))
  | .missed, some holder => some (s.setPhase request (.waiting lockMaxPolls holder))
  | _, _ => none

/-- The handler returns, or raises. Without the lock its response goes straight out. -/
def callNext (s : State) (request : RequestId) (outcome : Option Response) : Option State :=
  match s.requests request, outcome with
  | .running true, some response =>
      some ((s.succeed request response).setPhase request (.responded response))
  | .running true, none => some (s.setPhase request .released)
  | .running false, some response => some ((s.succeed request response).setPhase request .done)
  | .running false, none => some (s.setPhase request .done)
  | _, _ => none

/-- `SETEX` of a 2xx response; other responses are not cached. -/
def setEx (s : State) (request : RequestId) : Option State :=
  match s.requests request with
  | .responded response =>
      if response.isSuccess then
        some (({ s with cache := some response } : State).setPhase request .released)
      else some (s.setPhase request .released)
  | _ => none

/-- The `finally` of the lock holder. -/
def delete (s : State) (request : RequestId) : Option State :=
  match s.requests request with
  | .released => some (({ s with lock := none } : State).setPhase request .done)
  | _ => none

/-- One round of the poll loop. The holder is through before the last one, since its handler
finishes within the poll window. -/
def poll (s : State) (request : RequestId) : Option State :=
  match s.requests request with
  | .waiting (polls + 1) holder =>
      if polls = 0 ∧ s.lock = some holder then none
      else
        match s.cache with
        | some cached => some ((s.replay request cached).setPhase request .done)
        | none =>
            if polls = 0 then some (s.setPhase request (.running false))
            else some (s.setPhase request (.waiting polls holder))
  | _ => none

def expire (s : State) : Option State :=
  match s.cache with
  | some _ => some { s with cache := none, successes := [], replays := [] }
  | none => none

def step (s : State) : Action → Option State
  | .get request => get s request
  | .setNx request => setNx s request
  | .callNext request outcome => callNext s request outcome
  | .setEx request => setEx s request
  | .delete request => delete s request
  | .poll request => poll s request
  | .expire => expire s

end Yomochi.Http
