import Mathlib.Data.Set.Card
import Yomochi.Ai.Gateway

/-! `OpenAIGateway._acquire`: how many tasks wait for the token of an endpoint. The calls, whole
and streamed, are all made inside of it. -/

namespace Yomochi.Ai

open Foundation

/-- Where a task is: in `acquire`, behind it with a token, or out of the context. -/
inductive Place
  | acquiring (endpoint : Endpoint)
  | inside (endpoint : Endpoint)
  | ended
  deriving DecidableEq

structure Limiter where
  maxQueue : Nat
  waiting : Endpoint → Int
  tasks : CallId → Option Place

namespace Limiter

def start (maxQueue : Nat) : Limiter := ⟨maxQueue, fun _ => 0, fun _ => none⟩

/-- `acquireReturns` is the token, at once or later; `acquireRaises` a cancellation, or an error of
the limiter itself; `leave` is the end of the body, whatever it is. -/
inductive Move
  | arrive (task : CallId) (endpoint : Endpoint)
  | acquireReturns (task : CallId)
  | acquireRaises (task : CallId)
  | leave (task : CallId)
  deriving DecidableEq

def place (s : Limiter) (task : CallId) (place : Place) : Limiter :=
  { s with tasks := Function.update s.tasks task (some place) }

def count (s : Limiter) (endpoint : Endpoint) (waiting : Int) : Limiter :=
  { s with waiting := Function.update s.waiting endpoint waiting }

def step (s : Limiter) : Move → Option Limiter
  | .arrive task endpoint =>
      match s.tasks task with
      | some _ => none
      | none =>
          if (s.maxQueue : Int) ≤ s.waiting endpoint then some (s.place task .ended)
          else some ((s.count endpoint (s.waiting endpoint + 1)).place task (.acquiring endpoint))
  | .acquireReturns task =>
      match s.tasks task with
      | some (.acquiring endpoint) =>
          some ((s.count endpoint (s.waiting endpoint - 1)).place task (.inside endpoint))
      | _ => none
  | .acquireRaises task =>
      match s.tasks task with
      | some (.acquiring endpoint) =>
          some ((s.count endpoint (s.waiting endpoint - 1)).place task .ended)
      | _ => none
  | .leave task =>
      match s.tasks task with
      | some (.inside _) => some (s.place task .ended)
      | _ => none

def acquiring (s : Limiter) (endpoint : Endpoint) : Set CallId :=
  {task | s.tasks task = some (.acquiring endpoint)}

inductive Effect (s : Limiter) : Move → Limiter → Prop
  | rejected {task : CallId} {endpoint : Endpoint} (fresh : s.tasks task = none)
      (full : (s.maxQueue : Int) ≤ s.waiting endpoint) :
      Effect s (.arrive task endpoint) (s.place task .ended)
  | queued {task : CallId} {endpoint : Endpoint} (fresh : s.tasks task = none)
      (room : s.waiting endpoint < s.maxQueue) :
      Effect s (.arrive task endpoint)
        ((s.count endpoint (s.waiting endpoint + 1)).place task (.acquiring endpoint))
  | granted {task : CallId} {endpoint : Endpoint}
      (waits : s.tasks task = some (.acquiring endpoint)) :
      Effect s (.acquireReturns task)
        ((s.count endpoint (s.waiting endpoint - 1)).place task (.inside endpoint))
  | raised {task : CallId} {endpoint : Endpoint}
      (waits : s.tasks task = some (.acquiring endpoint)) :
      Effect s (.acquireRaises task)
        ((s.count endpoint (s.waiting endpoint - 1)).place task .ended)
  | left {task : CallId} {endpoint : Endpoint} (holds : s.tasks task = some (.inside endpoint)) :
      Effect s (.leave task) (s.place task .ended)

def Accounts (s : Limiter) : Prop :=
  ∀ endpoint, ∃ n : Nat, s.waiting endpoint = n ∧ (s.acquiring endpoint).encard = n ∧
    n ≤ s.maxQueue

variable {s t : Limiter} {move : Move} {task : CallId} {endpoint : Endpoint}

theorem step_effect (taken : step s move = some t) : Effect s move t := by
  cases move with
  | arrive task endpoint =>
      simp only [step] at taken
      split at taken
      · cases taken
      · rename_i fresh
        split at taken
        · rename_i full
          cases taken
          exact .rejected fresh full
        · rename_i room
          cases taken
          exact .queued fresh (Int.not_le.mp room)
  | acquireReturns task =>
      simp only [step] at taken
      split at taken
      · cases taken
        exact .granted (by assumption)
      · cases taken
  | acquireRaises task =>
      simp only [step] at taken
      split at taken
      · cases taken
        exact .raised (by assumption)
      · cases taken
  | leave task =>
      simp only [step] at taken
      split at taken
      · cases taken
        exact .left (by assumption)
      · cases taken

@[simp] theorem waiting_place (place : Place) : (s.place task place).waiting = s.waiting := rfl

@[simp] theorem acquiring_count (waiting : Int) :
    (s.count endpoint waiting).acquiring = s.acquiring := rfl

theorem acquiring_out {place : Place} (out : ∀ other, place ≠ .acquiring other)
    (endpoint : Endpoint) :
    (s.place task place).acquiring endpoint = s.acquiring endpoint \ {task} := by
  ext other
  change Function.update s.tasks task (some place) other = some (.acquiring endpoint) ↔
    s.tasks other = some (.acquiring endpoint) ∧ other ≠ task
  by_cases same : other = task
  · rw [same, Function.update_self]
    have apart : some place ≠ some (.acquiring endpoint) := fun equal =>
      out endpoint (Option.some.inj equal)
    simp [apart]
  · rw [Function.update_of_ne same]
    exact (and_iff_left same).symm

theorem acquiring_in (fresh : s.tasks task = none) (other : Endpoint) :
    (s.place task (.acquiring endpoint)).acquiring other =
      if other = endpoint then insert task (s.acquiring other) else s.acquiring other := by
  ext name
  by_cases same : name = task
  · have placed : name ∈ (s.place task (.acquiring endpoint)).acquiring other ↔
        other = endpoint := by
      change Function.update s.tasks task _ name = _ ↔ _
      rw [same, Function.update_self, Option.some.injEq, Place.acquiring.injEq]
      exact eq_comm
    have absent : name ∉ s.acquiring other := by
      intro member
      cases fresh.symm.trans (same ▸ member)
    by_cases here : other = endpoint
    · rw [placed, if_pos here, same]
      exact iff_of_true here (Set.mem_insert task _)
    · rw [placed, if_neg here]
      exact iff_of_false here absent
  · have kept : name ∈ (s.place task (.acquiring endpoint)).acquiring other ↔
        name ∈ s.acquiring other := by
      change Function.update s.tasks task _ name = _ ↔ _
      rw [Function.update_of_ne same]
      rfl
    by_cases here : other = endpoint
    · rw [kept, if_pos here]
      exact (Set.mem_insert_iff.trans (or_iff_right same)).symm
    · rw [kept, if_neg here]

theorem accounts_start (maxQueue : Nat) : (start maxQueue).Accounts := by
  intro endpoint
  refine ⟨0, rfl, ?_, Nat.zero_le _⟩
  have nobody : (start maxQueue).acquiring endpoint = ∅ := by
    ext task
    exact iff_of_false (fun member => by cases member) (Set.notMem_empty task)
  rw [nobody, Set.encard_empty]
  rfl

theorem waiting_pos (accounts : s.Accounts) (waits : s.tasks task = some (.acquiring endpoint)) :
    1 ≤ s.waiting endpoint := by
  obtain ⟨n, counter, tasks, _⟩ := accounts endpoint
  have some_ : (s.acquiring endpoint).encard ≠ 0 :=
    Set.encard_ne_zero.mpr ⟨task, waits⟩
  rw [tasks] at some_
  have positive : n ≠ 0 := by exact_mod_cast some_
  omega

/-- A task that leaves the queue is counted off. -/
theorem accounts_out {place : Place} (accounts : s.Accounts)
    (waits : s.tasks task = some (.acquiring endpoint))
    (out : ∀ other, place ≠ .acquiring other) :
    ((s.count endpoint (s.waiting endpoint - 1)).place task place).Accounts := by
  intro other
  obtain ⟨n, counter, tasks, most⟩ := accounts other
  rw [acquiring_out out, acquiring_count, waiting_place]
  by_cases here : other = endpoint
  · rw [here] at counter tasks
    have member : task ∈ s.acquiring endpoint := waits
    have less := Set.encard_sdiff_singleton_add_one member
    have positive := waiting_pos accounts waits
    obtain ⟨before, rfl⟩ : ∃ before, n = before + 1 := ⟨n - 1, by omega⟩
    rw [here]
    refine ⟨before, ?_, ?_, Nat.le_of_succ_le most⟩
    · change Function.update s.waiting endpoint _ endpoint = _
      rw [Function.update_self]
      omega
    · rw [tasks] at less
      push_cast at less
      exact WithTop.add_right_cancel ENat.one_ne_top less
  · have absent : task ∉ s.acquiring other := by
      intro member
      cases waits.symm.trans member
      exact here rfl
    rw [Set.sdiff_singleton_eq_self absent]
    refine ⟨n, ?_, tasks, most⟩
    change Function.update s.waiting endpoint _ other = _
    rw [Function.update_of_ne here, counter]

theorem accounts_quiet {place : Place} (accounts : s.Accounts)
    (idle : ∀ other, s.tasks task ≠ some (.acquiring other))
    (out : ∀ other, place ≠ .acquiring other) : (s.place task place).Accounts := by
  intro other
  have absent : task ∉ s.acquiring other := idle other
  rw [acquiring_out out, waiting_place, Set.sdiff_singleton_eq_self absent]
  exact accounts other

theorem accounts_in (accounts : s.Accounts) (fresh : s.tasks task = none)
    (room : s.waiting endpoint < s.maxQueue) :
    ((s.count endpoint (s.waiting endpoint + 1)).place task (.acquiring endpoint)).Accounts := by
  intro other
  obtain ⟨n, counter, tasks, most⟩ := accounts other
  have free : (s.count endpoint (s.waiting endpoint + 1)).tasks task = none := fresh
  rw [acquiring_in free, acquiring_count, waiting_place]
  by_cases here : other = endpoint
  · have absent : task ∉ s.acquiring other := by
      intro member
      cases fresh.symm.trans member
    rw [if_pos here, Set.encard_insert_of_notMem absent, tasks]
    refine ⟨n + 1, ?_, by push_cast; rfl, ?_⟩
    · change Function.update s.waiting endpoint _ other = _
      rw [here] at counter ⊢
      rw [Function.update_self, counter]
      push_cast
      rfl
    · change n + 1 ≤ s.maxQueue
      rw [here] at counter
      omega
  · rw [if_neg here]
    refine ⟨n, ?_, tasks, most⟩
    change Function.update s.waiting endpoint _ other = _
    rw [Function.update_of_ne here, counter]

theorem accounts_step (taken : step s move = some t) (accounts : s.Accounts) : t.Accounts := by
  cases step_effect taken with
  | rejected fresh full =>
      apply accounts_quiet accounts
      · intro other waits
        cases fresh.symm.trans waits
      · intro other same
        cases same
  | queued fresh room => exact accounts_in accounts fresh room
  | granted waits => exact accounts_out accounts waits fun other same => by cases same
  | raised waits => exact accounts_out accounts waits fun other same => by cases same
  | left holds =>
      apply accounts_quiet accounts
      · intro other waits
        cases holds.symm.trans waits
      · intro other same
        cases same

theorem accounts_run {maxQueue : Nat} {moves : List Move}
    (reached : run step (start maxQueue) moves = some s) : s.Accounts :=
  run_preserves (fun _ _ _ => accounts_step) reached (accounts_start maxQueue)

theorem max_queue_run {maxQueue : Nat} {moves : List Move}
    (reached : run step (start maxQueue) moves = some s) : s.maxQueue = maxQueue := by
  apply @run_preserves _ _ step (fun s => s.maxQueue = maxQueue) _ _ _ moves reached rfl
  intro s move t taken same
  cases step_effect taken with
  | rejected _ _ => exact same
  | queued _ _ => exact same
  | granted _ => exact same
  | raised _ => exact same
  | left _ => exact same

/-- An arriving task is rejected, with no change of the counters, exactly when its queue is full. -/
theorem rejected_iff (accounts : s.Accounts) (taken : step s (.arrive task endpoint) = some t) :
    t.tasks task = some .ended ↔ s.waiting endpoint = s.maxQueue := by
  obtain ⟨n, counter, _, most⟩ := accounts endpoint
  cases step_effect taken with
  | rejected fresh full =>
      refine iff_of_true (Function.update_self task _ s.tasks) ?_
      omega
  | queued fresh room =>
      refine iff_of_false ?_ (by omega)
      intro ended
      cases (Function.update_self task _ s.tasks).symm.trans ended

end Limiter

/-! The gateway's calls are tasks of its limiter. -/

section Refinement

variable {breaker : CircuitBreaker} {Result : Type}

def Phase.place : Phase → Place
  | .queued endpoint => .acquiring endpoint
  | .running endpoint => .inside endpoint
  | .ended => .ended

def Gateway.limiter (g : Gateway breaker Result) : Limiter where
  maxQueue := g.maxQueue
  waiting endpoint := g.waiting endpoint
  tasks call := (g.calls call).map Phase.place

variable {g h : Gateway breaker Result} {call : CallId} {endpoint : Endpoint}

theorem limiter_set_phase (phase : Phase) :
    (g.setPhase call phase).limiter = g.limiter.place call phase.place := by
  have tasks : (g.setPhase call phase).limiter.tasks =
      (g.limiter.place call phase.place).tasks := by
    funext other
    change (Function.update g.calls call (some phase) other).map Phase.place =
      Function.update g.limiter.tasks call (some phase.place) other
    by_cases same : other = call
    · rw [same, Function.update_self, Function.update_self]
      rfl
    · rw [Function.update_of_ne same, Function.update_of_ne same]
      rfl
  exact congrArg (Limiter.mk g.maxQueue fun endpoint => g.waiting endpoint) tasks

theorem limiter_set_waiting (waiting : Nat) :
    (g.setWaiting endpoint waiting).limiter = g.limiter.count endpoint waiting := by
  have counters : (g.setWaiting endpoint waiting).limiter.waiting =
      (g.limiter.count endpoint waiting).waiting := by
    funext other
    change ((Function.update g.waiting endpoint waiting other : Nat) : Int) =
      Function.update g.limiter.waiting endpoint (waiting : Int) other
    by_cases same : other = endpoint
    · rw [same, Function.update_self, Function.update_self]
    · rw [Function.update_of_ne same, Function.update_of_ne same]
      rfl
  exact congrArg (fun counters => Limiter.mk g.maxQueue counters g.limiter.tasks) counters

theorem limiter_set_breaker (state : breaker.State) :
    (g.setBreaker endpoint state).limiter = g.limiter := rfl

theorem limiter_finish_call (entry : Ended breaker Result) :
    (g.finishCall call entry).limiter = g.limiter.place call .ended :=
  limiter_set_phase .ended

theorem limiter_tasks {phase : Phase} (calls : g.calls call = some phase) :
    g.limiter.tasks call = some phase.place := by
  change (g.calls call).map Phase.place = _
  rw [calls]
  rfl

theorem limiter_dequeued (accounts : g.limiter.Accounts)
    (waits : g.calls call = some (.queued endpoint)) :
    (g.setWaiting endpoint (g.waiting endpoint - 1)).limiter =
      g.limiter.count endpoint (g.limiter.waiting endpoint - 1) := by
  have positive : (1 : Int) ≤ g.waiting endpoint :=
    Limiter.waiting_pos accounts (limiter_tasks waits)
  have less : ((g.waiting endpoint - 1 : Nat) : Int) = g.limiter.waiting endpoint - 1 := by
    change _ = (g.waiting endpoint : Int) - 1
    omega
  rw [limiter_set_waiting, less]

theorem limiter_fresh (fresh : g.calls call = none) : g.limiter.tasks call = none := by
  change (g.calls call).map Phase.place = none
  rw [fresh]
  rfl

theorem limiter_full :
    (g.limiter.maxQueue : Int) ≤ g.limiter.waiting endpoint ↔ g.maxQueue ≤ g.waiting endpoint :=
  Int.ofNat_le

/-- A step of the gateway is one or two steps of its limiter. -/
theorem gateway_step_moves {a : Action Result} (taken : step g a = some h)
    (accounts : g.limiter.Accounts) :
    ∃ moves, run Limiter.step g.limiter moves = some h.limiter := by
  cases step_taken taken with
  | @rejected call endpoint fresh full =>
      refine ⟨[.arrive call endpoint], ?_⟩
      simp only [run_cons, run_nil, Limiter.step, limiter_fresh fresh]
      rw [if_pos (limiter_full.mpr full), limiter_finish_call]
      rfl
  | @queued call endpoint fresh room =>
      refine ⟨[.arrive call endpoint], ?_⟩
      simp only [run_cons, run_nil, Limiter.step, limiter_fresh fresh]
      rw [if_neg (mt limiter_full.mp (Nat.not_le.mpr room)), limiter_set_phase, limiter_set_waiting]
      rfl
  | @admitted call endpoint now state waits passed =>
      refine ⟨[.acquireReturns call], ?_⟩
      rw [limiter_set_phase, limiter_set_breaker, limiter_dequeued accounts waits]
      simp only [run_cons, run_nil, Limiter.step, limiter_tasks waits, Phase.place]
      rfl
  | @refused call endpoint now waits opened =>
      -- the breaker refuses behind the limiter
      refine ⟨[.acquireReturns call, .leave call], ?_⟩
      rw [limiter_finish_call, limiter_dequeued accounts waits]
      simp only [run_cons, run_nil, Limiter.step, limiter_tasks waits, Phase.place,
        Option.bind_some, Limiter.place, Function.update_self, Function.update_idem]
  | @cancelled call endpoint waits =>
      refine ⟨[.acquireRaises call], ?_⟩
      rw [limiter_finish_call, limiter_dequeued accounts waits]
      simp only [run_cons, run_nil, Limiter.step, limiter_tasks waits, Phase.place]
      rfl
  | @returned call endpoint now value running =>
      refine ⟨[.leave call], ?_⟩
      rw [limiter_finish_call, limiter_set_breaker]
      simp only [run_cons, run_nil, Limiter.step, limiter_tasks running, Phase.place]
      rfl
  | @raised call endpoint now raised running =>
      refine ⟨[.leave call], ?_⟩
      rw [limiter_finish_call, limiter_set_breaker]
      simp only [run_cons, run_nil, Limiter.step, limiter_tasks running, Phase.place]
      rfl

/-- Every run of the gateway is a run of its limiter. -/
theorem gateway_limiter_run {maxQueue : Nat} {actions : List (Action Result)}
    (reached : run step (Gateway.start breaker Result maxQueue) actions = some g) :
    ∃ moves, run Limiter.step (Limiter.start maxQueue) moves = some g.limiter := by
  apply @run_preserves _ _ (@step breaker Result)
    (fun g => ∃ moves, run Limiter.step (Limiter.start maxQueue) moves = some g.limiter) _ _ _ _
    reached ⟨[], rfl⟩
  intro g a h taken known
  obtain ⟨moves, before⟩ := known
  obtain ⟨more, after⟩ := gateway_step_moves taken (Limiter.accounts_run before)
  exact ⟨moves ++ more, run_append_eq_some.mpr ⟨_, before, after⟩⟩

end Refinement

/-- In every state of every run the counter of an endpoint is the number of tasks that are in the
limiter's `acquire`, between 0 and the bound of the queue; a task that arrives is rejected exactly
when the counter is at that bound; and when no task is left the counters are 0. -/
theorem limiter_accounting {maxQueue : Nat} {moves : List Limiter.Move} {s : Limiter}
    (reached : run Limiter.step (Limiter.start maxQueue) moves = some s) :
    (∀ endpoint, ∃ n : Nat, s.waiting endpoint = n ∧ (s.acquiring endpoint).encard = n ∧
      n ≤ maxQueue) ∧
    (∀ task endpoint t, s.step (.arrive task endpoint) = some t →
      (t.tasks task = some .ended ↔ s.waiting endpoint = maxQueue)) ∧
    ((∀ task place, s.tasks task = some place → place = .ended) →
      ∀ endpoint, s.waiting endpoint = 0) := by
  have accounts := Limiter.accounts_run reached
  have bound := Limiter.max_queue_run reached
  rw [← bound]
  refine ⟨accounts, fun task endpoint t taken => Limiter.rejected_iff accounts taken, ?_⟩
  intro left endpoint
  obtain ⟨n, counter, tasks, _⟩ := accounts endpoint
  have nobody : s.acquiring endpoint = ∅ := by
    apply Set.eq_empty_of_forall_notMem
    intro task waits
    cases left task _ waits
  rw [nobody, Set.encard_empty] at tasks
  have zero : n = 0 := by exact_mod_cast tasks.symm
  rw [counter, zero]
  rfl

/-- A queue of one: the second task is rejected, the third is cancelled while it waits. -/
theorem limiter_accounting_small : ∃ s,
    run Limiter.step (Limiter.start 1) [.arrive 1 .chat, .arrive 2 .chat, .acquireReturns 1,
      .arrive 3 .chat, .acquireRaises 3, .leave 1] = some s ∧
    (∀ endpoint, ∃ n : Nat, s.waiting endpoint = n ∧ (s.acquiring endpoint).encard = n ∧ n ≤ 1) ∧
    (∀ task endpoint t, s.step (.arrive task endpoint) = some t →
      (t.tasks task = some .ended ↔ s.waiting endpoint = (1 : Nat))) ∧
    ((∀ task place, s.tasks task = some place → place = .ended) →
      ∀ endpoint, s.waiting endpoint = 0) :=
  ⟨_, rfl, @limiter_accounting 1 [.arrive 1 .chat, .arrive 2 .chat, .acquireReturns 1,
    .arrive 3 .chat, .acquireRaises 3, .leave 1] _ rfl⟩

end Yomochi.Ai
