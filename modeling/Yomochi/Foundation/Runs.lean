import Mathlib.Logic.Function.Basic
import Mathlib.Order.Defs.Unbundled

/-! Runs of a partial step function: `step s a = none` says that action `a` is not
possible in `s`. Safety of a run is proved from what one step preserves. -/

namespace Yomochi.Foundation

variable {State Action : Type*}

def run (step : State → Action → Option State) : State → List Action → Option State
  | s, [] => some s
  | s, a :: actions => (step s a).bind fun t => run step t actions

variable {step : State → Action → Option State}

@[simp] theorem run_nil (s : State) : run step s [] = some s := rfl

theorem run_cons (s : State) (a : Action) (actions : List Action) :
    run step s (a :: actions) = (step s a).bind fun t => run step t actions := rfl

theorem run_cons_eq_some {s u : State} {a : Action} {actions : List Action} :
    run step s (a :: actions) = some u ↔
      ∃ t, step s a = some t ∧ run step t actions = some u := by
  simp [run_cons, Option.bind_eq_some_iff]

theorem run_append (s : State) (front back : List Action) :
    run step s (front ++ back) = (run step s front).bind fun t => run step t back := by
  induction front generalizing s with
  | nil => simp
  | cons a front ih =>
      simp only [List.cons_append, run_cons, Option.bind_assoc]
      congr 1
      funext t
      exact ih t

theorem run_append_eq_some {s u : State} {front back : List Action} :
    run step s (front ++ back) = some u ↔
      ∃ t, run step s front = some t ∧ run step t back = some u := by
  simp [run_append, Option.bind_eq_some_iff]

/-- A step function whose steps are runs of another one, seen through `project`, has runs
that are too. -/
theorem run_project {Inner Move : Type*} {inner : Inner → Move → Option Inner}
    {project : State → Inner}
    (stepwise : ∀ s a t, step s a = some t → ∃ moves, run inner (project s) moves =
      some (project t)) {s u : State} {actions : List Action}
    (reached : run step s actions = some u) :
    ∃ moves, run inner (project s) moves = some (project u) := by
  induction actions generalizing s with
  | nil =>
      cases reached
      exact ⟨[], rfl⟩
  | cons a actions ih =>
      obtain ⟨t, taken, rest⟩ := run_cons_eq_some.mp reached
      obtain ⟨front, first⟩ := stepwise s a t taken
      obtain ⟨back, second⟩ := ih rest
      exact ⟨front ++ back, run_append_eq_some.mpr ⟨project t, first, second⟩⟩

/-- Every step that the run takes starts in a state that meets `guard`. -/
def Along (step : State → Action → Option State) (guard : State → Action → Prop) :
    State → List Action → Prop
  | _, [] => True
  | s, a :: actions => guard s a ∧ ∀ t, step s a = some t → Along step guard t actions

/-- `P` holds of every state that the run visits, the first and the last included. -/
def Visits (step : State → Action → Option State) (P : State → Prop) :
    State → List Action → Prop
  | s, [] => P s
  | s, a :: actions => P s ∧ ∀ t, step s a = some t → Visits step P t actions

/-- A run along a decidable guard can be checked step by step. -/
instance decidableAlong {guard : State → Action → Prop} [∀ s a, Decidable (guard s a)] :
    ∀ s actions, Decidable (Along step guard s actions)
  | _, [] => .isTrue trivial
  | s, a :: actions =>
      match taken : step s a with
      | none => decidable_of_iff (guard s a)
          ⟨fun met => ⟨met, fun t other => by simp [taken] at other⟩, fun along => along.1⟩
      | some t =>
          have : Decidable (Along step guard t actions) := decidableAlong t actions
          decidable_of_iff (guard s a ∧ Along step guard t actions)
            ⟨fun met => ⟨met.1, fun u other => by
              rw [taken] at other
              cases other
              exact met.2⟩, fun along => ⟨along.1, along.2 t taken⟩⟩

theorem along_always {guard : State → Action → Prop} (always : ∀ s a, guard s a)
    (s : State) (actions : List Action) : Along step guard s actions := by
  induction actions generalizing s with
  | nil => trivial
  | cons a actions ih => exact ⟨always s a, fun t _ => ih t⟩

theorem along_mono {strong weak : State → Action → Prop}
    (weaker : ∀ s a, strong s a → weak s a) {s : State} {actions : List Action}
    (along : Along step strong s actions) : Along step weak s actions := by
  induction actions generalizing s with
  | nil => trivial
  | cons a actions ih => exact ⟨weaker s a along.1, fun t taken => ih (along.2 t taken)⟩

/-- The invariant rule: what each guarded step preserves, a guarded run preserves. -/
theorem run_invariant {guard : State → Action → Prop} {I : State → Prop}
    (preserved : ∀ s a t, guard s a → step s a = some t → I s → I t)
    {s u : State} {actions : List Action} (along : Along step guard s actions)
    (reached : run step s actions = some u) (start : I s) : I u := by
  induction actions generalizing s with
  | nil =>
      cases reached
      exact start
  | cons a actions ih =>
      obtain ⟨t, taken, rest⟩ := run_cons_eq_some.mp reached
      exact ih (along.2 t taken) rest (preserved s a t along.1 taken start)

theorem run_preserves {I : State → Prop} (preserved : ∀ s a t, step s a = some t → I s → I t)
    {s u : State} {actions : List Action} (reached : run step s actions = some u)
    (start : I s) : I u := by
  have along : Along step (fun _ _ => True) s actions :=
    along_always (fun _ _ => trivial) s actions
  exact run_invariant (fun s a t _ => preserved s a t) along reached start

/-- A transitive relation that is reflexive on the invariant, and that each guarded step
respects, relates the ends of a guarded run. -/
theorem run_related {guard : State → Action → Prop} {I : State → Prop}
    {R : State → State → Prop} (reflexive : ∀ s, I s → R s s)
    (transitive : ∀ s t u, R s t → R t u → R s u)
    (preserved : ∀ s a t, guard s a → step s a = some t → I s → I t)
    (related : ∀ s a t, guard s a → step s a = some t → I s → R s t)
    {s u : State} {actions : List Action} (along : Along step guard s actions)
    (reached : run step s actions = some u) (start : I s) : R s u := by
  induction actions generalizing s with
  | nil =>
      cases reached
      exact reflexive _ start
  | cons a actions ih =>
      obtain ⟨t, taken, rest⟩ := run_cons_eq_some.mp reached
      exact transitive s t u (related s a t along.1 taken start)
        (ih (along.2 t taken) rest (preserved s a t along.1 taken start))

/-- What the guard and the invariant give at one step holds all along a guarded run. -/
theorem along_derive {guard P : State → Action → Prop} {I : State → Prop}
    (preserved : ∀ s a t, guard s a → step s a = some t → I s → I t)
    (derived : ∀ s a, guard s a → I s → P s a) {s : State} {actions : List Action}
    (along : Along step guard s actions) (start : I s) : Along step P s actions := by
  induction actions generalizing s with
  | nil => trivial
  | cons a actions ih =>
      refine ⟨derived s a along.1 start, ?_⟩
      intro t taken
      exact ih (along.2 t taken) (preserved s a t along.1 taken start)

theorem along_append {guard : State → Action → Prop} {s : State} {front back : List Action}
    (along : Along step guard s (front ++ back)) :
    Along step guard s front ∧
      ∀ t, run step s front = some t → Along step guard t back := by
  induction front generalizing s with
  | nil =>
      refine ⟨trivial, ?_⟩
      intro t reached
      cases reached
      exact along
  | cons a front ih =>
      constructor
      · exact ⟨along.1, fun t taken => (ih (along.2 t taken)).1⟩
      · intro u reached
        obtain ⟨t, taken, rest⟩ := run_cons_eq_some.mp reached
        exact (ih (along.2 t taken)).2 u rest

/-- The same for a guarded run: the steps that the guard and the invariant allow are runs of the
other step function. -/
theorem run_project_along {Inner Move : Type*} {inner : Inner → Move → Option Inner}
    {project : State → Inner} {guard : State → Action → Prop} {I : State → Prop}
    (preserved : ∀ s a t, guard s a → step s a = some t → I s → I t)
    (stepwise : ∀ s a t, guard s a → step s a = some t → I s → ∃ moves,
      run inner (project s) moves = some (project t))
    {s u : State} {actions : List Action} (along : Along step guard s actions)
    (reached : run step s actions = some u) (start : I s) :
    ∃ moves, run inner (project s) moves = some (project u) := by
  induction actions generalizing s with
  | nil =>
      cases reached
      exact ⟨[], rfl⟩
  | cons a actions ih =>
      obtain ⟨t, taken, rest⟩ := run_cons_eq_some.mp reached
      obtain ⟨front, first⟩ := stepwise s a t along.1 taken start
      obtain ⟨back, second⟩ := ih (along.2 t taken) rest (preserved s a t along.1 taken start)
      exact ⟨front ++ back, run_append_eq_some.mpr ⟨project t, first, second⟩⟩

/-- `R` relates the two ends of every segment of the run. -/
def Throughout (step : State → Action → Option State) (R : State → State → Prop)
    (s : State) (actions : List Action) : Prop :=
  ∀ before middle after t u, actions = before ++ middle ++ after →
    run step s before = some t → run step t middle = some u → R t u

theorem throughout_of_along {guard : State → Action → Prop} {I : State → Prop}
    {R : State → State → Prop} (reflexive : ∀ s, I s → R s s)
    (transitive : ∀ s t u, R s t → R t u → R s u)
    (preserved : ∀ s a t, guard s a → step s a = some t → I s → I t)
    (related : ∀ s a t, guard s a → step s a = some t → I s → R s t)
    {s : State} {actions : List Action} (along : Along step guard s actions) (start : I s) :
    Throughout step R s actions := by
  intro before middle after t u split reachedT reachedU
  subst split
  rw [List.append_assoc] at along
  have first := along_append along
  have second := along_append (first.2 t reachedT)
  exact run_related reflexive transitive preserved related second.1 reachedU
    (run_invariant preserved first.1 reachedT start)

theorem throughout_mono {strong weak : State → State → Prop}
    (weaker : ∀ s t, strong s t → weak s t) {s : State} {actions : List Action}
    (throughout : Throughout step strong s actions) : Throughout step weak s actions :=
  fun before middle after t u split reachedT reachedU =>
    weaker t u (throughout before middle after t u split reachedT reachedU)

theorem along_of_throughout {R : State → State → Prop} {s : State} {actions : List Action}
    (throughout : Throughout step R s actions) :
    Along step (fun t a => ∀ u, step t a = some u → R t u) s actions := by
  induction actions generalizing s with
  | nil => trivial
  | cons a actions ih =>
      constructor
      · intro u taken
        exact throughout [] [a] actions s u rfl rfl (run_cons_eq_some.mpr ⟨u, taken, rfl⟩)
      · intro t taken
        apply ih
        intro before middle after v w split reachedV reachedW
        refine throughout (a :: before) middle after v w (by simp [split]) ?_ reachedW
        exact run_cons_eq_some.mpr ⟨t, taken, reachedV⟩

theorem along_and {first second : State → Action → Prop} {s : State} {actions : List Action}
    (left : Along step first s actions) (right : Along step second s actions) :
    Along step (fun t a => first t a ∧ second t a) s actions := by
  induction actions generalizing s with
  | nil => trivial
  | cons a actions ih =>
      exact ⟨⟨left.1, right.1⟩, fun t taken => ih (left.2 t taken) (right.2 t taken)⟩

theorem along_enabled {s u : State} {actions : List Action}
    (reached : run step s actions = some u) :
    Along step (fun t a => ∃ v, step t a = some v) s actions := by
  induction actions generalizing s with
  | nil => trivial
  | cons a actions ih =>
      obtain ⟨t, taken, rest⟩ := run_cons_eq_some.mp reached
      refine ⟨⟨t, taken⟩, ?_⟩
      intro v other
      rw [taken] at other
      cases other
      exact ih rest

/-- When a step keeps `P` exactly under `guard`, a run visits only `P`-states exactly when
it runs along `guard`. -/
theorem visits_iff_along {guard : State → Action → Prop} {I P : State → Prop}
    (preserved : ∀ s a t, step s a = some t → I s → I t)
    (exact_step : ∀ s a t, step s a = some t → I s → P s → (P t ↔ guard s a))
    {s u : State} {actions : List Action} (reached : run step s actions = some u)
    (start : I s) (holds : P s) : Visits step P s actions ↔ Along step guard s actions := by
  induction actions generalizing s with
  | nil => exact ⟨fun _ => trivial, fun _ => holds⟩
  | cons a actions ih =>
      obtain ⟨t, taken, rest⟩ := run_cons_eq_some.mp reached
      have only (v : State) (other : step s a = some v) : v = t :=
        Option.some.inj (other.symm.trans taken)
      have step_iff := exact_step s a t taken start holds
      have start' := preserved s a t taken start
      have head_holds (visits : Visits step P t actions) : P t := by
        cases actions with
        | nil => exact visits
        | cons _ _ => exact visits.1
      constructor
      · intro visits
        have later := visits.2 t taken
        have next := head_holds later
        refine ⟨step_iff.mp next, ?_⟩
        intro v other
        rw [only v other]
        exact (ih rest start' next).mp later
      · intro along
        have next := step_iff.mpr along.1
        refine ⟨holds, ?_⟩
        intro v other
        rw [only v other]
        exact (ih rest start' next).mpr (along.2 t taken)

/-- What the invariant of a guarded run gives holds in every state that the run visits. -/
theorem visits_of_along {guard : State → Action → Prop} {I P : State → Prop}
    (preserved : ∀ s a t, guard s a → step s a = some t → I s → I t)
    (derived : ∀ s, I s → P s) {s : State} {actions : List Action}
    (along : Along step guard s actions) (start : I s) : Visits step P s actions := by
  induction actions generalizing s with
  | nil => exact derived s start
  | cons a actions ih =>
      refine ⟨derived s start, ?_⟩
      intro t taken
      exact ih (along.2 t taken) (preserved s a t along.1 taken start)

theorem visits_end {P : State → Prop} {s t : State} {actions : List Action}
    (visits : Visits step P s actions) (reached : run step s actions = some t) : P t := by
  induction actions generalizing s with
  | nil =>
      cases reached
      exact visits
  | cons a actions ih =>
      obtain ⟨u, taken, rest⟩ := run_cons_eq_some.mp reached
      exact ih (visits.2 u taken) rest

theorem update_cases {Key Value : Type*} [DecidableEq Key] {f : Key → Value} {changed key : Key}
    {next value : Value} (there : Function.update f changed next key = value) :
    f key = value ∨ key = changed ∧ next = value := by
  by_cases same : key = changed
  · subst same
    rw [Function.update_self] at there
    exact .inr ⟨rfl, there⟩
  · rw [Function.update_of_ne same] at there
    exact .inl there

end Yomochi.Foundation
