import Mathlib.Control.Lawful

/-! Statements that change an object in place, until one of them raises. -/

namespace Yomochi.Foundation

abbrev Statements (ε σ : Type) := ExceptT ε (StateM σ)

namespace Statements

variable {ε δ σ α β : Type}

def on (statements : Statements ε σ α) (object : σ) : Except ε α × σ :=
  statements.run.run object

def assign (change : σ → σ) : Statements ε σ Unit :=
  modify change

def call (raised : δ → ε) (result : Except δ α) : Statements ε σ α :=
  ExceptT.mk (pure (result.mapError raised))

@[simp]
theorem on_pure (a : α) (object : σ) : (pure a : Statements ε σ α).on object = (.ok a, object) :=
  rfl

@[simp]
theorem on_get (object : σ) : (get : Statements ε σ σ).on object = (.ok object, object) := rfl

@[simp]
theorem on_assign (change : σ → σ) (object : σ) :
    (assign change : Statements ε σ Unit).on object = (.ok (), change object) := rfl

theorem on_call_ok {result : Except δ α} {a : α} (returns : result = .ok a) (raised : δ → ε)
    (object : σ) : (call raised result : Statements ε σ α).on object = (.ok a, object) := by
  rw [returns]
  rfl

theorem on_call_error {result : Except δ α} {error : δ} (raises : result = .error error)
    (raised : δ → ε) (object : σ) :
    (call raised result : Statements ε σ α).on object = (.error (raised error), object) := by
  rw [raises]
  rfl

theorem on_bind (first : Statements ε σ α) (rest : α → Statements ε σ β) (object : σ) :
    (first >>= rest).on object =
      match first.on object with
      | (.error error, after) => (.error error, after)
      | (.ok a, after) => (rest a).on after := by
  change (first >>= rest).run.run object = _
  rw [ExceptT.run_bind, StateT.run_bind]
  unfold on
  cases first.run.run object with
  | mk outcome after =>
      cases outcome with
      | error error => rfl
      | ok a => rfl

theorem on_bind_ok {first : Statements ε σ α} {object after : σ} {a : α}
    (done : first.on object = (.ok a, after)) (rest : α → Statements ε σ β) :
    (first >>= rest).on object = (rest a).on after := by
  rw [on_bind, done]

theorem on_bind_error {first : Statements ε σ α} {object after : σ} {error : ε}
    (raised : first.on object = (.error error, after)) (rest : α → Statements ε σ β) :
    (first >>= rest).on object = (.error error, after) := by
  rw [on_bind, raised]

end Statements

end Yomochi.Foundation
