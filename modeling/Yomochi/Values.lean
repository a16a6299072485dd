import Mathlib.Tactic.TypeStar

/-! Identifiers and enumerations of the domain layer. -/

namespace Yomochi

abbrev Uuid := Nat

/-- A point in time, in microseconds of UTC. -/
abbrev Timestamp := Nat

structure UserId where
  value : Uuid
  deriving DecidableEq, Repr

structure InsightId where
  value : Uuid
  deriving DecidableEq, Repr

inductive OutboxStatus
  | PENDING
  | SENT
  | FAILED
  deriving DecidableEq, Repr

inductive InsightStatus
  | PENDING
  | QUEUED
  | PROCESSING
  | COMPLETED
  | FAILED
  deriving DecidableEq, Repr

def InsightStatus.value : InsightStatus → String
  | .PENDING => "pending"
  | .QUEUED => "queued"
  | .PROCESSING => "processing"
  | .COMPLETED => "completed"
  | .FAILED => "failed"

inductive ContextQuality
  | FULL
  | PARTIAL
  | NONE
  deriving DecidableEq, Repr

inductive Period
  | WEEKLY
  | MONTHLY
  deriving DecidableEq, Repr

/-- Python's `ValueError`, as the entities raise it. -/
structure ValueError where
  message : String
  deriving DecidableEq, Repr

end Yomochi
