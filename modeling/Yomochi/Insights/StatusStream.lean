import Mathlib.Data.List.Destutter
import Mathlib.Data.Nat.Find
import Yomochi.Insights.Insight

/-! `StreamInsightUseCase`: an insight is read again and again, and handed on when its status has
changed. -/

namespace Yomochi.Insights.Stream

variable {Failure : Type}

inductive StreamEvent
  | read
  | yielded (insight : Insight)
  deriving DecidableEq

/-- `returned` is the end of the generator; `failed` is an error of `get_by_id`. -/
inductive StreamEnd (Failure : Type)
  | returned
  | insightNotFoundError (insightId : InsightId)
  | failed (failure : Failure)
  deriving DecidableEq

structure StreamRun (Failure : Type) where
  events : List StreamEvent
  ended : StreamEnd Failure

def StreamRun.behind (rest : StreamRun Failure) (events : List StreamEvent) : StreamRun Failure :=
  ⟨events ++ rest.events, rest.ended⟩

/-- The loop: `observe i` is what read `i` gives, and `remaining` polls are left. -/
def poll (observe : Nat → Except Failure (Option Insight)) (insightId : InsightId) :
    Nat → Nat → InsightStatus → StreamRun Failure
  | 0, _, _ => ⟨[], .returned⟩
  | remaining + 1, i, lastStatus =>
      match observe i with
      | .error failure => ⟨[.read], .failed failure⟩
      | .ok none => ⟨[.read], .insightNotFoundError insightId⟩
      | .ok (some insight) =>
          if insight.status ≠ lastStatus then
            if Terminal insight.status then ⟨[.read, .yielded insight], .returned⟩
            else (poll observe insightId remaining (i + 1) insight.status).behind
              [.read, .yielded insight]
          else (poll observe insightId remaining (i + 1) lastStatus).behind [.read]

def streamInsight (observe : Nat → Except Failure (Option Insight)) (insightId : InsightId)
    (maxPolls : Int) : StreamRun Failure :=
  match observe 0 with
  | .error failure => ⟨[.read], .failed failure⟩
  | .ok none => ⟨[.read], .insightNotFoundError insightId⟩
  | .ok (some insight) =>
      if Terminal insight.status then ⟨[.read, .yielded insight], .returned⟩
      else (poll observe insightId maxPolls.toNat 1 insight.status).behind [.read, .yielded insight]

def StreamRun.reads (run : StreamRun Failure) : Nat := run.events.count .read

def StreamEvent.insight : StreamEvent → Option Insight
  | .read => none
  | .yielded insight => some insight

def StreamRun.yields (run : StreamRun Failure) : List Insight :=
  run.events.filterMap StreamEvent.insight

/-! What is observed. -/

def Passes (observe : Nat → Except Failure (Option Insight)) (i : Nat) : Prop :=
  ∃ insight, observe i = .ok (some insight) ∧ ¬ Terminal insight.status

/-- The last observation that counts: the first one that is finished, missing or fails, or the one
at the cap. -/
structure Ends (observe : Nat → Except Failure (Option Insight)) (cap last : Nat) : Prop where
  within : last ≤ cap
  passed : ∀ i < last, Passes observe i
  stops : last = cap ∨ ¬ Passes observe last

def rowAt (observe : Nat → Except Failure (Option Insight)) (i : Nat) : Option Insight :=
  match observe i with
  | .error _ => none
  | .ok found => found

/-- A read, and the insight where its status is not the one observed before. -/
def eventsAt (observe : Nat → Except Failure (Option Insight)) (i : Nat) : List StreamEvent :=
  match rowAt observe i with
  | none => [.read]
  | some insight =>
      if i = 0 ∨ (rowAt observe (i - 1)).map Insight.status ≠ some insight.status then
        [.read, .yielded insight]
      else [.read]

def endOf (observe : Nat → Except Failure (Option Insight)) (insightId : InsightId) (last : Nat) :
    StreamEnd Failure :=
  match observe last with
  | .error failure => .failed failure
  | .ok none => .insightNotFoundError insightId
  | .ok (some _) => .returned

/-- Consecutive insights with one status collapsed to the first of them. -/
def collapsed (insights : List Insight) : List Insight :=
  insights.destutter fun earlier later => earlier.status ≠ later.status

section Exact

variable {observe : Nat → Except Failure (Option Insight)} {insightId : InsightId}
  {cap last : Nat}

theorem exists_ends (observe : Nat → Except Failure (Option Insight)) (cap : Nat) :
    ∃ last, Ends observe cap last := by
  classical
  have stops : ∃ i, i = cap ∨ ¬ Passes observe i := ⟨cap, .inl rfl⟩
  refine ⟨Nat.find stops, ?_, ?_, Nat.find_spec stops⟩
  · exact Nat.find_min' stops (.inl rfl)
  · intro i less
    have goesOn := Nat.find_min stops less
    rw [not_or, not_not] at goesOn
    exact goesOn.2

theorem ends_unique {other : Nat} (one : Ends observe cap last) (two : Ends observe cap other) :
    last = other := by
  rcases lt_trichotomy last other with less | same | less
  · rcases one.stops with whole | stopped
    · have within := two.within
      omega
    · exact absurd (two.passed last less) stopped
  · exact same
  · rcases two.stops with whole | stopped
    · have within := one.within
      omega
    · exact absurd (one.passed other less) stopped

theorem not_passes_failed {i : Nat} {failure : Failure} (failed : observe i = .error failure) :
    ¬ Passes observe i := by
  rintro ⟨other, found, _⟩
  cases failed.symm.trans found

theorem not_passes_missing {i : Nat} (missing : observe i = .ok none) : ¬ Passes observe i := by
  rintro ⟨other, found, _⟩
  cases missing.symm.trans found

theorem not_passes_finished {i : Nat} {insight : Insight} (held : observe i = .ok (some insight))
    (finished : Terminal insight.status) : ¬ Passes observe i := by
  rintro ⟨other, found, unfinished⟩
  cases held.symm.trans found
  exact unfinished finished

theorem Ends.last_of_not_passes {i : Nat} (ends : Ends observe cap last) (within : i ≤ last)
    (stopped : ¬ Passes observe i) : last = i := by
  by_contra other
  exact stopped (ends.passed i (by omega))

theorem row_at_ok {i : Nat} {found : Option Insight} (observed : observe i = .ok found) :
    rowAt observe i = found := by
  rw [rowAt, observed]

theorem events_at_first {insight : Insight} (first : rowAt observe 0 = some insight) :
    eventsAt observe 0 = [.read, .yielded insight] := by
  rw [eventsAt, first]
  exact if_pos (.inl rfl)

theorem events_at_next {i : Nat} {previous insight : Insight}
    (held : rowAt observe i = some previous) (next : rowAt observe (i + 1) = some insight) :
    eventsAt observe (i + 1) =
      if previous.status ≠ insight.status then [.read, .yielded insight] else [.read] := by
  rw [eventsAt, next, Nat.add_sub_cancel, held]
  simp only [Nat.succ_ne_zero, false_or, Option.map_some, ne_eq, Option.some.injEq]

/-- The polls behind a row that is not finished. -/
theorem poll_exact (ends : Ends observe cap last) {remaining i : Nat} {previous : Insight}
    (held : observe i = .ok (some previous)) (unfinished : ¬ Terminal previous.status)
    (left : i + remaining = cap) (within : i ≤ last) :
    poll observe insightId remaining (i + 1) previous.status =
      ⟨(List.range' (i + 1) (last - i)).flatMap (eventsAt observe),
        endOf observe insightId last⟩ := by
  induction remaining generalizing i previous with
  | zero =>
      have same : last = i := by
        have most := ends.within
        omega
      rw [poll, same, Nat.sub_self, endOf, held]
      rfl
  | succ remaining ih =>
      have less : i < last := by
        rcases ends.stops with whole | stopped
        · omega
        · apply lt_of_le_of_ne within
          rintro rfl
          exact stopped ⟨previous, held, unfinished⟩
      have more : last - i = last - (i + 1) + 1 := by omega
      rw [poll, more, List.range'_succ, List.flatMap_cons]
      cases next : observe (i + 1) with
      | error failure =>
          obtain rfl := ends.last_of_not_passes less (not_passes_failed next)
          rw [Nat.sub_self, eventsAt, rowAt, endOf, next]
          rfl
      | ok found =>
          cases found with
          | none =>
              obtain rfl := ends.last_of_not_passes less (not_passes_missing next)
              rw [Nat.sub_self, eventsAt, rowAt, endOf, next]
              rfl
          | some insight =>
              rw [events_at_next (row_at_ok held) (row_at_ok next)]
              dsimp only
              by_cases same : insight.status = previous.status
              · have later := ih next (same ▸ unfinished) (by omega) less
                rw [same] at later
                rw [if_neg (not_not.mpr same), if_neg (not_not.mpr same.symm), later]
                rfl
              · rw [if_pos same, if_pos (Ne.symm same)]
                by_cases finished : Terminal insight.status
                · obtain rfl := ends.last_of_not_passes less (not_passes_finished next finished)
                  rw [if_pos finished, Nat.sub_self, endOf, next]
                  rfl
                · rw [if_neg finished, ih next finished (by omega) less]
                  rfl

theorem stream_exact (ends : Ends observe cap last) {maxPolls : Int}
    (whole : maxPolls.toNat = cap) : streamInsight observe insightId maxPolls =
      ⟨(List.range (last + 1)).flatMap (eventsAt observe), endOf observe insightId last⟩ := by
  rw [List.range_eq_range', List.range'_succ, List.flatMap_cons, streamInsight, whole]
  cases first : observe 0 with
  | error failure =>
      obtain rfl := ends.last_of_not_passes (Nat.zero_le _) (not_passes_failed first)
      rw [eventsAt, rowAt, endOf, first]
      rfl
  | ok found =>
      cases found with
      | none =>
          obtain rfl := ends.last_of_not_passes (Nat.zero_le _) (not_passes_missing first)
          rw [eventsAt, rowAt, endOf, first]
          rfl
      | some insight =>
          rw [events_at_first (row_at_ok first)]
          dsimp only
          by_cases finished : Terminal insight.status
          · obtain rfl := ends.last_of_not_passes (Nat.zero_le _) (not_passes_finished first finished)
            rw [if_pos finished, endOf, first]
            rfl
          · have polls := @poll_exact _ observe insightId cap last ends cap 0 insight first finished
              (Nat.zero_add cap) (Nat.zero_le last)
            rw [if_neg finished, polls]
            rfl

theorem yields_collapsed {n i : Nat} {kept previous : Insight}
    (held : rowAt observe i = some previous) (same : kept.status = previous.status)
    (there : ∀ j, i < j → j < i + n → (rowAt observe j).isSome = true) :
    kept :: ((List.range' (i + 1) n).flatMap (eventsAt observe)).filterMap StreamEvent.insight =
      collapsed (kept :: (List.range' (i + 1) n).filterMap (rowAt observe)) := by
  induction n generalizing i kept previous with
  | zero => rfl
  | succ n ih =>
      rw [List.range'_succ, List.flatMap_cons, List.filterMap_append, List.filterMap_cons]
      cases next : rowAt observe (i + 1) with
      | none =>
          have last : n = 0 := by
            by_contra more
            have some := there (i + 1) (by omega) (by omega)
            rw [next] at some
            cases some
          rw [last, eventsAt, next]
          rfl
      | some insight =>
          have later : ∀ j, i + 1 < j → j < i + 1 + n → (rowAt observe j).isSome = true :=
            fun j above below => there j (by omega) (by omega)
          rw [events_at_next held next, collapsed, List.destutter_cons']
          by_cases changed : previous.status = insight.status
          · rw [if_neg (not_not.mpr changed), List.destutter'_cons_neg _ (by simp [same, changed])]
            exact ih next (same.trans changed) later
          · rw [if_pos changed, List.destutter'_cons_pos _ (same ▸ changed)]
            exact congrArg (kept :: ·) (ih next rfl later)

theorem row_of_passes {i : Nat} (passes : Passes observe i) : (rowAt observe i).isSome = true := by
  obtain ⟨insight, found, _⟩ := passes
  rw [row_at_ok found]
  rfl

theorem yields_exact (ends : Ends observe cap last) :
    ((List.range (last + 1)).flatMap (eventsAt observe)).filterMap StreamEvent.insight =
      collapsed ((List.range (last + 1)).filterMap (rowAt observe)) := by
  rw [List.range_eq_range', List.range'_succ, List.flatMap_cons, List.filterMap_append,
    List.filterMap_cons]
  cases first : rowAt observe 0 with
  | none =>
      have stopped : ¬ Passes observe 0 := fun passes => by
        cases first ▸ row_of_passes passes
      obtain rfl := ends.last_of_not_passes (Nat.zero_le _) stopped
      rw [eventsAt, first]
      rfl
  | some insight =>
      rw [events_at_first first]
      exact yields_collapsed first rfl fun j _ below => row_of_passes (ends.passed j (by omega))

theorem events_at_reads (i : Nat) : (eventsAt observe i).count .read = 1 := by
  unfold eventsAt
  split
  · rfl
  · split
    · rfl
    · rfl

end Exact

/-- The stream hands on the observed insights with consecutive equal statuses collapsed to the
first, up to the first finished, missing or failed observation or the cap, and reads no further. -/
theorem stream_insight_exact (observe : Nat → Except Failure (Option Insight))
    (insightId : InsightId) (maxPolls : Int) :
    ∃! last, Ends observe maxPolls.toNat last ∧
      (streamInsight observe insightId maxPolls).events =
        (List.range (last + 1)).flatMap (eventsAt observe) ∧
      (streamInsight observe insightId maxPolls).reads = last + 1 ∧
      (streamInsight observe insightId maxPolls).yields =
        collapsed ((List.range (last + 1)).filterMap (rowAt observe)) ∧
      (streamInsight observe insightId maxPolls).ended = endOf observe insightId last := by
  obtain ⟨last, ends⟩ := exists_ends observe maxPolls.toNat
  have whole := @stream_exact _ observe insightId _ last ends maxPolls rfl
  refine ⟨last, ⟨ends, ?_, ?_, ?_, ?_⟩, fun other both => (ends_unique ends both.1).symm⟩
  · rw [whole]
  · rw [whole, StreamRun.reads, List.count_flatMap]
    simp [Function.comp_def, events_at_reads]
  · rw [whole, StreamRun.yields]
    exact yields_exact ends
  · rw [whole]

end Yomochi.Insights.Stream
