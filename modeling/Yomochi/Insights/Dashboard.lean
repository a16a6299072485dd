import Yomochi.Insights.StatusStream
import Yomochi.Insights.Versions

/-! The insight on the dashboard: `useInsightStream` applies the frames of the event stream to the
insight that a GET has cached. Frames are as `JSON.parse` gives them back. -/

namespace Yomochi.Insights.Dashboard

open Foundation
open Yomochi.Insights.Stream (StreamRun StreamEnd StreamEvent streamInsight poll)

structure Rendering where
  id : InsightId → String
  time : Timestamp → String
  amount : ℚ → String

structure CurrencyTotalsResponse where
  currency : String
  income : String
  expense : String
  count : Nat
  deriving DecidableEq

structure InsightView where
  id : String
  period : Period
  periodYear : Int
  periodMonth : Int
  status : InsightStatus
  contextQuality : Option ContextQuality
  title : Option String
  description : Option String
  impactScore : Option Int
  generatedAt : Option String
  errorMessage : Option String
  createdAt : String
  partialContextWarning : Bool
  budgetSummary : Option (List CurrencyTotalsResponse)
  deriving DecidableEq

def serialize (render : Rendering) (insight : Insight) : InsightView where
  id := render.id insight.id
  period := insight.period
  periodYear := insight.periodYear
  periodMonth := insight.periodMonth
  status := insight.status
  contextQuality := insight.contextQuality
  title := insight.title
  description := insight.description
  impactScore := insight.impactScore
  generatedAt := insight.generatedAt.map render.time
  errorMessage := insight.errorMessage
  createdAt := render.time insight.createdAt
  partialContextWarning := insight.contextQuality.any fun quality =>
    decide (quality = .PARTIAL ∨ quality = .NONE)
  budgetSummary := insight.budgetSummary.map fun summary =>
    summary.perCurrency.map fun totals =>
      ⟨totals.currency, render.amount totals.income, render.amount totals.expense, totals.count⟩

inductive Frame
  | completed (insight : InsightView)
  | error (status : InsightStatus) (errorMessage : Option String)
  | status (status : InsightStatus)
  | timeout
  deriving DecidableEq

def frameOf (render : Rendering) (insight : Insight) : Frame :=
  match insight.status with
  | .COMPLETED => .completed (serialize render insight)
  | .FAILED => .error .FAILED insight.errorMessage
  | status => .status status

/-- `generate`: a stream that ends without a finished insight ends with a timeout. -/
def frames {Failure : Type} (render : Rendering) (run : StreamRun Failure) : List Frame :=
  run.yields.map (frameOf render) ++
    match run.ended with
    | .returned =>
        if run.yields.any fun insight => decide (Terminal insight.status) then [] else [.timeout]
    | _ => []

/-- The cached insight, whether the event source has been closed, and whether the query has been
invalidated. -/
structure Hook where
  cache : Option InsightView
  closed : Bool
  invalidated : Bool
  deriving DecidableEq

namespace Hook

/-- `onmessage` -/
def message (hook : Hook) (frame : Frame) : Hook :=
  if hook.closed then hook
  else
    match frame with
    | .status status =>
        { hook with cache := hook.cache.map fun prev => { prev with status := status } }
    | .completed insight => { hook with cache := some insight, closed := true }
    | .error status errorMessage =>
        { hook with
          cache := hook.cache.map fun prev =>
            { prev with status := status, errorMessage := errorMessage }
          closed := true }
    | .timeout => { hook with closed := true, invalidated := true }

/-- `onerror` -/
def error (hook : Hook) : Hook :=
  if hook.closed then hook else { hook with closed := true, invalidated := true }

/-- The whole of a stream: a generator that raises breaks the connection, and one that is through
closes it. -/
def listen {Failure : Type} (render : Rendering) (hook : Hook) (run : StreamRun Failure) : Hook :=
  ((frames render run).foldl message hook).error

/-- The effect of the hook, with the insight that the controller looks up before it streams. -/
def effect {Failure : Type} (render : Rendering) (hook : Hook)
    (found : Except Failure (Option Insight)) (run : StreamRun Failure) : Hook :=
  match hook.cache with
  | some cached =>
      if Terminal cached.status then hook
      else
        match found with
        | .ok (some _) => hook.listen render run
        | _ => hook.error
  | none => hook

end Hook

/-- What writes the cache while a stream is open: a frame, or an answer of the polling backstop. -/
inductive Write
  | frame (frame : Frame)
  | refetch (insight : Insight)
  deriving DecidableEq

def Hook.write (render : Rendering) (hook : Hook) : Write → Option Hook
  | .frame frame => some (hook.message frame)
  | .refetch insight => some { hook with cache := some (serialize render insight) }

/-- A status or an error does not come behind the finished insight. -/
def Timely (hook : Hook) : Write → Prop
  | .frame (.status _) | .frame (.error _ _) =>
      hook.closed = true ∨ ∀ cached ∈ hook.cache, ¬ Terminal cached.status
  | _ => True

instance (hook : Hook) : ∀ write, Decidable (Timely hook write)
  | .frame (.status _) | .frame (.error _ _) => inferInstanceAs (Decidable (_ ∨ _))
  | .frame (.completed _) | .frame .timeout | .refetch _ => .isTrue trivial

/-! The frames rebuild the insight. -/

section Frames

variable {render : Rendering} {row later : Insight}

theorem serialize_live (same : SameInsight row later) (before : Shaped row) (after : Shaped later)
    (live : ¬ Terminal row.status) (open_ : ¬ Terminal later.status) :
    { serialize render row with status := later.status } = serialize render later := by
  have first : row.status ≠ .COMPLETED := fun completed => live (.inl completed)
  have second : later.status ≠ .COMPLETED := fun completed => open_ (.inl completed)
  unfold serialize
  simp only [same.id, same.period, same.periodYear, same.periodMonth, same.createdAt,
    before.contextQuality first, before.title first, before.description first,
    before.impactScore first, before.generatedAt first, before.budgetSummary first,
    before.errorMessage live, after.contextQuality second, after.title second,
    after.description second, after.impactScore second, after.generatedAt second,
    after.budgetSummary second, after.errorMessage open_]

theorem serialize_failed (same : SameInsight row later) (before : Shaped row)
    (after : Shaped later) (live : ¬ Terminal row.status) (failed : later.status = .FAILED) :
    { serialize render row with status := .FAILED, errorMessage := later.errorMessage } =
      serialize render later := by
  have first : row.status ≠ .COMPLETED := fun completed => live (.inl completed)
  have second : later.status ≠ .COMPLETED := by
    rw [failed]
    nofun
  unfold serialize
  simp only [same.id, same.period, same.periodYear, same.periodMonth, same.createdAt, failed,
    before.contextQuality first, before.title first, before.description first,
    before.impactScore first, before.generatedAt first, before.budgetSummary first,
    after.contextQuality second, after.title second, after.description second,
    after.impactScore second, after.generatedAt second, after.budgetSummary second]

/-- A frame makes of any unfinished version the one that it was made of. -/
theorem message_shows (same : SameInsight row later) (before : Shaped row) (after : Shaped later)
    (live : ¬ Terminal row.status) (invalidated : Bool) :
    Hook.message ⟨some (serialize render row), false, invalidated⟩ (frameOf render later) =
      ⟨some (serialize render later), decide (Terminal later.status), invalidated⟩ := by
  have open_ (unfinished : ¬ Terminal later.status) :
      Hook.message ⟨some (serialize render row), false, invalidated⟩ (.status later.status) =
        ⟨some (serialize render later), decide (Terminal later.status), invalidated⟩ := by
    rw [decide_eq_false unfinished, ← serialize_live same before after live unfinished]
    rfl
  unfold frameOf
  cases status : later.status with
  | COMPLETED => rfl
  | FAILED =>
      have failed := @serialize_failed render _ _ same before after live status
      rw [← failed]
      rfl
  | _ =>
      have unfinished : ¬ Terminal later.status := by
        rw [status]
        decide
      have shown := open_ unfinished
      rw [status] at shown
      exact shown

end Frames

section Runs

variable {Failure : Type} {render : Rendering} {rest : StreamRun Failure} {insight : Insight}

theorem frames_read (rest : StreamRun Failure) :
    frames render (rest.behind [.read]) = frames render rest := rfl

theorem frames_yielded (live : ¬ Terminal insight.status) (rest : StreamRun Failure) :
    frames render (rest.behind [.read, .yielded insight]) =
      frameOf render insight :: frames render rest := by
  have quiet : decide (Terminal insight.status) = false := decide_eq_false live
  have yields : (rest.behind [.read, .yielded insight]).yields = insight :: rest.yields := rfl
  have ended : (rest.behind [.read, .yielded insight]).ended = rest.ended := rfl
  unfold frames
  rw [yields, ended, List.map_cons, List.cons_append, List.any_cons, quiet, Bool.false_or]

theorem frames_finished (finished : Terminal insight.status) :
    frames render (⟨[.read, .yielded insight], .returned⟩ : StreamRun Failure) =
      [frameOf render insight] := by
  have seen : decide (Terminal insight.status) = true := decide_eq_true finished
  have yields : (⟨[.read, .yielded insight], .returned⟩ : StreamRun Failure).yields = [insight] :=
    rfl
  unfold frames
  rw [yields, List.any_cons, seen]
  rfl

theorem reads_behind (rest : StreamRun Failure) :
    (rest.behind [.read]).reads = rest.reads + 1 := by
  change ([StreamEvent.read] ++ rest.events).count .read = _
  rw [List.count_append]
  exact Nat.add_comm _ _

theorem reads_yielded (rest : StreamRun Failure) :
    (rest.behind [.read, .yielded insight]).reads = rest.reads + 1 := by
  change ([StreamEvent.read, .yielded insight] ++ rest.events).count .read = _
  rw [List.count_append]
  exact Nat.add_comm _ _

end Runs

/-! The whole stream. -/

/-- Workers run on between the GET and the first read, and from read to read, and none of them commits
to an insight that another one has finished; each read that does not fail gives the row of its
time. -/
structure Watched {Failure : Type} (config : WorkerConfig) (id : InsightId) (userId : UserId)
    (shown : State) (states : Nat → State) (observe : Nat → Except Failure (Option Insight)) :
    Prop where
  started : Later config .start shown
  first : Later config shown (states 0)
  next : ∀ i, Later config (states i) (states (i + 1))
  reads : ∀ i found, observe i = .ok found → found = getById config.table (states i).rows id userId

/-- The hook is closed with the insight that was read last, and the query is invalidated unless
that insight is finished. -/
def Shows {Failure : Type} (render : Rendering) (hook : Hook) :
    Except Failure (Option Insight) → Prop
  | .ok (some insight) => hook = ⟨some (serialize render insight), true,
      !decide (Terminal insight.status)⟩
  | _ => hook.closed = true ∧ hook.invalidated = true

/-- The insight has been read: by the GET, the stream or the backstop. -/
def Seen {Failure : Type} (first : Insight) (observe : Nat → Except Failure (Option Insight))
    (reads : Nat) (writes : List Write) (insight : Insight) : Prop :=
  insight = first ∨ (∃ i < reads, observe i = .ok (some insight)) ∨ .refetch insight ∈ writes

def Cached {Failure : Type} (render : Rendering) (hook : Hook) (first : Insight)
    (observe : Nat → Except Failure (Option Insight)) (reads : Nat) (writes : List Write) : Prop :=
  ∃ insight, Seen first observe reads writes insight ∧
    hook.cache = some (serialize render insight)

/-- The frames are those of the stream, in any number, and what the backstop fetches is the insight
at a time before one of the reads. -/
structure Backed {Failure : Type} (config : WorkerConfig) (id : InsightId) (userId : UserId)
    (states : Nat → State) (render : Rendering) (run : StreamRun Failure) (writes : List Write) :
    Prop where
  frames : ∀ frame, Write.frame frame ∈ writes → frame ∈ Dashboard.frames render run
  refetched : ∀ insight, Write.refetch insight ∈ writes → ∃ s i, Later config .start s ∧
    Later config s (states i) ∧ getById config.table s.rows id userId = some insight

section Watched

variable {Failure : Type} {config : WorkerConfig} {id : InsightId} {userId : UserId}
  {shown s t : State} {states : Nat → State} {observe : Nat → Except Failure (Option Insight)}
  {render : Rendering}

/-- Two versions of which there is a common later one are of one insight. -/
theorem versions_meet {u : State} {row other : Insight} (one : Versioned s) (two : Versioned t)
    (before : Continues s u) (beside : Continues t u)
    (first : getById config.table s.rows id userId = some row)
    (second : getById config.table t.rows id userId = some other) :
    SameInsight row other ∧ Shaped row ∧ Shaped other := by
  obtain ⟨stored, found, rfl⟩ := Option.map_eq_some_iff.mp first
  obtain ⟨stored', found', rfl⟩ := Option.map_eq_some_iff.mp second
  have held := (selectInsight_eq_some found).1
  have held' := (selectInsight_eq_some found').1
  obtain ⟨last, there, same⟩ := before _ _ held
  obtain ⟨last', there', same'⟩ := beside _ _ held'
  cases there.symm.trans there'
  have shaped := one.shaped _ _ held
  have shaped' := two.shaped _ _ held'
  exact ⟨⟨same'.id.symm.trans same.id, same'.userId.symm.trans same.userId,
    same'.period.symm.trans same.period, same'.periodYear.symm.trans same.periodYear,
    same'.periodMonth.symm.trans same.periodMonth, same'.createdAt.symm.trans same.createdAt⟩,
    ⟨shaped.1, shaped.2, shaped.3, shaped.4, shaped.5, shaped.6, shaped.7⟩,
    ⟨shaped'.1, shaped'.2, shaped'.3, shaped'.4, shaped'.5, shaped'.6, shaped'.7⟩⟩

theorem versions_read {row later : Insight} (versioned : Versioned s) (after : Later config s t)
    (one : getById config.table s.rows id userId = some row)
    (two : getById config.table t.rows id userId = some later) :
    SameInsight row later ∧ Shaped row ∧ Shaped later :=
  versions_meet versioned (later_versioned versioned after) (later_continues versioned after)
    (continues_refl t) one two

theorem versioned_states (watched : Watched config id userId shown states observe) (i : Nat) :
    Versioned (states i) := by
  induction i with
  | zero =>
      exact later_versioned (later_versioned versioned_start watched.started) watched.first
  | succ i ih => exact later_versioned ih (watched.next i)

theorem read_next (watched : Watched config id userId shown states observe) {i : Nat}
    {row later : Insight} (read : observe i = .ok (some row))
    (next : observe (i + 1) = .ok (some later)) :
    SameInsight row later ∧ Shaped row ∧ Shaped later :=
  versions_read (versioned_states watched i) (watched.next i) (watched.reads i _ read).symm
    (watched.reads (i + 1) _ next).symm

theorem serialize_unchanged {row later : Insight}
    (versions : SameInsight row later ∧ Shaped row ∧ Shaped later)
    (live : ¬ Terminal row.status) (same : later.status = row.status) :
    serialize render row = serialize render later := by
  have unfinished : ¬ Terminal later.status := by rwa [same]
  rw [← serialize_live versions.1 versions.2.1 versions.2.2 live unfinished, same]
  rfl

/-- The rest of a stream, from the last row that has been read. -/
theorem poll_shown (watched : Watched config id userId shown states observe) {remaining i : Nat}
    {row : Insight} (read : observe i = .ok (some row)) (live : ¬ Terminal row.status) :
    Shows render
        (Hook.listen render ⟨some (serialize render row), false, false⟩
          (poll observe id remaining (i + 1) row.status))
        (observe (i + (poll observe id remaining (i + 1) row.status).reads)) := by
  induction remaining generalizing i row with
  | zero =>
      change Shows render _ (observe i)
      rw [read, Shows, decide_eq_false live]
      rfl
  | succ remaining ih =>
      have shift (reads : Nat) : i + (reads + 1) = i + 1 + reads := by omega
      rw [poll]
      cases next : observe (i + 1) with
      | error failure =>
          change Shows render _ (observe (i + 1))
          rw [next]
          exact ⟨rfl, rfl⟩
      | ok found =>
          cases found with
          | none =>
              change Shows render _ (observe (i + 1))
              rw [next]
              exact ⟨rfl, rfl⟩
          | some later =>
              have versions := read_next watched read next
              dsimp only
              by_cases changed : later.status ≠ row.status
              · rw [if_pos changed]
                have message := @message_shows render _ _ versions.1 versions.2.1 versions.2.2 live
                  false
                by_cases finished : Terminal later.status
                · rw [if_pos finished]
                  change Shows render _ (observe (i + 1))
                  rw [next, Hook.listen, frames_finished finished, List.foldl_cons, message, Shows,
                    decide_eq_true finished]
                  rfl
                · rw [if_neg finished, Hook.listen, frames_yielded finished, List.foldl_cons, message,
                    decide_eq_false finished, reads_yielded,
                    shift (poll observe id remaining (i + 1 + 1) later.status).reads]
                  exact ih next finished
              · rw [if_neg changed]
                have same := not_not.mp changed
                have unfinished : ¬ Terminal later.status := by rwa [same]
                rw [reads_behind, ← same, serialize_unchanged versions live same,
                  shift (poll observe id remaining (i + 1 + 1) later.status).reads]
                exact ih next unfinished

def ReadFrom (observe : Nat → Except Failure (Option Insight)) (i reads : Nat)
    (row insight : Insight) : Prop :=
  insight = row ∨ ∃ j, i < j ∧ j ≤ i + reads ∧ observe j = .ok (some insight)

theorem read_from_next {i reads : Nat} {row later insight : Insight}
    (next : observe (i + 1) = .ok (some later))
    (from_ : ReadFrom observe (i + 1) reads later insight) :
    ReadFrom observe i (reads + 1) row insight := by
  rcases from_ with same | ⟨j, above, within, read⟩
  · rw [same]
    exact .inr ⟨i + 1, Nat.lt_succ_self i, by omega, next⟩
  · exact .inr ⟨j, by omega, by omega, read⟩

/-- However many of the frames have come, the cache holds the row that was read last, or one that
is read later. -/
theorem poll_cached (watched : Watched config id userId shown states observe) {remaining i : Nat}
    {row : Insight} (read : observe i = .ok (some row)) (live : ¬ Terminal row.status) (k : Nat) :
    ∃ insight,
      ReadFrom observe i (poll observe id remaining (i + 1) row.status).reads row insight ∧
      (((frames render (poll observe id remaining (i + 1) row.status)).take k).foldl Hook.message
        ⟨some (serialize render row), false, false⟩).cache = some (serialize render insight) := by
  induction remaining generalizing i row k with
  | zero =>
      refine ⟨row, .inl rfl, ?_⟩
      cases k with
      | zero => rfl
      | succ k => cases k <;> rfl
  | succ remaining ih =>
      rw [poll]
      cases next : observe (i + 1) with
      | error failure =>
          refine ⟨row, .inl rfl, ?_⟩
          cases k <;> rfl
      | ok found =>
          cases found with
          | none =>
              refine ⟨row, .inl rfl, ?_⟩
              cases k <;> rfl
          | some later =>
              have versions := read_next watched read next
              dsimp only
              by_cases changed : later.status ≠ row.status
              · rw [if_pos changed]
                have message := @message_shows render _ _ versions.1 versions.2.1 versions.2.2 live
                  false
                by_cases finished : Terminal later.status
                · rw [if_pos finished, frames_finished finished]
                  cases k with
                  | zero => exact ⟨row, .inl rfl, rfl⟩
                  | succ k =>
                      refine ⟨later, .inr ⟨i + 1, Nat.lt_succ_self i, Nat.le_refl _, next⟩, ?_⟩
                      rw [List.take_succ_cons, List.take_nil, List.foldl_cons, message]
                      rfl
                · rw [if_neg finished, frames_yielded finished, reads_yielded]
                  cases k with
                  | zero => exact ⟨row, .inl rfl, rfl⟩
                  | succ k =>
                      obtain ⟨insight, from_, cache⟩ := ih next finished k
                      refine ⟨insight, read_from_next next from_, ?_⟩
                      rw [List.take_succ_cons, List.foldl_cons, message, decide_eq_false finished]
                      exact cache
              · rw [if_neg changed, frames_read, reads_behind]
                have same := not_not.mp changed
                have unfinished : ¬ Terminal later.status := by rwa [same]
                rw [← same, serialize_unchanged versions live same]
                obtain ⟨insight, from_, cache⟩ := ih next unfinished k
                exact ⟨insight, read_from_next next from_, cache⟩

/-! The stream beside the polling backstop. -/

theorem shown_continues (watched : Watched config id userId shown states observe) (i : Nat) :
    Continues shown (states i) := by
  induction i with
  | zero =>
      exact later_continues (later_versioned versioned_start watched.started) watched.first
  | succ i ih =>
      exact continues_trans _ _ _ ih
        (later_continues (versioned_states watched i) (watched.next i))

theorem yields_read {insight : Insight} {maxPolls : Int}
    (handed : insight ∈ (streamInsight observe id maxPolls).yields) :
    ∃ i < (streamInsight observe id maxPolls).reads, observe i = .ok (some insight) := by
  obtain ⟨last, ends⟩ := Stream.exists_ends observe maxPolls.toNat
  have whole := @Stream.stream_exact _ observe id _ last ends maxPolls rfl
  have reads : (streamInsight observe id maxPolls).reads = last + 1 := by
    rw [whole, Stream.StreamRun.reads, List.count_flatMap]
    simp [Function.comp_def, Stream.events_at_reads]
  rw [whole] at handed
  obtain ⟨event, happened, yielded⟩ := List.mem_filterMap.mp handed
  obtain ⟨i, within, there⟩ := List.mem_flatMap.mp happened
  refine ⟨i, reads ▸ List.mem_range.mp within, ?_⟩
  rw [Stream.eventsAt] at there
  cases found : Stream.rowAt observe i with
  | none =>
      rw [found] at there
      cases List.mem_singleton.mp there
      cases yielded
  | some row =>
      rw [found] at there
      dsimp only at there
      have same : insight = row := by
        split at there
        · rcases List.mem_cons.mp there with rfl | there
          · cases yielded
          · cases List.mem_singleton.mp there
            exact (Option.some.inj yielded).symm
        · cases List.mem_singleton.mp there
          cases yielded
      unfold Stream.rowAt at found
      split at found
      · cases found
      · rename_i observed
        rw [same, observed, found]

theorem mem_frames {run : StreamRun Failure} {frame : Frame} (sent : frame ∈ frames render run) :
    frame = .timeout ∨ ∃ insight ∈ run.yields, frame = frameOf render insight := by
  rcases List.mem_append.mp sent with made | last
  · obtain ⟨insight, handed, same⟩ := List.mem_map.mp made
    exact .inr ⟨insight, handed, same.symm⟩
  · left
    split at last
    · split at last
      · cases last
      · exact List.mem_singleton.mp last
    · cases last

section Backed

variable {cached : Insight} {maxPolls : Int} {writes : List Write}

theorem seen_versions (watched : Watched config id userId shown states observe)
    (held : getById config.table shown.rows id userId = some cached)
    (backed : Backed config id userId states render (streamInsight observe id maxPolls) writes)
    {insight : Insight}
    (seen : Seen cached observe (streamInsight observe id maxPolls).reads writes insight) :
    SameInsight cached insight ∧ Shaped cached ∧ Shaped insight := by
  have before := later_versioned versioned_start watched.started
  rcases seen with same | ⟨i, _, read⟩ | fetched
  · rw [same]
    exact versions_meet before before (continues_refl shown) (continues_refl shown) held held
  · exact versions_meet before (versioned_states watched i) (shown_continues watched i)
      (continues_refl _) held (watched.reads i _ read).symm
  · obtain ⟨s, i, started, ahead, found⟩ := backed.refetched insight fetched
    have versioned := later_versioned versioned_start started
    exact versions_meet before versioned (shown_continues watched i)
      (later_continues versioned ahead) held found

/-- A frame leaves an insight in the cache that has been read. -/
theorem message_cached (watched : Watched config id userId shown states observe)
    (held : getById config.table shown.rows id userId = some cached)
    (backed : Backed config id userId states render (streamInsight observe id maxPolls) writes)
    {hook : Hook} {frame : Frame} (sent : Write.frame frame ∈ writes)
    (timely : Timely hook (.frame frame))
    (holds : Cached render hook cached observe (streamInsight observe id maxPolls).reads writes) :
    Cached render (hook.message frame) cached observe (streamInsight observe id maxPolls).reads
      writes := by
  obtain ⟨row, seen, cache⟩ := holds
  obtain ⟨_, closed, invalidated⟩ := hook
  dsimp only at cache
  subst cache
  cases closed with
  | true => exact ⟨row, seen, rfl⟩
  | false =>
      rcases mem_frames (backed.frames frame sent) with rfl | ⟨later, handed, rfl⟩
      · exact ⟨row, seen, rfl⟩
      · have seenLater : Seen cached observe (streamInsight observe id maxPolls).reads writes
            later := .inr (.inl (yields_read handed))
        refine ⟨later, seenLater, ?_⟩
        have one := seen_versions watched held backed seen
        have two := seen_versions watched held backed seenLater
        have same : SameInsight row later :=
          ⟨two.1.id.trans one.1.id.symm, two.1.userId.trans one.1.userId.symm,
            two.1.period.trans one.1.period.symm, two.1.periodYear.trans one.1.periodYear.symm,
            two.1.periodMonth.trans one.1.periodMonth.symm,
            two.1.createdAt.trans one.1.createdAt.symm⟩
        by_cases live : Terminal row.status
        · unfold Timely frameOf at timely
          unfold frameOf
          cases status : later.status with
          | COMPLETED => rfl
          | _ =>
              rw [status] at timely
              rcases timely with closed | open_
              · cases closed
              · exact absurd live (open_ _ rfl)
        · rw [message_shows same one.2.2 two.2.2 live invalidated]

theorem writes_cached (watched : Watched config id userId shown states observe)
    (held : getById config.table shown.rows id userId = some cached)
    (backed : Backed config id userId states render (streamInsight observe id maxPolls) writes)
    {rest : List Write} (within : rest ⊆ writes) {hook last : Hook}
    (timely : Along (Hook.write render) Timely hook rest)
    (reached : run (Hook.write render) hook rest = some last)
    (holds : Cached render hook cached observe (streamInsight observe id maxPolls).reads writes) :
    Cached render last cached observe (streamInsight observe id maxPolls).reads writes := by
  induction rest generalizing hook with
  | nil =>
      cases reached
      exact holds
  | cons write rest ih =>
      obtain ⟨next, taken, after⟩ := run_cons_eq_some.mp reached
      obtain ⟨here, others⟩ := List.cons_subset.mp within
      apply ih others (timely.2 next taken) after
      cases write with
      | frame frame =>
          cases taken
          exact message_cached watched held backed here timely.1 holds
      | refetch insight =>
          cases taken
          exact ⟨insight, .inr (.inr here), rfl⟩

end Backed

/-! The whole stream, from its first read on. -/

theorem read_first (watched : Watched config id userId shown states observe) {cached row : Insight}
    (held : getById config.table shown.rows id userId = some cached)
    (first : observe 0 = .ok (some row)) (live : ¬ Terminal cached.status) :
    Hook.message ⟨some (serialize render cached), false, false⟩ (frameOf render row) =
      ⟨some (serialize render row), decide (Terminal row.status), false⟩ := by
  have versions := versions_read (later_versioned versioned_start watched.started)
    watched.first held (watched.reads 0 _ first).symm
  exact message_shows versions.1 versions.2.1 versions.2.2 live false

theorem stream_ends (watched : Watched config id userId shown states observe) {cached : Insight}
    (held : getById config.table shown.rows id userId = some cached)
    (live : ¬ Terminal cached.status) (maxPolls : Int) :
    Shows render
      (Hook.listen render ⟨some (serialize render cached), false, false⟩
        (streamInsight observe id maxPolls))
      (observe ((streamInsight observe id maxPolls).reads - 1)) := by
  rw [streamInsight]
  cases first : observe 0 with
  | error failure =>
      change Shows render _ (observe 0)
      rw [first]
      exact ⟨rfl, rfl⟩
  | ok found =>
      cases found with
      | none =>
          change Shows render _ (observe 0)
          rw [first]
          exact ⟨rfl, rfl⟩
      | some row =>
          have message := @read_first _ _ _ _ _ _ _ render watched _ _ held first live
          dsimp only
          by_cases finished : Terminal row.status
          · rw [if_pos finished, Hook.listen, frames_finished finished]
            change Shows render _ (observe 0)
            rw [first, List.foldl_cons, message, Shows, decide_eq_true finished]
            rfl
          · have rest := @poll_shown _ _ _ _ _ _ _ render watched maxPolls.toNat _ _ first finished
            rw [Nat.zero_add, Nat.zero_add] at rest
            rw [if_neg finished, Hook.listen, frames_yielded finished, reads_yielded,
              List.foldl_cons, message, decide_eq_false finished, Nat.add_sub_cancel]
            exact rest

theorem stream_cached (watched : Watched config id userId shown states observe) {cached : Insight}
    (held : getById config.table shown.rows id userId = some cached)
    (live : ¬ Terminal cached.status) (maxPolls : Int) (k : Nat) :
    Cached render
      (((frames render (streamInsight observe id maxPolls)).take k).foldl Hook.message
        ⟨some (serialize render cached), false, false⟩)
      cached observe (streamInsight observe id maxPolls).reads [] := by
  rw [streamInsight]
  cases first : observe 0 with
  | error failure =>
      refine ⟨cached, .inl rfl, ?_⟩
      cases k <;> rfl
  | ok found =>
      cases found with
      | none =>
          refine ⟨cached, .inl rfl, ?_⟩
          cases k <;> rfl
      | some row =>
          have message := @read_first _ _ _ _ _ _ _ render watched _ _ held first live
          dsimp only
          cases k with
          | zero => exact ⟨cached, .inl rfl, rfl⟩
          | succ k =>
              by_cases finished : Terminal row.status
              · rw [if_pos finished, frames_finished finished]
                refine ⟨row, .inr (.inl ⟨0, Nat.zero_lt_one, first⟩), ?_⟩
                rw [List.take_succ_cons, List.take_nil, List.foldl_cons, message]
                rfl
              · rw [if_neg finished, frames_yielded finished, reads_yielded]
                obtain ⟨insight, from_, cache⟩ :=
                  @poll_cached _ _ _ _ _ _ _ render watched maxPolls.toNat _ _ first finished k
                refine ⟨insight, .inr (.inl ?_), ?_⟩
                · rcases from_ with same | ⟨j, _, within, read⟩
                  · rw [same]
                    exact ⟨0, Nat.zero_lt_succ _, first⟩
                  · exact ⟨j, Nat.lt_succ_of_le (by simpa using within), read⟩
                · rw [List.take_succ_cons, List.foldl_cons, message, decide_eq_false finished]
                  exact cache

end Watched

def after (config : WorkerConfig) (actions : List Action) : State :=
  (run (step config) .start actions).getD .start

theorem later_append {config : WorkerConfig} {front back : List Action}
    (along : Along (step config) CommitsLive .start (front ++ back))
    (runs : (run (step config) .start (front ++ back)).isSome = true) :
    Later config (after config front) (after config (front ++ back)) := by
  obtain ⟨last, reached⟩ := Option.isSome_iff_exists.mp runs
  obtain ⟨middle, first, second⟩ := run_append_eq_some.mp reached
  refine ⟨back, ?_, ?_⟩
  · unfold after
    rw [first]
    exact (along_append along).2 middle first
  · unfold after
    rw [first, reached]
    exact second

/-- The insight is claimed before the first read and completed before the second. -/
def completing : Nat → State
  | 0 => after (leasedWorker 3 15) (completeRun.take 3)
  | _ + 1 => after (leasedWorker 3 15) completeRun

def completingReads (i : Nat) : Except Unit (Option Insight) :=
  .ok (getById insightsWithLease (completing i).rows ⟨7⟩ ⟨3⟩)

theorem watched_complete_run :
    Watched (leasedWorker 3 15) ⟨7⟩ ⟨3⟩ (after (leasedWorker 3 15) (completeRun.take 1)) completing
      completingReads where
  started := @later_append (leasedWorker 3 15) [] (completeRun.take 1) (by decide +kernel)
    (by decide +kernel)
  first := @later_append (leasedWorker 3 15) (completeRun.take 1)
    ((completeRun.take 3).drop 1) (by decide +kernel) (by decide +kernel)
  next i := by
    cases i with
    | zero =>
        exact @later_append (leasedWorker 3 15) (completeRun.take 3) (completeRun.drop 3)
          (by decide +kernel) (by decide +kernel)
    | succ i => exact ⟨[], trivial, rfl⟩
  reads i found read := (Except.ok.inj read).symm

def requestedInsight : Insight :=
  { newInsight ⟨7⟩ requestedMonth 0 with status := .QUEUED }

def plainText : Rendering := ⟨fun id => toString id.value, toString, fun amount => toString amount⟩

end Yomochi.Insights.Dashboard
