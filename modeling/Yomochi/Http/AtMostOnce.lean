import Yomochi.Http.Idempotency

/-! When one key has at most one handler run that succeeds. -/

namespace Yomochi.Http

open Foundation

/-- At most one handler run has returned a 2xx response since the cached entry last expired,
and every other 2xx answer was the cached response of that run. -/
def AtMostOnce (s : State) : Prop :=
  s.successes.length ≤ 1 ∧
    ∀ replay ∈ s.replays, ∃ success ∈ s.successes, replay.2 = success.2

/-- A handler run starts only under the lock and with nothing cached: a request that gets the
lock finds the cache still empty, and the last poll of one that waits is answered. -/
def RunsFresh (s : State) : Action → Prop
  | .setNx request => s.requests request = .missed → s.lock = none → s.cache = none
  | .poll request => (s.requests request).lastPoll = true → s.cache ≠ none
  | _ => True

instance (s : State) : ∀ a, Decidable (RunsFresh s a)
  | .setNx request =>
      inferInstanceAs (Decidable (s.requests request = .missed → s.lock = none → s.cache = none))
  | .poll request =>
      inferInstanceAs (Decidable ((s.requests request).lastPoll = true → s.cache ≠ none))
  | .get _ | .callNext _ _ | .setEx _ | .delete _ | .expire => .isTrue trivial

inductive Effect (s : State) : Action → State → Prop
  | cacheHit {request : RequestId} {cached : Response} (hit : s.cache = some cached)
      (arrived : s.requests request = .arrived) :
      Effect s (.get request) ((s.replay request cached).setPhase request .done)
  | cacheMissed {request : RequestId} (miss : s.cache = none)
      (arrived : s.requests request = .arrived) :
      Effect s (.get request) (s.setPhase request .missed)
  | acquired {request : RequestId} (missed : s.requests request = .missed)
      (free : s.lock = none) :
      Effect s (.setNx request)
        (({ s with lock := some request } : State).setPhase request (.running true))
  | refused {request holder : RequestId} (missed : s.requests request = .missed) :
      Effect s (.setNx request) (s.setPhase request (.waiting lockMaxPolls holder))
  | answered {request : RequestId} {response : Response}
      (running : s.requests request = .running true) :
      Effect s (.callNext request (some response))
        ((s.succeed request response).setPhase request (.responded response))
  | raised {request : RequestId} (running : s.requests request = .running true) :
      Effect s (.callNext request none) (s.setPhase request .released)
  | answeredUnlocked {request : RequestId} {response : Response}
      (running : s.requests request = .running false) :
      Effect s (.callNext request (some response))
        ((s.succeed request response).setPhase request .done)
  | raisedUnlocked {request : RequestId} (running : s.requests request = .running false) :
      Effect s (.callNext request none) (s.setPhase request .done)
  | stored {request : RequestId} {response : Response}
      (responded : s.requests request = .responded response) (success : response.isSuccess = true) :
      Effect s (.setEx request)
        (({ s with cache := some response } : State).setPhase request .released)
  | skipped {request : RequestId} {response : Response}
      (responded : s.requests request = .responded response)
      (failure : response.isSuccess = false) :
      Effect s (.setEx request) (s.setPhase request .released)
  | deleted {request : RequestId} (released : s.requests request = .released) :
      Effect s (.delete request) (({ s with lock := none } : State).setPhase request .done)
  | pollHit {request holder : RequestId} {polls : Nat} {cached : Response}
      (hit : s.cache = some cached)
      (waiting : s.requests request = .waiting (polls + 1) holder) :
      Effect s (.poll request) ((s.replay request cached).setPhase request .done)
  | gaveUp {request holder : RequestId} (miss : s.cache = none)
      (waiting : s.requests request = .waiting 1 holder) :
      Effect s (.poll request) (s.setPhase request (.running false))
  | pollMissed {request holder : RequestId} {polls : Nat} (miss : s.cache = none)
      (waiting : s.requests request = .waiting (polls + 1) holder) :
      Effect s (.poll request) (s.setPhase request (.waiting polls holder))
  | expired {response : Response} (hit : s.cache = some response) :
      Effect s .expire { s with cache := none, successes := [], replays := [] }

theorem get_effect {s t : State} {request : RequestId} (taken : get s request = some t) :
    Effect s (.get request) t := by
  unfold get at taken
  split at taken
  · rename_i arrived hit
    cases taken
    exact .cacheHit hit arrived
  · rename_i arrived miss
    cases taken
    exact .cacheMissed miss arrived
  · cases taken

theorem set_nx_effect {s t : State} {request : RequestId} (taken : setNx s request = some t) :
    Effect s (.setNx request) t := by
  unfold setNx at taken
  split at taken
  · rename_i missed free
    cases taken
    exact .acquired missed free
  · rename_i missed held
    cases taken
    exact .refused missed
  · cases taken

theorem call_next_effect {s t : State} {request : RequestId} {outcome : Option Response}
    (taken : callNext s request outcome = some t) : Effect s (.callNext request outcome) t := by
  unfold callNext at taken
  split at taken
  · rename_i running
    cases taken
    exact .answered running
  · rename_i running
    cases taken
    exact .raised running
  · rename_i running
    cases taken
    exact .answeredUnlocked running
  · rename_i running
    cases taken
    exact .raisedUnlocked running
  · cases taken

theorem set_ex_effect {s t : State} {request : RequestId} (taken : setEx s request = some t) :
    Effect s (.setEx request) t := by
  unfold setEx at taken
  split at taken
  · rename_i response responded
    split at taken
    · rename_i success
      cases taken
      exact .stored responded success
    · rename_i failure
      cases taken
      exact .skipped responded (Bool.eq_false_iff.mpr failure)
  · cases taken

theorem delete_effect {s t : State} {request : RequestId} (taken : delete s request = some t) :
    Effect s (.delete request) t := by
  unfold delete at taken
  split at taken
  · rename_i released
    cases taken
    exact .deleted released
  · cases taken

theorem poll_effect {s t : State} {request : RequestId} (taken : poll s request = some t) :
    Effect s (.poll request) t := by
  unfold poll at taken
  split at taken
  · rename_i polls holder waiting
    split at taken
    · cases taken
    · split at taken
      · rename_i hit
        cases taken
        exact .pollHit hit waiting
      · rename_i miss
        split at taken
        · rename_i last
          cases taken
          subst last
          exact .gaveUp miss waiting
        · cases taken
          exact .pollMissed miss waiting
  · cases taken

theorem expire_effect {s t : State} (taken : expire s = some t) : Effect s .expire t := by
  unfold expire at taken
  split at taken
  · rename_i hit
    cases taken
    exact .expired hit
  · cases taken

theorem step_effect {s t : State} {a : Action} (taken : step s a = some t) : Effect s a t := by
  cases a with
  | get request => exact get_effect taken
  | setNx request => exact set_nx_effect taken
  | callNext request outcome => exact call_next_effect taken
  | setEx request => exact set_ex_effect taken
  | delete request => exact delete_effect taken
  | poll request => exact poll_effect taken
  | expire => exact expire_effect taken

namespace Phase

def Owns : Phase → Prop
  | .running locked => locked = true
  | .responded _ | .released => True
  | _ => False

/-- The 2xx response that a request is about to cache. -/
def pending : Phase → Option Response
  | .responded response => if response.isSuccess then some response else none
  | _ => none

end Phase

/-- What holds along a run whose requests meet both conditions: the lock serialises the handler
runs, and none is under way while a cached response lives. -/
structure Serial (s : State) : Prop where
  owner : ∀ request, (s.requests request).Owns → s.lock = some request
  locked : ∀ request, s.requests request ≠ .running false
  cached : ∀ response, s.cache = some response →
    (∃ request, s.successes = [(request, response)]) ∧
      (∀ replay ∈ s.replays, replay.2 = response) ∧
      ∀ request, s.requests request ≠ .running true ∧ (s.requests request).pending = none
  uncached : s.cache = none → s.replays = [] ∧
    ((s.successes = [] ∧ ∀ request, (s.requests request).pending = none) ∨
      ∃ request response, s.successes = [(request, response)] ∧
        (s.requests request).pending = some response)

theorem serial_start : Serial .start where
  owner := fun _ owns => owns.elim
  locked := fun _ running => by cases running
  cached := fun _ hit => by cases hit
  uncached := fun _ => ⟨rfl, .inl ⟨rfl, fun _ => rfl⟩⟩

theorem at_most_once_of_serial (s : State) (serial : Serial s) : AtMostOnce s := by
  cases entry : s.cache with
  | some response =>
      obtain ⟨⟨request, ran⟩, replayed, -⟩ := serial.cached response entry
      simp only [AtMostOnce, ran]
      exact ⟨Nat.le_refl 1, fun replay member =>
        ⟨_, List.mem_singleton_self _, replayed replay member⟩⟩
  | none =>
      obtain ⟨fresh, ran⟩ := serial.uncached entry
      have bound : s.successes.length ≤ 1 := by
        rcases ran with ⟨ran, -⟩ | ⟨request, response, ran, -⟩
        · simp [ran]
        · simp [ran]
      exact ⟨bound, by simp [fresh]⟩

section Phases

variable {s : State} {request : RequestId} {phase : Phase}

@[simp] theorem set_phase_self : (s.setPhase request phase).requests request = phase := by
  simp [State.setPhase]

theorem set_phase_other {other : RequestId} (different : other ≠ request) :
    (s.setPhase request phase).requests other = s.requests other := by
  simp [State.setPhase, different]

theorem set_phase_all {P : RequestId → Phase → Prop} (before : ∀ other, P other (s.requests other))
    (changed : P request phase) (other : RequestId) :
    P other ((s.setPhase request phase).requests other) := by
  by_cases same : other = request
  · subst same
    rw [set_phase_self]
    exact changed
  · rw [set_phase_other same]
    exact before other

/-- A request that has no 2xx response in hand may move on without taking the lock. -/
theorem serial_set_phase (serial : Serial s) (before : (s.requests request).pending = none)
    (owner : phase.Owns → s.lock = some request) (locked : phase ≠ .running false)
    (idle : s.cache ≠ none → phase ≠ .running true) (after : phase.pending = none) :
    Serial (s.setPhase request phase) where
  owner := set_phase_all (P := fun other p => p.Owns → s.lock = some other) serial.owner owner
  locked := set_phase_all (P := fun _ p => p ≠ .running false) serial.locked locked
  cached := by
    intro response hit
    obtain ⟨ran, replayed, quiet⟩ := serial.cached response hit
    refine ⟨ran, replayed, ?_⟩
    have busy : s.cache ≠ none := by
      intro miss
      cases hit.symm.trans miss
    exact set_phase_all (P := fun _ p => p ≠ .running true ∧ p.pending = none) quiet
      ⟨idle busy, after⟩
  uncached := by
    intro miss
    obtain ⟨fresh, ran⟩ := serial.uncached miss
    refine ⟨fresh, ?_⟩
    rcases ran with ⟨none_ran, quiet⟩ | ⟨winner, response, ran, inHand⟩
    · exact .inl ⟨none_ran, set_phase_all (P := fun _ p => p.pending = none) quiet after⟩
    · refine .inr ⟨winner, response, ran, ?_⟩
      have different : winner ≠ request := by
        intro same
        rw [same, before] at inHand
        cases inHand
      rw [set_phase_other different]
      exact inHand

end Phases

theorem serial_replay {s : State} {request : RequestId} {cached : Response} (serial : Serial s)
    (hit : s.cache = some cached) : Serial (s.replay request cached) where
  owner := serial.owner
  locked := serial.locked
  cached := by
    intro response entry
    cases hit.symm.trans entry
    obtain ⟨ran, replayed, quiet⟩ := serial.cached cached hit
    refine ⟨ran, ?_, quiet⟩
    intro replay member
    rcases List.mem_append.mp member with earlier | last
    · exact replayed replay earlier
    · rw [List.mem_singleton.mp last]
  uncached := by
    intro miss
    cases hit.symm.trans miss

theorem serial_acquire {s : State} {request : RequestId} (serial : Serial s)
    (free : s.lock = none) : Serial { s with lock := some request } where
  owner := by
    intro other owns
    cases free.symm.trans (serial.owner other owns)
  locked := serial.locked
  cached := serial.cached
  uncached := serial.uncached

theorem serial_release {s : State} {request : RequestId} (serial : Serial s)
    (released : s.requests request = .released) :
    Serial (({ s with lock := none } : State).setPhase request .done) := by
  have owns : (s.requests request).Owns := by
    rw [released]
    trivial
  have held := serial.owner request owns
  have passive : Serial (s.setPhase request .done) :=
    serial_set_phase serial (by simp [released, Phase.pending]) (fun owns => owns.elim)
      (by simp) (by simp) rfl
  refine ⟨?_, passive.locked, passive.cached, passive.uncached⟩
  -- Nobody else held the lock.
  intro other owns
  have mine := passive.owner other owns
  cases held.symm.trans mine
  rw [show (({ s with lock := none } : State).setPhase request .done).requests request = .done
    from set_phase_self] at owns
  exact owns.elim

theorem owns_of_pending {phase : Phase} {response : Response}
    (pending : phase.pending = some response) : phase.Owns := by
  cases phase with
  | responded answer => trivial
  | _ => cases pending

theorem sole_owner {s : State} {first second : RequestId} (serial : Serial s)
    (one : (s.requests first).Owns) (two : (s.requests second).Owns) : first = second :=
  Option.some.inj ((serial.owner first one).symm.trans (serial.owner second two))

/-- While a request holds the lock and nothing is cached, the only one that may have succeeded
is that request. -/
theorem owner_succeeded {s : State} {request : RequestId} (serial : Serial s)
    (owns : (s.requests request).Owns) (miss : s.cache = none) :
    s.replays = [] ∧ s.successes = (s.requests request).pending.toList.map (request, ·) := by
  obtain ⟨fresh, ran⟩ := serial.uncached miss
  refine ⟨fresh, ?_⟩
  rcases ran with ⟨none_ran, quiet⟩ | ⟨winner, response, ran, inHand⟩
  · simp [none_ran, quiet request]
  · cases sole_owner serial (owns_of_pending inHand) owns
    simp [ran, inHand]

theorem uncached_of_active {s : State} {request : RequestId} (serial : Serial s)
    (active : s.requests request = .running true ∨ (s.requests request).pending ≠ none) :
    s.cache = none := by
  cases entry : s.cache with
  | none => rfl
  | some cached =>
      obtain ⟨notRunning, quiet⟩ := (serial.cached cached entry).2.2 request
      rcases active with running | inHand
      · exact absurd running notRunning
      · exact absurd quiet inHand

theorem serial_answer {s : State} {request : RequestId} (response : Response) (serial : Serial s)
    (running : s.requests request = .running true) :
    Serial ((s.succeed request response).setPhase request (.responded response)) := by
  have owns : (s.requests request).Owns := by simp [running, Phase.Owns]
  have idle : (s.requests request).pending = none := by simp [running, Phase.pending]
  by_cases success : response.isSuccess = true
  · have miss := uncached_of_active serial (.inl running)
    obtain ⟨fresh, ran⟩ := owner_succeeded serial owns miss
    simp only [State.succeed, success, if_true]
    refine ⟨?_, ?_, ?_, ?_⟩
    · exact set_phase_all (P := fun other p => p.Owns → s.lock = some other) serial.owner
        fun _ => serial.owner request owns
    · exact set_phase_all (P := fun _ p => p ≠ .running false) serial.locked (by simp)
    · intro cached hit
      cases hit.symm.trans miss
    · intro _
      refine ⟨fresh, .inr ⟨request, response, ?_, ?_⟩⟩
      · simp [State.setPhase, ran, idle]
      · rw [set_phase_self]
        exact if_pos success
  · simp only [State.succeed, success]
    exact serial_set_phase serial idle (fun _ => serial.owner request owns) (by simp) (by simp)
      (if_neg success)

theorem serial_store {s : State} {request : RequestId} {response : Response} (serial : Serial s)
    (responded : s.requests request = .responded response) (success : response.isSuccess = true) :
    Serial (({ s with cache := some response } : State).setPhase request .released) := by
  have inHand : (s.requests request).pending = some response := by
    simp [responded, Phase.pending, success]
  have owns := owns_of_pending inHand
  have active : (s.requests request).pending ≠ none := by simp [inHand]
  have miss := uncached_of_active serial (.inr active)
  obtain ⟨fresh, ran⟩ := owner_succeeded serial owns miss
  -- The other requests do not hold the lock.
  have others (other : RequestId) : other = request ∨ ¬ (s.requests other).Owns := by
    by_cases same : other = request
    · exact .inl same
    · exact .inr fun held => same (sole_owner serial held owns)
  have quiet (other : RequestId) (different : other ≠ request) :
      s.requests other ≠ .running true ∧ (s.requests other).pending = none := by
    have idle := (others other).resolve_left different
    constructor
    · intro running
      exact idle (by simp [running, Phase.Owns])
    · cases pending : (s.requests other).pending with
      | none => rfl
      | some answer => exact absurd (owns_of_pending pending) idle
  refine ⟨?_, ?_, ?_, ?_⟩
  · exact set_phase_all (P := fun other p => p.Owns → s.lock = some other) serial.owner
      fun _ => serial.owner request owns
  · exact set_phase_all (P := fun _ p => p ≠ .running false) serial.locked (by simp)
  · intro cached hit
    cases hit
    refine ⟨⟨request, ?_⟩, by simp [State.setPhase, fresh], ?_⟩
    · simp [State.setPhase, ran, inHand]
    · intro other
      by_cases same : other = request
      · subst same
        simp [State.setPhase, Phase.pending]
      · simpa [State.setPhase, same] using quiet other same
  · intro other
    cases other

theorem serial_expire {s : State} {response : Response} (serial : Serial s)
    (hit : s.cache = some response) :
    Serial { s with cache := none, successes := [], replays := [] } where
  owner := serial.owner
  locked := serial.locked
  cached := by
    intro _ other
    cases other
  uncached := fun _ => ⟨rfl, .inl ⟨rfl, fun request =>
    ((serial.cached response hit).2.2 request).2⟩⟩

theorem serial_step {s t : State} {a : Action} (fresh : RunsFresh s a) (effect : Effect s a t)
    (serial : Serial s) : Serial t := by
  cases effect with
  | cacheHit hit arrived =>
      exact serial_set_phase (serial_replay serial hit)
        (by simp [State.replay, arrived, Phase.pending]) (fun owns => owns.elim) (by simp) (by simp) rfl
  | cacheMissed miss arrived =>
      exact serial_set_phase serial (by simp [arrived, Phase.pending])
        (fun owns => owns.elim) (by simp) (by simp) rfl
  | acquired missed free =>
      have miss := fresh missed free
      exact serial_set_phase (serial_acquire serial free) (by simp [missed, Phase.pending])
        (fun _ => rfl) (by simp) (fun busy => absurd miss busy) rfl
  | refused missed =>
      exact serial_set_phase serial (by simp [missed, Phase.pending])
        (fun owns => owns.elim) (by simp) (by simp) rfl
  | answered running => exact serial_answer _ serial running
  | @raised request running =>
      have owns : (s.requests request).Owns := by
        rw [running]
        exact rfl
      exact serial_set_phase serial (by simp [running, Phase.pending])
        (fun _ => serial.owner _ owns) (by simp) (by simp) rfl
  | answeredUnlocked running => exact absurd running (serial.locked _)
  | raisedUnlocked running => exact absurd running (serial.locked _)
  | stored responded success => exact serial_store serial responded success
  | @skipped request response responded failure =>
      have owns : (s.requests request).Owns := by
        rw [responded]
        trivial
      exact serial_set_phase serial (by simp [responded, Phase.pending, failure])
        (fun _ => serial.owner _ owns) (by simp) (by simp) rfl
  | deleted released => exact serial_release serial released
  | pollHit hit waiting =>
      exact serial_set_phase (serial_replay serial hit)
        (by simp [State.replay, waiting, Phase.pending]) (fun owns => owns.elim) (by simp) (by simp) rfl
  | gaveUp miss waiting => exact absurd miss (fresh (by simp [waiting, Phase.lastPoll]))
  | pollMissed miss waiting =>
      exact serial_set_phase serial (by simp [waiting, Phase.pending])
        (fun owns => owns.elim) (by simp) (by simp) rfl
  | expired hit => exact serial_expire serial hit

/-- As long as every handler run starts under the lock and with nothing cached, at most one of
them succeeds while its cached response lives. -/
theorem at_most_once_of_fresh (actions : List Action)
    (along : Along step RunsFresh .start actions) : Visits step AtMostOnce .start actions :=
  visits_of_along (I := Serial) (fun _ _ _ fresh taken serial =>
    serial_step fresh (step_effect taken) serial) at_most_once_of_serial along serial_start

def created : Response := ⟨201, "created", some "application/json"⟩

/-- The second request waits for the first one, a third comes later; a fourth runs after the
cached entry has expired. -/
def duplicates : List Action :=
  [.get 0, .get 1, .setNx 0, .setNx 1, .callNext 0 (some created), .poll 1, .setEx 0, .delete 0,
    .poll 1, .get 2, .expire, .get 3, .setNx 3, .callNext 3 (some created), .setEx 3, .delete 3]

theorem at_most_once_duplicates : Visits step AtMostOnce .start duplicates :=
  at_most_once_of_fresh duplicates (by decide +kernel)

/-- The second request has looked at the cache before the first one succeeds, and gets the lock
after the first one has released it. -/
def staleMiss : List Action :=
  [.get 0, .get 1, .setNx 0, .callNext 0 (some created), .setEx 0, .delete 0, .setNx 1,
    .callNext 1 (some created)]

/-- After `staleMiss` two handler runs have succeeded and the first one's response is cached. -/
theorem not_at_most_once : ¬ ∀ actions, Visits step AtMostOnce .start actions := by
  intro claimed
  have twice : (run step .start staleMiss).map (fun s => (s.cache, s.successes)) =
      some (some created, [(0, created), (1, created)]) := by
    decide +kernel
  obtain ⟨s, reached, ended⟩ := Option.map_eq_some_iff.mp twice
  have ran : s.successes = [(0, created), (1, created)] := congrArg Prod.snd ended
  have bound := (visits_end (claimed _) reached).1
  rw [ran] at bound
  exact absurd bound (by decide)

end Yomochi.Http
