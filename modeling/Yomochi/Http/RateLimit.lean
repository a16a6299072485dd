import Mathlib.Tactic.Ring
import Yomochi.Http.ClientAddress

/-! The rate limit of a key: the GCRA script, and what the middleware makes of its answers. Times
are milliseconds. The numbers of Lua are doubles, which hold all of these integers exactly. -/

namespace Yomochi.Http.RateLimit

open Foundation

/-- An entry of `POLICIES`; an empty method matches every method. -/
structure PolicyEntry where
  method : Text
  pathPrefix : Text
  policy : Policy

def policies : List PolicyEntry :=
  [⟨[], text "/api/v1/auth/login", ⟨5, 2, .ip⟩⟩,
    ⟨[], text "/api/v1/auth/register", ⟨3, 1, .ip⟩⟩,
    ⟨[], text "/api/v1/auth/password-reset/", ⟨3, 1, .ip⟩⟩,
    ⟨text "POST", text "/api/v1/chat/stream", ⟨20, 5, .user⟩⟩,
    ⟨text "POST", text "/api/v1/chat", ⟨20, 5, .user⟩⟩,
    ⟨[], text "/api/v1/insights/requests", ⟨10, 3, .user⟩⟩,
    ⟨text "POST", text "/api/v1/ingestion/parse-receipt", ⟨10, 2, .user⟩⟩]

def defaultPolicy : Policy := ⟨120, 30, .user⟩

/-- `str.upper` of ASCII text. -/
def upper (source : Text) : Text :=
  source.map fun c => if 'a'.toNat ≤ c ∧ c ≤ 'z'.toNat then c - 32 else c

def resolvePolicy (path method : Text) : Policy :=
  match policies.find? fun entry =>
    entry.pathPrefix.isPrefixOf path && (entry.method.isEmpty || entry.method == upper method) with
  | some entry => entry.policy
  | none => defaultPolicy

def Policy.interval (policy : Policy) : Nat := 60000 / max policy.ratePerMinute 1

def Policy.capacity (policy : Policy) : Nat := policy.burst * policy.interval

structure Verdict where
  allowed : Bool
  remaining : Int
  resetMs : Int
  retryAfterMs : Int
  deriving DecidableEq, Repr

/-- The stored arrival time, and when its key expires. -/
structure Entry where
  tat : Int
  deadline : Int
  deriving DecidableEq, Repr

/-- `tat` of the script, from what GET returns. -/
def arrivalTime (stored : Option Int) (now : Int) : Int :=
  let tat := stored.getD now
  if tat < now then now else tat

/-- `_GCRA_LUA`, between its GET and its SET. -/
def gcra (interval burst : Int) (stored : Option Int) (now : Int) : Verdict × Option Entry :=
  let tat := arrivalTime stored now
  let newTat := tat + interval
  let allowAt := newTat - burst
  if allowAt ≤ now then
    let remaining := (burst - (newTat - now)) / interval
    (⟨true, if remaining < 0 then 0 else remaining, newTat - now, 0⟩,
      some ⟨newTat, now + (burst + interval)⟩)
  else (⟨false, 0, tat - now, allowAt - now⟩, none)

/-- Which keys are gone at a time: none before its deadline. -/
structure Expiry where
  gone : Entry → Int → Bool
  late : ∀ entry now, gone entry now = true → entry.deadline ≤ now

def Expiry.never : Expiry := ⟨fun _ _ => false, nofun⟩

def Expiry.atDeadline : Expiry :=
  ⟨fun entry now => decide (entry.deadline ≤ now), fun _ _ => of_decide_eq_true⟩

structure Limit where
  interval : Nat
  burst : Nat
  intervalPositive : 1 ≤ interval
  burstPositive : 1 ≤ burst

namespace Limit

variable (limit : Limit) (expiry : Expiry)

def capacity : Int := limit.burst * limit.interval

def present (key : Option Entry) (now : Int) : Option Entry :=
  key.filter fun entry => !expiry.gone entry now

def arrive (key : Option Entry) (now : Int) : Verdict × Option Entry :=
  let found := present expiry key now
  let (verdict, written) := gcra limit.interval limit.capacity (found.map Entry.tat) now
  (verdict, written.or found)

def verdicts : Option Entry → List Int → List Verdict
  | _, [] => []
  | key, now :: times =>
      (limit.arrive expiry key now).1 :: verdicts (limit.arrive expiry key now).2 times

def after : Option Entry → List Int → Option Entry
  | key, [] => key
  | key, now :: times => after (limit.arrive expiry key now).2 times

def allowedIn (first last : Int) (key : Option Entry) (times : List Int) : Nat :=
  ((times.zip (limit.verdicts expiry key times)).filter fun request =>
    request.2.allowed && (decide (first ≤ request.1) && decide (request.1 ≤ last))).length

end Limit

/-! The answers of the middleware. -/

/-- `max(1, math.ceil(ms / 1000))`. -/
def ceilSeconds (ms : Int) : Int := max 1 ((ms + 999) / 1000)

inductive Response
  | unlimited
  | passed (limit : Nat) (remaining resetSeconds : Int)
  | tooManyRequests (limit : Nat) (retryAfter resetSeconds : Int)
  deriving DecidableEq, Repr

def send429 (policy : Policy) (retryAfterMs resetMs : Int) : Response :=
  .tooManyRequests policy.ratePerMinute (ceilSeconds retryAfterMs) (ceilSeconds resetMs)

/-- `RateLimitMiddleware.__call__` behind the skipped paths. Without a key the request is denied,
without Redis it passes. -/
def respond (policy : Policy) (hasKey : Bool) (verdict : Option Verdict) : Response :=
  if !hasKey then send429 policy 60000 60000
  else
    match verdict with
    | none => .unlimited
    | some verdict =>
        if verdict.allowed then
          .passed policy.ratePerMinute verdict.remaining (ceilSeconds verdict.resetMs)
        else send429 policy verdict.retryAfterMs verdict.resetMs

/-- A client that waits for `Retry-After` is not too early, and less than a second late. -/
theorem retry_after_covers {policy : Policy} {verdict : Verdict} {limit : Nat}
    {retryAfter resetSeconds : Int} (waits : 0 < verdict.retryAfterMs)
    (denied : respond policy true (some verdict) = .tooManyRequests limit retryAfter resetSeconds) :
    verdict.retryAfterMs ≤ 1000 * retryAfter ∧ 1000 * retryAfter < verdict.retryAfterMs + 1000 := by
  have seconds : retryAfter = ceilSeconds verdict.retryAfterMs := by
    unfold respond at denied
    rw [if_neg (by decide)] at denied
    dsimp only at denied
    split at denied
    · cases denied
    · cases denied
      rfl
  rw [seconds]
  unfold ceilSeconds
  omega

/-- The policies that the limit is defined for. -/
def Policy.Valid (policy : Policy) : Prop :=
  1 ≤ policy.burst ∧ 1 ≤ policy.ratePerMinute ∧ policy.ratePerMinute ≤ 60000

instance (policy : Policy) : Decidable policy.Valid := inferInstanceAs (Decidable (_ ∧ _))

theorem resolve_policy_valid (path method : Text) : (resolvePolicy path method).Valid := by
  have table : ∀ entry ∈ policies, entry.policy.Valid := by decide
  unfold resolvePolicy
  split
  · rename_i entry found
    exact table entry (List.mem_of_find?_eq_some found)
  · decide

theorem interval_positive {policy : Policy} (valid : policy.Valid) : 1 ≤ policy.interval := by
  obtain ⟨_, positive, bound⟩ := valid
  unfold Policy.interval
  rw [Nat.max_eq_left positive]
  exact Nat.div_pos bound positive

def Policy.limit (policy : Policy) (valid : policy.Valid) : Limit :=
  ⟨policy.interval, policy.burst, interval_positive valid, valid.1⟩

/-! What the script does. -/

namespace Limit

variable {limit : Limit} {expiry : Expiry} {key : Option Entry} {now : Int}

/-- The time up to which the key is used up, seen from now. -/
def usedUp (key : Option Entry) (now : Int) : Int :=
  max now ((key.map Entry.tat).getD now)

theorem arrival_time_eq (key : Option Entry) (now : Int) :
    arrivalTime (key.map Entry.tat) now = usedUp key now := by
  unfold arrivalTime usedUp
  dsimp only
  split <;> omega

theorem interval_le_capacity (limit : Limit) : (limit.interval : Int) ≤ limit.capacity := by
  have burst := limit.burstPositive
  unfold capacity
  exact_mod_cast Nat.le_mul_of_pos_left limit.interval burst

theorem present_never (key : Option Entry) (now : Int) : present .never key now = key := by
  cases key with
  | none => rfl
  | some entry => rfl

theorem present_some (expiry : Expiry) (entry : Entry) (now : Int) :
    present expiry (some entry) now = if expiry.gone entry now then none else some entry := by
  unfold present
  rw [Option.filter_some]
  cases expiry.gone entry now with
  | true => rfl
  | false => rfl

theorem arrive_never (limit : Limit) (key : Option Entry) (now : Int) :
    limit.arrive .never key now =
      if usedUp key now + limit.interval ≤ now + limit.capacity then
        (⟨true, (now + limit.capacity - (usedUp key now + limit.interval)) / limit.interval,
          usedUp key now + limit.interval - now, 0⟩,
          some ⟨usedUp key now + limit.interval, now + (limit.capacity + limit.interval)⟩)
      else
        (⟨false, 0, usedUp key now - now,
          usedUp key now + limit.interval - limit.capacity - now⟩, key) := by
  have positive : (0 : Int) < limit.interval := by
    have interval := limit.intervalPositive
    omega
  unfold arrive gcra
  rw [present_never]
  dsimp only
  rw [arrival_time_eq]
  by_cases within : usedUp key now + limit.interval ≤ now + limit.capacity
  · have left : 0 ≤ (limit.capacity - (usedUp key now + limit.interval - now)) / limit.interval :=
      Int.ediv_nonneg (by omega) (Int.le_of_lt positive)
    rw [if_pos within, if_pos (by omega), if_neg (by omega)]
    dsimp only
    rw [show limit.capacity - (usedUp key now + limit.interval - now) =
      now + limit.capacity - (usedUp key now + limit.interval) by omega]
    rfl
  · rw [if_neg within, if_neg (by omega)]
    rfl

/-- A key lives at least as long as it is used up. -/
def Lasting (key : Option Entry) : Prop := ∀ entry, key = some entry → entry.tat ≤ entry.deadline

theorem arrive_congr {other : Option Entry} {otherExpiry : Expiry}
    (same : present expiry key now = present otherExpiry other now) :
    limit.arrive expiry key now = limit.arrive otherExpiry other now := by
  unfold arrive
  rw [same]

theorem arrive_expiry (lasting : Lasting key) :
    limit.arrive expiry key now = limit.arrive .never key now := by
  cases key with
  | none => rfl
  | some entry =>
      cases gone : expiry.gone entry now with
      | false =>
          apply arrive_congr
          rw [present_never, present_some, gone]
          rfl
      | true =>
          have missing : limit.arrive expiry (some entry) now = limit.arrive .never none now := by
            apply arrive_congr
            rw [present_never, present_some, gone]
            rfl
          have late := expiry.late entry now gone
          have before := lasting entry rfl
          have fresh : usedUp (some entry) now = now := by
            unfold usedUp
            rw [Option.map_some, Option.getD_some]
            omega
          have empty : usedUp none now = now := by
            unfold usedUp
            rw [Option.map_none, Option.getD_none]
            omega
          have room := limit.interval_le_capacity
          rw [missing, arrive_never, arrive_never, fresh, empty, if_pos (by omega),
            if_pos (by omega)]

theorem arrive_lasting (lasting : Lasting key) : Lasting (limit.arrive expiry key now).2 := by
  rw [arrive_expiry lasting, arrive_never]
  split
  · rintro entry ⟨⟩
    dsimp only
    omega
  · exact lasting

theorem after_lasting (lasting : Lasting key) (times : List Int) :
    Lasting (limit.after expiry key times) := by
  induction times generalizing key with
  | nil => exact lasting
  | cons now times ih => exact ih (arrive_lasting lasting)

theorem verdicts_expiry (lasting : Lasting key) (times : List Int) :
    limit.verdicts expiry key times = limit.verdicts .never key times := by
  induction times generalizing key with
  | nil => rfl
  | cons now times ih =>
      rw [verdicts, verdicts, ih (arrive_lasting lasting), arrive_expiry lasting]

/-! The arrivals of a window. -/

theorem used_up_ge (key : Option Entry) (now : Int) : now ≤ usedUp key now := by
  unfold usedUp
  omega

theorem used_up_some (entry : Entry) (now : Int) : usedUp (some entry) now = max now entry.tat :=
  rfl

theorem used_up_arrive (limit : Limit) (key : Option Entry) (first now : Int) :
    usedUp key first ≤ usedUp (limit.arrive .never key now).2 first := by
  rw [arrive_never]
  split
  · cases key with
    | none =>
        simp only [usedUp, Option.map_none, Option.map_some, Option.getD_none, Option.getD_some]
        omega
    | some entry =>
        simp only [usedUp, Option.map_some, Option.getD_some]
        omega
  · exact Int.le_refl _

theorem arrive_allowed (allowed : (limit.arrive .never key now).1.allowed = true) :
    usedUp key now + limit.interval ≤ now + limit.capacity ∧
      (limit.arrive .never key now).2 = some ⟨usedUp key now + limit.interval,
        now + (limit.capacity + limit.interval)⟩ := by
  rw [arrive_never] at allowed ⊢
  split
  · rename_i within
    exact ⟨within, rfl⟩
  · rename_i beyond
    rw [if_neg beyond] at allowed
    cases allowed

theorem used_up_mono (key : Option Entry) {first now : Int} (le : first ≤ now) :
    usedUp key first ≤ usedUp key now := by
  unfold usedUp
  cases key with
  | none => exact max_le_max le le
  | some entry => exact max_le_max le (Int.le_refl _)

theorem allowed_in_cons (limit : Limit) (expiry : Expiry) (first last : Int) (key : Option Entry)
    (now : Int) (times : List Int) : limit.allowedIn expiry first last key (now :: times) =
      limit.allowedIn expiry first last (limit.arrive expiry key now).2 times +
        if (limit.arrive expiry key now).1.allowed = true ∧ first ≤ now ∧ now ≤ last then 1
        else 0 := by
  unfold allowedIn
  rw [verdicts, List.zip_cons_cons, List.filter_cons]
  simp only [Bool.and_eq_true, decide_eq_true_eq]
  split
  · rfl
  · rfl

/-- Of the requests of a window, every one that is allowed uses up an interval, and the last one is
allowed with no more than the burst ahead. -/
theorem allowed_used_up (limit : Limit) (first last : Int) (key : Option Entry)
    (times : List Int) : (limit.allowedIn .never first last key times : Int) * limit.interval ≤
      max 0 (last + limit.capacity - usedUp key first) := by
  induction times generalizing key with
  | nil =>
      simp only [allowedIn, verdicts, List.zip_nil_left, List.filter_nil, List.length_nil]
      omega
  | cons now times ih =>
      have rest := ih (limit.arrive .never key now).2
      rw [allowed_in_cons]
      split
      · rename_i counts
        obtain ⟨allowed, after, before⟩ := counts
        obtain ⟨within, written⟩ := arrive_allowed allowed
        have ahead := used_up_mono key after
        rw [written] at rest ⊢
        rw [used_up_some] at rest
        dsimp only at rest
        push_cast
        rw [Int.add_mul, Int.one_mul]
        omega
      · have grows := limit.used_up_arrive key first now
        rw [Nat.add_zero]
        omega

/-! Further requests at the same time. -/

/-- A key that is used up beyond now has room for as many requests as there are whole intervals
left. -/
theorem same_instant {tat deadline : Int} (ahead : now ≤ tat) {r : Nat}
    (fits : (r : Int) * limit.interval ≤ now + limit.capacity - tat)
    (full : now + limit.capacity - tat < ((r : Int) + 1) * limit.interval) :
    (limit.verdicts .never (some ⟨tat, deadline⟩) (List.replicate (r + 1) now)).map
      Verdict.allowed = List.replicate r true ++ [false] := by
  have used (tat deadline : Int) (ahead : now ≤ tat) : usedUp (some ⟨tat, deadline⟩) now = tat := by
    rw [used_up_some]
    exact max_eq_right ahead
  induction r generalizing tat deadline with
  | zero =>
      have beyond : ¬ tat + limit.interval ≤ now + limit.capacity := by omega
      simp only [List.replicate, verdicts, arrive_never, used _ _ ahead, if_neg beyond]
      rfl
  | succ r ih =>
      have one : ((r + 1 : Nat) : Int) * limit.interval =
          (r : Int) * limit.interval + limit.interval := by
        rw [Int.natCast_add, Int.add_mul, Int.natCast_one, Int.one_mul]
      have positive : 0 ≤ (r : Int) * limit.interval :=
        Int.mul_nonneg (Int.natCast_nonneg r) (Int.natCast_nonneg _)
      have within : tat + limit.interval ≤ now + limit.capacity := by omega
      have two : (((r + 1 : Nat) : Int) + 1) * limit.interval =
          ((r : Int) + 1) * limit.interval + limit.interval := by
        rw [Int.add_mul, Int.one_mul, Int.natCast_add, Int.natCast_one]
      have later : now ≤ tat + limit.interval := by omega
      rw [List.replicate_succ, verdicts, arrive_never, used _ _ ahead, if_pos within]
      exact congrArg (List.cons true) (ih later (by omega) (by omega))

theorem remaining_exact (allowed : (limit.arrive .never key now).1.allowed = true) :
    ∃ r : Nat, (limit.arrive .never key now).1.remaining = r ∧
      (limit.verdicts .never (limit.arrive .never key now).2 (List.replicate (r + 1) now)).map
        Verdict.allowed = List.replicate r true ++ [false] := by
  obtain ⟨within, written⟩ := arrive_allowed allowed
  have positive : (0 : Int) < limit.interval := by
    have interval := limit.intervalPositive
    omega
  have told : (limit.arrive .never key now).1.remaining =
      (now + limit.capacity - (usedUp key now + limit.interval)) / limit.interval := by
    rw [arrive_never, if_pos within]
  have left : 0 ≤ (now + limit.capacity - (usedUp key now + limit.interval)) / limit.interval :=
    Int.ediv_nonneg (by omega) (Int.le_of_lt positive)
  obtain ⟨r, whole⟩ := Int.eq_ofNat_of_zero_le left
  refine ⟨r, told.trans whole, ?_⟩
  rw [written]
  have ahead := used_up_ge key now
  apply same_instant
  · omega
  · rw [← whole]
    exact Int.ediv_mul_le _ (Int.ne_of_gt positive)
  · rw [← whole]
    exact Int.lt_ediv_add_one_mul_self _ positive

theorem arrive_denied (denied : (limit.arrive .never key now).1.allowed = false) :
    now + limit.capacity < usedUp key now + limit.interval ∧
      (limit.arrive .never key now).2 = key ∧
      (limit.arrive .never key now).1.retryAfterMs =
        usedUp key now + limit.interval - limit.capacity - now := by
  rw [arrive_never] at denied ⊢
  split
  · rename_i within
    rw [if_pos within] at denied
    cases denied
  · rename_i beyond
    exact ⟨by omega, rfl, rfl⟩

theorem allowed_iff (limit : Limit) (key : Option Entry) (now : Int) :
    (limit.arrive .never key now).1.allowed = true ↔
      usedUp key now + limit.interval ≤ now + limit.capacity := by
  rw [arrive_never]
  split
  · rename_i within
    exact iff_of_true rfl within
  · rename_i beyond
    exact iff_of_false nofun beyond

theorem retry_exact (denied : (limit.arrive .never key now).1.allowed = false) :
    (limit.arrive .never key (now + (limit.arrive .never key now).1.retryAfterMs)).1.allowed =
      true ∧
    ∀ time, now ≤ time → time < now + (limit.arrive .never key now).1.retryAfterMs →
      (limit.arrive .never key time).1.allowed = false := by
  obtain ⟨beyond, _, told⟩ := arrive_denied denied
  have room := limit.interval_le_capacity
  rw [told]
  cases key with
  | none =>
      have fresh : usedUp none now = now := max_self now
      omega
  | some entry =>
      rw [used_up_some] at beyond ⊢
      constructor
      · rw [allowed_iff, used_up_some]
        omega
      · intro time after before
        rw [← Bool.not_eq_true, allowed_iff, used_up_some]
        omega

theorem lasting_none : Lasting none := by
  rintro entry ⟨⟩

end Limit

/-- In no window are more requests allowed than the burst and one for each interval of it, and keys
that expire make no difference. -/
theorem rate_bounded {policy : Policy} (valid : policy.Valid) (expiry : Expiry)
    (times : List Int) :
    (∀ (first : Int) (window : Nat),
      (policy.limit valid).allowedIn expiry first (first + window) none times ≤
        policy.burst + window / policy.interval) ∧
    (policy.limit valid).verdicts expiry none times =
      (policy.limit valid).verdicts .never none times := by
  have same : (policy.limit valid).verdicts expiry none times =
      (policy.limit valid).verdicts .never none times :=
    Limit.verdicts_expiry Limit.lasting_none times
  refine ⟨?_, same⟩
  intro first window
  have bound := (policy.limit valid).allowed_used_up first (first + window) none times
  have counted : (policy.limit valid).allowedIn expiry first (first + window) none times =
      (policy.limit valid).allowedIn .never first (first + window) none times := by
    unfold Limit.allowedIn
    rw [same]
  rw [counted]
  generalize (policy.limit valid).allowedIn .never first (first + window) none times = allowed
    at bound ⊢
  have total : allowed * policy.interval ≤ window + policy.burst * policy.interval := by
    have capacity : (policy.limit valid).capacity = (policy.burst : Int) * policy.interval := rfl
    have interval : ((policy.limit valid).interval : Int) = policy.interval := rfl
    have begins : Limit.usedUp none first = first := max_self first
    rw [capacity, interval, begins] at bound
    have positive : 0 ≤ (policy.burst : Int) * policy.interval :=
      Int.mul_nonneg (Int.natCast_nonneg _) (Int.natCast_nonneg _)
    have summed : (allowed : Int) * policy.interval ≤
        window + (policy.burst : Int) * policy.interval := by omega
    exact_mod_cast summed
  have divided := (Nat.le_div_iff_mul_le (interval_positive valid)).mpr total
  rw [Nat.add_mul_div_right _ _ (interval_positive valid)] at divided
  omega

/-- The limit of the login, over five requests at once and one a minute later. -/
theorem rate_bounded_login : Limit.allowedIn ((⟨5, 2, .ip⟩ : Policy).limit (by decide)) .atDeadline
    0 (0 + (60000 : Nat)) none [0, 0, 0, 0, 0, 60000] ≤ 2 + 60000 / 12000 :=
  (@rate_bounded ⟨5, 2, .ip⟩ (by decide) .atDeadline [0, 0, 0, 0, 0, 60000]).1 0 60000

/-- What the middleware is told of the next requests comes true: `remaining` of them are allowed at
the same time and no more; after a denial the key is as before, and the next request is allowed
after `retry_after_ms` and not sooner. -/
theorem feedback_exact (limit : Limit) (expiry : Expiry) (times : List Int) (now : Int) :
    ((limit.arrive expiry (limit.after expiry none times) now).1.allowed = true →
      ∃ r : Nat, (limit.arrive expiry (limit.after expiry none times) now).1.remaining = r ∧
        (limit.verdicts expiry (limit.arrive expiry (limit.after expiry none times) now).2
          (List.replicate (r + 1) now)).map Verdict.allowed = List.replicate r true ++ [false]) ∧
    ((limit.arrive expiry (limit.after expiry none times) now).1.allowed = false →
      (limit.arrive expiry (limit.after expiry none times) now).2 =
        limit.after expiry none times ∧
      (limit.arrive expiry (limit.after expiry none times)
        (now + (limit.arrive expiry (limit.after expiry none times) now).1.retryAfterMs)).1.allowed =
          true ∧
      ∀ time, now ≤ time → time < now +
          (limit.arrive expiry (limit.after expiry none times) now).1.retryAfterMs →
        (limit.arrive expiry (limit.after expiry none times) time).1.allowed = false) := by
  have lasting : Limit.Lasting (limit.after expiry none times) :=
    Limit.after_lasting Limit.lasting_none times
  generalize limit.after expiry none times = key at lasting ⊢
  have kept : Limit.Lasting (limit.arrive expiry key now).2 := Limit.arrive_lasting lasting
  have same (time : Int) : limit.arrive expiry key time = limit.arrive .never key time :=
    Limit.arrive_expiry lasting
  rw [same] at kept
  simp only [same, Limit.verdicts_expiry kept]
  refine ⟨Limit.remaining_exact, fun denied => ?_⟩
  exact ⟨(Limit.arrive_denied denied).2.1, Limit.retry_exact denied⟩

end Yomochi.Http.RateLimit
