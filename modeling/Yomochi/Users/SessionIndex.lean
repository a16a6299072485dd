import Yomochi.Foundation.Runs
import Yomochi.Users.Sessions

/-! Concurrent calls of `RedisSessionStore`, one command a step, and when the index of each user
has every session key that lives. -/

namespace Yomochi.Users

open Foundation

/-- A `revoke_all` between its two commands. `earlier` are the sessions of the user whose save
was complete when it began. -/
structure RevokeAll where
  request : RequestId
  userId : UserId
  earlier : List Session
  ids : List SessionId

/-- A `list_active` between its two commands. `alive` are the sessions of the user whose keys
lived when it read the index. -/
structure ListActive where
  request : RequestId
  alive : List SessionId
  ids : List SessionId

namespace Index

/-- `saved` logs the calls of `save`, `survivors` the sessions saved before a `revoke_all` that
outlived it, and `unlisted` the sessions that lived throughout a `list_active` which did not
answer them. -/
structure State where
  clock : Timestamp
  redis : Redis
  saved : List Session
  revoking : List RevokeAll
  listing : List ListActive
  survivors : List Session
  unlisted : List SessionId

def State.start : State := ⟨0, .empty, [], [], [], [], []⟩

inductive Action
  | pass (elapsed : Nat)
  | save (session : Session) (now : Timestamp)
  | revoke (id : SessionId) (userId : UserId)
  | zrange (request : RequestId) (userId : UserId)
  | deleteAll (request : RequestId)
  | zrangebyscore (request : RequestId) (userId : UserId) (now : Timestamp)
  | mget (request : RequestId)

def lives (redis : Redis) (clock : Timestamp) (session : Session) : Bool :=
  (redis.sessions.get clock session.id).any fun stored => stored.userId = session.userId

def State.savedFor (s : State) (userId : UserId) : List Session :=
  s.saved.filter fun session => session.userId = userId

/-- `save` read the clock before, at `now`. -/
def save (s : State) (session : Session) (now : Timestamp) : Option State :=
  if now ≤ s.clock then
    some { s with redis := s.redis.save s.clock now session, saved := s.saved ++ [session] }
  else none

/-- An empty answer ends `revoke_all`. -/
def zrange (s : State) (request : RequestId) (userId : UserId) : Option State :=
  if s.revoking.any fun call => call.request = request then none
  else if (s.redis.index userId).zrange = [] then
    some { s with survivors := s.survivors ++ (s.savedFor userId).filter (lives s.redis s.clock) }
  else
    some { s with
      revoking := s.revoking ++ [⟨request, userId, s.savedFor userId, (s.redis.index userId).zrange⟩] }

def deleteAll (s : State) (request : RequestId) : Option State :=
  (s.revoking.find? fun call => call.request = request).map fun call =>
    { s with
      redis := s.redis.deleteAll call.userId call.ids
      revoking := s.revoking.filter fun other => other.request ≠ request
      survivors := s.survivors ++
        call.earlier.filter (lives (s.redis.deleteAll call.userId call.ids) s.clock) }

/-- `list_active` read the clock before, at `now`; an empty answer is asked for no keys. -/
def zrangebyscore (s : State) (request : RequestId) (userId : UserId) (now : Timestamp) :
    Option State :=
  if s.clock < now ∨ s.listing.any fun call => call.request = request then none
  else
    some { s with
      listing := s.listing ++ [⟨request,
        ((s.savedFor userId).filter (lives s.redis s.clock)).map Session.id,
        (s.redis.index userId).zrangebyscore now⟩] }

def mget (s : State) (request : RequestId) : Option State :=
  (s.listing.find? fun call => call.request = request).map fun call =>
    { s with
      listing := s.listing.filter fun other => other.request ≠ request
      unlisted := s.unlisted ++ call.alive.filter fun id =>
        (s.redis.sessions.get s.clock id).isSome &&
          decide (id ∉ (s.redis.mget s.clock call.ids).map Session.id) }

def step (s : State) : Action → Option State
  | .pass elapsed => some { s with clock := s.clock + elapsed }
  | .save session now => save s session now
  | .revoke id userId => some { s with redis := s.redis.revoke id userId }
  | .zrange request userId => zrange s request userId
  | .deleteAll request => deleteAll s request
  | .zrangebyscore request userId now => zrangebyscore s request userId now
  | .mget request => mget s request

/-- Every session key that lives is in the index of its user, no session saved before a
`revoke_all` outlives it, and `list_active` answers every session that lives while it runs. -/
structure Complete (s : State) : Prop where
  indexed : ∀ id session, s.redis.sessions.get s.clock id = some session →
    id ∈ (s.redis.index session.userId).zrange
  revoked : s.survivors = []
  listed : s.unlisted = []

/-- A pipeline of `save` runs soon enough that its key does not outlive its score, and not
between the two commands of a `revoke_all` of its user which does not know the session. -/
def Undisturbed (s : State) : Action → Prop
  | .save session now => session.ttl now ≠ 0 →
      s.clock + session.ttl now * second ≤ session.expiresAt ∧
        ∀ call ∈ s.revoking, session.userId = call.userId → session.id ∈ call.ids
  | _ => True

instance (s : State) : ∀ a, Decidable (Undisturbed s a)
  | .save _ _ => inferInstanceAs (Decidable (_ → _))
  | .pass _ | .revoke _ _ | .zrange _ _ | .deleteAll _ | .zrangebyscore _ _ _ | .mget _ =>
      .isTrue trivial

/-- A key lives until it expires. -/
def untilExpiry (_ : Session) (expiry : Timestamp) : Timestamp := expiry

structure Tracked (s : State) : Prop where
  keyed : Keyed s.redis
  indexed : Indexed untilExpiry s.redis s.clock
  covered : ∀ call ∈ s.revoking, Covered untilExpiry s.redis s.clock call.userId call.ids
  earlier : ∀ call ∈ s.revoking, ∀ session ∈ call.earlier, session.userId = call.userId
  listing : ∀ call ∈ s.listing, ∀ id ∈ call.alive, id ∈ call.ids
  survivors : s.survivors = []
  unlisted : s.unlisted = []

theorem tracked_start : Tracked .start where
  keyed := fun _ _ _ stored => by cases stored
  indexed := indexed_empty
  covered := fun _ member => by cases member
  earlier := fun _ member => by cases member
  listing := fun _ member => by cases member
  survivors := rfl
  unlisted := rfl

theorem complete_of_tracked (s : State) (tracked : Tracked s) : Complete s where
  indexed := by
    intro id session found
    obtain ⟨expiry, stored, alive⟩ := Keys.get_eq_some.mp found
    exact covered_of_indexed tracked.indexed session.userId id session expiry stored alive rfl
  revoked := tracked.survivors
  listed := tracked.unlisted

section

variable {s t : State}

theorem covered_lives {redis : Redis} {clock : Timestamp} {userId : UserId} {ids : List SessionId}
    (covered : Covered untilExpiry redis clock userId ids) {session : Session}
    (alive : lives redis clock session = true) (same : session.userId = userId) :
    session.id ∈ ids := by
  obtain ⟨stored, found, owner⟩ := (Option.any_eq_true _ _).mp alive
  obtain ⟨expiry, entry, later⟩ := Keys.get_eq_some.mp found
  exact covered session.id stored expiry entry later ((of_decide_eq_true owner).trans same)

theorem tracked_pass (tracked : Tracked s) (elapsed : Nat) :
    Tracked { s with clock := s.clock + elapsed } where
  keyed := tracked.keyed
  indexed := indexed_later tracked.indexed (Nat.le_add_right _ _)
  covered := fun call member => covered_later (tracked.covered call member) (Nat.le_add_right _ _)
  earlier := tracked.earlier
  listing := tracked.listing
  survivors := tracked.survivors
  unlisted := tracked.unlisted

theorem tracked_save {session : Session} {now : Timestamp} (tracked : Tracked s)
    (undisturbed : Undisturbed s (.save session now)) (taken : save s session now = some t) :
    Tracked t := by
  unfold save at taken
  split at taken
  · rename_i past
    cases taken
    refine ⟨keyed_save tracked.keyed, ?_, ?_, tracked.earlier, tracked.listing,
      tracked.survivors, tracked.unlisted⟩
    · apply indexed_save tracked.indexed past
      intro positive
      rw [untilExpiry]
      exact (undisturbed positive).1
    · intro call member
      apply covered_save (tracked.covered call member)
      intro positive same
      exact (undisturbed positive).2 call member same
  · cases taken

theorem tracked_revoke (tracked : Tracked s) (id : SessionId) (userId : UserId) :
    Tracked { s with redis := s.redis.revoke id userId } where
  keyed := keyed_revoke tracked.keyed id userId
  indexed := indexed_revoke tracked.indexed id userId
  covered := fun call member => covered_revoke (tracked.covered call member) id userId
  earlier := tracked.earlier
  listing := tracked.listing
  survivors := tracked.survivors
  unlisted := tracked.unlisted

theorem mem_saved_for {userId : UserId} {session : Session}
    (member : session ∈ s.savedFor userId) : session.userId = userId :=
  of_decide_eq_true (List.mem_filter.mp member).2

theorem tracked_zrange {request : RequestId} {userId : UserId} (tracked : Tracked s)
    (taken : zrange s request userId = some t) : Tracked t := by
  have covered := covered_of_indexed tracked.indexed userId
  unfold zrange at taken
  split at taken
  · cases taken
  · split at taken
    · rename_i empty
      cases taken
      refine ⟨tracked.keyed, tracked.indexed, tracked.covered, tracked.earlier, tracked.listing,
        ?_, tracked.unlisted⟩
      rw [empty] at covered
      rw [tracked.survivors, List.nil_append, List.filter_eq_nil_iff]
      intro session member alive
      exact List.not_mem_nil (covered_lives covered alive (mem_saved_for member))
    · cases taken
      refine ⟨tracked.keyed, tracked.indexed, ?_, ?_, tracked.listing, tracked.survivors,
        tracked.unlisted⟩
      · intro call member
        rcases List.mem_append.mp member with before | last
        · exact tracked.covered call before
        · rw [List.mem_singleton.mp last]
          exact covered
      · intro call member session saved
        rcases List.mem_append.mp member with before | last
        · exact tracked.earlier call before session saved
        · rw [List.mem_singleton.mp last] at saved ⊢
          exact mem_saved_for saved

theorem tracked_delete_all {request : RequestId} (tracked : Tracked s)
    (taken : deleteAll s request = some t) : Tracked t := by
  obtain ⟨call, found, rfl⟩ := Option.map_eq_some_iff.mp taken
  have member := List.mem_of_find?_eq_some found
  have covered := tracked.covered call member
  refine ⟨keyed_delete_all tracked.keyed _ _, indexed_delete_all tracked.indexed covered, ?_, ?_,
    tracked.listing, ?_, tracked.unlisted⟩
  · intro other inside
    exact covered_delete_all (tracked.covered other (List.mem_filter.mp inside).1) _ _
  · intro other inside
    exact tracked.earlier other (List.mem_filter.mp inside).1
  · have gone := covered_nil_delete_all covered
    rw [tracked.survivors, List.nil_append, List.filter_eq_nil_iff]
    intro session saved alive
    exact List.not_mem_nil (covered_lives gone alive (tracked.earlier call member session saved))

theorem mem_zrangebyscore_of_lives (tracked : Tracked s) {session : Session} {now : Timestamp}
    (past : now ≤ s.clock) (alive : lives s.redis s.clock session = true) :
    session.id ∈ (s.redis.index session.userId).zrangebyscore now := by
  obtain ⟨stored, found, owner⟩ := (Option.any_eq_true _ _).mp alive
  obtain ⟨expiry, entry, later⟩ := Keys.get_eq_some.mp found
  obtain ⟨score, listed, bound⟩ := tracked.indexed session.id stored expiry entry later
  rw [of_decide_eq_true owner] at listed
  refine SortedSet.mem_zrangebyscore.mpr ⟨score, listed, ?_⟩
  exact Nat.le_trans past (Nat.le_trans (Nat.le_of_lt later) bound)

theorem tracked_zrangebyscore {request : RequestId} {userId : UserId} {now : Timestamp}
    (tracked : Tracked s) (taken : zrangebyscore s request userId now = some t) : Tracked t := by
  unfold zrangebyscore at taken
  split at taken
  · cases taken
  · rename_i free
    cases taken
    refine ⟨tracked.keyed, tracked.indexed, tracked.covered, tracked.earlier, ?_,
      tracked.survivors, tracked.unlisted⟩
    intro call member id inside
    rcases List.mem_append.mp member with before | last
    · exact tracked.listing call before id inside
    · rw [List.mem_singleton.mp last] at inside ⊢
      obtain ⟨session, alive, rfl⟩ := List.mem_map.mp inside
      obtain ⟨saved, living⟩ := List.mem_filter.mp alive
      have past : now ≤ s.clock := Nat.le_of_not_lt fun later => free (.inl later)
      have listed := mem_zrangebyscore_of_lives tracked past living
      rwa [mem_saved_for saved] at listed

theorem mem_mget {redis : Redis} (keyed : Keyed redis) {clock : Timestamp} {ids : List SessionId}
    {id : SessionId} (member : id ∈ ids) (found : (redis.sessions.get clock id).isSome = true) :
    id ∈ (redis.mget clock ids).map Session.id := by
  obtain ⟨session, here⟩ := Option.isSome_iff_exists.mp found
  obtain ⟨expiry, stored, _⟩ := Keys.get_eq_some.mp here
  exact List.mem_map.mpr ⟨session, List.mem_filterMap.mpr ⟨id, member, here⟩,
    keyed id session expiry stored⟩

theorem tracked_mget {request : RequestId} (tracked : Tracked s)
    (taken : mget s request = some t) : Tracked t := by
  obtain ⟨call, found, rfl⟩ := Option.map_eq_some_iff.mp taken
  refine ⟨tracked.keyed, tracked.indexed, tracked.covered, tracked.earlier, ?_,
    tracked.survivors, ?_⟩
  · intro other inside
    exact tracked.listing other (List.mem_filter.mp inside).1
  · rw [tracked.unlisted, List.nil_append, List.filter_eq_nil_iff]
    intro id alive missing
    obtain ⟨here, absent⟩ := (Bool.and_eq_true_iff).mp missing
    have known := tracked.listing call (List.mem_of_find?_eq_some found) id alive
    exact of_decide_eq_true absent (mem_mget tracked.keyed known here)

end

theorem tracked_step (s : State) (a : Action) (t : State) (undisturbed : Undisturbed s a)
    (taken : step s a = some t) (tracked : Tracked s) : Tracked t := by
  cases a with
  | pass elapsed =>
      cases taken
      exact tracked_pass tracked elapsed
  | save session now => exact tracked_save tracked undisturbed taken
  | revoke id userId =>
      cases taken
      exact tracked_revoke tracked id userId
  | zrange request userId => exact tracked_zrange tracked taken
  | deleteAll request => exact tracked_delete_all tracked taken
  | zrangebyscore request userId now => exact tracked_zrangebyscore tracked taken
  | mget request => exact tracked_mget tracked taken

/-- Along an undisturbed run the index is complete in every state. -/
theorem index_complete_of_undisturbed (actions : List Action)
    (along : Along step Undisturbed .start actions) : Visits step Complete .start actions :=
  visits_of_along tracked_step complete_of_tracked along tracked_start

def laptop : Session := ⟨⟨1⟩, ⟨7⟩, 3600 * second, "laptop", "10.0.0.1"⟩

def phone : Session := ⟨⟨2⟩, ⟨7⟩, 3600 * second, "phone", "10.0.0.2"⟩

def calmRun : List Action :=
  [.save laptop 0, .pass 5, .save phone 3, .zrangebyscore 0 ⟨7⟩ 4, .mget 0, .zrange 1 ⟨7⟩, .deleteAll 1]

theorem index_complete_calm_run : Visits step Complete .start calmRun :=
  index_complete_of_undisturbed calmRun (by decide +kernel)

/-- The second login lands between the commands of a `revoke_all`; the next one misses it. -/
def racingRun : List Action :=
  [.save laptop 0, .zrange 0 ⟨7⟩, .save phone 0, .deleteAll 0, .zrange 1 ⟨7⟩]

theorem index_not_complete : ¬ ∀ actions s, run step .start actions = some s → Complete s := by
  intro claimed
  have missed : (run step .start racingRun).any (fun s => decide (s.survivors = [phone])) = true := by
    decide +kernel
  obtain ⟨s, reached, found⟩ := (Option.any_eq_true _ _).mp missed
  have survived : s.survivors = [phone] := of_decide_eq_true found
  rw [(claimed racingRun s reached).revoked] at survived
  cases survived

end Index

end Yomochi.Users
