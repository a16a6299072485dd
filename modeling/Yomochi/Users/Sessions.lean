import Yomochi.Foundation.Redis
import Yomochi.Values

/-! `RedisSessionStore`: a key for each session, and an index of them for each user. -/

namespace Yomochi.Users

open Foundation

abbrev RequestId := Nat

structure SessionId where
  value : Uuid
  deriving DecidableEq, Repr

structure Session where
  id : SessionId
  userId : UserId
  expiresAt : Timestamp
  userAgent : String
  ip : String
  deriving DecidableEq

def second : Nat := 1000000

def Session.ttl (session : Session) (now : Timestamp) : Nat := (session.expiresAt - now) / second

structure Redis where
  sessions : Keys SessionId Session
  index : UserId → SortedSet SessionId

namespace Redis

def empty : Redis := ⟨.empty, fun _ => .empty⟩

/-- The pipeline of `save`, executed at `clock` after `now` has been read. -/
def save (redis : Redis) (clock now : Timestamp) (session : Session) : Redis :=
  if session.ttl now = 0 then redis
  else
    { sessions := redis.sessions.set session.id session (clock + session.ttl now * second)
      index := Function.update redis.index session.userId
        (((redis.index session.userId).zadd session.id session.expiresAt).zremrangebyscore now) }

def get (redis : Redis) (clock : Timestamp) (id : SessionId) (userId : UserId) : Option Session :=
  (redis.sessions.get clock id).filter fun session =>
    decide (session.userId = userId) && decide (clock < session.expiresAt)

/-- The pipeline of `revoke`. -/
def revoke (redis : Redis) (id : SessionId) (userId : UserId) : Redis where
  sessions := redis.sessions.delete [id]
  index := Function.update redis.index userId ((redis.index userId).zrem id)

/-- The second command of `list_active`. -/
def mget (redis : Redis) (clock : Timestamp) (ids : List SessionId) : List Session :=
  ids.filterMap (redis.sessions.get clock)

/-- The pipeline of `revoke_all`. -/
def deleteAll (redis : Redis) (userId : UserId) (ids : List SessionId) : Redis where
  sessions := redis.sessions.delete ids
  index := Function.update redis.index userId .empty

end Redis

/-! What the index has of the sessions that live, for any notion of how long an entry lives. -/

variable {lifetime : Session → Timestamp → Timestamp}

/-- A session that lives is in the index of its user, with a score at which it is dead. -/
def Indexed (lifetime : Session → Timestamp → Timestamp) (redis : Redis) (clock : Timestamp) : Prop :=
  ∀ id session expiry, redis.sessions.entry id = some (session, expiry) →
    clock < lifetime session expiry →
      ∃ score, (id, score) ∈ (redis.index session.userId).entries ∧ lifetime session expiry ≤ score

def Covered (lifetime : Session → Timestamp → Timestamp) (redis : Redis) (clock : Timestamp)
    (userId : UserId) (ids : List SessionId) : Prop :=
  ∀ id session expiry, redis.sessions.entry id = some (session, expiry) →
    clock < lifetime session expiry → session.userId = userId → id ∈ ids

variable {redis : Redis} {clock now : Timestamp} {session : Session} {userId : UserId}
  {ids : List SessionId}

theorem indexed_empty : Indexed lifetime .empty clock := by
  intro id session expiry stored
  cases stored

theorem indexed_later {later : Timestamp} (indexed : Indexed lifetime redis clock)
    (le : clock ≤ later) : Indexed lifetime redis later := by
  intro id session expiry stored lives
  exact indexed id session expiry stored (Nat.lt_of_le_of_lt le lives)

theorem covered_later {later : Timestamp} (covered : Covered lifetime redis clock userId ids)
    (le : clock ≤ later) : Covered lifetime redis later userId ids := by
  intro id session expiry stored lives
  exact covered id session expiry stored (Nat.lt_of_le_of_lt le lives)

theorem covered_of_indexed (indexed : Indexed lifetime redis clock) (userId : UserId) :
    Covered lifetime redis clock userId (redis.index userId).zrange := by
  intro id session expiry stored lives same
  subst same
  obtain ⟨score, listed, _⟩ := indexed id session expiry stored lives
  exact SortedSet.mem_zrange.mpr ⟨score, listed⟩

theorem lt_of_ttl_pos (positive : session.ttl now ≠ 0) : now < session.expiresAt := by
  apply Nat.lt_of_not_le
  intro past
  apply positive
  rw [Session.ttl, Nat.sub_eq_zero_of_le past, Nat.zero_div]

/-- `save` keeps the index complete when the key does not outlive the score of its entry. -/
theorem indexed_save (indexed : Indexed lifetime redis clock) (past : now ≤ clock)
    (inTime : session.ttl now ≠ 0 →
      lifetime session (clock + session.ttl now * second) ≤ session.expiresAt) :
    Indexed lifetime (redis.save clock now session) clock := by
  unfold Redis.save
  split
  · exact indexed
  · rename_i positive
    intro id stored expiry found lives
    rw [Keys.entry_set] at found
    split at found
    · rename_i same
      cases found
      refine ⟨session.expiresAt, ?_, inTime positive⟩
      simp [same, lt_of_ttl_pos positive]
    · rename_i different
      obtain ⟨score, listed, bound⟩ := indexed id stored expiry found lives
      refine ⟨score, ?_, bound⟩
      by_cases same : stored.userId = session.userId
      · have kept : now < score := Nat.lt_of_le_of_lt past (Nat.lt_of_lt_of_le lives bound)
        rw [same] at listed ⊢
        simp [listed, different, kept]
      · simpa [same] using listed

/-- A session that is saved while `ids` are on their way is covered if it is one of them. -/
theorem covered_save (covered : Covered lifetime redis clock userId ids)
    (known : session.ttl now ≠ 0 → session.userId = userId → session.id ∈ ids) :
    Covered lifetime (redis.save clock now session) clock userId ids := by
  unfold Redis.save
  split
  · exact covered
  · rename_i positive
    intro id stored expiry found lives same
    rw [Keys.entry_set] at found
    split at found
    · rename_i addressed
      cases found
      rw [addressed]
      exact known positive same
    · exact covered id stored expiry found lives same

theorem indexed_revoke (indexed : Indexed lifetime redis clock) (id : SessionId) (userId : UserId) :
    Indexed lifetime (redis.revoke id userId) clock := by
  intro other stored expiry found lives
  obtain ⟨different, before⟩ := Keys.entry_delete_eq_some.mp found
  obtain ⟨score, listed, bound⟩ := indexed other stored expiry before lives
  refine ⟨score, ?_, bound⟩
  rw [List.mem_singleton] at different
  by_cases same : stored.userId = userId
  · rw [same] at listed ⊢
    simp [Redis.revoke, listed, different]
  · simpa [Redis.revoke, same] using listed

theorem covered_revoke (covered : Covered lifetime redis clock userId ids) (id : SessionId)
    (other : UserId) : Covered lifetime (redis.revoke id other) clock userId ids := by
  intro key stored expiry found
  exact covered key stored expiry (Keys.entry_delete_eq_some.mp found).2

theorem indexed_delete_all (indexed : Indexed lifetime redis clock)
    (covered : Covered lifetime redis clock userId ids) :
    Indexed lifetime (redis.deleteAll userId ids) clock := by
  intro id stored expiry found lives
  obtain ⟨kept, before⟩ := Keys.entry_delete_eq_some.mp found
  obtain ⟨score, listed, bound⟩ := indexed id stored expiry before lives
  refine ⟨score, ?_, bound⟩
  have different : stored.userId ≠ userId := by
    intro same
    exact kept (covered id stored expiry before lives same)
  simpa [Redis.deleteAll, different] using listed

theorem covered_delete_all (covered : Covered lifetime redis clock userId ids) (other : UserId)
    (others : List SessionId) : Covered lifetime (redis.deleteAll other others) clock userId ids := by
  intro id stored expiry found
  exact covered id stored expiry (Keys.entry_delete_eq_some.mp found).2

/-- When the keys that the pipeline deletes cover the user, no session of the user is left. -/
theorem covered_nil_delete_all (covered : Covered lifetime redis clock userId ids) :
    Covered lifetime (redis.deleteAll userId ids) clock userId [] := by
  intro id stored expiry found lives same
  obtain ⟨kept, before⟩ := Keys.entry_delete_eq_some.mp found
  exact absurd (covered id stored expiry before lives same) kept

def Keyed (redis : Redis) : Prop :=
  ∀ id session expiry, redis.sessions.entry id = some (session, expiry) → session.id = id

theorem keyed_save (keyed : Keyed redis) : Keyed (redis.save clock now session) := by
  unfold Redis.save
  split
  · exact keyed
  · intro id stored expiry found
    rw [Keys.entry_set] at found
    split at found
    · rename_i same
      cases found
      exact same.symm
    · exact keyed id stored expiry found

theorem keyed_revoke (keyed : Keyed redis) (id : SessionId) (userId : UserId) :
    Keyed (redis.revoke id userId) :=
  fun other stored expiry found => keyed other stored expiry (Keys.entry_delete_eq_some.mp found).2

theorem keyed_delete_all (keyed : Keyed redis) (userId : UserId) (ids : List SessionId) :
    Keyed (redis.deleteAll userId ids) :=
  fun id stored expiry found => keyed id stored expiry (Keys.entry_delete_eq_some.mp found).2

end Yomochi.Users
