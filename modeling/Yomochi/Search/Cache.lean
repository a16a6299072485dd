import Yomochi.Foundation.JsonStrings
import Yomochi.Foundation.Redis
import Yomochi.Foundation.Table
import Yomochi.Foundation.Utf8
import Yomochi.Search.TextSearch

/-! The search behind a cache of identifiers. Whether it answers as the search does. -/

namespace Yomochi.Search

open Foundation
open Chat (Bindable)

/-- What the cache takes from its surroundings: SHA-256 digests in base sixteen, and the
interpreter's recursion limit. -/
structure Platform where
  hexdigest : Bytes → Text
  recursionLimit : Nat
  positive : recursionLimit ≠ 0

def cacheKey (platform : Platform) (userId : UUID) (body : Bytes) : Text :=
  text "search_cache:" ++ (userId.str ++ ':'.toNat :: platform.hexdigest body)

/-- `[UUID(s) for s in json.loads(raw)]`; `none` is an error. -/
def readIds (platform : Platform) (raw : Text) : Option (List UUID) :=
  match loads (.python platform.recursionLimit) raw with
  | .ok (.array items) => items.mapM fun item =>
      match item with
      | .string source => UUID.ofText source
      | _ => none
  | _ => none

namespace RedisSearchCache

def get (platform : Platform) (keys : Keys Text Text) (now : Nat) (userId : UUID) (query : Text) :
    Except SearchError (Option (List UUID)) :=
  match encodeStrict query with
  | none => .error .UnicodeEncodeError
  | some body =>
      match keys.get now (cacheKey platform userId body) with
      | none => .ok none
      | some raw =>
          match readIds platform raw with
          | none => .error .ValueError
          | some ids => .ok (some ids)

def set (platform : Platform) (ttl : Nat) (keys : Keys Text Text) (now : Nat) (userId : UUID)
    (query : Text) (transactionIds : List UUID) : Except SearchError (Keys Text Text) :=
  match encodeStrict query with
  | none => .error .UnicodeEncodeError
  | some body =>
      .ok (keys.set (cacheKey platform userId body) (dumpsStrings (transactionIds.map UUID.str))
        (now + ttl))

end RedisSearchCache

/-- `SqlaSearchTransactionReader.get_by_ids`; of two rows with one identifier the later stays. -/
def getByIds (rows : List Transaction) (ids : List UUID) (userId : UUID) : List Transaction :=
  if ids = [] then []
  else
    let selected := rows.filter fun tx => decide (tx.userId = userId) && decide (tx.id_ ∈ ids)
    ids.filterMap fun id => selected.reverse.find? fun tx => tx.id_ = id

/-- `ids[:limit]` -/
def firstIds (ids : List UUID) (limit : Int) : List UUID :=
  ids.take (if 0 ≤ limit then limit else ids.length + limit).toNat

structure Setting where
  platform : Platform
  folding : Folding
  ttl : Nat
  rows : Table Transaction.id_

/-- A request: when it comes, and which cached entries were lost since the one before. -/
structure SearchRequest where
  userId : UUID
  query : Text
  limit : Int
  now : Nat
  lost : List Text

variable (setting : Setting)

def uncached (request : SearchRequest) : Except SearchError (List Transaction) :=
  search setting.folding setting.rows.rows request.userId request.query request.limit

def cachedIds (keys : Keys Text Text) (request : SearchRequest) :
    Except SearchError (Option (List UUID)) :=
  RedisSearchCache.get setting.platform (keys.delete request.lost) request.now request.userId
    request.query

/-- `SearchTransactionsUseCase.__call__`: the answer, and the cache behind it. -/
def call (keys : Keys Text Text) (request : SearchRequest) :
    Except SearchError (List Transaction) × Keys Text Text :=
  let kept := keys.delete request.lost
  match cachedIds setting keys request with
  | .error error => (.error error, kept)
  | .ok (some ids) =>
      (.ok (getByIds setting.rows.rows (firstIds ids request.limit) request.userId), kept)
  | .ok none =>
      match uncached setting request with
      | .error error => (.error error, kept)
      | .ok transactions =>
          match RedisSearchCache.set setting.platform setting.ttl kept request.now request.userId
              request.query (transactions.map Transaction.id_) with
          | .error error => (.error error, kept)
          | .ok filled => (.ok transactions, filled)

/-- Each request is answered with the transactions that the search gives. -/
def Transparent : Keys Text Text → List SearchRequest → Prop
  | _, [] => True
  | keys, request :: later =>
      (call setting keys request).1.toOption = (uncached setting request).toOption ∧
        Transparent (call setting keys request).2 later

/-- A request that is served from the cache has a limit that the search takes, and the entry holds
that many identifiers, or one for each transaction that holds the text. -/
def CoveredRequest (keys : Keys Text Text) (request : SearchRequest) : Prop :=
  ∀ ids, cachedIds setting keys request = .ok (some ids) →
    LimitInRange request.limit ∧ (request.limit ≤ ids.length ∨
      (holding setting.folding setting.rows.rows request.userId request.query).length ≤ ids.length)

def CoveredRun : Keys Text Text → List SearchRequest → Prop
  | _, [] => True
  | keys, request :: later =>
      CoveredRequest setting keys request ∧ CoveredRun (call setting keys request).2 later

/-- No two texts of the requests have one digest. -/
def Distinct (platform : Platform) (requests : List SearchRequest) : Prop :=
  ∀ one ∈ requests, ∀ two ∈ requests, Scalars one.query → Scalars two.query →
    platform.hexdigest (encode one.query) = platform.hexdigest (encode two.query) →
      one.query = two.query

/-! What is cached comes back. -/

theorem cache_key_injective {platform : Platform} {one two : UUID} {first second : Bytes}
    (same : cacheKey platform one first = cacheKey platform two second) :
    one = two ∧ platform.hexdigest first = platform.hexdigest second := by
  have behind := List.append_cancel_left same
  obtain ⟨ids, digests⟩ := List.append_inj behind (by rw [one.str_length, two.str_length])
  exact ⟨UUID.str_injective ids, (List.cons.inj digests).2⟩

theorem read_ids_dumps (platform : Platform) (ids : List UUID) :
    readIds platform (dumpsStrings (ids.map UUID.str)) = some ids := by
  have scalars : ∀ item ∈ ids.map UUID.str, Scalars item := by
    intro item inside
    obtain ⟨id, _, rfl⟩ := List.mem_map.mp inside
    exact id.str_ascii.scalars
  have deep : (Dialect.python platform.recursionLimit).maxDepth ≠ some 0 := fun zero =>
    platform.positive (Option.some.inj zero)
  rw [readIds, loads_dumps_strings scalars deep]
  dsimp only
  induction ids with
  | nil => rfl
  | cons id ids ih =>
      have others := ih fun item inside => scalars item (by simp [inside])
      simp only [List.map_cons, List.mapM_cons, UUID.of_text_str, others]
      rfl

theorem filter_map_ids {rows : List Transaction} {find : UUID → Option Transaction}
    (found : ∀ tx ∈ rows, find tx.id_ = some tx) :
    (rows.map Transaction.id_).filterMap find = rows := by
  induction rows with
  | nil => rfl
  | cons tx rows ih =>
      obtain ⟨first, others⟩ := List.forall_mem_cons.mp found
      rw [List.map_cons, List.filterMap_cons, first, ih others]

theorem get_by_ids_eq (table : Table Transaction.id_) {userId : UUID} {rows : List Transaction}
    (stored : ∀ tx ∈ rows, tx ∈ table.rows ∧ tx.userId = userId) :
    getByIds table.rows (rows.map Transaction.id_) userId = rows := by
  rw [getByIds]
  split
  · rename_i empty
    exact (List.map_eq_nil_iff.mp empty).symm
  · apply filter_map_ids
    intro tx inside
    obtain ⟨member, own⟩ := stored tx inside
    have selected : tx ∈ table.rows.filter fun other => decide (other.userId = userId) &&
        decide (other.id_ ∈ rows.map Transaction.id_) := by
      refine List.mem_filter.mpr ⟨member, ?_⟩
      simp only [own, decide_true, Bool.true_and, decide_eq_true_iff]
      exact List.mem_map_of_mem inside
    cases found : (table.rows.filter fun other => decide (other.userId = userId) &&
        decide (other.id_ ∈ rows.map Transaction.id_)).reverse.find? fun other =>
          other.id_ = tx.id_ with
    | none =>
        have absent := List.find?_eq_none.mp found tx (List.mem_reverse.mpr selected)
        simp at absent
    | some other =>
        have same : other.id_ = tx.id_ := by simpa using List.find?_some found
        have kept := List.mem_reverse.mp (List.mem_of_find?_eq_some found)
        exact congrArg some (List.inj_on_of_nodup_map table.unique
          (List.mem_of_mem_filter kept) member same)

/-! One request. -/

def ranked (request : SearchRequest) : List Transaction :=
  descending Transaction.latest
    (holding setting.folding setting.rows.rows request.userId request.query)

theorem ranked_length (request : SearchRequest) : (ranked setting request).length =
    (holding setting.folding setting.rows.rows request.userId request.query).length :=
  List.length_insertionSort _ _

theorem mem_ranked {request : SearchRequest} {tx : Transaction}
    (inside : tx ∈ ranked setting request) :
    tx ∈ setting.rows.rows ∧ tx.userId = request.userId := by
  obtain ⟨member, selected⟩ := List.mem_filter.mp ((List.mem_insertionSort _).mp inside)
  exact ⟨member, of_decide_eq_true (Bool.and_eq_true _ _ ▸ selected).1⟩

/-- Each entry for one of the requests was made by a search for its text, with some limit. -/
def Filled (requests : List SearchRequest) (keys : Keys Text Text) : Prop :=
  ∀ request ∈ requests, Scalars request.query → ∀ raw expiry,
    keys.entry (cacheKey setting.platform request.userId (encode request.query)) =
        some (raw, expiry) →
      Bindable request.query ∧ ∃ n, raw = dumpsStrings
        (((ranked setting request).take n).map fun tx => tx.id_.str)

variable {setting} {requests : List SearchRequest} {keys : Keys Text Text}
  {request : SearchRequest}

theorem filled_delete (filled : Filled setting requests keys) (lost : List Text) :
    Filled setting requests (keys.delete lost) := by
  intro request member scalars raw expiry found
  exact filled request member scalars raw expiry (Keys.entry_delete_eq_some.mp found).2

theorem filled_empty : Filled setting requests Keys.empty := by
  intro request _ _ raw expiry found
  cases found

theorem live_front (filled : Filled setting requests keys) (member : request ∈ requests)
    (scalars : Scalars request.query) {raw : Text}
    (live : (keys.delete request.lost).get request.now
      (cacheKey setting.platform request.userId (encode request.query)) = some raw) :
    Bindable request.query ∧ ∃ n, readIds setting.platform raw =
      some (((ranked setting request).take n).map Transaction.id_) := by
  obtain ⟨expiry, entry, _⟩ := Keys.get_eq_some.mp live
  obtain ⟨bindable, n, rfl⟩ := filled_delete filled request.lost request member scalars raw
    expiry entry
  have read := read_ids_dumps setting.platform
    (((ranked setting request).take n).map Transaction.id_)
  rw [List.map_map] at read
  exact ⟨bindable, n, read⟩

/-- What is served from the cache is a front of what the search gives. -/
theorem cached_front (filled : Filled setting requests keys) (member : request ∈ requests)
    {ids : List UUID} (cached : cachedIds setting keys request = .ok (some ids)) :
    Bindable request.query ∧ ∃ n, ids = ((ranked setting request).take n).map Transaction.id_ := by
  unfold cachedIds RedisSearchCache.get encodeStrict at cached
  by_cases scalars : Scalars request.query
  · rw [if_pos scalars] at cached
    dsimp only at cached
    split at cached
    · cases cached
    · rename_i raw live
      obtain ⟨bindable, n, read⟩ := live_front filled member scalars live
      rw [read] at cached
      cases cached
      exact ⟨bindable, n, rfl⟩
  · rw [if_neg scalars] at cached
    cases cached

theorem uncached_eq (setting : Setting) (request : SearchRequest) :
    uncached setting request =
      if Bindable request.query ∧ LimitInRange request.limit then
        .ok ((ranked setting request).take request.limit.toNat)
      else .error .StorageError :=
  search_eq setting.folding setting.rows.rows request.userId request.query request.limit

theorem call_cached (filled : Filled setting requests keys) (member : request ∈ requests)
    {ids : List UUID} (cached : cachedIds setting keys request = .ok (some ids)) :
    ∃ n, ids.length = ((ranked setting request).take n).length ∧
      (0 ≤ request.limit → (call setting keys request).1 =
        .ok (((ranked setting request).take n).take request.limit.toNat)) := by
  obtain ⟨_, n, rfl⟩ := cached_front filled member cached
  refine ⟨n, List.length_map _, ?_⟩
  intro positive
  have stored : ∀ tx ∈ ((ranked setting request).take n).take request.limit.toNat,
      tx ∈ setting.rows.rows ∧ tx.userId = request.userId := fun tx inside =>
    mem_ranked setting (List.mem_of_mem_take (List.mem_of_mem_take inside))
  have answer := get_by_ids_eq setting.rows stored
  rw [call, cached]
  simp only [firstIds, if_pos positive, ← List.map_take, answer]

theorem take_take_eq {α : Type} {items : List α} {asked filled : Nat} :
    (items.take filled).take asked = items.take asked ↔
      asked ≤ (items.take filled).length ∨ items.length ≤ (items.take filled).length := by
  constructor
  · intro same
    have lengths := congrArg List.length same
    simp only [List.length_take] at lengths ⊢
    omega
  · intro long
    rw [List.length_take] at long
    rw [List.take_take]
    rcases Nat.lt_or_ge filled asked with more | fewer
    · rw [Nat.min_eq_right (Nat.le_of_lt more), List.take_of_length_le (by omega),
        List.take_of_length_le (by omega)]
    · rw [Nat.min_eq_left fewer]

theorem cached_error (filled : Filled setting requests keys) (member : request ∈ requests)
    {error : SearchError} (failed : cachedIds setting keys request = .error error) :
    ¬ Scalars request.query := by
  intro scalars
  unfold cachedIds RedisSearchCache.get encodeStrict at failed
  rw [if_pos scalars] at failed
  dsimp only at failed
  split at failed
  · cases failed
  · rename_i raw live
    obtain ⟨_, n, read⟩ := live_front filled member scalars live
    rw [read] at failed
    cases failed

theorem cached_scalars {found : Option (List UUID)}
    (cached : cachedIds setting keys request = .ok found) : Scalars request.query := by
  by_contra invalid
  unfold cachedIds RedisSearchCache.get encodeStrict at cached
  rw [if_neg invalid] at cached
  cases cached

theorem call_missed (missed : cachedIds setting keys request = .ok none) :
    call setting keys request =
      match uncached setting request with
      | .error error => (.error error, keys.delete request.lost)
      | .ok transactions =>
          (.ok transactions, (keys.delete request.lost).set
            (cacheKey setting.platform request.userId (encode request.query))
            (dumpsStrings (transactions.map fun tx => tx.id_.str)) (request.now + setting.ttl)) := by
  have scalars := cached_scalars missed
  rw [call, missed]
  dsimp only
  cases uncached setting request with
  | error error => rfl
  | ok transactions =>
      dsimp only
      rw [RedisSearchCache.set, encodeStrict, if_pos scalars, List.map_map]
      rfl

theorem request_transparent_iff (filled : Filled setting requests keys)
    (member : request ∈ requests) :
    (call setting keys request).1.toOption = (uncached setting request).toOption ↔
      CoveredRequest setting keys request := by
  cases cached : cachedIds setting keys request with
  | error error =>
      have invalid := cached_error filled member cached
      have unbindable : ¬ (Bindable request.query ∧ LimitInRange request.limit) := fun limits =>
        invalid fun c inside => (limits.1 c inside).2
      rw [call, cached, uncached_eq, if_neg unbindable]
      refine iff_of_true rfl fun ids other => ?_
      rw [cached] at other
      cases other
  | ok found =>
      cases found with
      | none =>
          have same : (call setting keys request).1 = uncached setting request := by
            rw [call_missed cached]
            cases uncached setting request <;> rfl
          refine iff_of_true (congrArg Except.toOption same) fun ids other => ?_
          rw [cached] at other
          cases other
      | some ids =>
          obtain ⟨n, lengths, answer⟩ := call_cached filled member cached
          obtain ⟨bindable, _⟩ := cached_front filled member cached
          by_cases limit : LimitInRange request.limit
          · have covered : CoveredRequest setting keys request ↔
                request.limit.toNat ≤ ((ranked setting request).take n).length ∨
                  (ranked setting request).length ≤ ((ranked setting request).take n).length := by
              have positive := limit.1
              rw [ranked_length, ← lengths]
              constructor
              · intro covered
                obtain ⟨_, long⟩ := covered ids cached
                omega
              · intro long other same
                rw [cached] at same
                cases same
                exact ⟨limit, by omega⟩
            rw [covered, answer limit.1, uncached_eq, if_pos ⟨bindable, limit⟩, ← take_take_eq]
            exact ⟨fun same => Option.some.inj same, fun same => congrArg some same⟩
          · have refused : ¬ (Bindable request.query ∧ LimitInRange request.limit) := fun limits =>
              limit limits.2
            rw [uncached_eq, if_neg refused, call, cached]
            exact iff_of_false nofun fun covered => limit (covered ids cached).1

theorem filled_call (distinct : Distinct setting.platform requests)
    (filled : Filled setting requests keys) (member : request ∈ requests) :
    Filled setting requests (call setting keys request).2 := by
  have kept := filled_delete filled request.lost
  cases cached : cachedIds setting keys request with
  | error error =>
      rw [call, cached]
      exact kept
  | ok found =>
      cases found with
      | some ids =>
          rw [call, cached]
          exact kept
      | none =>
          rw [call_missed cached, uncached_eq]
          by_cases limits : Bindable request.query ∧ LimitInRange request.limit
          · rw [if_pos limits]
            intro other inside scalars raw expiry found
            rw [Keys.entry_set] at found
            split at found
            · rename_i same
              obtain ⟨user, digest⟩ := cache_key_injective same
              have query := distinct other inside request member scalars (cached_scalars cached)
                digest
              have rank : ranked setting other = ranked setting request := by
                rw [ranked, ranked, user, query]
              cases found
              rw [query, rank]
              exact ⟨limits.1, request.limit.toNat, rfl⟩
            · exact kept other inside scalars raw expiry found
          · rw [if_neg limits]
            exact kept

theorem run_transparent_iff (distinct : Distinct setting.platform requests)
    (filled : Filled setting requests keys) {run : List SearchRequest}
    (members : ∀ request ∈ run, request ∈ requests) :
    Transparent setting keys run ↔ CoveredRun setting keys run := by
  induction run generalizing keys with
  | nil => exact Iff.rfl
  | cons request later ih =>
      obtain ⟨member, others⟩ := List.forall_mem_cons.mp members
      rw [Transparent, CoveredRun, request_transparent_iff filled member,
        ih (filled_call distinct filled member) others]

/-- The search answers through the cache as without it, in every run from an empty cache, exactly
when no request that the cache serves asks for more than the entry holds, unless the entry holds all
there is. -/
theorem search_cache_transparent_iff (setting : Setting) (requests : List SearchRequest)
    (distinct : Distinct setting.platform requests) :
    Transparent setting Keys.empty requests ↔ CoveredRun setting Keys.empty requests :=
  run_transparent_iff distinct filled_empty fun _ inside => inside

theorem recursion_allowed : 1000 ≠ 0 := Nat.succ_ne_zero 999

theorem other_id_bounded : 1 < 340282366920938463463374607431768211456 := by decide

/-- A setting with two transactions that hold `coffee`, which is the only text that is asked for. -/
def twoCoffees : Setting where
  platform := ⟨fun _ => text "37290d74ac4d186e3a8e5785d259d2ec04fac91ae28092e7620ec8bc99e830aa",
    1000, recursion_allowed⟩
  folding := .ascii
  ttl := 3600
  rows := ⟨[noted (text "Coffee"), { noted (text "coffee") with id_ := ⟨1, other_id_bounded⟩ }],
    by decide⟩

def coffee (limit : Int) (now : Nat) : SearchRequest :=
  ⟨.nil, text "coffee", limit, now, []⟩

theorem search_cache_transparent_coffees :
    Transparent twoCoffees Keys.empty [coffee 20 0, coffee 1 5, coffee 20 9000] ↔
      CoveredRun twoCoffees Keys.empty [coffee 20 0, coffee 1 5, coffee 20 9000] :=
  search_cache_transparent_iff twoCoffees _ (by
    intro one inside two member _ _ _
    simp only [List.mem_cons, List.not_mem_nil, or_false] at inside member
    rcases inside with rfl | rfl | rfl <;> rcases member with rfl | rfl | rfl <;> rfl)

/-- The second request for a text gets one transaction of two, as the first one asked for one. -/
theorem not_search_cache_transparent : ¬ ∀ (setting : Setting) (requests : List SearchRequest),
    Distinct setting.platform requests → Transparent setting Keys.empty requests := by
  intro transparent
  have distinct : Distinct twoCoffees.platform [coffee 1 0, coffee 20 5] := by
    intro one inside two member _ _ _
    simp only [List.mem_cons, List.not_mem_nil, or_false] at inside member
    rcases inside with rfl | rfl <;> rcases member with rfl | rfl <;> rfl
  have second := (transparent twoCoffees [coffee 1 0, coffee 20 5] distinct).2.1
  have lengths := congrArg (Option.map List.length) second
  have served : (call twoCoffees (call twoCoffees Keys.empty (coffee 1 0)).2
      (coffee 20 5)).1.toOption.map List.length = some 1 := by decide +kernel
  have found : (uncached twoCoffees (coffee 20 5)).toOption.map List.length = some 2 := by
    decide +kernel
  rw [served, found] at lengths
  cases lengths

end Yomochi.Search
