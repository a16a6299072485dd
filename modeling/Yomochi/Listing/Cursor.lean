import Yomochi.Foundation.Base64
import Yomochi.Foundation.DateTime
import Yomochi.Foundation.JsonWriter
import Yomochi.Foundation.Keyset
import Yomochi.Foundation.Uuid

/-! The cursors of the lists: the key of a row as JSON in base64, and what is read from one. -/

namespace Yomochi.Listing

open Foundation

inductive ListError
  | InvalidCursorError
  | KeyError
  | TypeError
  | AttributeError
  | ValueError
  | IndexError
  | StorageError
  deriving DecidableEq, Repr

/-- What differs from one installation to the next: how deep `json.loads` goes, and the collation.
The texts of identifiers are ordered as the identifiers are. -/
structure Platform where
  recursionLimit : Nat
  positive : recursionLimit ≠ 0
  textLess : Text → Text → Bool
  agrees : ∀ one two : UUID, textLess one.str two.str = decide (one < two)

/-- The default recursion limit, and the order of code points. -/
def Platform.standard : Platform := ⟨1000, Nat.succ_ne_zero 999, textLt, UUID.text_lt_str⟩

def encodeCursor (payload : List (Text × Text)) : Text :=
  urlsafeB64encode
    (encode (dumpsObject (payload.map fun member => (member.1, .string member.2))))

def decodeCursor (platform : Platform) (raw : Text) : Except ListError Json :=
  match (encodeStrict raw).bind fun body => (urlsafeB64decode body).bind decodeStrict with
  | none => .error .InvalidCursorError
  | some source =>
      match loads (.python platform.recursionLimit) source with
      | .ok value => .ok value
      | .error _ => .error .InvalidCursorError

/-- `raw[name]`. -/
def item (raw : Json) (name : Text) : Except ListError Json :=
  match raw with
  | .object members =>
      match memberOf members name with
      | some value => .ok value
      | none => .error .KeyError
  | _ => .error .TypeError

def toDate : Json → Except ListError Date
  | .string source => (Date.fromIsoformat source).elim (.error .ValueError) .ok
  | _ => .error .TypeError

def toDateTime : Json → Except ListError DateTime
  | .string source => (DateTime.fromIsoformat source).elim (.error .ValueError) .ok
  | _ => .error .TypeError

def toUUID : Json → Except ListError UUID
  | .string source => (UUID.ofText source).elim (.error .ValueError) .ok
  | .null => .error .TypeError
  | _ => .error .AttributeError

def givenCursor {Cursor : Type} (decode : Text → Except ListError Cursor) :
    Option Text → Except ListError (Option Cursor)
  | none => .ok none
  | some [] => .ok none
  | some (c :: cursor) => (decode (c :: cursor)).map some

/-- `encode(rows[-1]) if more else None`. -/
def nextCursor {Row : Type} (encode : Row → Text) (more : Bool) (rows : List Row) :
    Except ListError (Option Text) :=
  if more then
    match rows.getLast? with
    | some row => .ok (some (encode row))
    | none => .error .IndexError
  else .ok none

theorem decode_encode_cursor (platform : Platform) {payload : List (Text × Text)}
    (ascii : ∀ member ∈ payload, Ascii member.1 ∧ Ascii member.2) :
    decodeCursor platform (encodeCursor payload) =
      .ok (.object (payload.map fun member => (member.1, .string member.2))) := by
  have writable : WritableMembers (.python platform.recursionLimit)
      (payload.map fun member => (member.1, .string member.2)) := by
    intro member inside
    obtain ⟨source, given, rfl⟩ := List.mem_map.mp inside
    obtain ⟨name, value⟩ := ascii source given
    exact ⟨code_points_of_scalars name.scalars, code_points_of_scalars value.scalars⟩
  have deep : (Dialect.python platform.recursionLimit).maxDepth ≠ some 0 := fun zero =>
    platform.positive (Option.some.inj zero)
  have body := (dumps_object_printable writable).ascii
  have read : readMembers (payload.map fun member => (member.1, .string member.2)) =
      payload.map fun member => (member.1, .string member.2) := by
    rw [readMembers, List.map_map]
    apply List.map_congr_left
    intro member given
    obtain ⟨name, value⟩ := ascii member given
    exact Prod.ext (read_units name.scalars) (congrArg Json.string (read_units value.scalars))
  have written := (urlsafe_b64encode_ascii (encode (dumpsObject
    (payload.map fun member => (member.1, .string member.2))))).scalars
  unfold decodeCursor encodeCursor
  rw [encodeStrict, if_pos written, Option.bind_some, urlsafe_b64decode_encode, Option.bind_some,
    decode_strict_encode body.scalars]
  dsimp only
  rw [loads_dumps writable deep, read]

theorem encode_cursor_ne (payload : List (Text × Text)) : encodeCursor payload ≠ [] := by
  intro empty
  have back := urlsafe_b64decode_encode
    (encode (dumpsObject (payload.map fun member => (member.1, .string member.2))))
  rw [encodeCursor] at empty
  rw [empty] at back
  have nothing := Option.some.inj back
  obtain ⟨inside, braces⟩ := dumps_object_braces
    (payload.map fun member => (member.1, JsonField.string member.2))
  rw [braces] at nothing
  cases nothing

theorem next_cursor {Row : Type} (encode : Row → Text) {more : Bool} {rows : List Row}
    (some : more = true → rows ≠ []) :
    nextCursor encode more rows = .ok (if more then rows.getLast?.map encode else none) := by
  unfold nextCursor
  cases more with
  | false => rfl
  | true =>
      have last := List.getLast?_eq_getLast_of_ne_nil (some rfl)
      simp [last]

section Pages

variable {Row Key : Type} [LinearOrder Key] {paging : Paging Row Key}

theorem next_cursor_full (exact : paging.lookahead = false) (positive : 0 < paging.limit)
    (write : Key → Text) (cursor : Option Key) (rows : List Row) :
    nextCursor (fun row => write (paging.key row))
        (decide ((paging.page cursor rows).1.length = paging.limit)) (paging.page cursor rows).1 =
      .ok ((paging.page cursor rows).2.map write) := by
  have some : decide ((paging.page cursor rows).1.length = paging.limit) = true →
      (paging.page cursor rows).1 ≠ [] := by
    intro full empty
    rw [empty, decide_eq_true_iff, List.length_nil] at full
    omega
  rw [next_cursor _ some, paging.page_full exact]
  by_cases full : (paging.page cursor rows).1.length = paging.limit
  · rw [if_pos (decide_eq_true full), if_pos full, Option.map_map]
    rfl
  · rw [if_neg (by simpa using full), if_neg full]
    rfl

end Pages

theorem given_cursor {Cursor : Type} (decode : Text → Except ListError Cursor) {cursor : Text}
    (some : cursor ≠ []) : givenCursor decode (.some cursor) = (decode cursor).map .some := by
  cases cursor with
  | nil => exact absurd rfl some
  | cons c rest => rfl

theorem given_written {Key : Type} {decode : Text → Except ListError Key} {write : Key → Text}
    (some : ∀ key, write key ≠ []) (reads : ∀ key, decode (write key) = .ok key)
    (cursor : Option Key) : givenCursor decode (cursor.map write) = .ok cursor := by
  cases cursor with
  | none => rfl
  | some key =>
      rw [Option.map_some, given_cursor _ (some key), reads]
      rfl

theorem to_date_isoformat (date : Date) : toDate (.string date.isoformat) = .ok date := by
  rw [toDate, Date.from_isoformat_isoformat]
  rfl

theorem to_date_time_isoformat (time : DateTime) :
    toDateTime (.string time.isoformat) = .ok time := by
  rw [toDateTime, DateTime.from_isoformat_isoformat]
  rfl

theorem to_uuid_str (id : UUID) : toUUID (.string id.str) = .ok id := by
  rw [toUUID, UUID.of_text_str]
  rfl

end Yomochi.Listing
