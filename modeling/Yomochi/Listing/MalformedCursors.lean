import Yomochi.Foundation.PyDateTime
import Yomochi.Listing.Timelines
import Yomochi.Listing.Transactions

/-! What the four lists make of any text that is given as a cursor. -/

namespace Yomochi.Listing

open Foundation

def toPyDateTime : Json → Except ListError PyDateTime
  | .string source => (PyDateTime.fromIsoformat source).elim (.error .ValueError) .ok
  | _ => .error .TypeError

def readItem {α : Type} (read : Json → Except ListError α) (raw : Json) (name : Text) :
    Except ListError α :=
  (item raw name).bind read

inductive UseCase
  | ListTransactionsUseCase
  | ListInsightsUseCase
  | ListAlertsUseCase
  | ListAuditEventsUseCase
  deriving DecidableEq, Repr

inductive Key
  | transactions (date : Date) (createdAt : PyDateTime) (id : UUID)
  | insights (createdAt : PyDateTime) (id : UUID)
  | alerts (createdAt : PyDateTime) (id : UUID)
  | auditEvents (occurredAt : PyDateTime) (id : Json)

def readTransactionsKey (platform : Platform) (cursor : Text) : Except ListError Key := do
  let raw ← decodeCursor platform cursor
  let date ← readItem toDate raw (text "date")
  let createdAt ← readItem toPyDateTime raw (text "created_at")
  let id ← readItem toUUID raw (text "id")
  .ok (.transactions date createdAt id)

def readInsightsKey (platform : Platform) (cursor : Text) : Except ListError Key := do
  let raw ← decodeCursor platform cursor
  let createdAt ← readItem toPyDateTime raw (text "created_at")
  let id ← readItem toUUID raw (text "id")
  .ok (.insights createdAt id)

def readAlertsKey (platform : Platform) (cursor : Text) : Except ListError Key := do
  let raw ← decodeCursor platform cursor
  let createdAt ← readItem toPyDateTime raw (text "created_at")
  let id ← readItem toUUID raw (text "id")
  .ok (.alerts createdAt id)

/-- The identifier is taken as it is. -/
def readAuditEventsKey (platform : Platform) (cursor : Text) : Except ListError Key := do
  let raw ← decodeCursor platform cursor
  let occurredAt ← readItem toPyDateTime raw (text "occurred_at")
  let id ← item raw (text "id")
  .ok (.auditEvents occurredAt id)

/-- The key of a request; only the list of transactions turns every error into that of the
cursor. -/
def UseCase.decode (platform : Platform) (cursor : Text) : UseCase → Except ListError Key
  | .ListTransactionsUseCase =>
      (readTransactionsKey platform cursor).mapError fun _ => .InvalidCursorError
  | .ListInsightsUseCase => readInsightsKey platform cursor
  | .ListAlertsUseCase => readAlertsKey platform cursor
  | .ListAuditEventsUseCase => readAuditEventsKey platform cursor

def UseCase.key (platform : Platform) (useCase : UseCase) (cursor : Option Text) :
    Except ListError (Option Key) :=
  givenCursor (fun cursor => useCase.decode platform cursor) cursor

/-- As what the identifier of an audit event counts: `list_by_user` declares a text, and the
column holds a UUID. -/
inductive AuditId
  | str
  | uuid
  deriving DecidableEq, Repr

def AuditId.accepts : AuditId → Text → Bool
  | .str, _ => true
  | .uuid, source => (UUID.ofText source).isSome

def Key.wellTyped (auditId : AuditId) : Key → Bool
  | .transactions _ createdAt _ => createdAt.isAware
  | .insights createdAt _ => createdAt.isAware
  | .alerts createdAt _ => createdAt.isAware
  | .auditEvents occurredAt (.string id) => occurredAt.isAware && auditId.accepts id
  | .auditEvents _ _ => false

def Sound (auditId : AuditId) : Except ListError (Option Key) → Prop
  | .ok none => True
  | .ok (some key) => key.wellTyped auditId
  | .error failure => failure = .InvalidCursorError

/-! What a payload holds. -/

def textAt (payload : Json) (name : Text) : Option Text :=
  match item payload name with
  | .ok (.string source) => some source
  | _ => none

def timeAt (payload : Json) (name : Text) : Option PyDateTime :=
  (textAt payload name).bind PyDateTime.fromIsoformat

def dateAt (payload : Json) (name : Text) : Option Date :=
  (textAt payload name).bind Date.fromIsoformat

def uuidAt (payload : Json) (name : Text) : Option UUID :=
  (textAt payload name).bind UUID.ofText

/-- A naive time must not come with two good fields into the list of transactions; the others
need both of their fields, and a time that is aware. -/
def UseCase.admits (auditId : AuditId) (payload : Json) : UseCase → Bool
  | .ListTransactionsUseCase =>
      !((dateAt payload (text "date")).isSome && (uuidAt payload (text "id")).isSome &&
        (timeAt payload (text "created_at")).any fun time => !time.isAware)
  | .ListInsightsUseCase | .ListAlertsUseCase =>
      (timeAt payload (text "created_at")).any PyDateTime.isAware &&
        (uuidAt payload (text "id")).isSome
  | .ListAuditEventsUseCase =>
      (timeAt payload (text "occurred_at")).any PyDateTime.isAware &&
        (textAt payload (text "id")).any auditId.accepts

/-- No payload is read from the cursor, or one that the use case can do with. -/
def Covered (platform : Platform) (auditId : AuditId) (useCase : UseCase) (cursor : Text) : Prop :=
  cursor = [] ∨ ∀ payload, decodeCursor platform cursor = .ok payload →
    useCase.admits auditId payload

/-- A reading that takes texts, and whose errors are not those of the cursor. -/
structure Reads {α : Type} (read : Json → Except ListError α) (parse : Text → Option α) : Prop where
  string : ∀ source, read (.string source) = (parse source).elim (.error .ValueError) .ok
  other : ∀ value, (∀ source, value ≠ .string source) →
    ∃ failure, read value = .error failure ∧ failure ≠ .InvalidCursorError

theorem reads_date : Reads toDate Date.fromIsoformat where
  string _ := rfl
  other value other := by
    cases value with
    | string source => exact absurd rfl (other source)
    | _ => exact ⟨_, rfl, nofun⟩

theorem reads_time : Reads toPyDateTime PyDateTime.fromIsoformat where
  string _ := rfl
  other value other := by
    cases value with
    | string source => exact absurd rfl (other source)
    | _ => exact ⟨_, rfl, nofun⟩

theorem reads_uuid : Reads toUUID UUID.ofText where
  string _ := rfl
  other value other := by
    cases value with
    | string source => exact absurd rfl (other source)
    | _ => exact ⟨_, rfl, nofun⟩

theorem item_error {raw : Json} {name : Text} {failure : ListError}
    (failed : item raw name = .error failure) : failure ≠ .InvalidCursorError := by
  cases raw with
  | object members =>
      simp only [item] at failed
      cases found : memberOf members name with
      | none =>
          rw [found] at failed
          cases failed
          exact nofun
      | some value =>
          rw [found] at failed
          cases failed
  | _ =>
      cases failed
      exact nofun

section Items

variable {α : Type} {read : Json → Except ListError α} {parse : Text → Option α}

theorem Reads.found (reads : Reads read parse) {raw : Json} {name : Text} {value : α}
    (held : (textAt raw name).bind parse = some value) : readItem read raw name = .ok value := by
  obtain ⟨source, given, parsed⟩ := Option.bind_eq_some_iff.mp held
  have found : item raw name = .ok (.string source) := by
    unfold textAt at given
    split at given
    · rename_i found
      cases given
      exact found
    · cases given
  rw [readItem, found]
  exact (reads.string source).trans (by rw [parsed]; rfl)

theorem Reads.missing (reads : Reads read parse) {raw : Json} {name : Text}
    (absent : (textAt raw name).bind parse = none) :
    ∃ failure, readItem read raw name = .error failure ∧ failure ≠ .InvalidCursorError := by
  cases found : item raw name with
  | error failure =>
      exact ⟨failure, by rw [readItem, found]; rfl, item_error found⟩
  | ok value =>
      have passed : readItem read raw name = read value := by
        rw [readItem, found]
        rfl
      rw [passed]
      by_cases string : ∃ source, value = .string source
      · obtain ⟨source, rfl⟩ := string
        rw [textAt, found] at absent
        have unread : parse source = none := absent
        exact ⟨.ValueError, by rw [reads.string, unread]; rfl, nofun⟩
      · exact reads.other value fun source same => string ⟨source, same⟩

end Items

variable {auditId : AuditId}

/-! The cursors that the lists write themselves. -/

def UseCase.timeName : UseCase → Text
  | .ListAuditEventsUseCase => text "occurred_at"
  | _ => text "created_at"

/-- A time of UTC and an identifier, as the lists write them, are all that any of them needs. -/
theorem admits_written {useCase : UseCase} {payload : Json} {time : DateTime} {id : UUID}
    (moment : item payload useCase.timeName = .ok (.string time.isoformat))
    (identifier : item payload (text "id") = .ok (.string id.str)) :
    useCase.admits auditId payload = true := by
  have aware : timeAt payload useCase.timeName = some (.ofUtc time) := by
    rw [timeAt, textAt, moment, Option.bind_some, PyDateTime.from_isoformat_isoformat]
  have named : textAt payload (text "id") = some id.str := by rw [textAt, identifier]
  have uuid : uuidAt payload (text "id") = some id := by
    rw [uuidAt, named, Option.bind_some, UUID.of_text_str]
  have accepted : auditId.accepts id.str = true := by
    cases auditId with
    | str => rfl
    | uuid => rw [AuditId.accepts, UUID.of_text_str]; rfl
  cases useCase <;>
    simp only [UseCase.timeName] at aware <;>
    simp [UseCase.admits, aware, uuid, named, accepted, PyDateTime.ofUtc, PyDateTime.isAware]

theorem covered_of_admits {platform : Platform} {useCase : UseCase} {cursor : Text} {payload : Json}
    (decoded : decodeCursor platform cursor = .ok payload)
    (admitted : useCase.admits auditId payload = true) :
    Covered platform auditId useCase cursor := by
  refine .inr fun other read => ?_
  rw [decoded] at read
  cases read
  exact admitted

theorem own_cursors_covered (platform : Platform) (auditId : AuditId) :
    (∀ tx, Covered platform auditId .ListTransactionsUseCase (ListTransactions.encodeCursor tx)) ∧
    (∀ insight, Covered platform auditId .ListInsightsUseCase
      (ListInsights.encodeCursor insight)) ∧
    (∀ alert, Covered platform auditId .ListAlertsUseCase (ListAlerts.encodeCursor alert)) ∧
    ∀ event, Covered platform auditId .ListAuditEventsUseCase
      (ListAuditEvents.encodeCursor event) := by
  have createdAt := decode_moment platform (by decide : Ascii (text "created_at"))
  have occurredAt := decode_moment platform (by decide : Ascii (text "occurred_at"))
  exact ⟨fun _ =>
      covered_of_admits (ListTransactions.decode_payload platform _) (admits_written rfl rfl),
    fun _ => covered_of_admits (createdAt _) (admits_written rfl rfl),
    fun _ => covered_of_admits (createdAt _) (admits_written rfl rfl),
    fun _ => covered_of_admits (occurredAt _) (admits_written rfl rfl)⟩

/-! What is read from a payload. -/

theorem not_sound {result : Except ListError (Option Key)}
    (failed : ∃ failure, result = .error failure ∧ failure ≠ .InvalidCursorError) :
    ¬ Sound auditId result := by
  obtain ⟨failure, rfl, other⟩ := failed
  exact other

/-- The lists of insights and alerts: a time, then an identifier. -/
theorem moment_sound {make : PyDateTime → UUID → Key}
    (typed : ∀ time id, (make time id).wellTyped auditId = time.isAware) (payload : Json) :
    Sound auditId ((readItem toPyDateTime payload (text "created_at")).bind fun createdAt =>
        (readItem toUUID payload (text "id")).bind fun id => .ok (some (make createdAt id))) ↔
      ((timeAt payload (text "created_at")).any PyDateTime.isAware &&
        (uuidAt payload (text "id")).isSome) = true := by
  cases time : timeAt payload (text "created_at") with
  | none =>
      obtain ⟨failure, read, other⟩ := reads_time.missing time
      refine iff_of_false (not_sound ⟨failure, ?_, other⟩) (by simp)
      rw [read]
      rfl
  | some createdAt =>
      rw [reads_time.found time, Except.bind]
      cases id : uuidAt payload (text "id") with
      | none =>
          obtain ⟨failure, read, other⟩ := reads_uuid.missing id
          refine iff_of_false (not_sound ⟨failure, ?_, other⟩) (by simp)
          rw [read]
          rfl
      | some found =>
          rw [reads_uuid.found id, Except.bind, Sound, typed]
          simp

theorem audit_sound (payload : Json) :
    Sound auditId ((readItem toPyDateTime payload (text "occurred_at")).bind fun occurredAt =>
        (item payload (text "id")).bind fun id => .ok (some (.auditEvents occurredAt id))) ↔
      ((timeAt payload (text "occurred_at")).any PyDateTime.isAware &&
        (textAt payload (text "id")).any auditId.accepts) = true := by
  cases time : timeAt payload (text "occurred_at") with
  | none =>
      obtain ⟨failure, read, other⟩ := reads_time.missing time
      refine iff_of_false (not_sound ⟨failure, ?_, other⟩) (by simp)
      rw [read]
      rfl
  | some occurredAt =>
      rw [reads_time.found time, Except.bind]
      cases found : item payload (text "id") with
      | error failure =>
          refine iff_of_false (not_sound ⟨failure, rfl, item_error found⟩) ?_
          simp [textAt, found]
      | ok id =>
          rw [Except.bind, Sound]
          cases id <;> simp [textAt, found, Key.wellTyped]

/-- Whatever is raised behind the decoder becomes the error of the cursor: what is left is a naive
time. -/
theorem transactions_sound (payload : Json) :
    Sound auditId (Except.map some (Except.mapError (fun _ => ListError.InvalidCursorError)
      ((readItem toDate payload (text "date")).bind fun date =>
        (readItem toPyDateTime payload (text "created_at")).bind fun createdAt =>
          (readItem toUUID payload (text "id")).bind fun id =>
            .ok (.transactions date createdAt id)))) ↔
      UseCase.ListTransactionsUseCase.admits auditId payload = true := by
  cases date : dateAt payload (text "date") with
  | none =>
      obtain ⟨failure, read, _⟩ := reads_date.missing date
      rw [read]
      exact iff_of_true rfl (by simp [UseCase.admits, date])
  | some day =>
      rw [reads_date.found date, Except.bind]
      cases time : timeAt payload (text "created_at") with
      | none =>
          obtain ⟨failure, read, _⟩ := reads_time.missing time
          rw [read]
          exact iff_of_true rfl (by simp [UseCase.admits, time])
      | some createdAt =>
          rw [reads_time.found time, Except.bind]
          cases id : uuidAt payload (text "id") with
          | none =>
              obtain ⟨failure, read, _⟩ := reads_uuid.missing id
              rw [read]
              exact iff_of_true rfl (by simp [UseCase.admits, id])
          | some found =>
              rw [reads_uuid.found id]
              change createdAt.isAware = true ↔ _
              simp [UseCase.admits, date, time, id]

theorem map_bind {α β γ : Type} (result : Except ListError α) (next : α → Except ListError β)
    (apply : β → γ) :
    (result.bind next).map apply = result.bind fun value => (next value).map apply := by
  cases result <;> rfl

theorem sound_of_payload {platform : Platform} {cursor : Text} {payload : Json}
    (decoded : decodeCursor platform cursor = .ok payload) (useCase : UseCase) :
    Sound auditId ((useCase.decode platform cursor).map some) ↔
      useCase.admits auditId payload = true := by
  cases useCase with
  | ListTransactionsUseCase =>
      rw [← transactions_sound, UseCase.decode, readTransactionsKey, decoded]
      rfl
  | ListInsightsUseCase =>
      rw [UseCase.decode, readInsightsKey, decoded]
      simp only [bind, map_bind]
      exact moment_sound (fun _ _ => rfl) payload
  | ListAlertsUseCase =>
      rw [UseCase.decode, readAlertsKey, decoded]
      simp only [bind, map_bind]
      exact moment_sound (fun _ _ => rfl) payload
  | ListAuditEventsUseCase =>
      rw [UseCase.decode, readAuditEventsKey, decoded]
      simp only [bind, map_bind]
      exact audit_sound payload

theorem decode_failed {platform : Platform} {cursor : Text} {failure : ListError}
    (failed : decodeCursor platform cursor = .error failure) (useCase : UseCase) :
    useCase.decode platform cursor = .error .InvalidCursorError := by
  have invalid : failure = .InvalidCursorError := by
    unfold decodeCursor at failed
    split at failed
    · cases failed
      rfl
    · split at failed
      · cases failed
      · cases failed
        rfl
  subst invalid
  cases useCase with
  | ListTransactionsUseCase =>
      rw [UseCase.decode, readTransactionsKey, failed]
      rfl
  | ListInsightsUseCase =>
      rw [UseCase.decode, readInsightsKey, failed]
      rfl
  | ListAlertsUseCase =>
      rw [UseCase.decode, readAlertsKey, failed]
      rfl
  | ListAuditEventsUseCase =>
      rw [UseCase.decode, readAuditEventsKey, failed]
      rfl

/-- Every text that is given as a cursor is read, or is an error of the client, exactly when it is
empty, holds no payload at all, or holds one that the use case can do with. -/
theorem malformed_cursor_iff (platform : Platform) (auditId : AuditId) (useCase : UseCase)
    (cursor : Text) :
    Sound auditId (useCase.key platform (some cursor)) ↔
      Covered platform auditId useCase cursor := by
  by_cases empty : cursor = []
  · subst empty
    exact iff_of_true trivial (.inl rfl)
  · rw [UseCase.key, given_cursor _ empty]
    cases decoded : decodeCursor platform cursor with
    | error failure =>
        rw [decode_failed decoded]
        refine iff_of_true rfl (.inr fun payload read => ?_)
        rw [decoded] at read
        cases read
    | ok payload =>
        rw [sound_of_payload decoded]
        constructor
        · intro admitted
          exact covered_of_admits decoded admitted
        · intro covered
          exact (covered.resolve_left empty) payload decoded

/-- An object without members: its list of insights fails with a `KeyError`. -/
theorem not_malformed_cursor : ¬ ∀ (platform : Platform) (auditId : AuditId) (useCase : UseCase)
    (cursor : Text), Sound auditId (useCase.key platform (some cursor)) := by
  intro sound
  have key := sound .standard .str .ListInsightsUseCase (encodeCursor [])
  have decoded := @decode_encode_cursor .standard [] nofun
  rw [UseCase.key, given_cursor _ (encode_cursor_ne _), sound_of_payload decoded] at key
  exact absurd key (by decide)

end Yomochi.Listing
