import Yomochi.Foundation.Json
import Yomochi.Foundation.Uuid

/-! `JwtCodec`: access tokens, and the keys that they are verified with while a key is replaced.
PyJWT is a parameter, with what its documentation says of it. -/

namespace Yomochi.Users.Jwt

open Foundation

abbrev Payload := List (Text × Json)

/-- What `jwt.encode` is given for a claim; points in time in microseconds. -/
inductive Claim
  | string (value : Text)
  | datetime (value : Int)
  deriving DecidableEq, Repr

def second : Int := 1000000

/-- Points in time are written in whole seconds. -/
def Claim.written : Claim → Json
  | .string value => .string value
  | .datetime value => .int (value / second)

def written (claims : List (Text × Claim)) : Payload :=
  claims.map fun claim => (claim.1, claim.2.written)

inductive JwtError
  | InvalidSignatureError
  | ExpiredSignatureError
  | ImmatureSignatureError
  | InvalidAudienceError
  | InvalidAlgorithmError
  | MissingRequiredClaimError
  | DecodeError
  deriving DecidableEq, Repr

structure PyJwt (Token : Type) where
  encode : List (Text × Claim) → (key algorithm : Text) → Token
  decode : Token → (key : Text) → (algorithms require : List Text) → (now : Int) →
    Except JwtError Payload

/-! The codec. -/

def sessionIdClaim : Text := text "sid"
def userIdClaim : Text := text "uid"
def expirationClaim : Text := text "exp"

def required : List Text := [sessionIdClaim, userIdClaim, expirationClaim]

structure Session where
  id_ : UUID
  userId : UUID
  expiresAt : Int

structure JwtCodec where
  signingKey : Text
  algorithm : Text
  verificationKeys : List Text
  deriving DecidableEq

namespace JwtCodec

def new (signingKey algorithm : Text) (verificationKeys : List Text) : JwtCodec :=
  ⟨signingKey, algorithm, signingKey :: verificationKeys⟩

variable {Token : Type} (jwt : PyJwt Token)

def encode (codec : JwtCodec) (session : Session) : Token :=
  jwt.encode [(sessionIdClaim, .string session.id_.str), (userIdClaim, .string session.userId.str),
    (expirationClaim, .datetime session.expiresAt)] codec.signingKey codec.algorithm

/-- The loop over the keys: only a signature that does not fit leads to the next one. -/
def payloadOf (algorithm : Text) (token : Token) (now : Int) : List Text → Option Payload
  | [] => none
  | key :: keys =>
      match jwt.decode token key [algorithm] required now with
      | .ok payload => some payload
      | .error .InvalidSignatureError => payloadOf algorithm token now keys
      | .error _ => none

end JwtCodec

inductive ClaimError
  | KeyError
  | ValueError
  | TypeError
  | AttributeError
  deriving DecidableEq, Repr

/-- `UUID(payload[name])` -/
def claimUuid (payload : Payload) (name : Text) : Except ClaimError UUID :=
  match memberOf payload name with
  | none => .error .KeyError
  | some (.string source) => (UUID.ofText source).elim (.error .ValueError) .ok
  | some .null => .error .TypeError
  | some _ => .error .AttributeError

def identity (payload : Payload) : Except ClaimError (UUID × UUID) := do
  let userId ← claimUuid payload userIdClaim
  let sessionId ← claimUuid payload sessionIdClaim
  .ok (userId, sessionId)

/-- `decode`; an error is one that the codec does not catch. -/
def JwtCodec.decode {Token : Type} (jwt : PyJwt Token) (codec : JwtCodec) (token : Token)
    (now : Int) : Except ClaimError (Option (UUID × UUID)) :=
  match payloadOf jwt codec.algorithm token now codec.verificationKeys with
  | none => .ok none
  | some payload =>
      match identity payload with
      | .ok ids => .ok (some ids)
      | .error .ValueError => .ok none
      | .error .KeyError => .ok none
      | .error error => .error error

/-! What is relied on. -/

/-- A claim with a value other than `null` counts as present. -/
def given (payload : Payload) (name : Text) : Bool :=
  match memberOf payload name with
  | none => false
  | some .null => false
  | some _ => true

/-- `int(…)` of a number. -/
def wholeSeconds : Json → Option Int
  | .int value => some value
  | .float (.finite value) => some (if 0 ≤ value then ⌊value⌋ else ⌈value⌉)
  | _ => none

def expiration (payload : Payload) : Option Int :=
  (memberOf payload expirationClaim).bind wholeSeconds

/-- The claims, other than the expiration, that PyJWT checks where a token has them. -/
def otherClaims : List Text :=
  [text "iat", text "nbf", text "iss", text "aud", text "sub", text "jti"]

/-- A dictionary that `jwt.encode` can write. -/
structure Encodable (claims : List (Text × Claim)) : Prop where
  distinct : (claims.map Prod.fst).Nodup
  times : ∀ name value, (name, Claim.datetime value) ∈ claims → name = expirationClaim

/-- PyJWT, as documented, for one algorithm: the payload that a token carries, if it is a token of
the algorithm, whether a key fits its signature, and whether a check of the other claims refuses a
payload. -/
structure Documented {Token : Type} (jwt : PyJwt Token) (algorithm : Text)
    (carries : Token → Option Payload) (signed : Token → Text → Bool)
    (refuses : Payload → Int → Bool) : Prop where
  /-- The signature is checked before the claims. -/
  wrongKey : ∀ token payload key now, carries token = some payload → signed token key = false →
    jwt.decode token key [algorithm] required now = .error .InvalidSignatureError
  accepted : ∀ token payload key now expiry, carries token = some payload →
    signed token key = true → (∀ name ∈ required, given payload name = true) →
      expiration payload = some expiry → now < expiry * second →
        refuses payload now = false → jwt.decode token key [algorithm] required now = .ok payload
  refused : ∀ token payload key now expiry, carries token = some payload →
    signed token key = true → (∀ name ∈ required, given payload name = true) →
      expiration payload = some expiry → expiry * second ≤ now ∨ refuses payload now = true →
        ∃ error ≠ .InvalidSignatureError,
          jwt.decode token key [algorithm] required now = .error error
  encoded : ∀ claims key, Encodable claims →
    carries (jwt.encode claims key algorithm) = some (written claims)
  signature : ∀ claims key other, Encodable claims →
    signed (jwt.encode claims key algorithm) other = decide (other = key)
  others : ∀ payload now, (∀ name ∈ otherClaims, memberOf payload name = none) →
    refuses payload now = false

structure WellFormed (payload : Payload) (userId sessionId : UUID) (expiry : Int) : Prop where
  user : ∃ source, memberOf payload userIdClaim = some (.string source) ∧
    UUID.ofText source = some userId
  session : ∃ source, memberOf payload sessionIdClaim = some (.string source) ∧
    UUID.ofText source = some sessionId
  expires : expiration payload = some expiry

/-- The keys of a codec, those of one deployment of a rotation. -/
structure Window where
  signingKey : Text
  verificationKeys : List Text

def Window.keys (window : Window) : List Text := window.signingKey :: window.verificationKeys

def Window.codec (window : Window) (algorithm : Text) : JwtCodec :=
  .new window.signingKey algorithm window.verificationKeys

/-- The signature fits a key, the token is not expired, and no other claim refuses it. -/
def passes {Token : Type} (signed : Token → Text → Bool) (refuses : Payload → Int → Bool)
    (keys : List Text) (token : Token) (payload : Payload) (expiry now : Int) : Bool :=
  keys.any (signed token) && (decide (now < expiry * second) && !refuses payload now)

def Session.expiry (session : Session) : Int := session.expiresAt / second

/-- Tokens with the required claims are accepted for their key, whatever its place; in a rotation
they are accepted while the key is in the window; and the codec reads its own tokens. -/
structure Rotates {Token : Type} (jwt : PyJwt Token) (algorithm : Text)
    (carries : Token → Option Payload) (signed : Token → Text → Bool)
    (refuses : Payload → Int → Bool) : Prop where
  accepts : ∀ (window : Window) token payload userId sessionId expiry now,
    carries token = some payload → WellFormed payload userId sessionId expiry →
      ((window.codec algorithm).decode jwt token now = .ok (some (userId, sessionId)) ↔
        (∃ key ∈ window.keys, signed token key = true) ∧ now < expiry * second ∧
          refuses payload now = false)
  declines : ∀ (window : Window) token payload userId sessionId expiry now,
    carries token = some payload → WellFormed payload userId sessionId expiry →
      (window.codec algorithm).decode jwt token now ≠ .ok (some (userId, sessionId)) →
        (window.codec algorithm).decode jwt token now = .ok none
  order : ∀ one two : Window, (∀ key, key ∈ one.keys ↔ key ∈ two.keys) →
    ∀ token payload userId sessionId expiry now, carries token = some payload →
      WellFormed payload userId sessionId expiry →
        (one.codec algorithm).decode jwt token now = (two.codec algorithm).decode jwt token now
  rotation : ∀ (schedule : Int → Window) issued session now,
    ((schedule now).codec algorithm).decode jwt
        (((schedule issued).codec algorithm).encode jwt session) now =
          .ok (some (session.userId, session.id_)) ↔
      (schedule issued).signingKey ∈ (schedule now).keys ∧ now < session.expiry * second
  roundTrip : ∀ (window : Window) session now, now < session.expiry * second →
    (window.codec algorithm).decode jwt ((window.codec algorithm).encode jwt session) now =
      .ok (some (session.userId, session.id_))

namespace Session

def claims (session : Session) : List (Text × Claim) :=
  [(sessionIdClaim, .string session.id_.str), (userIdClaim, .string session.userId.str),
    (expirationClaim, .datetime session.expiresAt)]

theorem encodable (session : Session) : Encodable session.claims where
  distinct := by
    change [sessionIdClaim, userIdClaim, expirationClaim].Nodup
    decide
  times name value member := by
    simp [claims] at member
    exact member.1

theorem well_formed (session : Session) :
    WellFormed (written session.claims) session.userId session.id_ session.expiry where
  user := ⟨session.userId.str, rfl, UUID.of_text_str session.userId⟩
  session := ⟨session.id_.str, rfl, UUID.of_text_str session.id_⟩
  expires := rfl

theorem others_absent (session : Session) :
    ∀ name ∈ otherClaims, memberOf (written session.claims) name = none := by
  simp only [otherClaims, List.forall_mem_cons]
  exact ⟨rfl, rfl, rfl, rfl, rfl, rfl, nofun⟩

end Session

section Rotation

variable {Token : Type} {jwt : PyJwt Token} {algorithm : Text} {carries : Token → Option Payload}
  {signed : Token → Text → Bool} {refuses : Payload → Int → Bool}

theorem given_of_some {payload : Payload} {name : Text} {value : Json}
    (held : memberOf payload name = some value) (valued : value ≠ .null) :
    given payload name = true := by
  rw [given, held]
  cases value with
  | null => exact absurd rfl valued
  | _ => rfl

theorem given_of_expiration {payload : Payload} {expiry : Int}
    (expires : expiration payload = some expiry) : given payload expirationClaim = true := by
  obtain ⟨value, held, read⟩ := Option.bind_eq_some_iff.mp expires
  refine given_of_some held fun absent => ?_
  rw [absent] at read
  exact nomatch read

theorem WellFormed.present {payload : Payload} {userId sessionId : UUID} {expiry : Int}
    (formed : WellFormed payload userId sessionId expiry) :
    ∀ name ∈ required, given payload name = true := by
  obtain ⟨user, userHeld, _⟩ := formed.user
  obtain ⟨session, sessionHeld, _⟩ := formed.session
  simp only [required, List.forall_mem_cons]
  exact ⟨given_of_some sessionHeld nofun, given_of_some userHeld nofun,
    given_of_expiration formed.expires, nofun⟩

theorem WellFormed.identity {payload : Payload} {userId sessionId : UUID} {expiry : Int}
    (formed : WellFormed payload userId sessionId expiry) :
    identity payload = .ok (userId, sessionId) := by
  obtain ⟨user, userHeld, userRead⟩ := formed.user
  obtain ⟨session, sessionHeld, sessionRead⟩ := formed.session
  have first : claimUuid payload userIdClaim = .ok userId := by
    rw [claimUuid, userHeld]
    simp only [userRead, Option.elim_some]
  have second : claimUuid payload sessionIdClaim = .ok sessionId := by
    rw [claimUuid, sessionHeld]
    simp only [sessionRead, Option.elim_some]
  rw [Jwt.identity, first, second]
  rfl

theorem passes_iff {keys : List Text} {token : Token} {payload : Payload} {expiry now : Int} :
    passes signed refuses keys token payload expiry now = true ↔
      (∃ key ∈ keys, signed token key = true) ∧ now < expiry * second ∧
        refuses payload now = false := by
  rw [passes, Bool.and_eq_true, Bool.and_eq_true, List.any_eq_true, decide_eq_true_iff,
    Bool.not_eq_true']

/-- A key that does not fit is passed over; the first that does decides. -/
theorem payload_of_eq (documented : Documented jwt algorithm carries signed refuses)
    {token : Token} {payload : Payload} {userId sessionId : UUID} {expiry : Int}
    (carried : carries token = some payload)
    (formed : WellFormed payload userId sessionId expiry) (now : Int) (keys : List Text) :
    JwtCodec.payloadOf jwt algorithm token now keys =
      if passes signed refuses keys token payload expiry now then some payload else none := by
  induction keys with
  | nil => rfl
  | cons key keys ih =>
      rw [JwtCodec.payloadOf]
      cases fits : signed token key with
      | false =>
          rw [documented.wrongKey token payload key now carried fits]
          simp only [ih, passes, List.any_cons, fits, Bool.false_or]
          rfl
      | true =>
          by_cases lives : now < expiry * second ∧ refuses payload now = false
          · rw [documented.accepted token payload key now expiry carried fits formed.present
              formed.expires lives.1 lives.2]
            simp [passes, fits, lives]
          · have failed : expiry * second ≤ now ∨ refuses payload now = true := by
              by_cases expired : now < expiry * second
              · exact .inr (by simpa using fun sound => lives ⟨expired, sound⟩)
              · exact .inl (Int.not_lt.mp expired)
            obtain ⟨error, other, raised⟩ := documented.refused token payload key now expiry carried
              fits formed.present formed.expires failed
            have passed : passes signed refuses (key :: keys) token payload expiry now = false := by
              simp only [passes, List.any_cons, fits, Bool.true_or, Bool.true_and,
                Bool.and_eq_false_iff, decide_eq_false_iff_not, Bool.not_eq_false_eq_eq_true]
              exact failed.imp_left Int.not_lt.mpr
            rw [raised, passed]
            cases error with
            | InvalidSignatureError => exact absurd rfl other
            | _ => rfl

theorem decode_eq (documented : Documented jwt algorithm carries signed refuses)
    {token : Token} {payload : Payload} {userId sessionId : UUID} {expiry : Int}
    (carried : carries token = some payload)
    (formed : WellFormed payload userId sessionId expiry) (now : Int) (window : Window) :
    (window.codec algorithm).decode jwt token now =
      .ok (if passes signed refuses window.keys token payload expiry now then
        some (userId, sessionId) else none) := by
  have found := payload_of_eq documented carried formed now window.keys
  change (match JwtCodec.payloadOf jwt algorithm token now window.keys with
    | none => _
    | some payload => _) = _
  rw [found]
  cases passes signed refuses window.keys token payload expiry now with
  | true => simp [formed.identity]
  | false => rfl

theorem decode_iff (documented : Documented jwt algorithm carries signed refuses)
    {token : Token} {payload : Payload} {userId sessionId : UUID} {expiry : Int}
    (carried : carries token = some payload)
    (formed : WellFormed payload userId sessionId expiry) (now : Int) (window : Window) :
    (window.codec algorithm).decode jwt token now = .ok (some (userId, sessionId)) ↔
      (∃ key ∈ window.keys, signed token key = true) ∧ now < expiry * second ∧
        refuses payload now = false := by
  rw [decode_eq documented carried formed, ← passes_iff]
  simp

theorem carries_encode (documented : Documented jwt algorithm carries signed refuses)
    (window : Window) (session : Session) :
    carries ((window.codec algorithm).encode jwt session) = some (written session.claims) :=
  documented.encoded session.claims window.signingKey session.encodable

theorem signed_encode (documented : Documented jwt algorithm carries signed refuses)
    (window : Window) (session : Session) (key : Text) :
    signed ((window.codec algorithm).encode jwt session) key = decide (key = window.signingKey) :=
  documented.signature session.claims window.signingKey key session.encodable

theorem decode_encode (documented : Documented jwt algorithm carries signed refuses)
    (signing verifying : Window) (session : Session) (now : Int) :
    (verifying.codec algorithm).decode jwt ((signing.codec algorithm).encode jwt session) now =
        .ok (some (session.userId, session.id_)) ↔
      signing.signingKey ∈ verifying.keys ∧ now < session.expiry * second := by
  have sound := documented.others _ now session.others_absent
  have same := signed_encode documented signing session
  rw [decode_iff documented (carries_encode documented signing session) session.well_formed]
  simp [sound, same]

theorem jwt_rotates (documented : Documented jwt algorithm carries signed refuses) :
    Rotates jwt algorithm carries signed refuses where
  accepts window token payload userId sessionId expiry now carried formed :=
    decode_iff documented carried formed now window
  declines window token payload userId sessionId expiry now carried formed other := by
    rw [decode_eq documented carried formed] at other ⊢
    cases passed : passes signed refuses window.keys token payload expiry now with
    | true => exact absurd (by rw [passed]; rfl) other
    | false => rfl
  order one two same token payload userId sessionId expiry now carried formed := by
    have fits : one.keys.any (signed token) = two.keys.any (signed token) := by
      rw [Bool.eq_iff_iff, List.any_eq_true, List.any_eq_true]
      simp only [same]
    rw [decode_eq documented carried formed, decode_eq documented carried formed, passes, passes,
      fits]
  rotation schedule issued session now :=
    decode_encode documented (schedule issued) (schedule now) session now
  roundTrip window session now lives :=
    (decode_encode documented window window session now).mpr ⟨List.mem_cons_self, lives⟩

end Rotation

/-! PyJWT with tokens that are not coded: the payload, the key and the algorithm. -/

namespace Plain

abbrev Token := Payload × Text × Text

def early (payload : Payload) (name : Text) (now : Int) : Option JwtError :=
  match memberOf payload name with
  | none => none
  | some value =>
      match wholeSeconds value with
      | none => some .DecodeError
      | some time => if now < time * second then some .ImmatureSignatureError else none

/-- A value that is false in Python. -/
def falsy : Json → Bool
  | .null => true
  | .bool value => !value
  | .int value => value == 0
  | .float value => value == .finite 0
  | .string value => value.isEmpty
  | .array items => items.isEmpty
  | .object members => members.isEmpty

def addressed (payload : Payload) : Option JwtError :=
  match memberOf payload (text "aud") with
  | none => none
  | some value => if falsy value then none else some .InvalidAudienceError

def unnamed (payload : Payload) (name : Text) : Option JwtError :=
  match memberOf payload name with
  | none => none
  | some (.string _) => none
  | some _ => some .DecodeError

def refusal (payload : Payload) (now : Int) : Option JwtError :=
  [early payload (text "iat") now, early payload (text "nbf") now, addressed payload,
    unnamed payload (text "sub"), unnamed payload (text "jti")].findSome? id

def decode (token : Token) (key : Text) (algorithms require : List Text) (now : Int) :
    Except JwtError Payload :=
  match token with
  | (payload, signer, algorithm) =>
      if !algorithms.contains algorithm then .error .InvalidAlgorithmError
      else if key != signer then .error .InvalidSignatureError
      else if !require.all (given payload) then .error .MissingRequiredClaimError
      else
        match refusal payload now, expiration payload with
        | some error, _ => .error error
        | none, none => .error .DecodeError
        | none, some expiry =>
            if expiry * second ≤ now then .error .ExpiredSignatureError else .ok payload

def jwt : PyJwt Token where
  encode claims key algorithm := (written claims, key, algorithm)
  decode := decode

def carries (algorithm : Text) (token : Token) : Option Payload :=
  if token.2.2 = algorithm then some token.1 else none

def signed (token : Token) (key : Text) : Bool := key == token.2.1

def refuses (payload : Payload) (now : Int) : Bool := (refusal payload now).isSome

theorem refusal_other {payload : Payload} {now : Int} {error : JwtError}
    (raised : refusal payload now = some error) : error ≠ .InvalidSignatureError := by
  rintro rfl
  obtain ⟨check, member, failed⟩ := List.exists_of_findSome?_eq_some raised
  have times : ∀ name, early payload name now ≠ some .InvalidSignatureError := by
    intro name
    unfold early
    split <;> [skip; split <;> [skip; split]] <;> exact nofun
  have named : ∀ name, unnamed payload name ≠ some .InvalidSignatureError := by
    intro name
    unfold unnamed
    split <;> exact nofun
  have audience : addressed payload ≠ some .InvalidSignatureError := by
    unfold addressed
    split <;> [skip; split] <;> exact nofun
  simp only [List.mem_cons, List.not_mem_nil, or_false] at member
  rw [id_eq] at failed
  obtain rfl | rfl | rfl | rfl | rfl := member
  · exact times _ failed
  · exact times _ failed
  · exact audience failed
  · exact named _ failed
  · exact named _ failed

theorem decode_signed (algorithm : Text) (payload : Payload) (key : Text) (now expiry : Int)
    (present : ∀ name ∈ required, given payload name = true)
    (expires : expiration payload = some expiry) :
    jwt.decode (payload, key, algorithm) key [algorithm] required now =
      match refusal payload now with
      | some error => .error error
      | none => if expiry * second ≤ now then .error .ExpiredSignatureError else .ok payload := by
  have held : required.all (given payload) = true := List.all_eq_true.mpr present
  simp only [jwt, decode, List.contains_cons, BEq.rfl, Bool.true_or, Bool.not_true,
    bne_self_eq_false, held, expires, Bool.false_eq_true, if_false]
  cases refusal payload now with
  | none => rfl
  | some error => rfl

theorem token_of_carries {algorithm : Text} {token : Token} {payload : Payload}
    (carried : carries algorithm token = some payload) :
    token = (payload, token.2.1, algorithm) := by
  rw [carries, Option.ite_none_right_eq_some] at carried
  obtain ⟨rfl, same⟩ := carried
  rw [← Option.some.inj same]

theorem signer_of_signed {token : Token} {key : Text} (fits : signed token key = true) :
    token.2.1 = key :=
  (eq_of_beq fits).symm

theorem refusal_absent {payload : Payload} {now : Int}
    (absent : ∀ name ∈ otherClaims, memberOf payload name = none) : refusal payload now = none := by
  have iat := absent (text "iat") (by decide)
  have nbf := absent (text "nbf") (by decide)
  have aud := absent (text "aud") (by decide)
  have sub := absent (text "sub") (by decide)
  have jti := absent (text "jti") (by decide)
  simp only [refusal, early, addressed, unnamed, iat, nbf, aud, sub, jti]
  rfl

theorem documented (algorithm : Text) :
    Documented jwt algorithm (carries algorithm) signed refuses where
  wrongKey token payload key now carried other := by
    have differs : (key != token.2.1) = true := by
      rw [bne, Bool.not_eq_true']
      exact other
    rw [token_of_carries carried]
    simp [jwt, decode, differs]
  accepted token payload key now expiry carried fits present expires lives sound := by
    have quiet : refusal payload now = none := by
      cases raised : refusal payload now with
      | none => rfl
      | some error =>
          rw [refuses, raised] at sound
          exact nomatch sound
    rw [token_of_carries carried, signer_of_signed fits]
    rw [decode_signed algorithm payload key now expiry present expires, quiet]
    exact if_neg (Int.not_le.mpr lives)
  refused token payload key now expiry carried fits present expires failed := by
    rw [token_of_carries carried, signer_of_signed fits]
    rw [decode_signed algorithm payload key now expiry present expires]
    cases raised : refusal payload now with
    | some error => exact ⟨error, refusal_other raised, rfl⟩
    | none =>
        have ended : expiry * second ≤ now := by
          refine failed.resolve_right ?_
          rw [refuses, raised]
          exact nofun
        exact ⟨.ExpiredSignatureError, nofun, if_pos ended⟩
  encoded claims key encodable := if_pos rfl
  signature claims key other encodable := by
    rw [Bool.eq_iff_iff, decide_eq_true_iff]
    exact beq_iff_eq
  others payload now absent := by
    rw [refuses, refusal_absent absent]
    rfl

end Plain

theorem jwt_rotates_plain :
    Documented Plain.jwt (text "HS256") (Plain.carries (text "HS256")) Plain.signed Plain.refuses ∧
      Rotates Plain.jwt (text "HS256") (Plain.carries (text "HS256")) Plain.signed Plain.refuses :=
  ⟨Plain.documented _, jwt_rotates (Plain.documented _)⟩

def briefSession : Session := ⟨.nil, .nil, 900000⟩

def addressedPayload : Payload :=
  written { briefSession with expiresAt := 2000000 }.claims ++
    [(text "aud", .string (text "shop"))]

/-- A token that names an audience is refused, whatever its key; and a session that ends within the
second has a token that is expired already. -/
theorem not_jwt_rotates :
    (¬ ∀ (window : Window) token payload userId sessionId expiry now,
      Plain.carries (text "HS256") token = some payload →
        WellFormed payload userId sessionId expiry →
          ((window.codec (text "HS256")).decode Plain.jwt token now =
              .ok (some (userId, sessionId)) ↔
            (∃ key ∈ window.keys, Plain.signed token key = true) ∧ now < expiry * second)) ∧
      ¬ ∀ (window : Window) session now, now < session.expiresAt →
        (window.codec (text "HS256")).decode Plain.jwt
            ((window.codec (text "HS256")).encode Plain.jwt session) now =
          .ok (some (session.userId, session.id_)) := by
  have documented := Plain.documented (text "HS256")
  have formed : WellFormed addressedPayload .nil .nil 2 :=
    ⟨⟨UUID.nil.str, rfl, UUID.of_text_str _⟩, ⟨UUID.nil.str, rfl, UUID.of_text_str _⟩, rfl⟩
  have carried : Plain.carries (text "HS256") (addressedPayload, text "key", text "HS256") =
      some addressedPayload := if_pos rfl
  have refused : Plain.refuses addressedPayload 0 = true := rfl
  refine ⟨fun accepts => ?_, fun roundTrip => ?_⟩
  · have read := (accepts ⟨text "key", []⟩ _ _ _ _ _ 0 carried formed).mpr
      ⟨⟨text "key", List.mem_cons_self, by decide⟩, by decide⟩
    have sound := ((decode_iff documented carried formed 0 ⟨text "key", []⟩).mp read).2.2
    rw [refused] at sound
    exact nomatch sound
  · have read := roundTrip ⟨text "key", []⟩ briefSession 300000 (by decide)
    exact absurd ((decode_encode documented _ _ briefSession 300000).mp read).2 (by decide)

end Yomochi.Users.Jwt
