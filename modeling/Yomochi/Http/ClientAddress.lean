import Yomochi.Foundation.IpAddress

/-! The rate-limit identity of a request: `_client_ip` and `_key_for` of the rate-limit
middleware. The SHA-256 digest of the cookie is a parameter. -/

namespace Yomochi.Http.RateLimit

open Foundation

structure Scope where
  client : Option Text
  headers : List (String × List UInt8)

inductive PolicyScope
  | user
  | ip
  deriving DecidableEq, Repr

structure Policy where
  ratePerMinute : Nat
  burst : Nat
  scope : PolicyScope
  deriving DecidableEq, Repr

def policyMarker (policy : Policy) : Text :=
  decimal policy.ratePerMinute ++ text "_" ++ decimal policy.burst

def isTrusted (trusted : List IpNetwork) (ip : Text) : Bool :=
  match ipAddress ip with
  | some address => trusted.any fun network => network.contains address
  | none => false

def parts (line : List UInt8) : List Text :=
  (((latin1 line).splitOn ','.toNat).map strip).filter fun part => !part.isEmpty

/-- All `X-Forwarded-For` lines, in order. -/
def forwardedLines (scope : Scope) : List (List UInt8) :=
  (scope.headers.filter fun header => header.1 == "x-forwarded-for").map Prod.snd

def clientIp (scope : Scope) (trusted : List IpNetwork) : Option Text :=
  match scope.client with
  | none => none
  | some peer =>
      if peer.isEmpty then none
      else if trusted.isEmpty then some peer
      else if !isTrusted trusted peer then some peer
      else match (forwardedLines scope).head? with
        | none => some peer
        | some line =>
            match (parts line).reverse.find? fun candidate => !isTrusted trusted candidate with
            | some candidate => some candidate
            | none => some ((parts line).headD peer)

def cookiePair (pair : Text) : Option (Text × Text) :=
  if '='.toNat ∈ pair then
    some (strip (pair.takeWhile (· ≠ '='.toNat)), strip ((pair.dropWhile (· ≠ '='.toNat)).drop 1))
  else none

def readCookie (scope : Scope) (cookieName : Text) : Option Text :=
  let headers := scope.headers.filter fun header => header.1 == "cookie"
  let pairs := headers.flatMap fun header => (latin1 header.2).splitOn ';'.toNat
  ((pairs.filterMap cookiePair).find? fun pair => pair.1 == cookieName).map Prod.snd

def keyFor (digest : Text → Text) (scope : Scope) (policy : Policy)
    (trusted : List IpNetwork) (cookieName : Text) : Option Text :=
  let cookie := if policy.scope = .user then (readCookie scope cookieName).getD [] else []
  if cookie.isEmpty then
    match clientIp scope trusted with
    | none => none
    | some ip =>
        if ip.isEmpty then none
        else some (text "rl:ip:" ++ ip ++ text ":" ++ policyMarker policy)
  else some (text "rl:u:" ++ digest cookie ++ text ":" ++ policyMarker policy)

def hops (scope : Scope) : List Text :=
  (forwardedLines scope).flatMap parts

/-- `address` is the last hop that is not trusted, and `right` follows it. -/
structure Rightmost (trusted : List IpNetwork) (hops : List Text) (address : Text)
    (right : List Text) : Prop where
  split : ∃ left, hops = left ++ address :: right
  untrusted : isTrusted trusted address = false
  suffix : ∀ hop ∈ right, isTrusted trusted hop = true

def PeerTrusted (trusted : List IpNetwork) (scope : Scope) : Prop :=
  ∃ peer, scope.client = some peer ∧ isTrusted trusted peer = true

def ReadsRightmost (trusted : List IpNetwork) (scope : Scope) : Prop :=
  ∀ address right, PeerTrusted trusted scope → Rightmost trusted (hops scope) address right →
    clientIp scope trusted = some address

/-- The last untrusted hop of all lines is also the last untrusted hop of the first line. -/
def FirstLineDecides (trusted : List IpNetwork) (scope : Scope) : Prop :=
  ∀ address right, PeerTrusted trusted scope → Rightmost trusted (hops scope) address right →
    ∃ line, (forwardedLines scope).head? = some line ∧
      ∃ after, Rightmost trusted (parts line) address after

/-- The two requests do not differ in the cookie, where the policy reads it. -/
def SameCookie (policy : Policy) (cookieName : Text) (scope other : Scope) : Prop :=
  policy.scope = .ip ∨ readCookie scope cookieName = readCookie other cookieName

variable {trusted : List IpNetwork} {scope other : Scope} {address : Text} {right : List Text}

theorem find_rightmost_iff (hops : List Text) (address : Text) :
    hops.reverse.find? (fun hop => !isTrusted trusted hop) = some address ↔
      ∃ right, Rightmost trusted hops address right := by
  rw [List.find?_eq_some_iff_append]
  constructor
  · rintro ⟨untrusted, before, after, split, skipped⟩
    refine ⟨before.reverse, ⟨after.reverse, ?_⟩, by simpa using untrusted, ?_⟩
    · rw [← List.reverse_reverse hops, split]
      simp
    · intro hop member
      simpa using skipped hop (List.mem_reverse.mp member)
  · rintro ⟨right, ⟨left, rfl⟩, untrusted, suffix⟩
    refine ⟨by simpa using untrusted, right.reverse, left.reverse, by simp, ?_⟩
    intro hop member
    simpa using suffix hop (List.mem_reverse.mp member)

theorem trusted_not_empty {ip : Text} (known : isTrusted trusted ip = true) :
    ip.isEmpty = false := by
  cases ip with
  | nil => exact absurd known (by simp [isTrusted, show ipAddress [] = none by decide])
  | cons head tail => rfl

theorem trusted_networks {ip : Text} (known : isTrusted trusted ip = true) :
    trusted.isEmpty = false := by
  cases trusted with
  | nil => cases found : ipAddress ip <;> simp [isTrusted, found] at known
  | cons head tail => rfl

theorem client_ip_of_trusted {peer : Text} (client : scope.client = some peer)
    (known : isTrusted trusted peer = true) :
    clientIp scope trusted = match (forwardedLines scope).head? with
      | none => some peer
      | some line =>
          match (parts line).reverse.find? fun candidate => !isTrusted trusted candidate with
          | some candidate => some candidate
          | none => some ((parts line).headD peer) := by
  simp [clientIp, client, known, trusted_not_empty known, trusted_networks known]

/-- A line without an untrusted hop answers with a trusted address. -/
theorem head_trusted {line : List UInt8} {peer : Text} (known : isTrusted trusted peer = true)
    (clean : (parts line).reverse.find? (fun hop => !isTrusted trusted hop) = none) :
    isTrusted trusted ((parts line).headD peer) = true := by
  cases hops : parts line with
  | nil => exact known
  | cons head tail =>
      rw [hops, List.find?_eq_none] at clean
      simpa using clean head (by simp)

/-- Only the first line speaks. -/
theorem client_ip_untrusted_iff (peer : PeerTrusted trusted scope)
    (untrusted : isTrusted trusted address = false) :
    clientIp scope trusted = some address ↔
      ∃ line, (forwardedLines scope).head? = some line ∧
        ∃ after, Rightmost trusted (parts line) address after := by
  obtain ⟨peer, client, known⟩ := peer
  have distinct : ∀ ip, isTrusted trusted ip = true → ip ≠ address := by
    rintro ip yes rfl
    rw [yes] at untrusted
    cases untrusted
  rw [client_ip_of_trusted client known]
  cases first : (forwardedLines scope).head? with
  | none => simpa using distinct peer known
  | some line =>
      cases found : (parts line).reverse.find? fun hop => !isTrusted trusted hop with
      | none =>
          have head := distinct _ (head_trusted known found)
          have absent : ¬∃ after, Rightmost trusted (parts line) address after := by
            rw [← find_rightmost_iff, found]
            simp
          simpa [found, absent] using head
      | some candidate =>
          simp [← find_rightmost_iff, found]

theorem client_ip_of_untrusted {peer : Text} (client : scope.client = some peer)
    (unknown : isTrusted trusted peer = false) :
    clientIp scope trusted = if peer.isEmpty then none else some peer := by
  simp [clientIp, client, unknown]

theorem key_for_congr (digest : Text → Text) {policy : Policy} {cookieName : Text}
    (address : clientIp scope trusted = clientIp other trusted)
    (cookie : SameCookie policy cookieName scope other) :
    keyFor digest scope policy trusted cookieName =
      keyFor digest other policy trusted cookieName := by
  rcases cookie with anonymous | same
  · simp [keyFor, anonymous, address]
  · simp [keyFor, same, address]

theorem client_ip_not_spoofable_iff (digest : Text → Text) (trusted : List IpNetwork) :
    (∀ scope, ReadsRightmost trusted scope ↔ FirstLineDecides trusted scope) ∧
    (∀ scope other address right policy cookieName,
      FirstLineDecides trusted scope → FirstLineDecides trusted other →
      PeerTrusted trusted scope → PeerTrusted trusted other →
      Rightmost trusted (hops scope) address right →
      Rightmost trusted (hops other) address right →
      SameCookie policy cookieName scope other →
        keyFor digest scope policy trusted cookieName =
          keyFor digest other policy trusted cookieName) ∧
    (∀ scope other, ¬PeerTrusted trusted scope → scope.client = other.client →
      clientIp scope trusted = clientIp other trusted ∧
      ∀ policy cookieName, SameCookie policy cookieName scope other →
        keyFor digest scope policy trusted cookieName =
          keyFor digest other policy trusted cookieName) := by
  have reads : ∀ scope, FirstLineDecides trusted scope → ReadsRightmost trusted scope := by
    intro scope decides address right peer rightmost
    exact (client_ip_untrusted_iff peer rightmost.untrusted).mpr
      (decides address right peer rightmost)
  refine ⟨fun scope => ⟨?_, reads scope⟩, ?_, ?_⟩
  · intro reads address right peer rightmost
    exact (client_ip_untrusted_iff peer rightmost.untrusted).mp
      (reads address right peer rightmost)
  · intro scope other address right policy cookieName first second peer peer' last last' cookie
    apply key_for_congr digest _ cookie
    rw [reads scope first address right peer last, reads other second address right peer' last']
  · intro scope other stranger same
    have address : clientIp scope trusted = clientIp other trusted := by
      cases client : scope.client with
      | none => simp [clientIp, client, ← same]
      | some peer =>
          have unknown : isTrusted trusted peer = false :=
            eq_false_of_ne_true fun known => stranger ⟨peer, client, known⟩
          rw [client_ip_of_untrusted client unknown,
            client_ip_of_untrusted (same.symm.trans client) unknown]
    exact ⟨address, fun policy cookieName cookie => key_for_congr digest address cookie⟩

def privateNetwork : IpNetwork where
  version := .four
  value := 167772160
  prefixLength := 8
  bounded := by decide
  masked := by decide

def proxied (lines : List String) : Scope where
  client := some (text "10.0.0.2")
  headers := lines.map fun line => ("x-forwarded-for", (text line).map UInt8.ofNat)

theorem first_line_spoofs :
    PeerTrusted [privateNetwork] (proxied ["1.1.1.1", "198.51.100.7, 10.0.0.1"]) ∧
    Rightmost [privateNetwork] (hops (proxied ["1.1.1.1", "198.51.100.7, 10.0.0.1"]))
      (text "198.51.100.7") [text "10.0.0.1"] ∧
    clientIp (proxied ["1.1.1.1", "198.51.100.7, 10.0.0.1"]) [privateNetwork] =
      some (text "1.1.1.1") ∧
    clientIp (proxied ["2.2.2.2", "198.51.100.7, 10.0.0.1"]) [privateNetwork] =
      some (text "2.2.2.2") := by
  refine ⟨⟨text "10.0.0.2", rfl, by decide⟩, ⟨⟨[text "1.1.1.1"], by decide⟩, ?_, ?_⟩, ?_, ?_⟩
  · decide
  · decide
  · decide
  · decide

end Yomochi.Http.RateLimit
