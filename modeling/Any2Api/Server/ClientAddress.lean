import Mathlib.Data.List.Induction
import Any2Api.Library.Result
import Any2Api.Sse.Event

/-! Where a request comes from: the peer itself, or what a trusted proxy says about it in the
forwarding headers. -/
namespace Any2Api.Server

open Sse

inductive IpAddr where
  | v4 (bits : BitVec 32)
  | v6 (bits : BitVec 128)
  deriving DecidableEq

/-- An IPv4-mapped address is its IPv4 address. -/
def canonicalIp : IpAddr → IpAddr
  | .v4 bits => .v4 bits
  | .v6 bits =>
    if bits >>> 32 = 0xffff#128 then .v4 (bits.setWidth 32) else .v6 bits

structure SocketAddr where
  ip : IpAddr
  port : Nat

/-- How addresses are written, which of them a network contains, and which networks are
trusted. -/
structure Ingress (Network : Type) where
  fromStr : Bytes → Option IpAddr
  contains : Network → IpAddr → Bool
  trustedProxies : List Network

/-- The headers in their order, by lower-case name. -/
abbrev HeaderMap := List (String × Bytes)

def HeaderMap.getAll (headers : HeaderMap) (name : String) : List Bytes :=
  (headers.filter (·.1 = name)).map (·.2)

inductive ClientAddressError where
  | missingPeer
  | invalidForwardedHeaders
  deriving DecidableEq

structure ClientConnection where
  clientIp : IpAddr
  secure : Bool
  throughTrustedProxy : Bool
  deriving DecidableEq

def ClientConnection.direct (clientIp : IpAddr) : ClientConnection := ⟨clientIp, false, false⟩

/-- A header value is a text if it has only visible ASCII characters, blanks and tabs. -/
def toStr (value : Bytes) : Except ClientAddressError Bytes :=
  if value.all fun byte => 32 ≤ byte && byte < 127 || byte = 9 then .ok value
  else .error .invalidForwardedHeaders

/-- `split(',')`, each entry trimmed. -/
def splitEntries (value : Bytes) : List Bytes := (value.splitOn 44).map trimAscii

def eqIgnoreAsciiCase (text : Bytes) (literal : String) : Bool :=
  decide (text.map (fun byte => if 65 ≤ byte && byte ≤ 90 then byte + 32 else byte) =
    asciiBytes literal)

def isHttps (entry : Bytes) : Except ClientAddressError Bool :=
  if eqIgnoreAsciiCase entry "http" then .ok false
  else if eqIgnoreAsciiCase entry "https" then .ok true
  else .error .invalidForwardedHeaders

/-- The scheme that the entries so far agree on. -/
def observeScheme (secure : Option Bool) (entry : Bytes) :
    Except ClientAddressError (Option Bool) := do
  let https ← isHttps entry
  if secure.getD https ≠ https then .error .invalidForwardedHeaders
  else .ok (some (secure.getD https))

def observeSchemes (secure : Option Bool) (value : Bytes) :
    Except ClientAddressError (Option Bool) := do
  (splitEntries (← toStr value)).foldlM observeScheme secure

def forwardedIsSecure (headers : HeaderMap) : Except ClientAddressError Bool := do
  return ((← (headers.getAll "x-forwarded-proto").foldlM observeSchemes none).getD false)

/-- The walk from the peer to the left, given the chain from its right end. -/
def walk (isTrusted : IpAddr → Bool) (client : IpAddr) : List IpAddr → IpAddr
  | [] => client
  | address :: rest => if isTrusted client then walk isTrusted address rest else client

namespace Ingress

variable {Network : Type} (ingress : Ingress Network)

def isTrustedProxy (address : IpAddr) : Bool :=
  ingress.trustedProxies.any (ingress.contains · address)

def pushAddress (chain : List IpAddr) (address : Bytes) : Except ClientAddressError (List IpAddr) :=
  if address = [] then .error .invalidForwardedHeaders
  else
    match ingress.fromStr address with
    | some address => .ok (chain ++ [canonicalIp address])
    | none => .error .invalidForwardedHeaders

def forwardedChain (headers : HeaderMap) : Except ClientAddressError (List IpAddr) :=
  (headers.getAll "x-forwarded-for").foldlM
    (fun chain value => do (splitEntries (← toStr value)).foldlM ingress.pushAddress chain) []

def forwardedClientIp (headers : HeaderMap) (peer : IpAddr) (isTrusted : IpAddr → Bool) :
    Except ClientAddressError IpAddr :=
  if headers.getAll "x-forwarded-for" = [] then .ok peer
  else do return walk isTrusted peer (← ingress.forwardedChain headers).reverse

def resolve (peer : Option SocketAddr) (headers : HeaderMap) :
    Except ClientAddressError ClientConnection :=
  match peer with
  | none => .error .missingPeer
  | some peer =>
    if ingress.isTrustedProxy (canonicalIp peer.ip) then do
      let clientIp ← ingress.forwardedClientIp headers (canonicalIp peer.ip) ingress.isTrustedProxy
      return ⟨clientIp, ← forwardedIsSecure headers, true⟩
    else .ok (.direct (canonicalIp peer.ip))

end Ingress

variable {isTrusted : IpAddr → Bool} {peer client : IpAddr} {chain right : List IpAddr}
  {Network : Type} {ingress : Ingress Network} {headers : HeaderMap} {socket : SocketAddr}
  {connection : ClientConnection}

/-- The client of a chain is the rightmost address that is not trusted, the leftmost one if all
are, and the peer if there is no chain. -/
inductive IsClient (isTrusted : IpAddr → Bool) (peer : IpAddr) : List IpAddr → IpAddr → Prop where
  | rightmost (left : List IpAddr) {client : IpAddr} {right : List IpAddr} :
      isTrusted client = false → (∀ address ∈ right, isTrusted address = true) →
      IsClient isTrusted peer (left ++ client :: right) client
  | leftmost {client : IpAddr} {right : List IpAddr} :
      (∀ address ∈ client :: right, isTrusted address = true) →
      IsClient isTrusted peer (client :: right) client
  | peer : IsClient isTrusted peer [] peer

theorem walk_of_not_trusted (h : isTrusted client = false) :
    walk isTrusted client chain = client := by
  cases chain with
  | nil => rfl
  | cons address rest => simp [walk, h]

theorem isClient_walk (h : isTrusted peer = true) :
    IsClient isTrusted peer chain (walk isTrusted peer chain.reverse) := by
  -- From the right: the last address is the next one of the walk.
  induction chain using List.reverseRecOn generalizing peer with
  | nil => exact .peer
  | append_singleton chain last ih =>
    rw [List.reverse_concat, walk, if_pos h]
    cases hLast : isTrusted last with
    | false =>
      rw [walk_of_not_trusted hLast]
      exact .rightmost chain hLast nofun
    | true =>
      have hMore {right : List IpAddr} (hRight : ∀ address ∈ right, isTrusted address = true) :
          ∀ address ∈ right ++ [last], isTrusted address = true := by
        simpa [or_imp, forall_and, hLast] using hRight
      have hLeft := ih hLast
      generalize walk isTrusted last chain.reverse = client at hLeft ⊢
      cases hLeft with
      | rightmost left hClient hRight => simpa using .rightmost left hClient (hMore hRight)
      | leftmost hAll => exact .leftmost (hMore hAll)
      | peer => exact .leftmost (by simpa using hLast)

/-- The walk stops at the first address that is not trusted. -/
theorem walk_eq {left : List IpAddr} (hPeer : isTrusted peer = true)
    (hClient : isTrusted client = false) (hRight : ∀ address ∈ right, isTrusted address = true) :
    walk isTrusted peer (left ++ client :: right).reverse = client := by
  induction right using List.reverseRecOn generalizing peer with
  | nil => rw [List.reverse_concat, walk, if_pos hPeer, walk_of_not_trusted hClient]
  | append_singleton right last ih =>
    rw [← List.cons_append, ← List.append_assoc, List.reverse_concat, walk, if_pos hPeer]
    exact ih (hRight last (by simp)) fun address hAddress => hRight address (by simp [hAddress])

theorem resolve_of_not_trusted (hPeer : ingress.isTrustedProxy (canonicalIp socket.ip) = false) :
    ingress.resolve (some socket) headers = .ok (.direct (canonicalIp socket.ip)) :=
  if_neg (by simp [hPeer])

theorem resolve_of_trusted (hPeer : ingress.isTrustedProxy (canonicalIp socket.ip) = true)
    (h : ingress.resolve (some socket) headers = .ok connection) :
    forwardedIsSecure headers = .ok connection.secure ∧
      ∃ chain, ingress.forwardedChain headers = .ok chain ∧ connection.clientIp =
        walk ingress.isTrustedProxy (canonicalIp socket.ip) chain.reverse := by
  rw [Ingress.resolve, if_pos hPeer] at h
  obtain ⟨clientIp, hClient, h⟩ := Except.of_bind h
  obtain ⟨secure, hSecure, h⟩ := Except.of_bind h
  rw [← Except.ok.inj h]
  refine ⟨hSecure, ?_⟩
  unfold Ingress.forwardedClientIp at hClient
  by_cases hNone : headers.getAll "x-forwarded-for" = []
  · rw [if_pos hNone] at hClient
    refine ⟨[], ?_, (Except.ok.inj hClient).symm⟩
    rw [Ingress.forwardedChain, hNone]
    rfl
  · rw [if_neg hNone] at hClient
    obtain ⟨chain, hChain, hClient⟩ := Except.of_bind hClient
    exact ⟨chain, hChain, (Except.ok.inj hClient).symm⟩

/-- A value all of whose schemes are https. -/
def SaysHttps (value : Bytes) : Prop :=
  ∃ text, toStr value = .ok text ∧
    ∀ entry ∈ splitEntries text, eqIgnoreAsciiCase entry "https" = true

theorem https_of_observeScheme {secure next : Option Bool} {entry : Bytes}
    (h : observeScheme secure entry = .ok next) (hNext : next ≠ some false) :
    secure ≠ some false ∧ eqIgnoreAsciiCase entry "https" = true := by
  obtain ⟨https, hHttps, h⟩ := Except.of_bind h
  unfold isHttps at hHttps
  cases secure <;> grind

theorem saysHttps_of_forwardedIsSecure (h : forwardedIsSecure headers = .ok true) :
    ∀ value ∈ headers.getAll "x-forwarded-proto", SaysHttps value := by
  obtain ⟨secure, hSecure, h⟩ := Except.of_bind h
  have hTrue : secure.getD false = true := Except.ok.inj h
  refine (Except.foldlM_back (· ≠ some false) (fun before value next hValue hNext => ?_)
    hSecure (by rintro rfl; cases hTrue)).2
  obtain ⟨text, hText, hEntries⟩ := Except.of_bind hValue
  obtain ⟨hBefore, hAll⟩ := Except.foldlM_back (· ≠ some false)
    (fun _ _ _ hEntry => https_of_observeScheme hEntry) hEntries hNext
  exact ⟨hBefore, text, hText, hAll⟩

/-- What resolution makes of the headers. Those of a peer that is not trusted have no effect.
Behind a trusted peer the client is the one of the forwarded chain, and if it is not a trusted
proxy itself, then nothing to its left has an effect; the connection is secure only if every
forwarded scheme is https. -/
theorem client_resolved (ingress : Ingress Network) (socket : SocketAddr) (headers : HeaderMap) :
    (ingress.isTrustedProxy (canonicalIp socket.ip) = false →
      ingress.resolve (some socket) headers = .ok (.direct (canonicalIp socket.ip))) ∧
    ∀ connection, ingress.resolve (some socket) headers = .ok connection →
      (connection.secure = true →
        ∀ value ∈ headers.getAll "x-forwarded-proto", SaysHttps value) ∧
      (ingress.isTrustedProxy (canonicalIp socket.ip) = true →
        ∃ chain, ingress.forwardedChain headers = .ok chain ∧
          IsClient ingress.isTrustedProxy (canonicalIp socket.ip) chain connection.clientIp ∧
          (ingress.isTrustedProxy connection.clientIp = false →
            ∀ left right, chain = left ++ connection.clientIp :: right →
              (∀ address ∈ right, ingress.isTrustedProxy address = true) →
              ∀ other otherHeaders otherConnection before,
                ingress.isTrustedProxy (canonicalIp other.ip) = true →
                ingress.resolve (some other) otherHeaders = .ok otherConnection →
                ingress.forwardedChain otherHeaders = .ok (before ++ connection.clientIp :: right) →
                otherConnection.clientIp = connection.clientIp)) := by
  refine ⟨resolve_of_not_trusted, fun connection hResolved => ⟨fun hSecure => ?_, fun hPeer => ?_⟩⟩
  · cases hPeer : ingress.isTrustedProxy (canonicalIp socket.ip) with
    | false =>
      rw [← Except.ok.inj ((resolve_of_not_trusted hPeer).symm.trans hResolved)] at hSecure
      cases hSecure
    | true =>
      exact saysHttps_of_forwardedIsSecure (hSecure ▸ (resolve_of_trusted hPeer hResolved).1)
  · obtain ⟨-, chain, hChain, hClient⟩ := resolve_of_trusted hPeer hResolved
    refine ⟨chain, hChain, hClient ▸ isClient_walk hPeer, ?_⟩
    intro hUntrusted left right _ hRight other otherHeaders otherConnection before hOther
      hOtherResolved hAgrees
    obtain ⟨-, otherChain, hOtherChain, hOtherClient⟩ := resolve_of_trusted hOther hOtherResolved
    obtain rfl := Except.ok.inj (hAgrees.symm.trans hOtherChain)
    rw [hOtherClient, walk_eq hOther hUntrusted hRight]

def ipv4 (first second third fourth : Nat) : IpAddr :=
  .v4 (BitVec.ofNat 32 (((first * 256 + second) * 256 + third) * 256 + fourth))

/-- A decimal number below 256 without leading zeros. -/
def octet (digits : Bytes) : Option Nat :=
  if digits = [] ∨ 3 < digits.length ∨ (digits.head? = some 48 ∧ digits ≠ [48]) then none
  else do
    let value ← digits.foldlM (fun value digit =>
      if 48 ≤ digit && digit ≤ 57 then some (value * 10 + (digit.toNat - 48)) else none) 0
    if value < 256 then some value else none

/-- The dotted form of an IPv4 address. -/
def dottedAddress (text : Bytes) : Option IpAddr :=
  match (text.splitOn 46).mapM octet with
  | some [first, second, third, fourth] => some (ipv4 first second third fourth)
  | _ => none

/-- Two trusted proxies, each as a network of its own. -/
def sampleIngress : Ingress IpAddr where
  fromStr := dottedAddress
  contains network address := decide (network = address)
  trustedProxies := [ipv4 10 0 0 1, ipv4 10 0 0 2]

def sampleHeaders (forwardedFor : String) : HeaderMap :=
  [("x-forwarded-for", asciiBytes forwardedFor), ("x-forwarded-proto", asciiBytes "HTTPS")]

def sampleResolve (forwardedFor : String) : Except ClientAddressError ClientConnection :=
  sampleIngress.resolve (some ⟨ipv4 10 0 0 1, 443⟩) (sampleHeaders forwardedFor)

/-- What stands before the client in the chain does not change the client. -/
theorem client_resolved_behind_proxies :
    sampleResolve "198.51.100.7, 203.0.113.9 ,10.0.0.2" = .ok ⟨ipv4 203 0 113 9, true, true⟩ ∧
    ∃ other, sampleResolve "192.0.2.1,203.0.113.9,10.0.0.2" = .ok other ∧
      other.clientIp = ipv4 203 0 113 9 := by
  have hResolved : sampleResolve "198.51.100.7, 203.0.113.9 ,10.0.0.2" =
      .ok ⟨ipv4 203 0 113 9, true, true⟩ := by
    decide +kernel
  obtain ⟨-, hTrusted⟩ := (client_resolved sampleIngress ⟨ipv4 10 0 0 1, 443⟩
    (sampleHeaders "198.51.100.7, 203.0.113.9 ,10.0.0.2")).2 _ hResolved
  obtain ⟨chain, hChain, -, hSame⟩ := hTrusted (by decide +kernel)
  have hSplit : sampleIngress.forwardedChain
      (sampleHeaders "198.51.100.7, 203.0.113.9 ,10.0.0.2") =
      .ok ([ipv4 198 51 100 7] ++ ipv4 203 0 113 9 :: [ipv4 10 0 0 2]) := by decide +kernel
  obtain rfl := Except.ok.inj (hChain.symm.trans hSplit)
  refine ⟨hResolved, ⟨ipv4 203 0 113 9, true, true⟩, by decide +kernel, ?_⟩
  exact hSame (by decide +kernel) _ _ rfl (by decide +kernel) ⟨ipv4 10 0 0 1, 443⟩
    (sampleHeaders "192.0.2.1,203.0.113.9,10.0.0.2") _ [ipv4 192 0 2 1] (by decide +kernel)
    (by decide +kernel) (by decide +kernel)

/-- Where all proxies are trusted, an address added to the left becomes the client. -/
theorem leftmost_trusted_replaced :
    sampleIngress.isTrustedProxy (ipv4 10 0 0 2) = true ∧
    sampleIngress.forwardedChain (sampleHeaders "10.0.0.2") = .ok [ipv4 10 0 0 2] ∧
    sampleIngress.forwardedChain (sampleHeaders "192.0.2.1,10.0.0.2") =
      .ok [ipv4 192 0 2 1, ipv4 10 0 0 2] ∧
    sampleResolve "10.0.0.2" = .ok ⟨ipv4 10 0 0 2, true, true⟩ ∧
    sampleResolve "192.0.2.1,10.0.0.2" = .ok ⟨ipv4 192 0 2 1, true, true⟩ := by
  decide +kernel

end Any2Api.Server
