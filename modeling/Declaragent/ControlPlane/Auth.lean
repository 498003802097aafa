import Declaragent.Library.JsNumber
import Mathlib.Data.List.TakeWhile

/-!
# ControlPlane — authentication

The middleware that stands before the routes of the control plane: a caller on the loopback
interface passes, any other one needs a bearer token and the scopes of the route.

* `applyControlPlaneAuth`, with the address that counts as the caller's.
* `delivered`: a client sends headers of its choice, and each proxy appends the address it sees.
* `unforgeable_iff`: when the bypass cannot be had from elsewhere.
-/

namespace Declaragent.ControlPlane
open JsonText
open JsonText.Numeral (isWhite trim)

/-- The text of a header or an address, by its characters. -/
abbrev Text := List Char

/-! ### The middleware -/

structure ControlPlanePrincipal where
  subject : String
  issuer : String := ""
  audience : List String := []
  scopes : List String := []
  provider : String := ""

inductive ControlPlaneAuthRejectReason where
  | missingToken | malformedToken | badSignature | expired | notYetValid | wrongIssuer
  | wrongAudience | insufficientScope | idpUnreachable | configError | providerFailed
  | untrustedProxy
  deriving DecidableEq

inductive ControlPlaneTokenVerifyResult where
  | ok (principal : ControlPlanePrincipal)
  | rejected (reason : ControlPlaneAuthRejectReason) (message : String)
  /-- The verifier throws. -/
  | threw (err : String)

inductive ControlPlaneAllowLoopback where
  | scalar (allow : Bool)
  | trustedProxies (proxies : List Text)

structure ControlPlaneAuth where
  verifyToken : Text → ControlPlaneTokenVerifyResult
  allowLoopback : ControlPlaneAllowLoopback := .scalar true
  routeScopes : Option (List (String × List String)) := none

/-- A request: the path and the query of its URL, and the headers that are read of it. -/
structure Request where
  pathname : String := "/"
  /-- What follows the question mark. -/
  query : Text := []
  host : Option Text := none
  xForwardedFor : Option Text := none
  authorization : Option Text := none

structure ControlPlaneAuthContext where
  peerIp : Option Text := none
  routePath : Option String := none

inductive ControlPlaneAuthResult where
  | ok (bypassed : Bool) (principal : Option ControlPlanePrincipal)
  | rejected (reason : ControlPlaneAuthRejectReason) (message : String)

def lower (c : Char) : Char := c.toLower

/-- Whether the text starts so, in either case. -/
def startsWithLower (start t : Text) : Bool := (t.take start.length).map lower = start

def mappedStart : Text := [':', ':', 'f', 'f', 'f', 'f', ':']

/-- Blanks and the start of an IPv4-mapped address are dropped. -/
def normaliseIp (ip : Text) : Text :=
  let trimmed := trim ip
  if startsWithLower mappedStart trimmed then trimmed.drop mappedStart.length else trimmed

def isLoopbackIp (ip : Text) : Bool :=
  let n := normaliseIp ip
  n = ['1', '2', '7', '.', '0', '.', '0', '.', '1'] || n = [':', ':', '1'] ||
    n.take 4 = ['1', '2', '7', '.']

/-- The first hop; `none` for an empty one. -/
def extractLeftmostXff (xff : Text) : Option Text :=
  let first := trim (xff.takeWhile (· ≠ ','))
  if first = [] then none
  else
    let stripped :=
      if first.head? = some '[' ∧ first.getLast? = some ']' then (first.drop 1).dropLast else first
    let normalized := normaliseIp stripped
    if normalized = [] then none else some normalized

/-- The sniff of the `Host` header. -/
def isLoopbackRequest (request : Request) : Bool :=
  match request.host with
  | none | some [] => true
  | some host =>
    let hostname := host.takeWhile (· ≠ ':')
    hostname = "localhost".toList || hostname = "127.0.0.1".toList ||
      hostname = "[::1]".toList || hostname = "::1".toList

inductive PeerResolution where
  | ok (peerIp : Option Text) (isLoopback : Bool)
  | rejectUntrustedProxy (peerIp : Text)

def resolveEffectivePeer (allowLoopback : ControlPlaneAllowLoopback) (request : Request)
    (context : ControlPlaneAuthContext) : PeerResolution :=
  let normalizedPeer := context.peerIp.map normaliseIp
  match allowLoopback with
  | .trustedProxies proxies =>
    let trusted := proxies.map normaliseIp
    match request.xForwardedFor with
    | some xff =>
      if trim xff = [] then
        .ok normalizedPeer (normalizedPeer.any isLoopbackIp)
      else
        match normalizedPeer with
        | none => .rejectUntrustedProxy "<unknown>".toList
        | some peer =>
          if peer ∈ trusted then
            match extractLeftmostXff xff with
            | none => .ok (some peer) (isLoopbackIp peer || isLoopbackRequest request)
            | some leftmost => .ok (some leftmost) (isLoopbackIp leftmost)
          else .rejectUntrustedProxy peer
    | none => .ok normalizedPeer (normalizedPeer.any isLoopbackIp)
  | .scalar _ =>
    match normalizedPeer with
    | some peer => .ok (some peer) (isLoopbackIp peer)
    | none => .ok none (isLoopbackRequest request)

/-- `/^\s*Bearer\s+(\S+)\s*$/i`. -/
def extractBearerToken (request : Request) : Option Text :=
  request.authorization.bind fun header =>
    let trimmed := trim header
    let rest := trimmed.drop 6
    let token := trim rest
    if startsWithLower "bearer".toList trimmed ∧ rest.head?.any isWhite ∧ token ≠ [] ∧
      token.all (fun c => !isWhite c) then some token else none

def quoted (s : String) : String := "\"" ++ s ++ "\""

/-- What is missing, as it is reported. -/
def enforceRouteScopes (routeScopes : Option (List (String × List String)))
    (routePath : Option String) (principal : ControlPlanePrincipal) : Option String :=
  match routeScopes, routePath with
  | some routeScopes, some routePath =>
    let required := (routeScopes.lookup routePath).getD []
    let missing := required.filter fun s => s ∉ principal.scopes
    if missing = [] then none
    else
      let have' := ", ".intercalate principal.scopes.eraseDups
      some ("route " ++ quoted routePath ++ " requires scope(s) " ++
        ", ".intercalate (missing.map quoted) ++ "; principal has [" ++
        (if have' = "" then "—" else have') ++ "]")
  | _, _ => none

def bypasses : ControlPlaneAllowLoopback → Bool
  | .scalar allow => allow
  | .trustedProxies _ => true

def applyControlPlaneAuth (auth : ControlPlaneAuth) (request : Request)
    (context : ControlPlaneAuthContext) : ControlPlaneAuthResult :=
  match resolveEffectivePeer auth.allowLoopback request context with
  | .rejectUntrustedProxy peerIp => .rejected .untrustedProxy
      ("untrusted proxy " ++ quoted (String.ofList peerIp) ++
        " supplied X-Forwarded-For; refuse to trust")
  | .ok _ isLoopback =>
    if bypasses auth.allowLoopback && isLoopback then .ok true none
    else
      match extractBearerToken request with
      | none => .rejected .missingToken "Authorization: Bearer <token> required"
      | some token =>
        match auth.verifyToken token with
        | .threw err => .rejected .providerFailed ("token verifier threw: " ++ err)
        | .rejected reason message => .rejected reason message
        | .ok principal =>
          match enforceRouteScopes auth.routeScopes context.routePath principal with
          | some detail => .rejected .insufficientScope detail
          | none => .ok false (some principal)

/-- As what a request passes: with no principal from the loopback interface, or with the principal
of its token, that has the scopes of the route. -/
theorem applyControlPlaneAuth_eq_ok {auth : ControlPlaneAuth} {request : Request}
    {context : ControlPlaneAuthContext} {bypassed : Bool} {principal : Option ControlPlanePrincipal}
    (h : applyControlPlaneAuth auth request context = .ok bypassed principal) :
    (bypassed = true ∧ principal = none ∧ bypasses auth.allowLoopback = true ∧
      ∃ ip, resolveEffectivePeer auth.allowLoopback request context = .ok ip true) ∨
    (bypassed = false ∧ ∃ token verified, extractBearerToken request = some token ∧
      auth.verifyToken token = .ok verified ∧ principal = some verified ∧
      enforceRouteScopes auth.routeScopes context.routePath verified = none) := by
  unfold applyControlPlaneAuth at h
  split at h
  · cases h
  · rename_i ip isLoopback hresolve
    split at h
    · rename_i hpass
      obtain ⟨hbypasses, rfl⟩ := Bool.and_eq_true_iff.mp hpass
      cases h
      exact Or.inl ⟨rfl, rfl, hbypasses, ip, hresolve⟩
    · split at h
      · cases h
      · rename_i token htoken
        split at h
        · cases h
        · cases h
        · rename_i verified hverified
          split at h
          · cases h
          · rename_i hscopes
            cases h
            exact Or.inr ⟨rfl, token, verified, htoken, hverified, rfl, hscopes⟩

/-! ### How a request gets there -/

/-- Hexadecimal digits and the colon. -/
def groupChars : Text :=
  ['0', '1', '2', '3', '4', '5', '6', '7', '8', '9', 'a', 'b', 'c', 'd', 'e', 'f', ':']

/-- The text of an IPv6 address that is not IPv4-mapped: groups of hexadecimal digits, of which one
follows where an IPv4-mapped address would have its numbers. -/
structure Ipv6Text where
  text : Text
  digits : ∀ c ∈ text, c ∈ groupChars
  nonempty : text ≠ []
  grouped : ∀ rest, text = mappedStart ++ rest → ∃ d rest', rest = d :: rest' ∧ d ≠ ':'

/-- An address of a connection. -/
inductive Address where
  | v4 (a b c d : Fin 256)
  | v4Mapped (a b c d : Fin 256)
  | v6 (address : Ipv6Text)

def dotted (a b c d : Fin 256) : Text :=
  (toString a.val).toList ++ '.' :: ((toString b.val).toList ++ '.' :: ((toString c.val).toList ++
    '.' :: (toString d.val).toList))

namespace Address

/-- As it is reported and forwarded. -/
def text : Address → Text
  | v4 a b c d => dotted a b c d
  | v4Mapped a b c d => mappedStart ++ dotted a b c d
  | v6 address => address.text

/-- 127.0.0.0/8, also when it is mapped, and `::1`. -/
def Loopback : Address → Prop
  | v4 a _ _ _ | v4Mapped a _ _ _ => a = 127
  | v6 address => address.text = [':', ':', '1']

end Address

/-- The value with the address that a proxy sees. -/
def appendSeen (xff : Option Text) (seen : Address) : Text :=
  match xff with
  | none => seen.text
  | some value => value ++ ',' :: ' ' :: seen.text

/-- The value that the server gets from a client through proxies. -/
def forwardedFor (client : Address) (xff : Option Text) : List Address → Option Text
  | [] => xff
  | proxy :: proxies => forwardedFor proxy (some (appendSeen xff client)) proxies

/-- The peer of the connection. -/
def peerOf (client : Address) : List Address → Address
  | [] => client
  | proxy :: proxies => peerOf proxy proxies

/-- The request that a client sends, as it arrives. -/
def delivered (client : Address) (proxies : List Address) (request : Request) : Request :=
  { request with xForwardedFor := forwardedFor client request.xForwardedFor proxies }

/-- What the middleware makes of it. -/
def authenticated (auth : ControlPlaneAuth) (client : Address) (proxies : List Address)
    (request : Request) (routePath : Option String) : ControlPlaneAuthResult :=
  applyControlPlaneAuth auth (delivered client proxies request)
    { peerIp := some (peerOf client proxies).text, routePath := routePath }

/-- A request that passes comes with a token that was verified, or from the loopback interface. -/
def Unforgeable (auth : ControlPlaneAuth) (client : Address) (proxies : List Address)
    (request : Request) (routePath : Option String) : Prop :=
  ∀ bypassed principal,
    authenticated auth client proxies request routePath = .ok bypassed principal →
      (bypassed = false ∧ ∃ token verified, extractBearerToken request = some token ∧
        auth.verifyToken token = .ok verified ∧ principal = some verified) ∨ client.Loopback

/-- The headers of the client pass for those of a caller on the loopback interface. -/
def Forged (allowLoopback : ControlPlaneAllowLoopback) (client : Address) (proxies : List Address)
    (request : Request) : Prop :=
  match allowLoopback with
  | .scalar allow => allow = true ∧ (peerOf client proxies).Loopback
  | .trustedProxies trusted =>
    ∃ xff, request.xForwardedFor = some xff ∧ (proxies = [] → trim xff ≠ []) ∧
      normaliseIp (peerOf client proxies).text ∈ trusted.map normaliseIp ∧
      match extractLeftmostXff xff with
      | some hop => isLoopbackIp hop = true
      | none => (peerOf client proxies).Loopback ∨ isLoopbackRequest request = true

/-! ### The texts of addresses -/

theorem isDigit_or_dot_of_mem_dotted {c : Char} {a₁ a₂ a₃ a₄ : Fin 256}
    (h : c ∈ dotted a₁ a₂ a₃ a₄) : c.isDigit = true ∨ c = '.' := by
  have hdigits : ∀ n : Nat, c ∈ (toString n).toList → c.isDigit = true := by
    intro n hc
    rw [Nat.toString_eq_ofList_toDigits, String.toList_ofList] at hc
    exact isDigit_of_mem_toDigits c hc
  simp only [dotted, List.mem_append, List.mem_cons] at h
  rcases h with h | h | h | h | h | h | h
  · exact Or.inl (hdigits _ h)
  · exact Or.inr h
  · exact Or.inl (hdigits _ h)
  · exact Or.inr h
  · exact Or.inl (hdigits _ h)
  · exact Or.inr h
  · exact Or.inl (hdigits _ h)

/-- What the texts of addresses are made of. -/
def isAddressChar (c : Char) : Prop := isWhite c = false ∧ c ≠ ',' ∧ c ≠ '[' ∧ c ≠ ']'

instance : DecidablePred isAddressChar := fun _ => inferInstanceAs (Decidable (_ ∧ _))

theorem isAddressChar_of_digit {c : Char} (h : c.isDigit = true) : isAddressChar c := by
  refine ⟨Numeral.not_isWhite_of_isDigit h, ?_, ?_, ?_⟩ <;>
    rintro rfl <;>
    cases h

theorem isAddressChar_of_mem_groupChars (c : Char) (hc : c ∈ groupChars) : isAddressChar c := by
  have hall : groupChars.all (fun c => decide (isAddressChar c)) = true := by decide
  exact of_decide_eq_true (List.all_eq_true.mp hall c hc)

theorem isAddressChar_of_mem_mappedStart (c : Char) (hc : c ∈ mappedStart) : isAddressChar c := by
  have hall : mappedStart.all (fun c => decide (isAddressChar c)) = true := by decide
  exact of_decide_eq_true (List.all_eq_true.mp hall c hc)

theorem isAddressChar_of_mem_text {c : Char} {a : Address} (h : c ∈ a.text) : isAddressChar c := by
  have hdotted : ∀ {a₁ a₂ a₃ a₄}, c ∈ dotted a₁ a₂ a₃ a₄ → isAddressChar c := by
    intro a₁ a₂ a₃ a₄ hc
    rcases isDigit_or_dot_of_mem_dotted hc with hd | rfl
    · exact isAddressChar_of_digit hd
    · exact ⟨by decide, by decide, by decide, by decide⟩
  cases a with
  | v4 a₁ a₂ a₃ a₄ => exact hdotted h
  | v4Mapped a₁ a₂ a₃ a₄ =>
    rcases List.mem_append.mp h with hc | hc
    · exact isAddressChar_of_mem_mappedStart c hc
    · exact hdotted hc
  | v6 address =>
    exact isAddressChar_of_mem_groupChars c (address.digits c h)

theorem trim_text (a : Address) : trim a.text = a.text :=
  Numeral.trim_of_notWhite fun _ hc => (isAddressChar_of_mem_text hc).1

theorem dotted_eq_cons (a b c d : Fin 256) : ∃ e rest, dotted a b c d = e :: rest ∧
    e.isDigit = true := by
  cases h : dotted a b c d with
  | nil => simp [dotted] at h
  | cons e rest =>
    refine ⟨e, rest, rfl, ?_⟩
    have hne : (toString a.val).toList ≠ [] := by
      rw [Nat.toString_eq_ofList_toDigits, String.toList_ofList]
      exact Nat.toDigits_ne_nil
    obtain ⟨e', rest', he⟩ := List.exists_cons_of_ne_nil hne
    have hfirst : e = e' := by
      rw [dotted, he] at h
      exact (List.cons.inj h).1.symm
    rw [Nat.toString_eq_ofList_toDigits, String.toList_ofList] at he
    rw [hfirst]
    exact isDigit_of_mem_toDigits e' (he ▸ List.mem_cons_self)

/-- The comparisons of `isLoopbackIp`. -/
def loopbackText (n : Text) : Prop :=
  n = ['1', '2', '7', '.', '0', '.', '0', '.', '1'] ∨ n = [':', ':', '1'] ∨
    n.take 4 = ['1', '2', '7', '.']

theorem isLoopbackIp_iff (ip : Text) : isLoopbackIp ip = true ↔ loopbackText (normaliseIp ip) := by
  simp [isLoopbackIp, loopbackText, or_assoc]

theorem loopbackText_dotted {a b c d : Fin 256} : loopbackText (dotted a b c d) ↔ a = 127 := by
  have hdot : ∀ n : Nat, '.' ∉ (toString n).toList := notMem_toString (by decide)
  constructor
  · intro h
    have hstart : (dotted a b c d).take 4 = ['1', '2', '7', '.'] := by
      rcases h with h | h | h
      · rw [h]
        rfl
      · obtain ⟨e, rest, he, hd⟩ := dotted_eq_cons a b c d
        rw [he] at h
        rw [(List.cons.inj h).1] at hd
        cases hd
      · exact h
    have hsplit : dotted a b c d = ['1', '2', '7'] ++ '.' :: (dotted a b c d).drop 4 := by
      have happend := List.take_append_drop 4 (dotted a b c d)
      rw [hstart] at happend
      exact happend.symm
    obtain ⟨ha, -⟩ := cut_at_first (hdot a.val) (by decide) hsplit
    have h127 : (['1', '2', '7'] : Text) = (toString 127).toList := by decide
    exact Fin.ext (toString_nat_injective (String.toList_inj.mp (ha.trans h127)))
  · rintro rfl
    have h127 : (toString (127 : Fin 256).val).toList = ['1', '2', '7'] := by decide
    refine Or.inr (Or.inr ?_)
    rw [dotted, h127]
    rfl

theorem lower_of_isDigit {c : Char} (h : c.isDigit = true) : lower c = c := by
  have hc : c.toNat ≤ 57 := by
    have hboth : 48 ≤ c.toNat ∧ c.toNat ≤ 57 := by
      simpa [Char.isDigit, UInt32.le_iff_toNat_le] using h
    exact hboth.2
  refine dif_neg fun ⟨hupper, _⟩ => ?_
  have hletter : 65 ≤ c.toNat := by
    simpa [UInt32.le_iff_toNat_le] using hupper
  omega

/-- A text that does not start with a colon is not that of a mapped address. -/
theorem startsWithLower_of_ne {c : Char} {t : Text} (h : lower c ≠ ':') :
    startsWithLower mappedStart (c :: t) = false := by
  rw [startsWithLower, decide_eq_false_iff_not]
  exact fun he => h (List.cons.inj he).1

theorem normaliseIp_mapped {t : Text} (h : ∀ c ∈ t, isWhite c = false) :
    normaliseIp (mappedStart ++ t) = t := by
  have hall : ∀ c ∈ mappedStart ++ t, isWhite c = false := by
    intro c hc
    rcases List.mem_append.mp hc with hc | hc
    · exact (isAddressChar_of_mem_mappedStart c hc).1
    · exact h c hc
  have hstart : startsWithLower mappedStart (mappedStart ++ t) = true := by
    simp [startsWithLower, mappedStart, lower]
  simp only [normaliseIp, Numeral.trim_of_notWhite hall, hstart, if_true, List.drop_left]

theorem normaliseIp_of_not {t : Text} (h : ∀ c ∈ t, isWhite c = false)
    (hstart : startsWithLower mappedStart t = false) : normaliseIp t = t := by
  simp [normaliseIp, Numeral.trim_of_notWhite h, hstart]

theorem normaliseIp_dotted (a b c d : Fin 256) : normaliseIp (dotted a b c d) = dotted a b c d := by
  refine normaliseIp_of_not (fun e he => ?_) ?_
  · rcases isDigit_or_dot_of_mem_dotted he with hd | rfl
    · exact Numeral.not_isWhite_of_isDigit hd
    · decide
  · obtain ⟨e, rest, he, hd⟩ := dotted_eq_cons a b c d
    rw [he]
    refine startsWithLower_of_ne ?_
    rw [lower_of_isDigit hd]
    rintro rfl
    cases hd

/-- The texts of an IPv6 address that the code compares. -/
theorem loopbackText_hex {t : Text} (h : '.' ∉ t) : loopbackText t ↔ t = [':', ':', '1'] := by
  constructor
  · rintro (he | he | he)
    · rw [he] at h
      exact absurd (by decide) h
    · exact he
    · have hmem : '.' ∈ t.take 4 := by
        rw [he]
        decide
      exact absurd (List.mem_of_mem_take hmem) h
  · exact fun he => Or.inr (Or.inl he)

theorem normalised_v6 (address : Ipv6Text) :
    normaliseIp (normaliseIp address.text) = normaliseIp address.text ∧
      (loopbackText (normaliseIp address.text) ↔ address.text = [':', ':', '1']) ∧
      normaliseIp address.text ≠ [] := by
  have hwhite : ∀ c ∈ address.text, isWhite c = false := fun c hc =>
    (isAddressChar_of_mem_text (a := .v6 address) hc).1
  have hdot : '.' ∉ address.text := fun hc => absurd (address.digits '.' hc) (by decide)
  have hall : groupChars.all (fun c => decide (lower c = c)) = true := by decide
  have hchar : ∀ c ∈ groupChars, lower c = c := fun c hc =>
    of_decide_eq_true (List.all_eq_true.mp hall c hc)
  have hlower : address.text.map lower = address.text := by
    refine (List.map_congr_left fun c hc => ?_).trans (List.map_id _)
    exact hchar c (address.digits c hc)
  cases hstart : startsWithLower mappedStart address.text with
  | false =>
    rw [normaliseIp_of_not hwhite hstart]
    exact ⟨normaliseIp_of_not hwhite hstart, loopbackText_hex hdot, address.nonempty⟩
  | true =>
    -- a group follows, which is no address on the loopback interface
    have htake : address.text.take 7 = mappedStart := by
      have h := of_decide_eq_true hstart
      rwa [List.map_take, hlower] at h
    have hsplit : address.text = mappedStart ++ address.text.drop 7 := by
      rw [← htake, List.take_append_drop]
    obtain ⟨d, rest, hrest, hd⟩ := address.grouped _ hsplit
    rw [hrest] at hsplit
    have hwhite' : ∀ c ∈ d :: rest, isWhite c = false := fun c hc =>
      hwhite c (hsplit ▸ List.mem_append_right _ hc)
    have hfirst : lower d ≠ ':' := by
      rwa [hchar d (address.digits d (hsplit ▸ List.mem_append_right _ List.mem_cons_self))]
    have hnorm : normaliseIp address.text = d :: rest := by
      rw [hsplit]
      exact normaliseIp_mapped hwhite'
    rw [hnorm]
    refine ⟨normaliseIp_of_not hwhite' (startsWithLower_of_ne hfirst), ?_, List.cons_ne_nil _ _⟩
    rw [loopbackText_hex fun hc => hdot (hsplit ▸ List.mem_append_right _ hc), hsplit]
    exact iff_of_false (fun he => hd (List.cons.inj he).1) (by simp [mappedStart])

/-- **The address of a connection** is taken for one of the loopback interface exactly if it is. -/
theorem normalised (a : Address) :
    normaliseIp (normaliseIp a.text) = normaliseIp a.text ∧
      (loopbackText (normaliseIp a.text) ↔ a.Loopback) ∧ normaliseIp a.text ≠ [] := by
  have hne : ∀ a b c d, dotted a b c d ≠ [] := by
    intro a b c d
    obtain ⟨e, rest, he, -⟩ := dotted_eq_cons a b c d
    rw [he]
    exact List.cons_ne_nil _ _
  cases a with
  | v4 a b c d =>
    simp only [Address.text, normaliseIp_dotted]
    exact ⟨trivial, loopbackText_dotted, hne a b c d⟩
  | v4Mapped a b c d =>
    have hmapped : normaliseIp (mappedStart ++ dotted a b c d) = dotted a b c d :=
      normaliseIp_mapped fun e he =>
        (isAddressChar_of_mem_text (a := .v4 a b c d) he).1
    simp only [Address.text, hmapped, normaliseIp_dotted]
    exact ⟨trivial, loopbackText_dotted, hne a b c d⟩
  | v6 address => exact normalised_v6 address

theorem isLoopbackIp_normaliseIp (a : Address) :
    isLoopbackIp (normaliseIp a.text) = true ↔ a.Loopback := by
  rw [isLoopbackIp_iff, (normalised a).1, (normalised a).2.1]

/-! ### The first hop -/

theorem takeWhile_comma (value rest : Text) :
    (value ++ ',' :: rest).takeWhile (· ≠ ',') = value.takeWhile (· ≠ ',') := by
  induction value with
  | nil => rfl
  | cons c value ih =>
    rw [List.cons_append, List.takeWhile_cons, List.takeWhile_cons, ih]

/-- The first hop of the texts that proxies make is that of the text they got. -/
theorem takeWhile_forwardedFor (client : Address) (value : Text) (proxies : List Address) :
    ∃ xff, forwardedFor client (some value) proxies = some xff ∧
      xff.takeWhile (· ≠ ',') = value.takeWhile (· ≠ ',') ∧ (proxies ≠ [] → ',' ∈ xff) ∧
      (proxies = [] → xff = value) := by
  induction proxies generalizing client value with
  | nil => exact ⟨value, rfl, rfl, fun h => absurd rfl h, fun _ => rfl⟩
  | cons proxy proxies ih =>
    obtain ⟨xff, hxff, hfirst, hcomma, hlast⟩ := ih proxy (value ++ ',' :: ' ' :: client.text)
    refine ⟨xff, hxff, hfirst.trans ?_, fun _ => ?_, fun h => absurd h (List.cons_ne_nil _ _)⟩
    · exact takeWhile_comma value _
    · cases proxies with
      | nil =>
        rw [hlast rfl]
        exact List.mem_append_right _ List.mem_cons_self
      | cons => exact hcomma (List.cons_ne_nil _ _)

theorem extractLeftmostXff_congr {xff value : Text}
    (h : xff.takeWhile (· ≠ ',') = value.takeWhile (· ≠ ',')) :
    extractLeftmostXff xff = extractLeftmostXff value := by
  unfold extractLeftmostXff
  rw [h]

/-- An address as the first hop is the address. -/
theorem extractLeftmostXff_text (a : Address) :
    extractLeftmostXff a.text = some (normaliseIp a.text) := by
  have hall : a.text.takeWhile (· ≠ ',') = a.text := by
    rw [List.takeWhile_eq_self_iff]
    intro c hc
    simpa using (isAddressChar_of_mem_text hc).2.1
  obtain ⟨-, -, hnorm⟩ := normalised a
  have hne : a.text ≠ [] := by
    intro he
    rw [he] at hnorm
    exact hnorm rfl
  have hbracket : ¬ (a.text.head? = some '[' ∧ a.text.getLast? = some ']') := fun h =>
    (isAddressChar_of_mem_text (List.mem_of_head? h.1)).2.2.1 rfl
  unfold extractLeftmostXff
  simp only [hall, trim_text, hne, if_false, hbracket, hnorm]

section
variable {allowLoopback : ControlPlaneAllowLoopback} {client : Address} {proxies : List Address}
  {request : Request} {routePath : Option String}

/-- The verifier is left out. -/
def Bypassed (allowLoopback : ControlPlaneAllowLoopback) (client : Address)
    (proxies : List Address) (request : Request) (routePath : Option String) : Prop :=
  bypasses allowLoopback = true ∧ ∃ ip,
    resolveEffectivePeer allowLoopback (delivered client proxies request)
      { peerIp := some (peerOf client proxies).text, routePath := routePath } = .ok ip true

/-- What the middleware takes from a value that is not blank, of a trusted peer or another one. -/
theorem resolve_xff {trusted : List Text} {xff : Text} {peer : Address}
    (hxff : request.xForwardedFor = some xff) (hblank : trim xff ≠ []) :
    resolveEffectivePeer (.trustedProxies trusted) request
        { peerIp := some peer.text, routePath := routePath } =
      if normaliseIp peer.text ∈ trusted.map normaliseIp then
        match extractLeftmostXff xff with
        | none => .ok (some (normaliseIp peer.text))
            (isLoopbackIp (normaliseIp peer.text) || isLoopbackRequest request)
        | some leftmost => .ok (some leftmost) (isLoopbackIp leftmost)
      else .rejectUntrustedProxy (normaliseIp peer.text) := by
  unfold resolveEffectivePeer
  simp only [hxff, hblank, if_false, Option.map_some]

theorem resolve_noXff {trusted : List Text} {peer : Address}
    (hxff : ∀ xff, request.xForwardedFor = some xff → trim xff = []) :
    resolveEffectivePeer (.trustedProxies trusted) request
        { peerIp := some peer.text, routePath := routePath } =
      .ok (some (normaliseIp peer.text)) (isLoopbackIp (normaliseIp peer.text)) := by
  unfold resolveEffectivePeer
  cases h : request.xForwardedFor with
  | none => rfl
  | some xff => simp only [hxff xff h, if_true, Option.map_some, Option.any_some]

/-- What arrives of the value of a client that sends one. -/
theorem delivered_xff (client : Address) {value : Text}
    (hvalue : request.xForwardedFor = some value)
    (hblank : proxies = [] → trim value ≠ []) :
    ∃ xff, (delivered client proxies request).xForwardedFor = some xff ∧ trim xff ≠ [] ∧
      extractLeftmostXff xff = extractLeftmostXff value := by
  obtain ⟨xff, hxff, hfirst, hcomma, hlast⟩ := takeWhile_forwardedFor client value proxies
  refine ⟨xff, ?_, ?_, extractLeftmostXff_congr hfirst⟩
  · rw [delivered, hvalue]
    exact hxff
  · by_cases hnil : proxies = []
    · rw [hlast hnil]
      exact hblank hnil
    · exact Numeral.trim_ne_nil (hcomma hnil) (by decide)

/-- What arrives where the client sends none. -/
theorem delivered_none (client : Address) (hvalue : request.xForwardedFor = none)
    (hne : proxies ≠ []) :
    ∃ xff, (delivered client proxies request).xForwardedFor = some xff ∧ trim xff ≠ [] ∧
      extractLeftmostXff xff = some (normaliseIp client.text) := by
  obtain ⟨proxy, rest, rfl⟩ := List.exists_cons_of_ne_nil hne
  obtain ⟨xff, hxff, hfirst, hcomma, hlast⟩ := takeWhile_forwardedFor proxy client.text rest
  refine ⟨xff, ?_, ?_, (extractLeftmostXff_congr hfirst).trans (extractLeftmostXff_text client)⟩
  · rw [delivered, hvalue]
    exact hxff
  · by_cases hnil : rest = []
    · rw [hlast hnil, trim_text]
      intro he
      obtain ⟨-, -, hnorm⟩ := normalised client
      rw [he] at hnorm
      exact hnorm rfl
    · exact Numeral.trim_ne_nil (hcomma hnil) (by decide)

theorem bypassed_of_forged (h : Forged allowLoopback client proxies request) :
    Bypassed allowLoopback client proxies request routePath := by
  cases allowLoopback with
  | scalar allow =>
    obtain ⟨hallow, hloopback⟩ := h
    refine ⟨hallow, some (normaliseIp (peerOf client proxies).text), ?_⟩
    unfold resolveEffectivePeer
    simp only [Option.map_some, (isLoopbackIp_normaliseIp _).mpr hloopback]
  | trustedProxies trusted =>
    obtain ⟨value, hvalue, hblank, htrusted, hforged⟩ := h
    obtain ⟨xff, hxff, hnotblank, hleftmost⟩ := delivered_xff client hvalue hblank
    refine ⟨rfl, ?_⟩
    rw [resolve_xff hxff hnotblank, if_pos htrusted, hleftmost]
    cases hhop : extractLeftmostXff value with
    | none =>
      rw [hhop] at hforged
      refine ⟨_, congrArg _ (Bool.or_eq_true_iff.mpr ?_)⟩
      exact hforged.imp_left (isLoopbackIp_normaliseIp _).mpr
    | some hop =>
      rw [hhop] at hforged
      exact ⟨_, congrArg _ hforged⟩

theorem loopback_of_bypassed (h : Bypassed allowLoopback client proxies request routePath)
    (hnot : ¬ Forged allowLoopback client proxies request) : client.Loopback := by
  obtain ⟨hbypasses, ip, hresolve⟩ := h
  cases allowLoopback with
  | scalar allow =>
    unfold resolveEffectivePeer at hresolve
    simp only [Option.map_some, PeerResolution.ok.injEq] at hresolve
    exact absurd ⟨hbypasses, (isLoopbackIp_normaliseIp _).mp hresolve.2⟩ hnot
  | trustedProxies trusted =>
    cases hvalue : request.xForwardedFor with
    | none =>
      by_cases hnil : proxies = []
      · subst hnil
        have hnone : ∀ xff, (delivered client [] request).xForwardedFor = some xff →
            trim xff = [] := by
          intro xff hxff
          rw [delivered, hvalue] at hxff
          cases hxff
        rw [resolve_noXff hnone, PeerResolution.ok.injEq] at hresolve
        exact (isLoopbackIp_normaliseIp _).mp hresolve.2
      · obtain ⟨xff, hxff, hnotblank, hleftmost⟩ :=
          delivered_none client hvalue hnil
        rw [resolve_xff hxff hnotblank, hleftmost] at hresolve
        split at hresolve
        · simp only [PeerResolution.ok.injEq] at hresolve
          exact (isLoopbackIp_normaliseIp _).mp hresolve.2
        · cases hresolve
    | some value =>
      by_cases hblank : proxies = [] ∧ trim value = []
      · obtain ⟨rfl, hempty⟩ := hblank
        have hnone : ∀ xff, (delivered client [] request).xForwardedFor = some xff →
            trim xff = [] := by
          intro xff hxff
          rw [delivered, hvalue] at hxff
          obtain rfl := Option.some.inj hxff
          exact hempty
        rw [resolve_noXff hnone, PeerResolution.ok.injEq] at hresolve
        exact (isLoopbackIp_normaliseIp _).mp hresolve.2
      · have hkeeps : proxies = [] → trim value ≠ [] := fun hnil hempty =>
          hblank ⟨hnil, hempty⟩
        obtain ⟨xff, hxff, hnotblank, hleftmost⟩ :=
          delivered_xff client hvalue hkeeps
        rw [resolve_xff hxff hnotblank, hleftmost] at hresolve
        split at hresolve
        · rename_i htrusted
          refine absurd ⟨value, hvalue, hkeeps, htrusted, ?_⟩ hnot
          cases hhop : extractLeftmostXff value with
          | none =>
            rw [hhop] at hresolve
            simp only [PeerResolution.ok.injEq, Bool.or_eq_true_iff] at hresolve
            exact hresolve.2.imp_left (isLoopbackIp_normaliseIp _).mp
          | some hop =>
            rw [hhop] at hresolve
            simp only [PeerResolution.ok.injEq] at hresolve
            exact hresolve.2
        · cases hresolve

/-- A request that is not bypassed has its token verified. -/
theorem verified_of_ok {auth : ControlPlaneAuth} {bypassed : Bool}
    {principal : Option ControlPlanePrincipal}
    (hok : authenticated auth client proxies request routePath = .ok bypassed principal)
    (hnot : ¬ Bypassed auth.allowLoopback client proxies request routePath) :
    bypassed = false ∧ ∃ token verified, extractBearerToken request = some token ∧
      auth.verifyToken token = .ok verified ∧ principal = some verified := by
  rcases applyControlPlaneAuth_eq_ok hok with
    ⟨-, -, hbypasses, hresolve⟩ | ⟨hfalse, token, verified, htoken, hverified, hprincipal, -⟩
  · exact absurd ⟨hbypasses, hresolve⟩ hnot
  · exact ⟨hfalse, token, verified, htoken, hverified, hprincipal⟩

theorem authenticated_of_bypassed {auth : ControlPlaneAuth}
    (h : Bypassed auth.allowLoopback client proxies request routePath) :
    authenticated auth client proxies request routePath = .ok true none := by
  obtain ⟨hbypasses, ip, hresolve⟩ := h
  unfold authenticated applyControlPlaneAuth
  simp only [hresolve, hbypasses, Bool.and_self, if_true]

end

/-- **The bypass** is had from the loopback interface only, unless the headers of the client pass
for those of a caller there. -/
theorem unforgeable_iff (auth : ControlPlaneAuth) (client : Address) (proxies : List Address)
    (request : Request) (routePath : Option String) :
    Unforgeable auth client proxies request routePath ↔
      client.Loopback ∨ ¬ Forged auth.allowLoopback client proxies request := by
  constructor
  · intro h
    by_contra hnone
    rw [not_or, not_not] at hnone
    obtain ⟨hremote, hforged⟩ := hnone
    rcases h true none (authenticated_of_bypassed (bypassed_of_forged hforged)) with
      ⟨hverified, -⟩ | hloopback
    · cases hverified
    · exact hremote hloopback
  · intro h bypassed principal hok
    rcases h with hloopback | hnot
    · exact Or.inr hloopback
    · by_cases hbypassed : Bypassed auth.allowLoopback client proxies request routePath
      · exact Or.inr (loopback_of_bypassed hbypassed hnot)
      · exact Or.inl (verified_of_ok hok hbypassed)

/-- A client elsewhere writes the first hop of the value that the proxy appends to. -/
theorem claims_loopback :
    ¬ Unforgeable
        { verifyToken := fun _ => .rejected .badSignature "signature"
          allowLoopback := .trustedProxies [(Address.v4 10 0 0 5).text] }
        (.v4 203 0 113 9) [.v4 10 0 0 5]
        { xForwardedFor := some (Address.v4 127 0 0 1).text } none := by
  intro h
  have hhop : extractLeftmostXff (Address.v4 127 0 0 1).text =
      some (normaliseIp (Address.v4 127 0 0 1).text) := extractLeftmostXff_text _
  have hforged : Forged (.trustedProxies [(Address.v4 10 0 0 5).text]) (.v4 203 0 113 9)
      [.v4 10 0 0 5] { xForwardedFor := some (Address.v4 127 0 0 1).text } := by
    refine ⟨_, rfl, fun hnil => absurd hnil (List.cons_ne_nil _ _), List.mem_singleton_self _, ?_⟩
    rw [hhop]
    exact (isLoopbackIp_normaliseIp _).mpr rfl
  rcases h true none (authenticated_of_bypassed (bypassed_of_forged hforged)) with
    ⟨hverified, -⟩ | hloopback
  · cases hverified
  · cases hloopback

end Declaragent.ControlPlane
