import Declaragent.Library.Transition
import Declaragent.Rpc.Jwt
import Declaragent.Rpc.Signing

/-!
# Rpc — tokens of an identity provider

A token is verified with the keys that its issuer publishes.  They are fetched on demand and kept
for a while; for a token that no key fits, what is kept is dropped and fetched again, as the keys
may have changed.  Calls of `verify` come one after another, with whatever answers they get.

* `Inv` says what is kept; `survives_iff` compares it with what was last received.
* `warm_iff`: while the issuer does not answer, the tokens that are valid under the keys it last
  gave are accepted in every state of a run just if no step evicts keys that a token is valid
  under.
-/

namespace Declaragent.Rpc.Oidc
open JsonText Jwt
open Transition

/-! ### The provider -/

structure OidcPeerConfig where
  issuer : String
  audience : String
  jwksUri : Option String := none
  scopes : Option (List String) := none

structure CreateOidcAuthProviderOptions where
  jwksCacheTtlMs : Option Int := none
  clockSkewSec : Option Int := none

def DEFAULT_JWKS_TTL_MS : Int := 5 * 60 * 1000

def DEFAULT_CLOCK_SKEW_SEC : Int := 60

def CreateOidcAuthProviderOptions.ttlMs (options : CreateOidcAuthProviderOptions) : Int :=
  options.jwksCacheTtlMs.getD DEFAULT_JWKS_TTL_MS

structure RpcAuthPrincipal where
  subject : String
  issuer : String
  audience : JsValue
  scopes : List String
  claims : JsValue

inductive RpcAuthRejectReason where
  | missingAuth
  | wrongKind
  | malformedToken
  | algNone
  | missingClaim
  | wrongIssuer
  | wrongAudience
  | idpUnreachable
  | badSignature
  | expired
  | notYetValid
  | insufficientScope
  deriving DecidableEq

/-- What a call of `verify` comes to: a promise may also be rejected. -/
inductive Outcome where
  | ok (principal : RpcAuthPrincipal)
  | rejected (reason : RpcAuthRejectReason) (message : String)
  | threw (err : String)

def Outcome.isOk : Outcome → Bool
  | .ok _ => true
  | _ => false

/-- What `fetch` and reading the answer come to. -/
inductive Answer where
  | fails (err : String)
  | response (ok : Bool) (status : Nat) (body : Except String JsValue)

/-- A call: the envelope and the configuration of its peer, the answers to the requests that it
may make, and the times at which the cache is asked, keys are received, and claims are checked. -/
structure Call (P : Type) where
  envelope : AgentRpcEnvelope P
  peerConfig : OidcPeerConfig
  discovery : Answer
  jwks : Answer
  again : Answer
  checkedAt : Int
  fetchedAt : Int
  againAt : Int
  claimsAt : Int

structure JwksCacheEntry where
  fetchedAt : Int
  keys : List JsValue

/-- The caches, and all key sets that were received, the last one first. -/
structure Provider where
  jwksCache : String → Option JwksCacheEntry := fun _ => none
  discoveryCache : String → Option String := fun _ => none
  received : List (String × JwksCacheEntry) := []

def Provider.receive (p : Provider) (uri : String) (entry : JwksCacheEntry) : Provider :=
  { p with
    jwksCache := Function.update p.jwksCache uri (some entry)
    received := (uri, entry) :: p.received }

/-- Whether a value counts as true. -/
def truthy : JsValue → Bool
  | .undefined | .null | .nonFinite .nan => false
  | .bool b => b
  | .num n => n.mantissa ≠ 0
  | .str s => s ≠ ""
  | .nonFinite (.infinity _) | .arr _ | .obj _ => true

section
variable {P CryptoKey : Type} (F : NumberFormat) (W : Wording) (subtle : SubtleCrypto CryptoKey)
  (options : CreateOidcAuthProviderOptions)

/-! ### What a token says of itself -/

/-- The checks before any key is asked for. -/
def decodeToken (envelope : AgentRpcEnvelope P) (peerConfig : OidcPeerConfig) :
    Except Outcome DecodedJwt :=
  match envelope.auth with
  | none => .error (.rejected .missingAuth "envelope missing auth block")
  | some (.oidc token _) =>
    match decodeJwt F W token with
    | .error err => .error (.rejected .malformedToken err)
    | .ok decoded =>
      if decoded.alg = "none" ∨ decoded.alg = "None" then
        .error (.rejected .algNone "alg: none is not accepted")
      else if decoded.alg ∉ SUPPORTED_ALGS then
        .error (.rejected .malformedToken ("unsupported alg \"" ++ decoded.alg ++ "\""))
      else
        match decoded.claims with
        | .null => .error (.threw W.nullProperty)
        | claims =>
          match claims.get "iss", claims.get "aud" with
          | .str _, .undefined =>
            .error (.rejected .missingClaim "claim `aud` is required")
          | .str iss, aud =>
            if iss ≠ peerConfig.issuer then
              .error (.rejected .wrongIssuer ("issuer \"" ++ iss ++
                "\" does not match peer config \"" ++ peerConfig.issuer ++ "\""))
            else if audienceMatches claims peerConfig.audience then .ok decoded
            else .error (.rejected .wrongAudience ("audience \"" ++
              (jsonText aud).getD "undefined" ++ "\" does not include \"" ++
              peerConfig.audience ++ "\""))
          | _, _ => .error (.rejected .missingClaim "claim `iss` is required")
  | some auth => .error (.rejected .wrongKind
      ("expected auth.kind \"oidc\", got \"" ++ auth.kind ++ "\""))

/-- The checks with a key. -/
def concludeWith (decoded : DecodedJwt) (key : JsValue) (peerConfig : OidcPeerConfig)
    (nowMs : Int) : Outcome :=
  match (importJwk subtle key decoded.alg).bind (verifyJwtSignature subtle decoded) with
  | .error err => .rejected .badSignature ("signature verify threw: " ++ err)
  | .ok false => .rejected .badSignature "JWT signature did not verify"
  | .ok true =>
    match checkTimeClaims decoded.claims (nowMs / 1000)
        (options.clockSkewSec.getD DEFAULT_CLOCK_SKEW_SEC) with
    | some (code, field) =>
      .rejected
        (match code with
          | .expired => .expired
          | .notYetValid => .notYetValid
          | .missingClaim => .missingClaim)
        ("time-claim check failed: " ++ code.text ++ " on " ++ field)
    | none =>
      let scopes := extractScopes decoded.claims
      match (peerConfig.scopes.getD []).find? (· ∉ scopes) with
      | some s => .rejected .insufficientScope ("missing required scope \"" ++ s ++ "\"")
      | none => .ok
          { subject := match decoded.claims.get "sub" with
              | .str sub => sub
              | _ => ""
            issuer := peerConfig.issuer
            audience := decoded.claims.get "aud"
            scopes
            claims := decoded.claims }

/-! ### The keys -/

def discoveryUrl (issuer : String) : String :=
  (if issuer.toList.getLast? = some '/' then String.ofList issuer.toList.dropLast else issuer) ++
    "/.well-known/openid-configuration"

def discoverJwksUri (p : Provider) (issuer : String) (answer : Answer) :
    Provider × Except (RpcAuthRejectReason × String) String :=
  match (p.discoveryCache issuer).filter (· ≠ "") with
  | some cached => (p, .ok cached)
  | none =>
    match answer with
    | .fails err => (p, .error (.idpUnreachable, err))
    | .response false status _ =>
      (p, .error (.idpUnreachable,
        "OIDC discovery " ++ discoveryUrl issuer ++ " returned HTTP " ++ toString status))
    | .response true _ (.error err) => (p, .error (.idpUnreachable, err))
    | .response true _ (.ok doc) =>
      match doc.get "jwks_uri" with
      | .str uri =>
        if truthy (doc.get "issuer") && !isText issuer (doc.get "issuer") then
          (p, .error (.wrongIssuer, "OIDC discovery issuer \"" ++
            W.display (doc.get "issuer") ++ "\" does not match configured \"" ++ issuer ++
            "\""))
        else
          ({ p with discoveryCache := Function.update p.discoveryCache issuer (some uri) },
            .ok uri)
      | _ => (p, .error (.idpUnreachable,
          "OIDC discovery missing jwks_uri: " ++ discoveryUrl issuer))

def resolveJwksUri (p : Provider) (peerConfig : OidcPeerConfig) (answer : Answer) :
    Provider × Except (RpcAuthRejectReason × String) String :=
  match peerConfig.jwksUri with
  | some uri => (p, .ok uri)
  | none => discoverJwksUri W p peerConfig.issuer answer

/-- `Array.isArray(doc?.keys) ? doc.keys : []`. -/
def keysOf (doc : JsValue) : List JsValue :=
  match doc.get "keys" with
  | .arr keys => keys
  | _ => []

def fetchError (uri err : String) : String := "JWKS fetch failed for " ++ uri ++ ": " ++ err

/-- Ask for the keys, which are received at `fetchedAt`. -/
def requestJwks (p : Provider) (uri : String) (answer : Answer) (fetchedAt : Int) :
    Provider × Except String (List JsValue) :=
  match answer with
  | .fails err => (p, .error (fetchError uri err))
  | .response false status _ => (p, .error (fetchError uri ("HTTP " ++ toString status)))
  | .response true _ (.error err) => (p, .error (fetchError uri err))
  | .response true _ (.ok doc) =>
    (p.receive uri ⟨fetchedAt, keysOf doc⟩, .ok (keysOf doc))

def fetchJwks (p : Provider) (uri : String) (now : Int) (answer : Answer) (fetchedAt : Int) :
    Provider × Except String (List JsValue) :=
  match p.jwksCache uri with
  | some cached =>
    if now - cached.fetchedAt < options.ttlMs then (p, .ok cached.keys)
    else requestJwks p uri answer fetchedAt
  | none => requestJwks p uri answer fetchedAt

/-- The first key with the identifier; looking for it throws at a key that is `null`. -/
def findKey (kid : String) : List JsValue → Except String (Option JsValue)
  | [] => .ok none
  | .undefined :: _ | .null :: _ => .error W.nullProperty
  | key :: keys => if isText kid (key.get "kid") then .ok (some key) else findKey kid keys

/-- The only key, if it counts as one. -/
def onlyKey : List JsValue → Option JsValue
  | [key] => if truthy key then some key else none
  | _ => none

def selectKey (keys : List JsValue) (decoded : DecodedJwt) : Except String (Option JsValue) :=
  match decoded.header.get "kid" with
  | .str kid => if kid.length = 0 then .ok (onlyKey keys) else findKey W kid keys
  | _ => .ok (onlyKey keys)

def invalidateJwks (p : Provider) (uri : String) : Provider :=
  { p with jwksCache := Function.update p.jwksCache uri none }

/-! ### The call -/

/-- `${value ?? '<none>'}`. -/
def displayKid : JsValue → String
  | .undefined | .null => "<none>"
  | value => W.display value

/-- A token that no key fits may be of a key that the provider has not seen. -/
def verifyAgain (p : Provider) (c : Call P) (decoded : DecodedJwt) (uri : String) :
    Provider × Outcome :=
  match fetchJwks options (invalidateJwks p uri) uri c.fetchedAt c.again c.againAt with
  | (p, .error err) => (p, .rejected .idpUnreachable err)
  | (p, .ok keys) =>
    match selectKey W keys decoded with
    | .error err => (p, .threw err)
    | .ok (some key) => (p, concludeWith subtle options decoded key c.peerConfig c.claimsAt)
    | .ok none => (p, .rejected .badSignature
        ("no JWKS key matches kid \"" ++ displayKid W (decoded.header.get "kid") ++ "\""))

def verifyKeyed (p : Provider) (c : Call P) (decoded : DecodedJwt) (uri : String) :
    Provider × Outcome :=
  match fetchJwks options p uri c.checkedAt c.jwks c.fetchedAt with
  | (p, .error err) => (p, .rejected .idpUnreachable err)
  | (p, .ok keys) =>
    match selectKey W keys decoded with
    | .error err => (p, .threw err)
    | .ok (some key) => (p, concludeWith subtle options decoded key c.peerConfig c.claimsAt)
    | .ok none => verifyAgain W subtle options p c decoded uri

def verify (p : Provider) (c : Call P) : Provider × Outcome :=
  match decodeToken F W c.envelope c.peerConfig with
  | .error outcome => (p, outcome)
  | .ok decoded =>
    match resolveJwksUri W p c.peerConfig c.discovery with
    | (p, .error (reason, message)) => (p, .rejected reason message)
    | (p, .ok uri) => verifyKeyed W subtle options p c decoded uri

def verifyStep (p : Provider) (c : Call P) : Option Provider :=
  some (verify F W subtle options p c).1

/-! ### What is promised -/

/-- The document of an answer that has one. -/
def Answer.document : Answer → Option JsValue
  | .response true _ (.ok doc) => some doc
  | _ => none

/-- The token of the call is valid under the keys. -/
def ValidUnder (keys : List JsValue) (c : Call P) : Prop :=
  ∃ decoded key, decodeToken F W c.envelope c.peerConfig = .ok decoded ∧
    selectKey W keys decoded = .ok (some key) ∧
    (concludeWith subtle options decoded key c.peerConfig c.claimsAt).isOk = true

/-- The address of the keys, where nobody has to be asked for it. -/
def knownUri (p : Provider) (peerConfig : OidcPeerConfig) : Option String :=
  peerConfig.jwksUri <|> (p.discoveryCache peerConfig.issuer).filter (· ≠ "")

/-- **The keys survive.**  A token that is valid under the keys that were last received, no longer
than the time to live ago, is accepted whatever is answered now. -/
def Survives (P : Type) (p : Provider) : Prop :=
  ∀ (c : Call P) (uri : String) (entry : JwksCacheEntry), knownUri p c.peerConfig = some uri →
    p.received.lookup uri = some entry → c.checkedAt - entry.fetchedAt < options.ttlMs →
    ValidUnder F W subtle options entry.keys c →
    (verify F W subtle options p c).2.isOk = true

/-- Some token is valid under the keys. -/
def Usable (P : Type) (keys : List JsValue) : Prop :=
  ∃ c : Call P, ValidUnder F W subtle options keys c

/-- The keys that a call looks at first: those that are kept, or else those that it is given. -/
def keysFor (p : Provider) (uri : String) (now : Int) (answer : Answer) : Option (List JsValue) :=
  match p.jwksCache uri with
  | some cached =>
    if now - cached.fetchedAt < options.ttlMs then some cached.keys
    else answer.document.map keysOf
  | none => answer.document.map keysOf

/-- The call evicts keys that some token is valid under: its own token passes the checks that need
no key, no key fits it, and the request for others is not answered. -/
def Evicts (p : Provider) (c : Call P) : Prop :=
  ∃ decoded uri keys, decodeToken F W c.envelope c.peerConfig = .ok decoded ∧
    (resolveJwksUri W p c.peerConfig c.discovery).2 = .ok uri ∧
    keysFor options p uri c.checkedAt c.jwks = some keys ∧
    selectKey W keys decoded = .ok none ∧ c.again.document = none ∧
    Usable F W subtle options P keys

/-- What is kept was received last. -/
def Cached (p : Provider) : Prop :=
  ∀ uri entry, p.jwksCache uri = some entry → p.received.lookup uri = some entry

/-- What is kept was received last, and what was received last is kept if it is of use. -/
structure Kept (P : Type) (p : Provider) : Prop where
  cached : Cached p
  usable : ∀ uri entry, p.received.lookup uri = some entry →
    Usable F W subtle options P entry.keys → p.jwksCache uri = some entry

end

/-! ### What a request does -/

variable {P CryptoKey : Type} {F : NumberFormat} {W : Wording} {subtle : SubtleCrypto CryptoKey}
  {options : CreateOidcAuthProviderOptions} {p q : Provider} {c : Call P} {uri : String}
  {decoded : DecodedJwt} {keys : List JsValue} {answer : Answer} {entry : JwksCacheEntry}

/-- The same keys, kept and received. -/
def SameKeys (p q : Provider) : Prop := q.jwksCache = p.jwksCache ∧ q.received = p.received

theorem Cached.congr (h : Cached p) (hsame : SameKeys p q) : Cached q := by
  rw [Cached, hsame.1, hsame.2]
  exact h

theorem Kept.congr (h : Kept F W subtle options P p) (hsame : SameKeys p q) :
    Kept F W subtle options P q := by
  refine ⟨h.cached.congr hsame, ?_⟩
  rw [hsame.1, hsame.2]
  exact h.usable

theorem keysFor_congr (hsame : SameKeys p q) (uri : String) (now : Int) (answer : Answer) :
    keysFor options q uri now answer = keysFor options p uri now answer := by
  rw [keysFor, keysFor, hsame.1]

theorem lookup_receive (uri' : String) :
    (p.receive uri entry).received.lookup uri' =
      if uri' = uri then some entry else p.received.lookup uri' := by
  rw [Provider.receive, List.lookup_cons]
  by_cases h : uri' = uri
  · rw [if_pos h, beq_iff_eq.mpr h]
  · rw [if_neg h, beq_false_of_ne h]

theorem jwksCache_receive (uri' : String) :
    (p.receive uri entry).jwksCache uri' = if uri' = uri then some entry else p.jwksCache uri' :=
  Function.update_apply _ _ _ _

theorem jwksCache_invalidate (uri' : String) :
    (invalidateJwks p uri).jwksCache uri' = if uri' = uri then none else p.jwksCache uri' :=
  Function.update_apply _ _ _ _

theorem Cached.receive (h : Cached p) (uri : String) (entry : JwksCacheEntry) :
    Cached (p.receive uri entry) := by
  intro uri' entry'
  rw [lookup_receive, jwksCache_receive]
  split
  · exact id
  · exact h uri' entry'

theorem Cached.invalidate (h : Cached p) (uri : String) : Cached (invalidateJwks p uri) := by
  intro uri' entry'
  rw [jwksCache_invalidate]
  split
  · intro hnone
    cases hnone
  · exact h uri' entry'

theorem Kept.receive (h : Kept F W subtle options P p) (uri : String) (entry : JwksCacheEntry) :
    Kept F W subtle options P (p.receive uri entry) := by
  refine ⟨h.cached.receive uri entry, fun uri' entry' => ?_⟩
  rw [lookup_receive, jwksCache_receive]
  split
  · exact fun heq _ => heq
  · exact h.usable uri' entry'

/-- Keys that are received take the place of those that were dropped. -/
theorem receive_invalidated : (invalidateJwks p uri).receive uri entry = p.receive uri entry := by
  rw [Provider.receive, invalidateJwks, Function.update_idem]
  rfl

theorem requestJwks_answered {doc : JsValue} (h : answer.document = some doc) (fetchedAt : Int) :
    requestJwks p uri answer fetchedAt =
      (p.receive uri ⟨fetchedAt, keysOf doc⟩, .ok (keysOf doc)) := by
  cases answer with
  | fails err => cases h
  | response ok status body =>
    cases ok <;> cases body <;> cases h
    rfl

theorem requestJwks_unanswered (p : Provider) (uri : String) (h : answer.document = none)
    (fetchedAt : Int) :
    ∃ err, requestJwks p uri answer fetchedAt = (p, .error err) := by
  cases answer with
  | fails err => exact ⟨_, rfl⟩
  | response ok status body =>
    cases ok with
    | false => exact ⟨_, rfl⟩
    | true =>
      cases body with
      | error err => exact ⟨_, rfl⟩
      | ok doc => cases h

/-- Keys are looked up: they are kept afterwards, or none are found and nothing changes. -/
theorem fetchJwks_cases (options : CreateOidcAuthProviderOptions) (p : Provider) (uri : String)
    (now : Int) (answer : Answer) (fetchedAt : Int) :
    (∃ q entry, fetchJwks options p uri now answer fetchedAt = (q, .ok entry.keys) ∧
      keysFor options p uri now answer = some entry.keys ∧ q.jwksCache uri = some entry ∧
      (q = p ∨ q = p.receive uri entry)) ∨
    (keysFor options p uri now answer = none ∧
      ∃ err, fetchJwks options p uri now answer fetchedAt = (p, .error err)) := by
  have hrequest (hkeys : keysFor options p uri now answer = answer.document.map keysOf)
      (hfetch : fetchJwks options p uri now answer fetchedAt =
        requestJwks p uri answer fetchedAt) :
      (∃ q entry, fetchJwks options p uri now answer fetchedAt = (q, .ok entry.keys) ∧
        keysFor options p uri now answer = some entry.keys ∧ q.jwksCache uri = some entry ∧
        (q = p ∨ q = p.receive uri entry)) ∨
      (keysFor options p uri now answer = none ∧
        ∃ err, fetchJwks options p uri now answer fetchedAt = (p, .error err)) := by
    cases hdocument : answer.document with
    | none =>
      rw [hkeys, hfetch, hdocument]
      exact .inr ⟨rfl, requestJwks_unanswered p uri hdocument fetchedAt⟩
    | some doc =>
      rw [hkeys, hfetch, hdocument, requestJwks_answered hdocument]
      exact .inl ⟨_, ⟨fetchedAt, keysOf doc⟩, rfl, rfl, Function.update_self .., .inr rfl⟩
  cases hcache : p.jwksCache uri with
  | none =>
    refine hrequest ?_ ?_
    · rw [keysFor, hcache]
    · rw [fetchJwks, hcache]
  | some cached =>
    by_cases hfresh : now - cached.fetchedAt < options.ttlMs
    · left
      refine ⟨p, cached, ?_, ?_, hcache, .inl rfl⟩
      · rw [fetchJwks, hcache]
        exact if_pos hfresh
      · rw [keysFor, hcache]
        exact if_pos hfresh
    · refine hrequest ?_ ?_
      · rw [keysFor, hcache]
        exact if_neg hfresh
      · rw [fetchJwks, hcache]
        exact if_neg hfresh

theorem sameKeys_resolve (peerConfig : OidcPeerConfig) (answer : Answer) :
    SameKeys p (resolveJwksUri W p peerConfig answer).1 := by
  unfold resolveJwksUri
  split
  · exact ⟨rfl, rfl⟩
  · unfold discoverJwksUri
    repeat' split
    all_goals exact ⟨rfl, rfl⟩

/-! ### What a call does -/

/-- What is dropped is missed if it was of use, unless other keys are received. -/
theorem kept_again (c : Call P) (decoded : DecodedJwt) (h : Kept F W subtle options P q)
    (hcache : q.jwksCache uri = some entry) :
    Kept F W subtle options P (verifyAgain W subtle options q c decoded uri).1 ↔
      ¬ (c.again.document = none ∧ Usable F W subtle options P entry.keys) := by
  have hgone : (invalidateJwks q uri).jwksCache uri = none := Function.update_self ..
  have hfetch : fetchJwks options (invalidateJwks q uri) uri c.fetchedAt c.again c.againAt =
      requestJwks (invalidateJwks q uri) uri c.again c.againAt := by
    rw [fetchJwks, hgone]
  cases hdocument : c.again.document with
  | some doc =>
    have hstate : (verifyAgain W subtle options q c decoded uri).1 =
        q.receive uri ⟨c.againAt, keysOf doc⟩ := by
      rw [verifyAgain, hfetch, requestJwks_answered hdocument, receive_invalidated]
      dsimp only
      split <;> rfl
    rw [hstate]
    exact iff_of_true (h.receive _ _) (by simp)
  | none =>
    obtain ⟨err, herr⟩ :=
      requestJwks_unanswered (invalidateJwks q uri) uri hdocument c.againAt
    have hstate : (verifyAgain W subtle options q c decoded uri).1 = invalidateJwks q uri := by
      rw [verifyAgain, hfetch, herr]
    rw [hstate, and_iff_right rfl]
    constructor
    · intro hkept husable
      have hstays := hkept.usable uri entry (h.cached uri entry hcache) husable
      rw [hgone] at hstays
      cases hstays
    · intro huseless
      refine ⟨h.cached.invalidate uri, fun uri' entry' => ?_⟩
      rw [jwksCache_invalidate]
      split
      · rename_i heq
        intro hlookup husable
        rw [heq] at hlookup
        have hlast := (h.cached uri entry hcache).symm.trans hlookup
        rw [← Option.some.inj hlast] at husable
        exact absurd husable huseless
      · exact h.usable uri' entry'

theorem kept_keyed (h : Kept F W subtle options P p) :
    Kept F W subtle options P (verifyKeyed W subtle options p c decoded uri).1 ↔
      ¬ ∃ keys, keysFor options p uri c.checkedAt c.jwks = some keys ∧
        selectKey W keys decoded = .ok none ∧ c.again.document = none ∧
        Usable F W subtle options P keys := by
  obtain ⟨q, entry, hfetch, hkeys, hcache, hq⟩ | ⟨hkeys, err, hfetch⟩ :=
    fetchJwks_cases options p uri c.checkedAt c.jwks c.fetchedAt
  · have hkept : Kept F W subtle options P q := by
      rcases hq with rfl | rfl
      · exact h
      · exact h.receive _ _
    have hcondition : (∃ keys, keysFor options p uri c.checkedAt c.jwks = some keys ∧
        selectKey W keys decoded = .ok none ∧ c.again.document = none ∧
        Usable F W subtle options P keys) ↔
      selectKey W entry.keys decoded = .ok none ∧ c.again.document = none ∧
        Usable F W subtle options P entry.keys := by
      constructor
      · rintro ⟨keys, heq, hrest⟩
        rw [hkeys] at heq
        obtain rfl := Option.some.inj heq
        exact hrest
      · intro hrest
        exact ⟨entry.keys, hkeys, hrest⟩
    rw [hcondition, verifyKeyed, hfetch]
    dsimp only
    cases hselect : selectKey W entry.keys decoded with
    | error err => exact iff_of_true hkept (by simp)
    | ok key =>
      cases key with
      | some key => exact iff_of_true hkept (by simp)
      | none => rw [and_iff_right rfl, ← kept_again c decoded hkept hcache]
  · have hstate : (verifyKeyed W subtle options p c decoded uri).1 = p := by
      rw [verifyKeyed, hfetch]
    rw [hstate, hkeys]
    exact iff_of_true h (by simp)

/-- **A call keeps what is of use just if it evicts nothing.** -/
theorem kept_verify (h : Kept F W subtle options P p) :
    Kept F W subtle options P (verify F W subtle options p c).1 ↔
      ¬ Evicts F W subtle options p c := by
  rw [verify]
  cases hdecoded : decodeToken F W c.envelope c.peerConfig with
  | error outcome =>
    refine iff_of_true h ?_
    rintro ⟨decoded, uri, keys, hok, -⟩
    rw [hdecoded] at hok
    cases hok
  | ok decoded =>
    have hsame := sameKeys_resolve (W := W) (p := p) c.peerConfig c.discovery
    dsimp only
    cases hresolve : resolveJwksUri W p c.peerConfig c.discovery with
    | mk q result =>
      rw [hresolve] at hsame
      cases result with
      | error failure =>
        refine iff_of_true (h.congr hsame) ?_
        rintro ⟨decoded, uri, keys, -, hok, -⟩
        rw [hresolve] at hok
        cases hok
      | ok uri =>
        dsimp only
        rw [kept_keyed (h.congr hsame), keysFor_congr hsame, not_iff_not]
        constructor
        · rintro ⟨keys, hkeys, hrest⟩
          exact ⟨decoded, uri, keys, hdecoded, by rw [hresolve], hkeys, hrest⟩
        · rintro ⟨decoded', uri', keys, hdecoded', huri, hkeys, hrest⟩
          rw [hdecoded] at hdecoded'
          obtain rfl := Except.ok.inj hdecoded'
          rw [hresolve] at huri
          obtain rfl := Except.ok.inj huri
          exact ⟨keys, hkeys, hrest⟩

/-! ### Whole runs -/

theorem knownUri_resolve {peerConfig : OidcPeerConfig} (h : knownUri p peerConfig = some uri)
    (answer : Answer) : resolveJwksUri W p peerConfig answer = (p, .ok uri) := by
  unfold knownUri at h
  rw [resolveJwksUri]
  cases hjwksUri : peerConfig.jwksUri with
  | some uri' =>
    rw [hjwksUri] at h
    rw [Option.some.inj h]
  | none =>
    rw [hjwksUri] at h
    change (p.discoveryCache peerConfig.issuer).filter (· ≠ "") = some uri at h
    dsimp only
    unfold discoverJwksUri
    rw [h]

/-- The call, for keys that are found at an address, while nothing is answered. -/
def Call.at (c : Call P) (uri : String) (checkedAt : Int) : Call P :=
  { c with
    peerConfig := { c.peerConfig with jwksUri := some uri }
    discovery := .fails ""
    jwks := .fails ""
    again := .fails ""
    checkedAt }

theorem ValidUnder.at (h : ValidUnder F W subtle options keys c) (uri : String)
    (checkedAt : Int) : ValidUnder F W subtle options keys (c.at uri checkedAt) := h

theorem verify_unreachable (hcache : p.jwksCache uri = none)
    (hdecoded : decodeToken F W c.envelope c.peerConfig = .ok decoded) (checkedAt : Int) :
    (verify F W subtle options p (c.at uri checkedAt)).2.isOk = false := by
  have hfetch : fetchJwks options p uri checkedAt (.fails "") c.fetchedAt =
      (p, .error (fetchError uri "")) := by
    rw [fetchJwks, hcache]
    rfl
  have hkeyed : verifyKeyed W subtle options p (c.at uri checkedAt) decoded uri =
      (p, .rejected .idpUnreachable (fetchError uri "")) := by
    rw [verifyKeyed]
    dsimp only [Call.at]
    rw [hfetch]
  have hat : decodeToken F W (c.at uri checkedAt).envelope (c.at uri checkedAt).peerConfig =
      .ok decoded := hdecoded
  rw [verify, hat]
  change (verifyKeyed W subtle options p (c.at uri checkedAt) decoded uri).2.isOk = false
  rw [hkeyed]
  rfl

theorem survives_iff (hcached : Cached p) :
    Survives F W subtle options P p ↔ Kept F W subtle options P p := by
  constructor
  · refine fun h => ⟨hcached, fun uri entry hlookup husable => ?_⟩
    obtain ⟨c, hvalid⟩ := husable
    obtain ⟨decoded, key, hdecoded, -⟩ := id hvalid
    cases hcache : p.jwksCache uri with
    | none =>
      have hfresh : entry.fetchedAt + options.ttlMs - 1 - entry.fetchedAt < options.ttlMs := by
        omega
      have hok := h (c.at uri (entry.fetchedAt + options.ttlMs - 1)) uri entry rfl hlookup hfresh
        (hvalid.at uri _)
      rw [verify_unreachable hcache hdecoded] at hok
      cases hok
    | some entry' =>
      rw [hcached uri entry' hcache] at hlookup
      exact hlookup
  · rintro h c uri entry hknown hlookup hfresh ⟨decoded, key, hdecoded, hselect, hok⟩
    have hcache := h.usable uri entry hlookup ⟨c, decoded, key, hdecoded, hselect, hok⟩
    have hfetch : fetchJwks options p uri c.checkedAt c.jwks c.fetchedAt =
        (p, .ok entry.keys) := by
      rw [fetchJwks, hcache]
      exact if_pos hfresh
    rw [verify, hdecoded]
    dsimp only
    rw [knownUri_resolve hknown]
    dsimp only
    rw [verifyKeyed, hfetch]
    dsimp only
    rw [hselect]
    exact hok

theorem kept_init : Kept F W subtle options P {} := by
  refine ⟨?_, ?_⟩
  · rintro uri entry h
    cases h
  · rintro uri entry h
    cases h

theorem cached_fetch (options : CreateOidcAuthProviderOptions) (h : Cached p) (uri : String)
    (now : Int) (answer : Answer) (fetchedAt : Int) :
    Cached (fetchJwks options p uri now answer fetchedAt).1 := by
  obtain ⟨q, entry, hfetch, -, -, hq⟩ | ⟨-, err, hfetch⟩ :=
    fetchJwks_cases options p uri now answer fetchedAt
  · rw [hfetch]
    rcases hq with rfl | rfl
    · exact h
    · exact h.receive _ _
  · rw [hfetch]
    exact h

theorem cached_verify (h : Cached p) : Cached (verify F W subtle options p c).1 := by
  have hagain (q : Provider) (hq : Cached q) (decoded : DecodedJwt) (uri : String) :
      Cached (verifyAgain W subtle options q c decoded uri).1 := by
    have hfetch := cached_fetch options (hq.invalidate uri) uri c.fetchedAt c.again c.againAt
    unfold verifyAgain
    split <;> rename_i hresult <;> rw [hresult] at hfetch
    · exact hfetch
    · split <;> exact hfetch
  have hkeyed (q : Provider) (hq : Cached q) (decoded : DecodedJwt) (uri : String) :
      Cached (verifyKeyed W subtle options q c decoded uri).1 := by
    have hfetch := cached_fetch options hq uri c.checkedAt c.jwks c.fetchedAt
    unfold verifyKeyed
    split <;> rename_i hresult <;> rw [hresult] at hfetch
    · exact hfetch
    · split
      · exact hfetch
      · exact hfetch
      · exact hagain _ hfetch decoded uri
  unfold verify
  split
  · exact h
  · have hsame := h.congr (sameKeys_resolve (W := W) c.peerConfig c.discovery)
    split <;> rename_i hresult <;> rw [hresult] at hsame
    · exact hsame
    · exact hkeyed _ hsame _ _

/-- **When the keys survive.**  In every state that a run leads to, tokens are accepted that are
valid under the keys last received, just if no step evicts keys of use. -/
theorem warm_iff (F : NumberFormat) (W : Wording) (subtle : SubtleCrypto CryptoKey)
    (options : CreateOidcAuthProviderOptions) (calls : List (Call P)) (p : Provider) :
    Run (verifyStep F W subtle options)
        (Leads (verifyStep F W subtle options) fun _ q => Survives F W subtle options P q)
        {} calls p ↔
      Run (verifyStep F W subtle options) (fun q c => ¬ Evicts F W subtle options q c)
        {} calls p := by
  refine Run.leads_iff (P := Kept F W subtle options P) kept_init fun q c q' hq hstep => ?_
  obtain rfl : (verify F W subtle options q c).1 = q' := Option.some.inj hstep
  have hsurvives : Survives F W subtle options P (verify F W subtle options q c).1 ↔
      Kept F W subtle options P (verify F W subtle options q c).1 :=
    survives_iff (cached_verify hq.cached)
  exact ⟨hsurvives.trans (kept_verify hq), hsurvives.mp⟩

/-! ### Keys that are lost -/

def headerOf (kid : String) : List (String × Json) := [("alg", .str "RS256"), ("kid", .str kid)]

def agentClaims : List (String × Json) :=
  [("iss", .str "https://idp"), ("aud", .str "agent"), ("exp", .num (.ofInt 100)),
    ("iat", .num (.ofInt 0))]

def agentClaimsValue : JsValue :=
  .obj [("iss", .str "https://idp"), ("aud", .str "agent"), ("exp", .num (.ofInt 100)),
    ("iat", .num (.ofInt 0))]

theorem headerOf_value (kid : String) : evaluate exactFormat (.obj (headerOf kid)) =
    .obj [("alg", .str "RS256"), ("kid", .str kid)] :=
  evaluate_obj ((show Names ["alg", "kid"] by decide).listed rfl)

theorem agentClaims_value : evaluate exactFormat (.obj agentClaims) = agentClaimsValue :=
  evaluate_obj ((show Names ["iss", "aud", "exp", "iat"] by decide).listed rfl)

def decodedOf (kid : String) : DecodedJwt where
  header := .obj [("alg", .str "RS256"), ("kid", .str kid)]
  alg := "RS256"
  alg_eq := rfl
  claims := agentClaimsValue
  signingInput := String.ofList (part (headerOf kid) ++ '.' :: part agentClaims)
  signature := []

def peer : OidcPeerConfig where
  issuer := "https://idp"
  audience := "agent"
  jwksUri := some "https://idp/keys"

/-- An event with a token of the issuer, of the key with the identifier. -/
def eventOf (kid : String) : AgentRpcEnvelope Json where
  kind := .event
  messageId := "m1"
  correlationId := "c1"
  «from» := "agent://a"
  «to» := "agent://b"
  capability := "ping"
  payload := .null
  auth := some (.oidc (compact (headerOf kid) agentClaims []) none)

theorem decodeToken_eventOf (W : Wording) (kid : String) :
    decodeToken exactFormat W (eventOf kid) peer = .ok (decodedOf kid) := by
  have htoken : decodeJwt exactFormat W (compact (headerOf kid) agentClaims []) =
      .ok (decodedOf kid) := decodeJwt_compact (headerOf_value kid) agentClaims_value rfl []
  unfold decodeToken eventOf
  dsimp only
  rw [htoken]
  dsimp only [decodedOf, agentClaimsValue]
  rfl

/-- The key of the issuer. -/
def agentKey : JsValue := .obj [("kid", .str "a"), ("kty", .str "RSA")]

/-- Any key can be imported, and every signature verifies. -/
def lenient : SubtleCrypto Unit := ⟨fun _ _ => .ok (), fun _ _ _ _ => .ok true⟩

def callWith (kid : String) (jwks : Answer) : Call Json where
  envelope := eventOf kid
  peerConfig := peer
  discovery := .fails "down"
  jwks
  again := .fails "down"
  checkedAt := 0
  fetchedAt := 0
  againAt := 0
  claimsAt := 50000

theorem checkTimeClaims_agentClaims : checkTimeClaims agentClaimsValue 50 60 = none := by
  have hexp : asNumber (agentClaimsValue.get "exp") = some (.finite (Number.ofInt 100).value) := rfl
  have hiat : asNumber (agentClaimsValue.get "iat") = some (.finite (Number.ofInt 0).value) := rfl
  have hlate : isAbove ((50 : Int) : ℚ) (.finite ((100 : Int) : ℚ)) ((60 : Int) : ℚ) = false := by
    rw [isAbove]
    norm_num
  have hearly : isBelow ((50 + 60 : Int) : ℚ) (.finite ((0 : Int) : ℚ)) = false := by
    rw [isBelow]
    norm_num
  rw [checkTimeClaims, hexp, hiat, value_ofInt, value_ofInt]
  dsimp only
  rw [hlate, hearly]
  rfl

theorem validUnder_agentKey (W : Wording) (jwks : Answer) :
    ValidUnder exactFormat W lenient {} [agentKey] (callWith "a" jwks) := by
  refine ⟨decodedOf "a", agentKey, decodeToken_eventOf W "a", rfl, ?_⟩
  have hsignature : (importJwk lenient agentKey (decodedOf "a").alg).bind
      (verifyJwtSignature lenient (decodedOf "a")) = .ok true := rfl
  have htime : checkTimeClaims (decodedOf "a").claims ((callWith "a" jwks).claimsAt / 1000)
      ((({} : CreateOidcAuthProviderOptions).clockSkewSec).getD DEFAULT_CLOCK_SKEW_SEC) = none :=
    checkTimeClaims_agentClaims
  rw [concludeWith, hsignature]
  dsimp only
  rw [htime]
  rfl

/-- The state after the keys were received. -/
def warmed : Provider := ({} : Provider).receive "https://idp/keys" ⟨0, [agentKey]⟩

def keysAnswer : Answer := .response true 200 (.ok (.obj [("keys", .arr [agentKey])]))

theorem verify_warms (W : Wording) :
    (verify exactFormat W lenient {} {} (callWith "a" keysAnswer)).1 = warmed := by
  have hdecoded : decodeToken exactFormat W (callWith "a" keysAnswer).envelope
      (callWith "a" keysAnswer).peerConfig = .ok (decodedOf "a") := decodeToken_eventOf W "a"
  rw [verify, hdecoded]
  rfl

/-- Nobody signed the token: its key is one that the issuer does not have. -/
theorem evicts_unsigned (W : Wording) :
    Evicts exactFormat W lenient {} warmed (callWith "b" (.fails "down")) := by
  refine ⟨decodedOf "b", "https://idp/keys", [agentKey], decodeToken_eventOf W "b", rfl, ?_, rfl,
    rfl, callWith "a" keysAnswer, validUnder_agentKey W keysAnswer⟩
  rfl

/-- The keys were received, and a token without a key evicts them. -/
theorem keys_evicted :
    ¬ ∀ (F : NumberFormat) (W : Wording) (subtle : SubtleCrypto Unit)
      (options : CreateOidcAuthProviderOptions) (calls : List (Call Json)) (p : Provider),
      Run (verifyStep F W subtle options) Any {} calls p →
        Survives F W subtle options Json p := by
  intro h
  obtain ⟨W⟩ : Nonempty Wording := ⟨⟨fun _ => "", fun _ => "", "", fun _ => ""⟩⟩
  have hwarmed : Kept exactFormat W lenient {} Json warmed := kept_init.receive _ _
  have hwarms : verifyStep exactFormat W lenient {} {} (callWith "a" keysAnswer) = some warmed :=
    congrArg some (verify_warms W)
  have hsurvives := h exactFormat W lenient {} _ _
    (.snoc (.snoc .nil trivial hwarms) trivial (a := callWith "b" (.fails "down")) rfl)
  have hkept := (survives_iff (cached_verify hwarmed.cached)).mp hsurvives
  exact (kept_verify hwarmed).mp hkept (evicts_unsigned W)

end Declaragent.Rpc.Oidc
