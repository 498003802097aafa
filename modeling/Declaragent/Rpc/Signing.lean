import Declaragent.Rpc.Wire
import Mathlib.Data.LawfulXor.Basic

/-!
# Rpc — the signature of an envelope

An envelope is signed with a keyed hash of its canonical form: all of it but the `auth` block, with
its keys in a fixed order.  The keyed hash is a parameter.

* `canonicalize_received`: what is read has the canonical form of what was written.
* `signedAlike_of_canonical` is what a canonical form says of its envelope.
* `verify_ok_iff` is what a verified signature says, and `signing_stable` what signing comes to.
-/

namespace Declaragent.Rpc
open JsonText

def canonicalizeForSigning (e : AgentRpcEnvelope JsValue) : String :=
  objectText (defined e.signedFields)

/-! ### The HMAC provider -/

def hexByte (b : UInt8) : List Char := [hexDigit (b.toNat / 16), hexDigit (b.toNat % 16)]

def bytesToHex (bytes : List UInt8) : String := String.ofList (bytes.flatMap hexByte)

/-- Compare the code units, all of them. -/
def timingSafeEqual (a b : String) : Bool :=
  let as := utf16 a
  let bs := utf16 b
  if as.length ≠ bs.length then false
  else (as.zip bs).foldl (fun diff p => diff ||| (p.1 ^^^ p.2)) 0 == 0

/-- The per-peer `auth` block. -/
structure HmacAuthPeerConfig where
  keyId : String
  scopes : Option (List String) := none

structure CreateHmacAuthProviderOptions where
  secret : String
  keyId : String

structure RpcAuthPrincipal where
  subject : String
  issuer : String
  audience : List String
  scopes : List String
  claims : List (String × JsValue)

inductive RpcAuthRejectReason where
  | wrongKind
  | badSignature
  deriving DecidableEq

inductive RpcAuthVerifyResult where
  | ok (principal : RpcAuthPrincipal)
  | rejected (reason : RpcAuthRejectReason) (message : String)

/-- The key id that an envelope has to name. -/
def expectedKeyId (opts : CreateHmacAuthProviderOptions) (peerConfig : HmacAuthPeerConfig) :
    String :=
  if peerConfig.keyId = "" then opts.keyId else peerConfig.keyId

section
variable (hmac : String → String → List UInt8) (opts : CreateHmacAuthProviderOptions)

/-- The signature of a text, in hexadecimal. -/
def hmacSha256Hex (secret body : String) : String := bytesToHex (hmac secret body)

def sign (e : AgentRpcEnvelope JsValue) : RpcAuth :=
  .hmac opts.keyId (hmacSha256Hex hmac opts.secret (canonicalizeForSigning e))

def verify (e : AgentRpcEnvelope JsValue) (peerConfig : HmacAuthPeerConfig) :
    RpcAuthVerifyResult :=
  match e.auth with
  | some (.hmac keyId signature) =>
    if keyId ≠ expectedKeyId opts peerConfig then
      .rejected .badSignature ("unexpected keyId \"" ++ keyId ++ "\" (expected \"" ++
        expectedKeyId opts peerConfig ++ "\")")
    else if timingSafeEqual (hmacSha256Hex hmac opts.secret (canonicalizeForSigning e))
        signature then
      .ok ⟨keyId, "hmac", [], peerConfig.scopes.getD [], []⟩
    else .rejected .badSignature "HMAC signature did not verify"
  | auth => .rejected .wrongKind
      ("expected hmac auth, got \"" ++ (auth.map RpcAuth.kind).getD "none" ++ "\"")

end

variable {F : NumberFormat}

/-- The signed text of what is read is that of what was written. -/
theorem canonicalize_received {e : AgentRpcEnvelope JsValue} (hp : Proper F e) :
    canonicalizeForSigning (e.received F) = canonicalizeForSigning e := by
  have hpayload : toJson (received F e.payload) = toJson e.payload := toJson_received hp.payload
  unfold canonicalizeForSigning objectText
  rw [propertiesJson_defined, propertiesJson_defined]
  simp only [AgentRpcEnvelope.signedFields, AgentRpcEnvelope.received, propertiesJson, hpayload]

/-! ### What is signed -/

/-- The envelopes agree on all that is signed: on every field but `auth`, and on the payload as
its JSON text has it. -/
structure SignedAlike (e e' : AgentRpcEnvelope JsValue) : Prop where
  kind : e.kind = e'.kind
  messageId : e.messageId = e'.messageId
  correlationId : e.correlationId = e'.correlationId
  causedBy : e.causedBy = e'.causedBy
  «from» : e.from = e'.from
  «to» : e.to = e'.to
  capability : e.capability = e'.capability
  replyTo : e.replyTo = e'.replyTo
  deadline : e.deadline = e'.deadline
  tenantId : e.tenantId = e'.tenantId
  headers : e.headers = e'.headers
  payload : toJson e.payload = toJson e'.payload

theorem toJson_headersJs {h h' : List (String × String)}
    (heq : toJson (headersJs h) = toJson (headersJs h')) : h = h' := by
  have hfields : ∀ h : List (String × String),
      propertiesJson (h.map fun p => (p.1, JsValue.str p.2)) =
        h.map fun p => (p.1, Json.str p.2) := by
    intro h
    induction h with
    | nil => rfl
    | cons p h ih => simp [propertiesJson, toJson, ih]
  have hinjective : Function.Injective fun p : String × String => (p.1, Json.str p.2) := by
    rintro ⟨k, s⟩ ⟨l, t⟩ hp
    simpa using hp
  simp only [headersJs, toJson, hfields, Option.some.injEq, Json.obj.injEq] at heq
  exact hinjective.list_map heq

theorem toJson_optionalJs {α : Type} {toJs : α → JsValue}
    (hdefined : ∀ a, (toJs a).isUndefined = false)
    (h : ∀ a b, toJson (toJs a) = toJson (toJs b) → a = b) {a? b? : Option α}
    (heq : toJson (optionalJs toJs a?) = toJson (optionalJs toJs b?)) : a? = b? := by
  have hnone : ∀ a, toJson (toJs a) ≠ none := fun a hn => by
    rw [toJson_eq_none, hdefined] at hn
    cases hn
  cases a? with
  | none =>
    cases b? with
    | none => rfl
    | some b => exact absurd heq.symm (hnone b)
  | some a =>
    cases b? with
    | none => exact absurd heq (hnone a)
    | some b => exact congrArg some (h a b heq)

theorem EnvelopeKind.text_injective : Function.Injective EnvelopeKind.text := by
  intro k l h
  cases k <;> cases l <;> first | rfl | exact absurd h (by decide)

/-- **What a signed text says.** -/
theorem signedAlike_of_canonical {e e' : AgentRpcEnvelope JsValue}
    (h : canonicalizeForSigning e = canonicalizeForSigning e') : SignedAlike e e' := by
  have hfields : propertiesJson e.signedFields = propertiesJson e'.signedFields := by
    have hobj := stringify_injective h
    rwa [propertiesJson_defined, propertiesJson_defined, Json.obj.injEq] at hobj
  have hnames : ∀ e : AgentRpcEnvelope JsValue, (e.signedFields.map Prod.fst).Nodup := fun e => by
    simp [AgentRpcEnvelope.signedFields]
  have hfield : ∀ key, (e.signedFields.lookup key).bind toJson =
      (e'.signedFields.lookup key).bind toJson := fun key => by
    rw [← lookup_propertiesJson (hnames e), ← lookup_propertiesJson (hnames e'), hfields]
  have hoptional : ∀ {s? t? : Option String},
      toJson (optionalJs .str s?) = toJson (optionalJs .str t?) → s? = t? :=
    toJson_optionalJs (fun _ => rfl) fun _ _ => toJson_str
  exact {
    kind := EnvelopeKind.text_injective (toJson_str (hfield "kind"))
    messageId := toJson_str (hfield "messageId")
    correlationId := toJson_str (hfield "correlationId")
    causedBy := hoptional (hfield "causedBy")
    «from» := toJson_str (hfield "from")
    «to» := toJson_str (hfield "to")
    capability := toJson_str (hfield "capability")
    replyTo := hoptional (hfield "replyTo")
    deadline := toJson_optionalJs (fun _ => rfl) (fun _ _ => toJson_ofInt) (hfield "deadline")
    tenantId := hoptional (hfield "tenantId")
    headers := toJson_optionalJs (fun _ => rfl) (fun _ _ => toJson_headersJs) (hfield "headers")
    payload := hfield "payload" }

/-! ### Signatures -/

/-- The comparison finds two texts equal exactly when they are. -/
theorem timingSafeEqual_iff {a b : String} : timingSafeEqual a b = true ↔ a = b := by
  have hfold : ∀ (ps : List (Nat × Nat)) (diff : Nat),
      ps.foldl (fun diff p => diff ||| (p.1 ^^^ p.2)) diff = 0 ↔
        diff = 0 ∧ ∀ {m n}, (m, n) ∈ ps → m = n := by
    intro ps
    induction ps with
    | nil => simp
    | cons p ps ih =>
      intro diff
      obtain ⟨m, n⟩ := p
      rw [List.foldl_cons, ih, Nat.or_eq_zero_iff, xor_eq_zero_iff]
      constructor
      · rintro ⟨⟨hd, hp⟩, hps⟩
        refine ⟨hd, fun {k l} hmem => ?_⟩
        rcases List.mem_cons.mp hmem with he | hmem
        · cases he
          exact hp
        · exact hps hmem
      · rintro ⟨hd, hps⟩
        exact ⟨⟨hd, hps List.mem_cons_self⟩, fun hmem => hps (List.mem_cons_of_mem _ hmem)⟩
  have hzip : (utf16 a).length = (utf16 b).length ∧
      (∀ {m n}, (m, n) ∈ (utf16 a).zip (utf16 b) → m = n) ↔ utf16 a = utf16 b := by
    rw [← List.forall₂_iff_zip, List.forall₂_eq_eq_eq]
  rw [← utf16_injective.eq_iff, ← hzip]
  unfold timingSafeEqual
  by_cases hlength : (utf16 a).length = (utf16 b).length
  · simp [hlength, hfold]
  · simp [hlength]

section
variable {hmac : String → String → List UInt8} {opts : CreateHmacAuthProviderOptions}

theorem hmacSha256Hex_ne_empty (hbytes : ∀ secret body, (hmac secret body).length = 32)
    (secret body : String) : hmacSha256Hex hmac secret body ≠ "" := by
  intro h
  have hlength := hbytes secret body
  cases hb : hmac secret body with
  | nil =>
    rw [hb] at hlength
    cases hlength
  | cons b bytes =>
    have htoList := congrArg String.toList h
    simp [hmacSha256Hex, bytesToHex, hb, hexByte] at htoList

/-- An envelope verifies exactly when it names the expected key and carries the signature of its
canonical form. -/
theorem verify_ok_iff {e : AgentRpcEnvelope JsValue} {peerConfig : HmacAuthPeerConfig}
    {principal : RpcAuthPrincipal} : verify hmac opts e peerConfig = .ok principal ↔
      e.auth = some (.hmac (expectedKeyId opts peerConfig)
        (hmacSha256Hex hmac opts.secret (canonicalizeForSigning e))) ∧
      principal = ⟨expectedKeyId opts peerConfig, "hmac", [], peerConfig.scopes.getD [], []⟩ := by
  unfold verify
  split
  · rename_i keyId signature hauth
    rw [hauth]
    by_cases hkey : keyId = expectedKeyId opts peerConfig
    · subst hkey
      rw [if_neg (not_not.mpr rfl)]
      by_cases hsignature : timingSafeEqual
          (hmacSha256Hex hmac opts.secret (canonicalizeForSigning e)) signature = true
      · have heq := timingSafeEqual_iff.mp hsignature
        rw [if_pos hsignature, ← heq]
        simp only [RpcAuthVerifyResult.ok.injEq, true_and]
        exact eq_comm
      · have hne : hmacSha256Hex hmac opts.secret (canonicalizeForSigning e) ≠ signature :=
          fun heq => hsignature (timingSafeEqual_iff.mpr heq)
        rw [if_neg hsignature]
        simp [hne.symm]
    · rw [if_pos hkey]
      simp [hkey]
  · rename_i hauth
    constructor
    · intro h
      cases h
    · rintro ⟨h, -⟩
      exact absurd h (hauth _ _)

/-- A signed envelope is valid where its key has a name. -/
theorem Valid.sign (hbytes : ∀ secret body, (hmac secret body).length = 32)
    (hkey : opts.keyId ≠ "") {e : AgentRpcEnvelope JsValue} (h : Valid e) :
    Valid { e with auth := some (Rpc.sign hmac opts e) } := by
  refine ⟨h.messageId, h.correlationId, h.causedBy, h.from, h.to, h.capability, h.replyTo,
    h.deadline, h.tenantId, fun a ha => ?_⟩
  cases ha
  exact ⟨hkey, hmacSha256Hex_ne_empty hbytes _ _⟩

end

/-- **Signing is stable across the wire, and binding.**  For every valid envelope: what is read
where it was written has its canonical form; so signed before it is sent, it verifies after it is
received, with the same secret and the key the receiver expects; and an envelope with its
canonical form agrees with it on every field but `auth`, and on the payload as JSON has it. -/
theorem signing_stable (F : NumberFormat) (D : Diagnostics)
    (hmac : String → String → List UInt8)
    (hbytes : ∀ secret body, (hmac secret body).length = 32) (e : AgentRpcEnvelope JsValue)
    (he : Valid e) (hp : Proper F e) :
    (∃ text e', encodeEnvelope D e = .ok text ∧ decodeEnvelope F D text = .ok e' ∧
      canonicalizeForSigning e' = canonicalizeForSigning e) ∧
    (∀ (sender receiver : CreateHmacAuthProviderOptions) (peerConfig : HmacAuthPeerConfig),
      sender.keyId ≠ "" → receiver.secret = sender.secret →
      expectedKeyId receiver peerConfig = sender.keyId →
      ∃ text e' principal,
        encodeEnvelope D { e with auth := some (sign hmac sender e) } = .ok text ∧
        decodeEnvelope F D text = .ok e' ∧
        verify hmac receiver e' peerConfig = .ok principal) ∧
    ∀ e', canonicalizeForSigning e = canonicalizeForSigning e' → SignedAlike e e' := by
  refine ⟨?_, fun sender receiver peerConfig hkey hsecret hexpected => ?_,
    fun e' h => signedAlike_of_canonical h⟩
  · obtain ⟨text, hencode, hdecode⟩ := decode_encode D he hp
    exact ⟨text, _, hencode, hdecode, canonicalize_received hp⟩
  · have hproper : Proper F { e with auth := some (sign hmac sender e) } :=
      ⟨hp.payload, hp.headers⟩
    obtain ⟨text, hencode, hdecode⟩ := decode_encode D (he.sign hbytes hkey) hproper
    refine ⟨text, _, _, hencode, hdecode, verify_ok_iff.mpr ⟨?_, rfl⟩⟩
    rw [canonicalize_received hproper, hexpected, hsecret]
    rfl

/-! ### One envelope -/

/-- The block without its signature. -/
def RpcAuth.unsigned : RpcAuth → RpcAuth
  | .hmac keyId _ => .hmac keyId ""
  | auth => auth

/-- An event with one property that is `undefined` in its payload. -/
def pingEnvelope (auth : Option RpcAuth) (x : JsValue) : AgentRpcEnvelope JsValue where
  kind := .event
  messageId := "m1"
  correlationId := "c1"
  «from» := "agent://a"
  «to» := "agent://b"
  capability := "ping"
  payload := .obj [("n", .num (.ofInt 1)), ("x", x)]
  auth := auth

theorem pingEnvelope_valid {auth : Option RpcAuth} (h : ∀ a ∈ auth, a.Valid) (x : JsValue) :
    Valid (pingEnvelope auth x) :=
  ⟨show "m1" ≠ "" by decide, show "c1" ≠ "" by decide, fun _ hs => (by cases hs),
    show isAddress "agent" "agent://a" = true by decide,
    show isAddress "agent" "agent://b" = true by decide, show "ping" ≠ "" by decide,
    fun _ hs => (by cases hs), fun _ hd => (by cases hd), fun _ hs => (by cases hs), h⟩

/-- The whole `auth` block is outside the signature, its key id too, and of the payload only its
JSON is signed. -/
theorem auth_not_signed :
    (¬ ∀ e e' : AgentRpcEnvelope JsValue, Valid e → Valid e' →
      canonicalizeForSigning e = canonicalizeForSigning e' →
        SignedAlike e e' ∧ e.auth.map RpcAuth.unsigned = e'.auth.map RpcAuth.unsigned) ∧
    ¬ ∀ e e' : AgentRpcEnvelope JsValue, Valid e → Valid e' →
      canonicalizeForSigning e = canonicalizeForSigning e' → e.payload = e'.payload := by
  constructor
  · intro h
    have hauth := (h (pingEnvelope (some (.hmac "k1" "s")) .null)
      (pingEnvelope (some (.hmac "k2" "s")) .null)
      (pingEnvelope_valid (fun a ha => (by cases ha; exact ⟨by decide, by decide⟩)) _)
      (pingEnvelope_valid (fun a ha => (by cases ha; exact ⟨by decide, by decide⟩)) _) rfl).2
    exact absurd hauth (by decide)
  · intro h
    have hpayload := h (pingEnvelope none .null) (pingEnvelope none (.nonFinite .nan))
      (pingEnvelope_valid (fun a ha => (by cases ha)) _)
      (pingEnvelope_valid (fun a ha => (by cases ha)) _) rfl
    cases hpayload

/-- All decimals, read as they are. -/
def exactFormat : NumberFormat := ⟨fun _ => True, some, reads_itself, fun _ _ => trivial⟩

/-- The keyed hash of the canonical form of the ping under `secret`. -/
def pingHmac (_ _ : String) : List UInt8 :=
  [141, 138, 254, 156, 59, 50, 60, 147, 53, 46, 167, 160, 249, 45, 23, 24, 3, 236, 156, 40, 135,
    229, 24, 100, 189, 14, 242, 212, 175, 255, 101, 58]

/-- Signed, sent and received, the ping verifies. -/
theorem signing_stable_ping : ∃ text e' principal,
    encodeEnvelope ⟨fun _ => "", fun _ => []⟩ { pingEnvelope none .undefined with
      auth := some (sign pingHmac ⟨"secret", "k1"⟩ (pingEnvelope none .undefined)) } = .ok text ∧
    decodeEnvelope exactFormat ⟨fun _ => "", fun _ => []⟩ text = .ok e' ∧
    verify pingHmac ⟨"secret", "k1"⟩ e' ⟨"", none⟩ = .ok principal :=
  (signing_stable exactFormat ⟨fun _ => "", fun _ => []⟩ pingHmac (fun _ _ => rfl)
    (pingEnvelope none .undefined) (pingEnvelope_valid (fun _ ha => (by cases ha)) _)
    ⟨⟨⟨trivial, trivial, trivial⟩, (show Names ["n", "x"] by decide).listed rfl⟩,
      fun _ hh => (by cases hh)⟩).2.1 ⟨"secret", "k1"⟩ ⟨"secret", "k1"⟩ ⟨"", none⟩ (by decide) rfl
      rfl

end Declaragent.Rpc
