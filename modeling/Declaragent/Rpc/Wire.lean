import Declaragent.Library.JsValue
import Declaragent.Rpc.Envelope

/-!
# Rpc — the envelope on the wire

An envelope is checked against its schema before it is written and after it is read.  Its payload
is any plain value (`JsValue`).

What comes from elsewhere is a parameter: the number format of the language, what its parser says
of a text that is no JSON, and the issues the validator reports.

* `envelopeSchema_toJs`: the schema accepts an envelope when it is `Valid`, and changes nothing.
* `decode_encode`: a valid envelope is read back as it was written, its payload as its JSON text
  has it.
-/

namespace Declaragent.Rpc
open JsonText

/-! ### Envelopes as values -/

def EnvelopeKind.text : EnvelopeKind → String
  | .request => "request"
  | .response => "response"
  | .event => "event"

/-- A field that may be missing. -/
def optionalJs {α : Type} (toJs : α → JsValue) (a? : Option α) : JsValue := a?.elim .undefined toJs

def RpcAuth.properties : RpcAuth → List (String × JsValue)
  | .internal => [("kind", .str "internal")]
  | .hmac keyId signature =>
    [("kind", .str "hmac"), ("keyId", .str keyId), ("signature", .str signature)]
  | .oidc token keyId =>
    [("kind", .str "oidc"), ("token", .str token), ("keyId", optionalJs .str keyId)]
  | .oauth2Client token scope =>
    [("kind", .str "oauth2-client"), ("token", .str token), ("scope", optionalJs .str scope)]

def RpcAuth.toJs (auth : RpcAuth) : JsValue := .obj (defined auth.properties)

def headersJs (headers : List (String × String)) : JsValue :=
  .obj (headers.map fun p => (p.1, .str p.2))

/-- The fields that are signed, in the order they are signed in. -/
def AgentRpcEnvelope.signedFields (e : AgentRpcEnvelope JsValue) : List (String × JsValue) :=
  [("version", .num (.ofInt 1)),
    ("kind", .str e.kind.text),
    ("messageId", .str e.messageId),
    ("correlationId", .str e.correlationId),
    ("causedBy", optionalJs .str e.causedBy),
    ("from", .str e.from),
    ("to", .str e.to),
    ("capability", .str e.capability),
    ("replyTo", optionalJs .str e.replyTo),
    ("deadline", optionalJs (fun d => .num (.ofInt d)) e.deadline),
    ("tenantId", optionalJs .str e.tenantId),
    ("headers", optionalJs headersJs e.headers),
    ("payload", e.payload)]

/-- The fields of the schema. -/
def AgentRpcEnvelope.fields (e : AgentRpcEnvelope JsValue) : List (String × JsValue) :=
  e.signedFields ++ [("auth", optionalJs RpcAuth.toJs e.auth)]

/-- The envelope as an object. -/
def AgentRpcEnvelope.toJs (e : AgentRpcEnvelope JsValue) : JsValue := .obj (defined e.fields)

/-! ### The schema -/

/-- A string that passes the check. -/
def stringWhere (check : String → Bool) : JsValue → Option String
  | .str s => if check s then some s else none
  | _ => none

/-- `z.string().min(1)`. -/
def nonEmptyString : JsValue → Option String := stringWhere fun s => s ≠ ""

/-- The characters that `.` does not match. -/
def isLineTerminator (c : Char) : Bool :=
  c = '\n' || c = '\r' || c = '\u2028' || c = '\u2029'

/-- The scheme, `://`, and one more character of the same line. -/
def isAddress (scheme s : String) : Bool :=
  match s.toList.dropPrefix? (scheme.toList ++ [':', '/', '/']) with
  | some (c :: _) => !isLineTerminator c
  | _ => false

/-- `AgentAddressSchema`. -/
def agentAddress : JsValue → Option String := stringWhere (isAddress "agent")

def isBrokerAddress (s : String) : Bool :=
  ["kafka", "nats", "sqs", "amqp", "mqtt", "memory"].any fun scheme => isAddress scheme s

/-- `BrokerAddressSchema`. -/
def brokerAddress : JsValue → Option String := stringWhere isBrokerAddress

/-- `z.number().int().positive()`; an integer is a safe one. -/
def positiveInt : JsValue → Option Int
  | .num n => n.intValue?.filter fun d => 0 < d ∧ d ≤ 9007199254740991
  | _ => none

def stringProperty (p : String × JsValue) : Option (String × String) :=
  match p.2 with
  | .str s => some (p.1, s)
  | _ => none

/-- `z.record(z.string(), z.string())`. -/
def stringRecord : JsValue → Option (List (String × String))
  | .obj properties => properties.mapM stringProperty
  | _ => none

/-- `schema.optional()`. -/
def optional {α : Type} (schema : JsValue → Option α) : JsValue → Option (Option α)
  | .undefined => some none
  | v => (schema v).map some

def literalOne : JsValue → Option Unit
  | .num n => if n = .ofInt 1 then some () else none
  | _ => none

def envelopeKind : JsValue → Option EnvelopeKind
  | .str "request" => some .request
  | .str "response" => some .response
  | .str "event" => some .event
  | _ => none

/-- `RpcAuthSchema`. -/
def rpcAuth (v : JsValue) : Option RpcAuth :=
  match v.get "kind" with
  | .str "internal" => some .internal
  | .str "hmac" => do
      let keyId ← nonEmptyString (v.get "keyId")
      let signature ← nonEmptyString (v.get "signature")
      some (.hmac keyId signature)
  | .str "oidc" => do
      let token ← nonEmptyString (v.get "token")
      let keyId ← optional nonEmptyString (v.get "keyId")
      some (.oidc token keyId)
  | .str "oauth2-client" => do
      let token ← nonEmptyString (v.get "token")
      let scope ← optional nonEmptyString (v.get "scope")
      some (.oauth2Client token scope)
  | _ => none

def envelopeKeys : List String :=
  ["version", "kind", "messageId", "correlationId", "causedBy", "from", "to", "capability",
    "replyTo", "deadline", "tenantId", "headers", "payload", "auth"]

/-- No key but those of the schema. -/
def isStrict : JsValue → Bool
  | .obj properties => properties.all fun p => envelopeKeys.contains p.1
  | _ => false

/-- `AgentRpcEnvelopeSchema`. -/
def envelopeSchema (raw : JsValue) : Option (AgentRpcEnvelope JsValue) := do
  guard (isStrict raw)
  literalOne (raw.get "version")
  let kind ← envelopeKind (raw.get "kind")
  let messageId ← nonEmptyString (raw.get "messageId")
  let correlationId ← nonEmptyString (raw.get "correlationId")
  let causedBy ← optional nonEmptyString (raw.get "causedBy")
  let «from» ← agentAddress (raw.get "from")
  let «to» ← agentAddress (raw.get "to")
  let capability ← nonEmptyString (raw.get "capability")
  let replyTo ← optional brokerAddress (raw.get "replyTo")
  let deadline ← optional positiveInt (raw.get "deadline")
  let tenantId ← optional nonEmptyString (raw.get "tenantId")
  let headers ← optional stringRecord (raw.get "headers")
  let auth ← optional rpcAuth (raw.get "auth")
  some { kind, messageId, correlationId, causedBy, «from», «to», capability, replyTo, deadline,
         tenantId, headers, payload := raw.get "payload", auth }

/-! ### Reading and writing -/

/-- What the parser says of a text that is no JSON, and the issues, a path and a message each,
that the validator reports of a value the schema refuses. -/
structure Diagnostics where
  syntaxError : String → String
  issues : JsValue → List (List String × String)

/-- The message of an `RpcEnvelopeValidationError`. -/
def validationError (message : String) : String := "invalid agent-rpc envelope: " ++ message

def issueText (issue : List String × String) : String :=
  let path := ".".intercalate issue.1
  (if path = "" then "<root>" else path) ++ ": " ++ issue.2

section
variable (F : NumberFormat) (D : Diagnostics)

def parseEnvelope (raw : JsValue) : Except String (AgentRpcEnvelope JsValue) :=
  match envelopeSchema raw with
  | some e => .ok e
  | none => .error (validationError ("; ".intercalate ((D.issues raw).map issueText)))

def decodeEnvelope (text : String) : Except String (AgentRpcEnvelope JsValue) :=
  match jsonParse F text with
  | none => .error (validationError ("envelope is not valid JSON: " ++ D.syntaxError text))
  | some raw => parseEnvelope D raw

def encodeEnvelope (e : AgentRpcEnvelope JsValue) : Except String String :=
  (parseEnvelope D e.toJs).map fun e => objectText (defined e.fields)

end

/-! ### What the schema accepts -/

/-- The texts of the block are not empty. -/
def RpcAuth.Valid : RpcAuth → Prop
  | .internal => True
  | .hmac keyId signature => keyId ≠ "" ∧ signature ≠ ""
  | .oidc token keyId => token ≠ "" ∧ ∀ s ∈ keyId, s ≠ ""
  | .oauth2Client token scope => token ≠ "" ∧ ∀ s ∈ scope, s ≠ ""

/-- What the schema asks of an envelope. -/
structure Valid (e : AgentRpcEnvelope JsValue) : Prop where
  messageId : e.messageId ≠ ""
  correlationId : e.correlationId ≠ ""
  causedBy : ∀ s ∈ e.causedBy, s ≠ ""
  «from» : isAddress "agent" e.from = true
  «to» : isAddress "agent" e.to = true
  capability : e.capability ≠ ""
  replyTo : ∀ s ∈ e.replyTo, isBrokerAddress s = true
  deadline : ∀ d ∈ e.deadline, 0 < d ∧ d ≤ 9007199254740991
  tenantId : ∀ s ∈ e.tenantId, s ≠ ""
  auth : ∀ a ∈ e.auth, a.Valid

theorem stringWhere_str {check : String → Bool} {s t : String} :
    stringWhere check (.str s) = some t ↔ t = s ∧ check s = true := by
  unfold stringWhere
  by_cases h : check s = true
  · simp only [h, if_true, Option.some.injEq, and_true]
    exact eq_comm
  · simp [h]

theorem nonEmptyString_str {s t : String} :
    nonEmptyString (.str s) = some t ↔ t = s ∧ s ≠ "" := by
  unfold nonEmptyString
  rw [stringWhere_str]
  simp

theorem positiveInt_ofInt {c d : Int} :
    positiveInt (.num (.ofInt d)) = some c ↔ c = d ∧ 0 < d ∧ d ≤ 9007199254740991 := by
  simp only [positiveInt, Number.intValue?_ofInt, Option.filter_some]
  by_cases h : 0 < d ∧ d ≤ 9007199254740991 <;> simp [h, eq_comm]

theorem envelopeKind_text {k l : EnvelopeKind} : envelopeKind (.str k.text) = some l ↔ l = k := by
  cases k <;> simp [envelopeKind, EnvelopeKind.text, eq_comm]

theorem stringRecord_headersJs {h h' : List (String × String)} :
    stringRecord (headersJs h) = some h' ↔ h' = h := by
  have hmap : (h.map fun p => (p.1, JsValue.str p.2)).mapM stringProperty = some h := by
    induction h with
    | nil => rfl
    | cons p h ih => simp [ih, stringProperty]
  simp only [stringRecord, headersJs, hmap, Option.some.injEq, eq_comm]

/-- A field that is accepted as it is, when it meets its condition, and then the fields after it. -/
theorem bind_field {α β : Type} {field : Option α} {a : α} {P : Prop}
    (h : ∀ {b}, field = some b ↔ b = a ∧ P) {rest : α → Option β} {c : β} :
    (field >>= rest) = some c ↔ P ∧ rest a = some c := by
  constructor
  · intro hbind
    obtain ⟨b, hb, hc⟩ := Option.bind_eq_some_iff.mp hbind
    obtain ⟨rfl, hp⟩ := h.mp hb
    exact ⟨hp, hc⟩
  · rintro ⟨hp, hc⟩
    rw [h.mpr ⟨rfl, hp⟩]
    exact hc

/-- A field that may be missing is accepted when it is, or when its value is. -/
theorem optional_optionalJs {α : Type} {schema : JsValue → Option α} {toJs : α → JsValue}
    {P : α → Prop} (hdefined : ∀ a, (toJs a).isUndefined = false)
    (h : ∀ a b, schema (toJs a) = some b ↔ b = a ∧ P a) {a? b? : Option α} :
    optional schema (optionalJs toJs a?) = some b? ↔ b? = a? ∧ ∀ a ∈ a?, P a := by
  cases a? with
  | none => simp [optional, optionalJs, eq_comm]
  | some a =>
    have hsome : optional schema (toJs a) = (schema (toJs a)).map some := by
      unfold optional
      split
      · rename_i heq
        have hd := hdefined a
        rw [heq] at hd
        cases hd
      · rfl
    change optional schema (toJs a) = some b? ↔ _
    rw [hsome, Option.map_eq_some_iff]
    constructor
    · rintro ⟨b, hb, rfl⟩
      obtain ⟨rfl, hp⟩ := (h a b).mp hb
      exact ⟨rfl, fun c hc => (Option.mem_some_iff.mp hc) ▸ hp⟩
    · rintro ⟨rfl, hp⟩
      exact ⟨a, (h a a).mpr ⟨rfl, hp a rfl⟩, rfl⟩

theorem agentAddress_str {s t : String} :
    agentAddress (.str s) = some t ↔ t = s ∧ isAddress "agent" s = true :=
  stringWhere_str

theorem optional_brokerAddress {s? t? : Option String} :
    optional brokerAddress (optionalJs .str s?) = some t? ↔
      t? = s? ∧ ∀ s ∈ s?, isBrokerAddress s = true :=
  optional_optionalJs (fun _ => rfl) fun _ _ => stringWhere_str

theorem optional_positiveInt {c? d? : Option Int} :
    optional positiveInt (optionalJs (fun d => .num (.ofInt d)) d?) = some c? ↔
      c? = d? ∧ ∀ d ∈ d?, 0 < d ∧ d ≤ 9007199254740991 :=
  optional_optionalJs (fun _ => rfl) fun _ _ => positiveInt_ofInt

theorem optional_stringRecord {h? h'? : Option (List (String × String))} :
    optional stringRecord (optionalJs headersJs h?) = some h'? ↔ h'? = h? := by
  have h : optional stringRecord (optionalJs headersJs h?) = some h'? ↔
      h'? = h? ∧ ∀ h ∈ h?, True :=
    optional_optionalJs (fun _ => rfl) fun _ _ => by rw [stringRecord_headersJs, and_true]
  simpa using h

theorem optional_nonEmptyString {s? t? : Option String} :
    optional nonEmptyString (optionalJs .str s?) = some t? ↔ t? = s? ∧ ∀ s ∈ s?, s ≠ "" :=
  optional_optionalJs (fun _ => rfl) fun _ _ => nonEmptyString_str

theorem get_rpcAuth (a : RpcAuth) (key : String) :
    a.toJs.get key = (a.properties.lookup key).getD .undefined :=
  get_defined (by cases a <;> simp [RpcAuth.properties]) key

theorem get_envelope (e : AgentRpcEnvelope JsValue) (key : String) :
    e.toJs.get key = (e.fields.lookup key).getD .undefined :=
  get_defined (by simp [AgentRpcEnvelope.fields, AgentRpcEnvelope.signedFields]) key

theorem rpcAuth_toJs {a b : RpcAuth} : rpcAuth a.toJs = some b ↔ b = a ∧ a.Valid := by
  unfold rpcAuth
  simp only [get_rpcAuth]
  cases a with
  | internal => simp [RpcAuth.properties, RpcAuth.Valid, eq_comm]
  | hmac keyId signature =>
    change (do
      let keyId ← nonEmptyString (.str keyId)
      let signature ← nonEmptyString (.str signature)
      some (RpcAuth.hmac keyId signature)) = some b ↔ _
    rw [bind_field nonEmptyString_str, bind_field nonEmptyString_str]
    constructor
    · rintro ⟨hkey, hsignature, hb⟩
      cases hb
      exact ⟨rfl, hkey, hsignature⟩
    · rintro ⟨rfl, hkey, hsignature⟩
      exact ⟨hkey, hsignature, rfl⟩
  | oidc token keyId =>
    change (do
      let token ← nonEmptyString (.str token)
      let keyId ← optional nonEmptyString (optionalJs .str keyId)
      some (RpcAuth.oidc token keyId)) = some b ↔ _
    rw [bind_field nonEmptyString_str, bind_field optional_nonEmptyString]
    constructor
    · rintro ⟨htoken, hkey, hb⟩
      cases hb
      exact ⟨rfl, htoken, hkey⟩
    · rintro ⟨rfl, htoken, hkey⟩
      exact ⟨htoken, hkey, rfl⟩
  | oauth2Client token scope =>
    change (do
      let token ← nonEmptyString (.str token)
      let scope ← optional nonEmptyString (optionalJs .str scope)
      some (RpcAuth.oauth2Client token scope)) = some b ↔ _
    rw [bind_field nonEmptyString_str, bind_field optional_nonEmptyString]
    constructor
    · rintro ⟨htoken, hscope, hb⟩
      cases hb
      exact ⟨rfl, htoken, hscope⟩
    · rintro ⟨rfl, htoken, hscope⟩
      exact ⟨htoken, hscope, rfl⟩

theorem optional_rpcAuth {a? b? : Option RpcAuth} :
    optional rpcAuth (optionalJs RpcAuth.toJs a?) = some b? ↔ b? = a? ∧ ∀ a ∈ a?, a.Valid :=
  optional_optionalJs (fun _ => rfl) fun _ _ => rpcAuth_toJs

theorem isStrict_toJs (e : AgentRpcEnvelope JsValue) : isStrict e.toJs = true := by
  have hkeys : ∀ p ∈ e.fields, envelopeKeys.contains p.1 = true := by
    simp [AgentRpcEnvelope.fields, AgentRpcEnvelope.signedFields, envelopeKeys]
  exact List.all_eq_true.mpr fun p hp => hkeys p (List.mem_of_mem_filter hp)

theorem literalOne_one : literalOne (.num (.ofInt 1)) = some () := by
  simp [literalOne]

/-- **What the schema accepts.**  A valid envelope, as it is. -/
theorem envelopeSchema_toJs {e e' : AgentRpcEnvelope JsValue} :
    envelopeSchema e.toJs = some e' ↔ e' = e ∧ Valid e := by
  have hversion : e.toJs.get "version" = .num (.ofInt 1) := get_envelope e _
  have hkind : e.toJs.get "kind" = .str e.kind.text := get_envelope e _
  have hmessageId : e.toJs.get "messageId" = .str e.messageId := get_envelope e _
  have hcorrelationId : e.toJs.get "correlationId" = .str e.correlationId := get_envelope e _
  have hcausedBy : e.toJs.get "causedBy" = optionalJs .str e.causedBy := get_envelope e _
  have hfrom : e.toJs.get "from" = .str e.from := get_envelope e _
  have hto : e.toJs.get "to" = .str e.to := get_envelope e _
  have hcapability : e.toJs.get "capability" = .str e.capability := get_envelope e _
  have hreplyTo : e.toJs.get "replyTo" = optionalJs .str e.replyTo := get_envelope e _
  have hdeadline : e.toJs.get "deadline" =
    optionalJs (fun d => .num (.ofInt d)) e.deadline := get_envelope e _
  have htenantId : e.toJs.get "tenantId" = optionalJs .str e.tenantId := get_envelope e _
  have hheaders : e.toJs.get "headers" = optionalJs headersJs e.headers := get_envelope e _
  have hpayload : e.toJs.get "payload" = e.payload := get_envelope e _
  have hauth : e.toJs.get "auth" = optionalJs RpcAuth.toJs e.auth := get_envelope e _
  have hkindText : envelopeKind (.str e.kind.text) = some e.kind := envelopeKind_text.mpr rfl
  have hrecord : optional stringRecord (optionalJs headersJs e.headers) = some e.headers :=
    optional_stringRecord.mpr rfl
  unfold envelopeSchema
  rw [isStrict_toJs, hversion, hkind, hmessageId, hcorrelationId, hcausedBy, hfrom, hto,
    hcapability, hreplyTo, hdeadline, htenantId, hheaders, hpayload, hauth, literalOne_one,
    hkindText, hrecord]
  -- the version and the kind are accepted whatever they are, and so are the headers below
  change (nonEmptyString (.str e.messageId) >>= _) = some e' ↔ _
  rw [bind_field nonEmptyString_str, bind_field nonEmptyString_str,
    bind_field optional_nonEmptyString, bind_field agentAddress_str, bind_field agentAddress_str,
    bind_field nonEmptyString_str, bind_field optional_brokerAddress,
    bind_field optional_positiveInt, bind_field optional_nonEmptyString]
  change _ ∧ _ ∧ _ ∧ _ ∧ _ ∧ _ ∧ _ ∧ _ ∧ _ ∧ (optional rpcAuth _ >>= _) = some e' ↔ _
  rw [bind_field optional_rpcAuth]
  constructor
  · rintro ⟨h₁, h₂, h₃, h₄, h₅, h₆, h₇, h₈, h₉, h₁₀, he⟩
    cases he
    exact ⟨rfl, h₁, h₂, h₃, h₄, h₅, h₆, h₇, h₈, h₉, h₁₀⟩
  · rintro ⟨rfl, h₁, h₂, h₃, h₄, h₅, h₆, h₇, h₈, h₉, h₁₀⟩
    exact ⟨h₁, h₂, h₃, h₄, h₅, h₆, h₇, h₈, h₉, h₁₀, rfl⟩

/-! ### On the wire -/

section
variable (F : NumberFormat)

/-- The envelope that is read where this one was written. -/
def AgentRpcEnvelope.received (e : AgentRpcEnvelope JsValue) : AgentRpcEnvelope JsValue :=
  { e with payload := JsonText.received F e.payload }

/-- The payload and the headers are values there are. -/
structure Proper (e : AgentRpcEnvelope JsValue) : Prop where
  payload : e.payload.Proper F
  headers : ∀ h ∈ e.headers, Listed h

end

variable {F : NumberFormat}

theorem received_optionalJs {α : Type} {toJs : α → JsValue} {a? : Option α}
    (h : ∀ a ∈ a?, received F (toJs a) = toJs a) :
    received F (optionalJs toJs a?) = optionalJs toJs a? := by
  cases a? with
  | none => rfl
  | some a => exact h a rfl

theorem received_headersJs {h : List (String × String)} (hh : Listed h) :
    received F (headersJs h) = headersJs h := by
  have hlisted : Listed (h.map fun p => (p.1, JsValue.str p.2)) := by
    unfold Listed
    rw [List.map_map]
    exact hh
  have hdefined : defined (h.map fun p => (p.1, JsValue.str p.2)) =
      h.map fun p => (p.1, JsValue.str p.2) := by
    refine List.filter_eq_self.mpr fun p hp => ?_
    obtain ⟨q, -, rfl⟩ := List.mem_map.mp hp
    rfl
  unfold headersJs
  rw [← hdefined]
  refine received_defined hlisted fun p hp => ?_
  obtain ⟨q, -, rfl⟩ := List.mem_map.mp hp
  rfl

theorem received_rpcAuth (a : RpcAuth) : received F a.toJs = a.toJs := by
  have hoptional : ∀ s? : Option String,
      received F (optionalJs .str s?) = optionalJs .str s? :=
    fun s? => received_optionalJs fun _ _ => rfl
  cases a with
  | internal =>
    refine received_defined ((show Names ["kind"] by decide).listed rfl) fun p hp => ?_
    simp only [RpcAuth.properties, List.mem_singleton] at hp
    subst hp
    rfl
  | hmac keyId signature =>
    refine received_defined ((show Names ["kind", "keyId", "signature"] by decide).listed rfl)
      fun p hp => ?_
    simp only [RpcAuth.properties, List.mem_cons, List.not_mem_nil, or_false] at hp
    rcases hp with rfl | rfl | rfl <;> rfl
  | oidc token keyId =>
    refine received_defined ((show Names ["kind", "token", "keyId"] by decide).listed rfl)
      fun p hp => ?_
    simp only [RpcAuth.properties, List.mem_cons, List.not_mem_nil, or_false] at hp
    rcases hp with rfl | rfl | rfl
    · rfl
    · rfl
    · exact hoptional keyId
  | oauth2Client token scope =>
    refine received_defined ((show Names ["kind", "token", "scope"] by decide).listed rfl)
      fun p hp => ?_
    simp only [RpcAuth.properties, List.mem_cons, List.not_mem_nil, or_false] at hp
    rcases hp with rfl | rfl | rfl
    · rfl
    · rfl
    · exact hoptional scope

/-- The fields are read as they were written. -/
theorem received_fields {e : AgentRpcEnvelope JsValue} (he : Valid e) (hp : Proper F e) :
    (e.fields.map fun p => (p.1, received F p.2)) = (e.received F).fields := by
  have hversion : received F (.num (.ofInt 1)) = .num (.ofInt 1) := received_ofInt (by decide)
  have hstring : ∀ s : String, received F (.str s) = .str s := fun _ => rfl
  have hoptional : ∀ s? : Option String,
      received F (optionalJs .str s?) = optionalJs .str s? :=
    fun s? => received_optionalJs fun _ _ => rfl
  have hdeadline : received F (optionalJs (fun d => .num (.ofInt d)) e.deadline) =
      optionalJs (fun d => .num (.ofInt d)) e.deadline :=
    received_optionalJs fun d hd => received_ofInt (by have := he.deadline d hd; omega)
  have hheaders : received F (optionalJs headersJs e.headers) =
      optionalJs headersJs e.headers :=
    received_optionalJs fun h hh => received_headersJs (hp.headers h hh)
  have hauth : received F (optionalJs RpcAuth.toJs e.auth) = optionalJs RpcAuth.toJs e.auth :=
    received_optionalJs fun a _ => received_rpcAuth a
  simp only [AgentRpcEnvelope.fields, AgentRpcEnvelope.signedFields, AgentRpcEnvelope.received,
    List.map_cons, List.map_append, List.map_nil, hversion, hstring, hoptional, hdeadline,
    hheaders, hauth]

theorem Valid.received {e : AgentRpcEnvelope JsValue} (h : Valid e) (F : NumberFormat) :
    Valid (e.received F) :=
  ⟨h.messageId, h.correlationId, h.causedBy, h.from, h.to, h.capability, h.replyTo, h.deadline,
    h.tenantId, h.auth⟩

theorem listed_fields (e : AgentRpcEnvelope JsValue) : Listed e.fields :=
  (show Names envelopeKeys by decide).listed rfl

theorem encodeEnvelope_ok (D : Diagnostics) {e : AgentRpcEnvelope JsValue} (he : Valid e) :
    encodeEnvelope D e = .ok (objectText (defined e.fields)) := by
  unfold encodeEnvelope parseEnvelope
  rw [envelopeSchema_toJs.mpr ⟨rfl, he⟩]
  rfl

/-- **Encode, then decode.**  A valid envelope is read back as it was written. -/
theorem decode_encode (D : Diagnostics) {e : AgentRpcEnvelope JsValue} (he : Valid e)
    (hp : Proper F e) : ∃ text, encodeEnvelope D e = .ok text ∧
      decodeEnvelope F D text = .ok (e.received F) := by
  refine ⟨_, encodeEnvelope_ok D he, ?_⟩
  have hread : jsonParse F (objectText (defined e.fields)) = some (e.received F).toJs := by
    unfold objectText
    rw [propertiesJson_defined, jsonParse_stringify]
    have hobj := received_obj (F := F) (listed_fields e)
    rw [received_fields he hp] at hobj
    exact congrArg some hobj
  unfold decodeEnvelope
  rw [hread]
  dsimp only
  unfold parseEnvelope
  rw [envelopeSchema_toJs.mpr ⟨rfl, he.received F⟩]

end Declaragent.Rpc
