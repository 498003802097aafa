import Declaragent.Events.JsonPath
import Declaragent.Events.Types

/-!
# Events — the message normalizer

`normalize` makes an event of a message from a transport: it decodes the payload, drops what the
filter does not let through, and takes the kind, the target, the correlation id and the
idempotency key from the body or from what the transport says of the message.

The decoders, the filter expressions, the templates of a session key and the cast of a text to an
event kind are parameters.  A body is the JSON value of its own properties: what an object
inherits is not looked at.

* `normalize_spec` is what an event carries of the message it was made of.
* `normalize_again`: made of the same message at another time, the event is the same but for an id
  that is drawn and a timestamp that the message lacks.
-/

namespace Declaragent.Events
open JsonText

/-! ### JSON paths -/

def Json.segment : Json → JsonPathSegment → Option Json
  | .arr items, .index n => items[n]?
  | .arr items, .key name =>
    if name = "length" then some (.num (.ofInt items.length))
    else (arrayIndex? name).bind fun n => items[n]?
  | .obj fields, .key name => fields.lookup name
  | _, _ => none

def resolveJsonPath (root : Json) (path : String) : Except String (Option Json) :=
  (parseJsonPath path).map fun segments => segments.foldlM Json.segment root

def isJsonPath (value : String) : Bool := value.toList.head? == some '$'

/-! ### What the normalizer works with -/

/-- `string | Uint8Array`. -/
inductive RawValue where
  | text (s : String)
  | bytes (b : List UInt8)

/-- A message as a transport gives it. -/
structure RawMessage where
  value : RawValue
  key : Option String := none
  topic : Option String := none
  partition : Option Nat := none
  offset : Option String := none
  routingKey : Option String := none
  headers : List (String × Json) := []
  timestamp : Option Int := none
  /-- `meta`. -/
  info : List (String × Json) := []

inductive KindSelector where
  | path (path : String)
  | const (kind : EventKind)

inductive TargetSelector where
  | broadcast
  | session (sessionIdFrom : String) (action : SessionMode)
  | newSession (initialPromptFrom : Option String) (agentSpec : Option Json)
  | skill (name : String) (inputs : List (String × String)) (sessionKey : Option String)
  | subAgent (parentSessionIdFrom : String)

inductive PayloadFormat where
  | json | avro | protobuf | msgpack | plain
  deriving DecidableEq

inductive IdempotencyKeyFrom where
  | transportNatural
  | contentHash
  | path (path : String)

structure RoutingConfig where
  format : PayloadFormat := .json
  /-- `schemaRegistry.url`. -/
  schemaRegistry : Option String := none
  filter : Option String := none
  transform : Option String := none
  kindSelector : KindSelector
  targetSelector : TargetSelector
  /-- `transport-natural` where it is absent. -/
  idempotencyKeyFrom : IdempotencyKeyFrom := .transportNatural
  correlationIdFrom : Option String := none

structure NormalizeContext where
  source : EventSourceTag
  auth : EventAuth := .internal

structure InterpolationContext where
  body : Json
  source : EventSourceTag
  kind : EventKind
  headers : List (String × Json)

structure NormalizerDeps where
  textDecoder : List UInt8 → String
  decodePayload : RawValue → RoutingConfig → Except String Json
  evaluateFilter : String → Json → Except String Bool
  resolveSessionKey : Option String → InterpolationContext → Option String
  asKind : String → EventKind

/-! ### Kind and target -/

/-- `String(v)`. -/
def jsString : Json → String
  | .null => "null"
  | .bool b => if b then "true" else "false"
  | .num n => n.text
  | .str s => s
  | .arr items => ",".intercalate (items.attach.map fun ⟨item, _⟩ =>
    match item with
    | .null => ""
    | item => jsString item)
  | .obj _ => "[object Object]"

def describe : Option Json → String
  | none => "undefined"
  | some .null => "null"
  | some (.bool b) => if b then "true" else "false"
  | some (.num n) => n.text
  | some (.str s) => "\"" ++ s ++ "\""
  | some (.arr _) => "array"
  | some (.obj _) => "object"

/-- The value is a text and not empty. -/
def nonEmptyText : Option Json → Option String
  | some (.str s) => if s = "" then none else some s
  | _ => none

def resolveKind (N : NormalizerDeps) (body : Json) : KindSelector → Except String EventKind
  | .const kind => .ok kind
  | .path path => do
      let v ← resolveJsonPath body path
      match nonEmptyText v with
      | some s => pure (N.asKind s)
      | none =>
        throw ("kindSelector \"" ++ path ++ "\" did not resolve to a non-empty string (got " ++
          describe v ++ ")")

/-- The input of a skill: a path that resolves to nothing gives `undefined`, which is left out. -/
def resolveInputs (body : Json) : List (String × String) → Except String (List (String × Json))
  | [] => .ok []
  | (key, spec) :: inputs => do
      let v ← if isJsonPath spec then resolveJsonPath body spec else pure (some (.str spec))
      let rest ← resolveInputs body inputs
      pure (match v with
        | some v => (key, v) :: rest
        | none => rest)

def resolveTarget (N : NormalizerDeps) (body : Json) (interp : InterpolationContext) :
    TargetSelector → Except String EventTarget
  | .broadcast => .ok .broadcast
  | .session sessionIdFrom action => do
      match nonEmptyText (← resolveJsonPath body sessionIdFrom) with
      | some sessionId => pure (.session sessionId action)
      | none =>
        throw ("session.sessionIdFrom \"" ++ sessionIdFrom ++
          "\" did not resolve to a non-empty string")
  | .newSession initialPromptFrom agentSpec => do
      let initialPrompt ← match initialPromptFrom with
        | none | some "" => pure ""
        | some path => do
            match ← resolveJsonPath body path with
            | none | some .null => pure ""
            | some v => pure (jsString v)
      pure (.newSession agentSpec initialPrompt)
  | .skill name inputs sessionKey => do
      let inputs ← resolveInputs body inputs
      pure (.skill name inputs (N.resolveSessionKey sessionKey interp))
  | .subAgent parentSessionIdFrom => do
      match nonEmptyText (← resolveJsonPath body parentSessionIdFrom) with
      | some parentSessionId => pure (.subAgent parentSessionId (.obj []))
      | none =>
        throw ("sub-agent.parentSessionIdFrom \"" ++ parentSessionIdFrom ++
          "\" did not resolve")

/-! ### The idempotency key -/

/-- djb2 over the code units, in 32 bits. -/
def djb2 (units : List Nat) : UInt32 :=
  units.foldl (fun hash u => (hash * 33) ^^^ UInt32.ofNat u) 5381

/-- `.toString(16).padStart(8, '0')`. -/
def hex8 (n : UInt32) : String :=
  let digits := Nat.toDigits 16 n.toNat
  String.ofList (List.replicate (8 - digits.length) '0' ++ digits)

def RawValue.toText (N : NormalizerDeps) : RawValue → String
  | .text s => s
  | .bytes b => N.textDecoder b

def contentHash (N : NormalizerDeps) (value : RawValue) : String :=
  hex8 (djb2 (utf16 (value.toText N)))

/-- `meta.messageId`, where it is a number or a text that is not empty. -/
def RawMessage.messageId (raw : RawMessage) : Option String :=
  match raw.info.lookup "messageId" with
  | some (.str s) => if s = "" then none else some s
  | some (.num n) => some n.text
  | _ => none

/-- `meta.deliveryTag`, as a text. -/
def RawMessage.deliveryTag (raw : RawMessage) : Option String :=
  match raw.info.lookup "deliveryTag" with
  | none | some .null => none
  | some v => some (jsString v)

def deriveTransportNatural (N : NormalizerDeps) (raw : RawMessage) : String :=
  match raw.topic, raw.partition, raw.offset with
  | some topic, some partition, some offset =>
    topic ++ ":" ++ toString partition ++ ":" ++ offset
  | _, _, _ =>
    match raw.messageId with
    | some messageId => messageId
    | none =>
      match raw.deliveryTag, raw.routingKey with
      | some deliveryTag, some routingKey =>
        if routingKey = "" then contentHash N raw.value
        else "amqp:" ++ routingKey ++ ":" ++ deliveryTag
      | _, _ => contentHash N raw.value

def deriveIdempotencyKey (N : NormalizerDeps) (raw : RawMessage) (body : Json) :
    IdempotencyKeyFrom → Except String (Option String)
  | .transportNatural => .ok (some (deriveTransportNatural N raw))
  | .contentHash => .ok (some (contentHash N raw.value))
  | .path path =>
    if isJsonPath path then (resolveJsonPath body path).map nonEmptyText else .ok none

/-- An empty key is none. -/
def keyOf : Option String → Option String
  | some key => if key = "" then none else some key
  | none => none

/-! ### The event -/

/-- The body an event carries; `none` where the filter drops the message. -/
def normalizeBody (N : NormalizerDeps) (raw : RawMessage) (routing : RoutingConfig) :
    Except String (Option Json) := do
  let decoded ← N.decodePayload raw.value routing
  let keep ← match routing.filter with
    | none | some "" => pure true
    | some expr =>
      match N.evaluateFilter expr decoded with
      | .ok keep => pure keep
      | .error err => throw ("filter expression \"" ++ expr ++ "\" failed: " ++ err)
  if keep then
    match routing.transform with
    | none | some "" => pure (some decoded)
    | some expr => do
        match ← resolveJsonPath decoded expr with
        | none | some .null => pure (some decoded)
        | some v => pure (some v)
  else pure none

def resolveCorrelationId (body : Json) : Option String → Except String (Option String)
  | none | some "" => .ok none
  | some path => (resolveJsonPath body path).map nonEmptyText

/-- `meta`, where it has a field. -/
def normalizeMeta (N : NormalizerDeps) (raw : RawMessage) (routing : RoutingConfig) (body : Json) :
    Except String (Option AgentEventMeta) := do
  let correlationId ← resolveCorrelationId body routing.correlationIdFrom
  let idempotencyKey := keyOf (← deriveIdempotencyKey N raw body routing.idempotencyKeyFrom)
  pure (match correlationId, idempotencyKey with
    | none, none => none
    | correlationId, idempotencyKey =>
      some { correlationId := correlationId, idempotencyKey := idempotencyKey })

/-- The id that the `x-event-id` header supplies. -/
def RawMessage.headerId (raw : RawMessage) : Option String :=
  nonEmptyText (raw.headers.lookup "x-event-id")

/-- `uuid` is what `crypto.randomUUID()` draws, `now` the time. -/
def Normalizer.normalize (N : NormalizerDeps) (raw : RawMessage) (routing : RoutingConfig)
    (ctx : NormalizeContext) (uuid : String) (now : Int) : Except String (Option AgentEvent) := do
  match ← normalizeBody N raw routing with
  | none => pure none
  | some body => do
      let kind ← resolveKind N body routing.kindSelector
      let target ← resolveTarget N body ⟨body, ctx.source, kind, raw.headers⟩
        routing.targetSelector
      let info ← normalizeMeta N raw routing body
      pure (some
        { id := raw.headerId.getD uuid
          kind := kind
          source := ctx.source
          target := target
          timestamp := raw.timestamp.getD now
          payload := body
          auth := ctx.auth
          info := info })

/-! ### What an event carries -/

section
variable {N : NormalizerDeps} {raw : RawMessage} {routing : RoutingConfig} {ctx : NormalizeContext}
  {uuid : String} {now : Int} {event : AgentEvent}

/-- The parts of an event that are made of the message alone. -/
theorem normalize_inv (h : Normalizer.normalize N raw routing ctx uuid now = .ok (some event)) :
    ∃ body kind target info, normalizeBody N raw routing = .ok (some body) ∧
      resolveKind N body routing.kindSelector = .ok kind ∧
      resolveTarget N body ⟨body, ctx.source, kind, raw.headers⟩ routing.targetSelector =
        .ok target ∧
      normalizeMeta N raw routing body = .ok info ∧
      event = ⟨raw.headerId.getD uuid, ctx.source, target, kind, raw.timestamp.getD now, body,
        ctx.auth, info⟩ := by
  unfold Normalizer.normalize at h
  cases hbody : normalizeBody N raw routing with
  | error e => rw [hbody] at h; cases h
  | ok body? =>
    rw [hbody] at h
    cases body? with
    | none => cases h
    | some body =>
      cases hkind : resolveKind N body routing.kindSelector with
      | error e => simp [hkind, bind, Except.bind] at h
      | ok kind =>
        cases htarget : resolveTarget N body ⟨body, ctx.source, kind, raw.headers⟩
            routing.targetSelector with
        | error e => simp [hkind, htarget, bind, Except.bind] at h
        | ok target =>
          cases hinfo : normalizeMeta N raw routing body with
          | error e => simp [hkind, htarget, hinfo, bind, Except.bind] at h
          | ok info =>
            simp only [hkind, htarget, hinfo, bind, Except.bind, pure, Except.pure,
              Except.ok.injEq, Option.some.injEq] at h
            exact ⟨body, kind, target, info, rfl, hkind, htarget, hinfo, h.symm⟩

theorem normalize_of_parts {body : Json} {kind : EventKind} {target : EventTarget}
    {info : Option AgentEventMeta} (hbody : normalizeBody N raw routing = .ok (some body))
    (hkind : resolveKind N body routing.kindSelector = .ok kind)
    (htarget : resolveTarget N body ⟨body, ctx.source, kind, raw.headers⟩
      routing.targetSelector = .ok target)
    (hinfo : normalizeMeta N raw routing body = .ok info) (uuid : String) (now : Int) :
    Normalizer.normalize N raw routing ctx uuid now = .ok (some ⟨raw.headerId.getD uuid,
      ctx.source, target, kind, raw.timestamp.getD now, body, ctx.auth, info⟩) := by
  simp [Normalizer.normalize, hbody, hkind, htarget, hinfo, bind, Except.bind, pure, Except.pure]

/-- **Made again of the same message**, an event has another id only where it is drawn, and another
timestamp only where the message has none. -/
theorem normalize_again (h : Normalizer.normalize N raw routing ctx uuid now = .ok (some event))
    (uuid' : String) (now' : Int) :
    Normalizer.normalize N raw routing ctx uuid' now' = .ok (some
      { event with id := raw.headerId.getD uuid', timestamp := raw.timestamp.getD now' }) := by
  obtain ⟨body, kind, target, info, hbody, hkind, htarget, hinfo, rfl⟩ := normalize_inv h
  exact normalize_of_parts hbody hkind htarget hinfo uuid' now'

theorem normalizeMeta_inv {body : Json} {info : Option AgentEventMeta}
    (h : normalizeMeta N raw routing body = .ok info) :
    info.bind (·.causedBy) = none ∧
      ∃ key, deriveIdempotencyKey N raw body routing.idempotencyKeyFrom = .ok key ∧
        info.bind (·.idempotencyKey) = keyOf key := by
  unfold normalizeMeta at h
  cases hcorr : resolveCorrelationId body routing.correlationIdFrom with
  | error e => simp [hcorr, bind, Except.bind] at h
  | ok correlationId =>
    cases hkey : deriveIdempotencyKey N raw body routing.idempotencyKeyFrom with
    | error e => simp [hcorr, hkey, bind, Except.bind] at h
    | ok key =>
      simp only [hcorr, hkey, bind, Except.bind, pure, Except.pure, Except.ok.injEq] at h
      subst h
      refine ⟨?_, key, rfl, ?_⟩
      · split <;> rfl
      · split
        · rename_i hnone
          rw [hnone]
          rfl
        · rfl

/-- **What an event carries of its message.** -/
theorem normalize_spec (h : Normalizer.normalize N raw routing ctx uuid now = .ok (some event)) :
    event.id = raw.headerId.getD uuid ∧ event.source = ctx.source ∧
      event.timestamp = raw.timestamp.getD now ∧ event.causedBy = none ∧
      ∃ key, deriveIdempotencyKey N raw event.payload routing.idempotencyKeyFrom = .ok key ∧
        event.idempotencyKey = keyOf key := by
  obtain ⟨body, kind, target, info, -, -, -, hinfo, rfl⟩ := normalize_inv h
  obtain ⟨hcaused, hkey⟩ := normalizeMeta_inv hinfo
  exact ⟨rfl, rfl, rfl, hcaused, hkey⟩

theorem keyOf_ne_empty {key? : Option String} {key : String} (h : keyOf key? = some key) :
    key ≠ "" := by
  rintro rfl
  unfold keyOf at h
  split at h
  · split at h
    · cases h
    · rename_i hne
      exact hne (Option.some.inj h)
  · cases h

/-- No event has the empty idempotency key. -/
theorem normalize_key_ne_empty
    (h : Normalizer.normalize N raw routing ctx uuid now = .ok (some event))
    {key : String} (hkey : event.idempotencyKey = some key) : key ≠ "" := by
  obtain ⟨-, -, -, -, key?, -, hkeyOf⟩ := normalize_spec h
  exact keyOf_ne_empty (hkeyOf.symm.trans hkey)

theorem headerId_ne_empty {id : String} (h : raw.headerId = some id) : id ≠ "" := by
  rintro rfl
  unfold RawMessage.headerId nonEmptyText at h
  split at h
  · split at h
    · cases h
    · rename_i hne
      exact hne (Option.some.inj h)
  · cases h

end

end Declaragent.Events
