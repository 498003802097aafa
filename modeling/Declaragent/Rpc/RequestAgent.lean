import Declaragent.Library.Async
import Declaragent.Rpc.AgentInbox

/-!
# Rpc — the RequestAgent tool

A call builds an envelope, registers under its correlation id, publishes the envelope and waits
for the promise of its registration.  Any number of calls of one process run at once: a call
gives the processor away while a schema violation is audited, while its envelope is signed, while
it is published, and while it waits.  The peers answer what was published, any number of times;
the transport delivers an answer at any later time, again, or never.

The correlation id of a call is that of its context, which the calls of a turn or of a skill
share, and only without one a fresh UUID.  Whatever two calls do with one id hits the same entry
of the registry.

* `Sound` holds on every run where no two calls that reach the wire share an id.
* `interferes_of_shared`: where two do, a failed publish of one settles the other.
* `requestAgent_correlated_iff` puts the two together.
-/

namespace Declaragent.Rpc
open Async Transition JsonText

inductive RpcTransportKind where
  | kafka | nats | sqs | amqp | mqtt | memory
  deriving DecidableEq

def RpcTransportKind.scheme : RpcTransportKind → String
  | .kafka => "kafka"
  | .nats => "nats"
  | .sqs => "sqs"
  | .amqp => "amqp"
  | .mqtt => "mqtt"
  | .memory => "memory"

/-- A transport of a peer, with where it takes requests. -/
structure PeerTransport where
  kind : RpcTransportKind
  requests : String

def peerTransportToAddress (t : PeerTransport) : String := t.kind.scheme ++ "://" ++ t.requests

/-- The transport kind an address names. -/
def brokerAddressKind (addr : String) : Option RpcTransportKind :=
  [.kafka, .nats, .sqs, .amqp, .mqtt, .memory].find? fun kind =>
    (addr.splitOn "://").head? == some kind.scheme

inductive RequestAgentMode where
  | sync | async | fireAndForget
  deriving DecidableEq

structure RequestAgentInput where
  «to» : String
  capability : String
  payload : Json
  timeoutMs : Option Int := none
  mode : Option RequestAgentMode := none
  transport : Option String := none

/-- What a call sees of the turn it is made in. -/
structure RequestContext where
  correlationId : Option String := none
  tenantId : Option String := none

/-- A call, with the UUIDs it draws. -/
structure RequestCall where
  input : RequestAgentInput
  ctx : RequestContext
  uuid : String
  messageId : String

structure SchemaViolation where
  path : String
  message : String

structure RequestAgentOptions where
  selfAgent : String
  /-- The transports of a peer, the preferred one first. -/
  peers : String → Option (List PeerTransport)
  transports : RpcTransportKind → Bool
  replyTo : Option String := none
  fleetVersion : Option String := none
  signOutbound : Bool := false
  /-- What the schema of a peer's capability finds wrong with a payload; without a schema,
  nothing. -/
  requestViolations : String → String → Json → List SchemaViolation := fun _ _ _ => []
  responseViolations : String → String → Option Json → List SchemaViolation := fun _ _ _ => []
  onSchemaViolation : Bool := false

structure ResolvedTarget where
  kind : RpcTransportKind
  address : String

/-- The transport the caller asks for, or the peer's first. -/
def resolveTarget (opts : RequestAgentOptions) (input : RequestAgentInput) :
    Option ResolvedTarget :=
  match input.transport.filter (· ≠ "") with
  | some addr => (brokerAddressKind addr).map fun kind => ⟨kind, addr⟩
  | none =>
    ((opts.peers input.to).bind List.head?).map fun t => ⟨t.kind, peerTransportToAddress t⟩

inductive SchemaSide where
  | request | response
  deriving DecidableEq

inductive RequestStatus where
  | ok | error | timeout | abandoned | busy | schemaViolation
  deriving DecidableEq

structure RequestAgentOutput where
  status : RequestStatus
  correlationId : String
  latencyMs : Int
  response : Option Json := none
  error : Option Json := none
  violations : List SchemaViolation := []
  schemaSide : Option SchemaSide := none

/-- How a call ends: with a result, with an error event, or by throwing. -/
inductive RequestAgentEvent where
  | result (output : RequestAgentOutput)
  | error (code : Option String) (message : String)
  | threw (err : String)

namespace RequestCall

def mode (call : RequestCall) : RequestAgentMode := call.input.mode.getD .sync

def correlationId (call : RequestCall) : String := call.ctx.correlationId.getD call.uuid

def defaultTimeoutMs : Int := 30000

def timeoutMs (call : RequestCall) : Int :=
  min 600000 (max 1 (call.input.timeoutMs.getD defaultTimeoutMs))

/-- The envelope of a call that started at `started`. -/
def envelope (call : RequestCall) (opts : RequestAgentOptions) (started : Int) (auth : RpcAuth) :
    AgentRpcEnvelope Json where
  kind := if call.mode = .fireAndForget then .event else .request
  messageId := call.messageId
  correlationId := call.correlationId
  causedBy := call.ctx.correlationId.filter (· ≠ call.correlationId)
  «from» := opts.selfAgent
  «to» := call.input.to
  capability := call.input.capability
  replyTo := if call.mode = .fireAndForget then none else opts.replyTo
  deadline := some (started + call.timeoutMs)
  tenantId := call.ctx.tenantId
  headers := opts.fleetVersion.map fun version => [("x-fleet-version", version)]
  payload := call.input.payload
  auth := some auth

/-- A schema violation's result. -/
def violation (call : RequestCall) (side : SchemaSide) (latencyMs : Int) (response : Option Json)
    (violations : List SchemaViolation) : RequestAgentEvent :=
  .result
    { status := .schemaViolation
      correlationId := call.correlationId
      latencyMs := latencyMs
      response := response
      violations := violations
      schemaSide := some side
      error := some (RpcError.toJson ⟨"EAGENTRPC_SCHEMA_VIOLATION", "capability \"" ++
        call.input.capability ++ "\" " ++ (if side = .request then "request" else "response") ++
        " failed schema validation", none⟩) }

/-- What a call makes of the error its promise was rejected with. -/
def rejected (call : RequestCall) (latencyMs : Int) (err : PendingError) : RequestAgentEvent :=
  let output (status : RequestStatus) : RequestAgentEvent := .result
    { status := status
      correlationId := call.correlationId
      latencyMs := latencyMs
      error := some (RpcError.toJson ⟨err.code.getD "", err.message, none⟩) }
  match err with
  | .timeout .. => output .timeout
  | .abandoned _ => output .abandoned
  | .busy _ | .alreadyRegistered _ => .error none err.message

end RequestCall

/-! ### The calls of a process -/

/-- The control point of a call that started at `started`. -/
inductive CallPhase where
  | ready
  | auditing (started : Int) (violations : List SchemaViolation)
  | signing (started : Int)
  | publishing (started : Int)
  | awaiting (started : Int)
  | auditingResponse (latencyMs : Int) (data : Option Json) (violations : List SchemaViolation)
  | ended (event : RequestAgentEvent)

inductive CallAct where
  | start
  /-- The violation was audited; an error of the hook is dropped. -/
  | audited
  | signed (auth : Except String RpcAuth)
  | published (result : Except String Unit)
  /-- The promise is settled, and the call goes on. -/
  | resumed

/-- What else happens. -/
inductive WireEvent (ι : Type) where
  | clock (now : Int)
  | timer (i : ι)
  | abandon
  /-- The callee answers the envelope of call `i`. -/
  | respond (i : ι) (selfAgent messageId : String) (auth : RpcAuth) (result : RpcRespondResult)
  /-- The transport delivers the answer at this place, and the inbox lets it through. -/
  | deliver (place : Nat)

/-- An answer, with the call whose envelope it answers. -/
structure Answer (ι : Type) where
  request : ι
  envelope : AgentRpcEnvelope Json

/-- The pending registry, the clock, the envelopes given to the transport, and the answers. -/
structure Exchange (ι : Type) where
  pending : PendingRegistry ι (Option Json)
  now : Int
  sent : ι → Option (AgentRpcEnvelope Json)
  answers : List (Answer ι)

section
variable {ι : Type} [DecidableEq ι] (opts : RequestAgentOptions)

/-- `transport.publish`, up to the await of its promise. -/
def Exchange.send (sh : Exchange ι) (i : ι) (envelope : AgentRpcEnvelope Json) : Exchange ι :=
  { sh with sent := Function.update sh.sent i (some envelope) }

/-- `pending.register`, with the promise of call `i`. -/
def Exchange.register (sh : Exchange ι) (call : RequestCall) (i : ι) (started : Int) :
    Exchange ι :=
  { sh with
    pending := sh.pending.register i call.correlationId (started + call.timeoutMs) sh.now }

/-- From the signed envelope on: a synchronous call registers before it publishes. -/
def publishCall (call : RequestCall) (i : ι) (sh : Exchange ι) (started : Int) (auth : RpcAuth) :
    Exchange ι × CallPhase :=
  let envelope := call.envelope opts started auth
  match call.mode with
  | .sync => ((sh.register call i started).send i envelope, .publishing started)
  | .async | .fireAndForget => (sh.send i envelope, .publishing started)

def noPeer (call : RequestCall) : RequestAgentEvent :=
  .error (some "EAGENTRPC_NO_PEER") ("no peer registered for " ++ call.input.to)

def noTransport (kind : RpcTransportKind) : RequestAgentEvent :=
  .error (some "EAGENTRPC_NO_TRANSPORT")
    ("no transport registered for kind \"" ++ kind.scheme ++ "\"")

def publishFailed (err : String) : Json := RpcError.toJson ⟨"EAGENTRPC_PUBLISH_FAILED", err, none⟩

def okResult (call : RequestCall) (latencyMs : Int) (response : Option Json) :
    RequestAgentEvent :=
  .result
    { status := .ok
      correlationId := call.correlationId
      latencyMs := latencyMs
      response := response }

/-- The first step of a call, up to its first await. -/
def startCall (call : RequestCall) (i : ι) (sh : Exchange ι) : Exchange ι × CallPhase :=
  match opts.requestViolations call.input.to call.input.capability call.input.payload with
  | v :: violations =>
    if opts.onSchemaViolation then (sh, .auditing sh.now (v :: violations))
    else (sh, .ended (call.violation .request 0 none (v :: violations)))
  | [] =>
    match resolveTarget opts call.input with
    | none => (sh, .ended (noPeer call))
    | some target =>
      if opts.transports target.kind = false then (sh, .ended (noTransport target.kind))
      else if opts.signOutbound then (sh, .signing sh.now)
      else publishCall opts call i sh sh.now .internal

/-- The call goes on with what its promise was settled with. -/
def resumeCall (call : RequestCall) (sh : Exchange ι) (started : Int) :
    Settled (Option Json) → CallPhase
  | .resolve (.ok data) =>
    match opts.responseViolations call.input.to call.input.capability data with
    | [] => .ended (okResult call (sh.now - started) data)
    | v :: violations =>
      if opts.onSchemaViolation then
        .auditingResponse (sh.now - started) data (v :: violations)
      else .ended (call.violation .response (sh.now - started) data (v :: violations))
  | .resolve (.error error) =>
    .ended (.result
      { status := .error
        correlationId := call.correlationId
        latencyMs := sh.now - started
        error := error })
  | .reject err => .ended (call.rejected (sh.now - started) err)

/-- One step of call `i`. -/
def callStep (call : RequestCall) (i : ι) (sh : Exchange ι) :
    CallPhase → CallAct → Option (Exchange ι × CallPhase)
  | .ready, .start => some (startCall opts call i sh)
  | .auditing started violations, .audited =>
    some (sh, .ended (call.violation .request (sh.now - started) none violations))
  | .signing _, .signed (.error err) => some (sh, .ended (.threw err))
  | .signing started, .signed (.ok auth) => some (publishCall opts call i sh started auth)
  | .publishing started, .published (.ok _) =>
    if call.mode = .sync then some (sh, .awaiting started)
    else some (sh, .ended (okResult call (sh.now - started) none))
  | .publishing _, .published (.error err) =>
    if call.mode = .sync then
      -- whatever is registered under the correlation id is settled
      some ({ sh with pending := (sh.pending.settle call.correlationId
        (.error (some (publishFailed err)))).2 }, .ended (.error none err))
    else some (sh, .ended (.error none err))
  | .awaiting started, .resumed =>
    (sh.pending.promise i).settlements.head?.map fun settled =>
      (sh, resumeCall opts call sh started settled)
  | .auditingResponse latencyMs data violations, .audited =>
    some (sh, .ended (call.violation .response latencyMs data violations))
  | _, _ => none

def wireStep (sh : Exchange ι) : WireEvent ι → Option (Exchange ι)
  | .clock now => some { sh with now := now }
  | .timer i => (sh.pending.onTimer i).map fun pending => { sh with pending := pending }
  | .abandon => some { sh with pending := sh.pending.abandon }
  | .respond i selfAgent messageId auth result =>
    (sh.sent i).bind fun request =>
      (createRespondHook request selfAgent messageId auth result).map fun envelope =>
        { sh with answers := sh.answers ++ [⟨i, envelope⟩] }
  | .deliver place =>
    sh.answers[place]?.map fun answer =>
      match responseValue answer.envelope.payload with
      | none => sh
      | some value =>
        { sh with pending := (sh.pending.settle answer.envelope.correlationId value).2 }

/-- The process with one call for each member of `ι`. -/
def requestSystem (calls : ι → RequestCall) :
    System ι (Exchange ι) CallPhase CallAct (WireEvent ι) where
  task i := callStep opts (calls i) i
  env := wireStep

end

/-! ### What a step of a call does -/

/-- The call gets as far as publishing. -/
def Sends (opts : RequestAgentOptions) (call : RequestCall) : Prop :=
  opts.requestViolations call.input.to call.input.capability call.input.payload = [] ∧
  ∃ target, resolveTarget opts call.input = some target ∧ opts.transports target.kind = true

/-- The call has not registered yet. -/
def CallPhase.Unregistered : CallPhase → Prop
  | .ready | .auditing _ _ | .signing _ => True
  | _ => False

/-- The call has passed its checks, and its promise is not settled for it yet. -/
def CallPhase.Sending : CallPhase → Prop
  | .signing _ | .publishing _ | .awaiting _ => True
  | _ => False

/-- The call returned status ok with this response. -/
def CallPhase.Returns (l : CallPhase) (response : Option Json) : Prop :=
  ∃ output, l = .ended (.result output) ∧ output.status = .ok ∧ output.response = response

section
variable {ι : Type} {opts : RequestAgentOptions} {call : RequestCall} {i : ι}
  {sh sh' : Exchange ι} {l l' : CallPhase} {a : CallAct} [DecidableEq ι]

/-- A step of a call that leaves the exchange as it is. -/
structure Idles (opts : RequestAgentOptions) (call : RequestCall) (l l' : CallPhase) : Prop where
  unregistered : l'.Unregistered → l.Unregistered
  sending : l'.Sending → l.Sending ∨ Sends opts call
  returns : ∀ response, l'.Returns response → call.mode ≠ .sync

variable (opts call i sh sh' l l' a) in
/-- The steps of a call. -/
inductive CallView : Prop where
  | idle (hsh : sh' = sh) (h : Idles opts call l l')
  | publish (started : Int) (auth : RpcAuth) (hl : l.Unregistered)
      (hsends : l = .signing started ∨ Sends opts call)
      (h : (sh', l') = publishCall opts call i sh started auth)
  | fail (started : Int) (err : String) (hl : l = .publishing started)
      (ha : a = .published (.error err)) (hmode : call.mode = .sync)
      (hsh : sh' = { sh with pending := (sh.pending.settle call.correlationId
        (.error (some (publishFailed err)))).2 })
      (hl' : l' = .ended (.error none err))
  | resume (started : Int) (settled : Settled (Option Json)) (hl : l = .awaiting started)
      (hsettled : settled ∈ (sh.pending.promise i).settlements) (hsh : sh' = sh)
      (hl' : l' = resumeCall opts call sh started settled)

/-- A call that ends without a response. -/
theorem Idles.ended {event : RequestAgentEvent}
    (h : ∀ output, event = .result output → output.status = .ok → call.mode ≠ .sync) :
    Idles opts call l (.ended event) where
  unregistered hu := hu.elim
  sending hs := hs.elim
  returns := by
    rintro response ⟨output, heq, hok, -⟩
    cases heq
    exact h output rfl hok

/-- A call that waits for something else. -/
theorem Idles.waits (hu : l'.Unregistered → l.Unregistered)
    (hs : l'.Sending → l.Sending ∨ Sends opts call) (hl' : ∀ event, l' ≠ .ended event) :
    Idles opts call l l' where
  unregistered := hu
  sending := hs
  returns := by
    rintro response ⟨output, heq, -⟩
    exact absurd heq (hl' _)

theorem violation_not_ok {side : SchemaSide} {latencyMs : Int} {response : Option Json}
    {violations : List SchemaViolation} :
    ∀ output, call.violation side latencyMs response violations = .result output →
      output.status = .ok → call.mode ≠ .sync := by
  rintro output heq hok
  cases heq
  cases hok

theorem startCall_view (h : startCall opts call i sh = (sh', l')) :
    CallView opts call i sh sh' .ready l' .start := by
  unfold startCall at h
  cases hv : opts.requestViolations call.input.to call.input.capability call.input.payload with
  | cons v violations =>
    rw [hv] at h
    cases haudit : opts.onSchemaViolation with
    | true =>
      simp only [haudit, if_true] at h
      cases h
      exact .idle rfl (.waits (fun _ => trivial) (fun hs => hs.elim) fun _ e => by cases e)
    | false =>
      simp only [haudit, Bool.false_eq_true, if_false] at h
      cases h
      exact .idle rfl (.ended violation_not_ok)
  | nil =>
    rw [hv] at h
    cases ht : resolveTarget opts call.input with
    | none =>
      simp only [ht] at h
      cases h
      exact .idle rfl (.ended fun _ e => by cases e)
    | some target =>
      simp only [ht] at h
      cases htransport : opts.transports target.kind with
      | false =>
        simp only [htransport, if_true] at h
        cases h
        exact .idle rfl (.ended fun _ e => by cases e)
      | true =>
        have hsends : Sends opts call := ⟨hv, target, ht, htransport⟩
        cases hsign : opts.signOutbound with
        | true =>
          simp only [htransport, hsign, Bool.true_eq_false, if_false, if_true] at h
          cases h
          exact .idle rfl (.waits (fun _ => trivial) (fun _ => Or.inr hsends)
            fun _ e => by cases e)
        | false =>
          simp only [htransport, hsign, Bool.true_eq_false, Bool.false_eq_true,
            if_false] at h
          exact .publish sh.now .internal trivial (Or.inr hsends) h.symm

theorem callStep_view (h : callStep opts call i sh l a = some (sh', l')) :
    CallView opts call i sh sh' l l' a := by
  cases l with
  | ready =>
    cases a with
    | start => exact startCall_view (Option.some.inj h)
    | audited | signed _ | published _ | resumed => cases h
  | auditing started violations =>
    cases a with
    | audited =>
      cases h
      exact .idle rfl (.ended violation_not_ok)
    | start | signed _ | published _ | resumed => cases h
  | signing started =>
    cases a with
    | signed auth =>
      cases auth with
      | error err =>
        cases h
        exact .idle rfl (.ended fun _ e => by cases e)
      | ok auth => exact .publish started auth trivial (Or.inl rfl) (Option.some.inj h).symm
    | start | audited | published _ | resumed => cases h
  | publishing started =>
    cases a with
    | published result =>
      by_cases hmode : call.mode = .sync
      · cases result with
        | ok _ =>
          simp only [callStep, hmode, if_true] at h
          cases h
          exact .idle rfl (.waits (fun hu => hu.elim) (fun _ => Or.inl trivial)
            fun _ e => by cases e)
        | error err =>
          simp only [callStep, hmode, if_true] at h
          cases h
          exact .fail started err rfl rfl hmode rfl rfl
      · cases result with
        | ok _ =>
          simp only [callStep, hmode, if_false] at h
          cases h
          exact .idle rfl (.ended fun _ _ _ => hmode)
        | error err =>
          simp only [callStep, hmode, if_false] at h
          cases h
          exact .idle rfl (.ended fun _ e => by cases e)
    | start | audited | signed _ | resumed => cases h
  | awaiting started =>
    cases a with
    | resumed =>
      obtain ⟨settled, hs, heq⟩ := Option.map_eq_some_iff.mp h
      cases heq
      exact .resume started settled rfl (List.mem_of_mem_head? hs) rfl rfl
    | start | audited | signed _ | published _ => cases h
  | auditingResponse latencyMs data violations =>
    cases a with
    | audited =>
      cases h
      exact .idle rfl (.ended violation_not_ok)
    | start | signed _ | published _ | resumed => cases h
  | ended event => cases a <;> cases h

/-! ### Calls that share no correlation id -/

/-- The callee answered the envelope of the call with this. -/
def Answered (sh : Exchange ι) (i : ι) (data : Option Json) : Prop :=
  ∃ answer ∈ sh.answers, answer.request = i ∧
    responseValue answer.envelope.payload = some (.ok data)

/-- No two calls that get as far as publishing share an id, where one of them waits for it and
the other may be answered. -/
def Distinct (opts : RequestAgentOptions) (calls : ι → RequestCall) : Prop :=
  ∀ i j, Sends opts (calls i) → Sends opts (calls j) → (calls i).mode = .sync →
    (calls j).mode ≠ .fireAndForget → (calls i).correlationId = (calls j).correlationId → i = j

/-- What holds of the exchange: entries, envelopes and answers are those of the calls, and a
promise is settled as ok by an answer of its own call. -/
structure SoundExchange (opts : RequestAgentOptions) (calls : ι → RequestCall) (sh : Exchange ι) :
    Prop where
  balanced : sh.pending.Balanced
  entry : ∀ correlationId entry, sh.pending.entries.lookup correlationId = some entry →
    correlationId = (calls entry.promise).correlationId ∧ Sends opts (calls entry.promise) ∧
      (calls entry.promise).mode = .sync
  sent : ∀ i envelope, sh.sent i = some envelope → Sends opts (calls i) ∧
    ∃ started auth, envelope = (calls i).envelope opts started auth
  answers : ∀ answer ∈ sh.answers, Sends opts (calls answer.request) ∧
    (calls answer.request).mode ≠ .fireAndForget ∧
      answer.envelope.correlationId = (calls answer.request).correlationId
  settled : ∀ i data, .resolve (.ok data) ∈ (sh.pending.promise i).settlements →
    Answered sh i data

/-- What holds of a call. -/
structure SoundCall (opts : RequestAgentOptions) (call : RequestCall) (i : ι) (sh : Exchange ι)
    (l : CallPhase) : Prop where
  fresh : l.Unregistered → sh.pending.promise i = {}
  sending : l.Sending → Sends opts call
  returns : ∀ response, l.Returns response → call.mode = .sync → Answered sh i response

/-- A step of the registry that a sound exchange may take. -/
def Lawful (opts : RequestAgentOptions) (calls : ι → RequestCall) (sh : Exchange ι) :
    PendingRegistry.Label ι (Option Json) → Prop
  | .register p correlationId _ _ => correlationId = (calls p).correlationId ∧
      Sends opts (calls p) ∧ (calls p).mode = .sync
  | .settle correlationId (.ok data) => ∀ entry,
      sh.pending.entries.lookup correlationId = some entry → Answered sh entry.promise data
  | _ => True

variable {calls : ι → RequestCall}

theorem SoundExchange.pending (h : SoundExchange opts calls sh)
    {a : PendingRegistry.Label ι (Option Json)} {pending : PendingRegistry ι (Option Json)}
    (hstep : sh.pending.registryStep a = some pending) (ha : Lawful opts calls sh a) :
    SoundExchange opts calls { sh with pending := pending } where
  balanced := (h.balanced.step hstep).1
  entry c entry he := by
    rcases (h.balanced.adds hstep).entry c entry he with hold | ⟨_, _, rfl⟩
    · exact h.entry c entry hold
    · exact ha
  sent := h.sent
  answers := h.answers
  settled i data hmem := by
    obtain ⟨added, heq, hadded⟩ := (h.balanced.adds hstep).settlements i
    rw [heq, List.mem_append] at hmem
    rcases hmem with hmem | hmem
    · exact h.settled i data hmem
    · rcases hadded _ hmem with ⟨err, he⟩ | ⟨c, value, entry, rfl, hlookup, rfl, he⟩
      · cases he
      · cases he
        exact ha entry hlookup

@[simp] theorem send_sent_self (sh : Exchange ι) (i : ι) (envelope : AgentRpcEnvelope Json) :
    (sh.send i envelope).sent i = some envelope := by
  simp [Exchange.send]

theorem send_sent_of_ne (sh : Exchange ι) {i j : ι} (h : j ≠ i)
    (envelope : AgentRpcEnvelope Json) : (sh.send i envelope).sent j = sh.sent j := by
  simp [Exchange.send, h]

theorem SoundExchange.send (h : SoundExchange opts calls sh) (hsends : Sends opts (calls i))
    (started : Int) (auth : RpcAuth) :
    SoundExchange opts calls (sh.send i ((calls i).envelope opts started auth)) where
  balanced := h.balanced
  entry := h.entry
  sent j envelope hj := by
    by_cases he : j = i
    · subst he
      rw [send_sent_self] at hj
      cases hj
      exact ⟨hsends, started, auth, rfl⟩
    · exact h.sent j envelope ((send_sent_of_ne sh he _).symm.trans hj)
  answers := h.answers
  settled := h.settled

omit [DecidableEq ι] in
/-- A call does not mind more answers, nor what happens to the promises of others. -/
theorem SoundCall.mono (h : SoundCall opts call i sh l)
    (hanswers : ∀ answer ∈ sh.answers, answer ∈ sh'.answers)
    (hpromise : sh.pending.promise i = {} → sh'.pending.promise i = {}) :
    SoundCall opts call i sh' l where
  fresh hu := hpromise (h.fresh hu)
  sending := h.sending
  returns response hr hmode := by
    obtain ⟨answer, hmem, hanswer⟩ := h.returns response hr hmode
    exact ⟨answer, hanswers answer hmem, hanswer⟩

/-- A promise that is new stays new, unless it is registered. -/
theorem SoundCall.pending (hs : SoundExchange opts calls sh) (h : SoundCall opts call i sh l)
    {a : PendingRegistry.Label ι (Option Json)} {pending : PendingRegistry ι (Option Json)}
    (hstep : sh.pending.registryStep a = some pending)
    (ha : ∀ correlationId deadlineMs now, a ≠ .register i correlationId deadlineMs now) :
    SoundCall opts call i { sh with pending := pending } l := by
  refine h.mono (fun _ hmem => hmem) fun hp => ?_
  rcases (hs.balanced.adds hstep).new i hp with hnew | ⟨c, d, n, he⟩
  · exact hnew
  · exact absurd he (ha c d n)

omit [DecidableEq ι] in
/-- A call that resumes returns what its promise was settled with. -/
theorem resumeCall_returns {started : Int} {settled : Settled (Option Json)}
    {response : Option Json} (h : (resumeCall opts call sh started settled).Returns response) :
    settled = .resolve (.ok response) := by
  obtain ⟨output, heq, hok, hresponse⟩ := h
  cases settled with
  | resolve value =>
    cases value with
    | ok data =>
      cases hv : opts.responseViolations call.input.to call.input.capability data with
      | nil =>
        simp only [resumeCall, hv] at heq
        cases heq
        rw [← hresponse]
      | cons v violations =>
        cases haudit : opts.onSchemaViolation with
        | true =>
          simp only [resumeCall, hv, haudit, if_true] at heq
          cases heq
        | false =>
          simp only [resumeCall, hv, haudit, Bool.false_eq_true, if_false] at heq
          cases heq
          cases hok
    | error error =>
      cases heq
      cases hok
  | reject err =>
    cases err with
    | timeout | abandoned | busy | alreadyRegistered =>
      cases heq <;> cases hok

omit [DecidableEq ι] in
theorem resumeCall_not_sending (started : Int) (settled : Settled (Option Json)) :
    ¬ (resumeCall opts call sh started settled).Unregistered ∧
      ¬ (resumeCall opts call sh started settled).Sending := by
  unfold resumeCall
  split
  · split
    · exact ⟨id, id⟩
    · split <;> exact ⟨id, id⟩
  · exact ⟨id, id⟩
  · exact ⟨id, id⟩

/-- **The step from the signed envelope on.** -/
theorem publishCall_sound {started : Int} {auth : RpcAuth} (h : SoundExchange opts calls sh)
    (hi : SoundCall opts (calls i) i sh l) (hl : l.Unregistered)
    (hsends : Sends opts (calls i))
    (heq : (sh', l') = publishCall opts (calls i) i sh started auth) :
    SoundExchange opts calls sh' ∧ SoundCall opts (calls i) i sh' l' ∧
      ∀ j l'', j ≠ i → SoundCall opts (calls j) j sh l'' → SoundCall opts (calls j) j sh' l'' := by
  have hpublishing : ∀ sh : Exchange ι, SoundCall opts (calls i) i sh (.publishing started) :=
    fun sh => ⟨fun hu => hu.elim, fun _ => hsends, fun _ hr => by obtain ⟨_, e, -⟩ := hr; cases e⟩
  cases hmode : (calls i).mode with
  | sync =>
    have hstep : sh.pending.registryStep (.register i (calls i).correlationId
        (started + (calls i).timeoutMs) sh.now) = some (sh.pending.register i
          (calls i).correlationId (started + (calls i).timeoutMs) sh.now) := by
      simp [PendingRegistry.registryStep, hi.fresh hl]
    simp only [publishCall, hmode] at heq
    cases heq
    refine ⟨(h.pending hstep ⟨rfl, hsends, hmode⟩).send hsends started auth, hpublishing _,
      fun j l'' hj hcall => ?_⟩
    refine (hcall.pending h hstep fun c d n he => ?_).mono (fun _ hmem => hmem) id
    cases he
    exact hj rfl
  | async | fireAndForget =>
    simp only [publishCall, hmode] at heq
    cases heq
    exact ⟨h.send hsends started auth, hpublishing _, fun j l'' _ hcall =>
      hcall.mono (fun _ hmem => hmem) id⟩

/-- The proof outline. -/
def requestOutline (opts : RequestAgentOptions) (calls : ι → RequestCall) :
    Outline ι (Exchange ι) CallPhase where
  shared := SoundExchange opts calls
  own i sh l := SoundCall opts (calls i) i sh l
  pair _ _ _ _ _ := True

/-- A step of the registry on its own. -/
theorem holds_pending {s : State ι (Exchange ι) CallPhase}
    (h : (requestOutline opts calls).Holds s) {a : PendingRegistry.Label ι (Option Json)}
    {pending : PendingRegistry ι (Option Json)}
    (hstep : s.shared.pending.registryStep a = some pending)
    (ha : Lawful opts calls s.shared a)
    (hnew : ∀ i correlationId deadlineMs now, a ≠ .register i correlationId deadlineMs now) :
    (requestOutline opts calls).Holds
      { s with shared := { s.shared with pending := pending } } where
  shared := SoundExchange.pending h.shared hstep ha
  own i := SoundCall.pending h.shared (h.own i) hstep (hnew i)
  pair _ _ _ := trivial

theorem requestOutline_kept (hdistinct : Distinct opts calls) :
    (requestOutline opts calls).Kept (requestSystem opts calls) Any where
  task := by
    intro s i a sh l h _ hstep
    have hshared : SoundExchange opts calls s.shared := h.shared
    have hown : ∀ j, SoundCall opts (calls j) j s.shared (s.loc j) := h.own
    cases callStep_view hstep with
    | idle hsh hidle =>
      subst hsh
      refine ⟨hshared, ⟨fun hu => (hown i).fresh (hidle.unregistered hu), fun hs => ?_,
        fun response hr hmode => absurd hmode (hidle.returns response hr)⟩,
        fun j _ => ⟨hown j, trivial, trivial⟩, fun _ _ _ _ _ => trivial⟩
      exact (hidle.sending hs).elim (hown i).sending id
    | publish started auth hl hsends heq =>
      have hsends : Sends opts (calls i) :=
        hsends.elim (fun hl => (hown i).sending (by rw [hl]; trivial)) id
      obtain ⟨hsh, hi, hothers⟩ := publishCall_sound hshared (hown i) hl hsends heq
      exact ⟨hsh, hi, fun j hj => ⟨hothers j _ hj (hown j), trivial, trivial⟩,
        fun _ _ _ _ _ => trivial⟩
    | fail started err hl ha hmode hsh hl' =>
      subst hsh hl'
      have hstep : s.shared.pending.registryStep (.settle (calls i).correlationId
          (.error (some (publishFailed err)))) = some _ := rfl
      refine ⟨hshared.pending hstep trivial, ⟨fun hu => hu.elim, fun hs => hs.elim,
        fun _ hr => ?_⟩, fun j _ => ⟨(hown j).pending hshared hstep fun _ _ _ he => (by cases he),
          trivial, trivial⟩, fun _ _ _ _ _ => trivial⟩
      obtain ⟨_, e, -⟩ := hr
      cases e
    | resume started settled hl hsettled hsh hl' =>
      subst hsh hl'
      refine ⟨hshared, ⟨fun hu => ((resumeCall_not_sending _ _).1 hu).elim,
        fun hs => ((resumeCall_not_sending _ _).2 hs).elim, fun response hr _ => ?_⟩,
        fun j _ => ⟨hown j, trivial, trivial⟩, fun _ _ _ _ _ => trivial⟩
      rw [resumeCall_returns hr] at hsettled
      exact hshared.settled i response hsettled
  env := by
    intro s e sh h _ hstep
    have hshared : SoundExchange opts calls s.shared := h.shared
    cases e with
    | clock now =>
      cases hstep
      exact ⟨⟨hshared.balanced, hshared.entry, hshared.sent, hshared.answers, hshared.settled⟩,
        fun i => SoundCall.mono (h.own i) (fun _ hmem => hmem) id, fun _ _ _ => trivial⟩
    | timer i =>
      obtain ⟨pending, hp, rfl⟩ := Option.map_eq_some_iff.mp hstep
      exact holds_pending h (a := .timeout i) hp trivial fun _ _ _ _ he => by cases he
    | abandon =>
      cases hstep
      exact holds_pending h (a := .abandon) rfl trivial fun _ _ _ _ he => by cases he
    | respond i selfAgent messageId auth result =>
      obtain ⟨request, hsent, hstep⟩ := Option.bind_eq_some_iff.mp hstep
      obtain ⟨envelope, hrespond, rfl⟩ := Option.map_eq_some_iff.mp hstep
      obtain ⟨hsends, started, auth', rfl⟩ := hshared.sent i request hsent
      obtain ⟨hcorrelation, hreply⟩ := createRespondHook_spec hrespond
      have hmode : (calls i).mode ≠ .fireAndForget := by
        intro hmode
        simp [RequestCall.envelope, hmode] at hreply
      refine ⟨⟨hshared.balanced, hshared.entry, hshared.sent, fun answer hmem => ?_,
        fun j data hdata => ?_⟩, fun j => SoundCall.mono (h.own j)
          (fun _ hmem => List.mem_append_left _ hmem) id, fun _ _ _ => trivial⟩
      · rcases List.mem_append.mp hmem with hmem | hmem
        · exact hshared.answers answer hmem
        · rw [List.mem_singleton.mp hmem]
          exact ⟨hsends, hmode, hcorrelation⟩
      · obtain ⟨answer, hmem, hanswer⟩ := hshared.settled j data hdata
        exact ⟨answer, List.mem_append_left _ hmem, hanswer⟩
    | deliver place =>
      obtain ⟨answer, hanswer, hstep⟩ := Option.map_eq_some_iff.mp hstep
      cases hv : responseValue answer.envelope.payload with
      | none =>
        rw [hv] at hstep
        cases hstep
        exact h
      | some value =>
        rw [hv] at hstep
        cases hstep
        have hmem := List.mem_of_getElem? hanswer
        obtain ⟨hsends, hmode, hcorrelation⟩ := hshared.answers answer hmem
        refine holds_pending h (a := .settle answer.envelope.correlationId value) rfl ?_
          fun _ _ _ _ he => by cases he
        cases value with
        | error error => trivial
        | ok data =>
          intro entry hlookup
          obtain ⟨hc, hsends', hsync⟩ := hshared.entry _ entry hlookup
          have he : entry.promise = answer.request :=
            hdistinct _ _ hsends' hsends hsync hmode (hc.symm.trans hcorrelation)
          exact ⟨answer, hmem, he.symm, hv⟩

/-! ### Calls that share a correlation id -/

/-- Every call is before its first step. -/
def requestInit (ι : Type) (pending : PendingRegistry ι (Option Json)) (now : Int) :
    State ι (Exchange ι) CallPhase :=
  ⟨⟨pending, now, fun _ => none, []⟩, fun _ => .ready⟩

/-- A call that returns status ok returns an answer to its own envelope. -/
def ReturnsOwn (calls : ι → RequestCall) (s : State ι (Exchange ι) CallPhase) : Prop :=
  ∀ i response, (calls i).mode = .sync → (s.loc i).Returns response →
    Answered s.shared i response

/-- A failed publish or a timeout of one call settles the promise of no other. -/
def SettlesOwn (opts : RequestAgentOptions) (calls : ι → RequestCall)
    (s : State ι (Exchange ι) CallPhase) : Prop :=
  ∀ j t, ((∃ err, (requestSystem opts calls).step s (.task j (.published (.error err))) = some t) ∨
      (requestSystem opts calls).step s (.env (.timer j)) = some t) →
    ∀ i, i ≠ j → t.shared.pending.promise i = s.shared.pending.promise i

/-- On every run the calls are matched with their own answers, and leave each other alone. -/
def Correlated (opts : RequestAgentOptions) (calls : ι → RequestCall)
    (pending : PendingRegistry ι (Option Json)) (now : Int) : Prop :=
  ∀ as s, Run (requestSystem opts calls).step Any (requestInit ι pending now) as s →
    ReturnsOwn calls s ∧ SettlesOwn opts calls s

/-- **Calls that share no id** are correlated, whatever their modes. -/
theorem correlated_of_distinct (hdistinct : Distinct opts calls)
    {pending : PendingRegistry ι (Option Json)} {capacity : Option Int}
    (h₀ : createPendingRegistry ι (Option Json) capacity = .ok pending) (now : Int) :
    Correlated opts calls pending now := by
  intro as s r
  have hholds : (requestOutline opts calls).Holds s := by
    refine (requestOutline_kept hdistinct).holds_of_run ⟨?_, fun i => ?_, fun _ _ _ => trivial⟩ r
    · obtain ⟨hentries, hpromise⟩ := PendingRegistry.create_empty h₀
      refine ⟨(PendingRegistry.create_spec h₀).2, fun c e he => ?_,
        fun i envelope hi => (by cases hi), fun answer hmem => absurd hmem List.not_mem_nil,
        fun i data hdata => ?_⟩
      · rw [requestInit, hentries] at he
        cases he
      · rw [requestInit, hpromise] at hdata
        cases hdata
    · exact ⟨fun _ => (PendingRegistry.create_empty h₀).2 i, fun hs => hs.elim,
        fun _ hr => by obtain ⟨_, e, -⟩ := hr; cases e⟩
  have hshared : SoundExchange opts calls s.shared := hholds.shared
  have hown : ∀ i, SoundCall opts (calls i) i s.shared (s.loc i) := hholds.own
  refine ⟨fun i response hmode hr => (hown i).returns response hr hmode, ?_⟩
  rintro j t (⟨err, hstep⟩ | hstep) i hi
  · obtain ⟨sh, l, htask, rfl⟩ := System.step_task hstep
    cases callStep_view htask with
    | fail started err' hl ha hmode hsh hl' =>
      subst hsh
      refine PendingRegistry.settle_promise_of_ne _ fun entry he => ?_
      obtain ⟨hc, hsends, hsync⟩ := hshared.entry _ entry he
      have hj := (hown j).sending (by rw [hl]; trivial)
      have heq : entry.promise = j :=
        hdistinct _ _ hsends hj hsync (by rw [hmode]; decide) hc.symm
      rw [heq]
      exact hi
    | idle hsh => rw [State.move_shared, hsh]
    | publish started auth hl _ heq =>
      -- a call that has not registered has no publish to fail
      cases hloc : s.loc j <;> rw [hloc] at hl htask <;> first | exact hl.elim | cases htask
    | resume started settled _ _ hsh => rw [State.move_shared, hsh]
  · obtain ⟨sh, henv, rfl⟩ := System.step_env hstep
    obtain ⟨pending', hp, rfl⟩ := Option.map_eq_some_iff.mp henv
    obtain ⟨c, entry, delay, he, rfl, rfl⟩ := PendingRegistry.onTimer_eq hshared.balanced hp
    change (PendingRegistry.conclude _ _ _ _).promise i = _
    rw [PendingRegistry.conclude, PendingRegistry.modify_promise_of_ne _ hi]

variable (opts calls) in
/-- A synchronous call that has not begun gets as far as publishing, with nobody else about. -/
theorem exists_publishing (s : State ι (Exchange ι) CallPhase) (hloc : s.loc i = .ready)
    (hsends : Sends opts (calls i)) (hsync : (calls i).mode = .sync) :
    ∃ as, Run (requestSystem opts calls).step Any s as
      (s.move i ((s.shared.register (calls i) i s.shared.now).send i
        ((calls i).envelope opts s.shared.now .internal)) (.publishing s.shared.now)) := by
  obtain ⟨hvalid, target, htarget, htransport⟩ := hsends
  cases hsign : opts.signOutbound with
  | false =>
    refine ⟨_, .cons trivial (t := State.move s i _ _) (a := .task i .start) ?_ .nil⟩
    simp [System.step, requestSystem, hloc, callStep, startCall, hvalid, htarget, htransport,
      hsign, publishCall, hsync]
  | true =>
    have hstart : (requestSystem opts calls).step s (.task i .start) =
        some (s.move i s.shared (.signing s.shared.now)) := by
      simp [System.step, requestSystem, hloc, callStep, startCall, hvalid, htarget, htransport,
        hsign]
    refine ⟨_, .cons trivial hstart
      (.cons trivial (t := State.move s i _ _) (a := .task i (.signed (.ok .internal))) ?_ .nil)⟩
    simp [System.step, requestSystem, callStep, publishCall, hsync]

/-- **Calls that share an id** are not correlated: where both reach the wire, and the publish of
the second fails, it settles the first. -/
theorem interferes_of_shared {pending : PendingRegistry ι (Option Json)} {capacity : Option Int}
    (h₀ : createPendingRegistry ι (Option Json) capacity = .ok pending) (now : Int) {i j : ι}
    (hne : i ≠ j) (hi : Sends opts (calls i)) (hj : Sends opts (calls j))
    (hsynci : (calls i).mode = .sync) (hsyncj : (calls j).mode = .sync)
    (hshared : (calls i).correlationId = (calls j).correlationId) :
    ¬ Correlated opts calls pending now := by
  intro h
  obtain ⟨hentries, hpromise⟩ := PendingRegistry.create_empty h₀
  let s₀ := requestInit ι pending now
  obtain ⟨as, r⟩ := exists_publishing opts calls s₀ rfl hi hsynci
  let sh₁ := (s₀.shared.register (calls i) i now).send i ((calls i).envelope opts now .internal)
  let s₁ := s₀.move i sh₁ (.publishing now)
  have hloc : s₁.loc j = .ready := by
    rw [State.move_loc_of_ne _ hne.symm]
    rfl
  obtain ⟨as', r'⟩ := exists_publishing opts calls s₁ hloc hj hsyncj
  let sh₂ := (sh₁.register (calls j) j now).send j ((calls j).envelope opts now .internal)
  let s₂ := s₁.move j sh₂ (.publishing now)
  -- the first call is registered, and the second is refused
  have hfirst : sh₁.pending = pending.register i (calls i).correlationId
      (now + (calls i).timeoutMs) now := rfl
  have hroom : (pending.size : Int) < pending.capacity := by
    have hzero : pending.size = 0 := by simp [PendingRegistry.size, hentries]
    rw [hzero]
    exact pending.positive
  rw [PendingRegistry.register_room (by rw [hentries]; exact AList.notMem_empty _) hroom] at hfirst
  have hlookup : sh₁.pending.entries.lookup (calls j).correlationId =
      some ⟨now + (calls i).timeoutMs, now, i⟩ := by
    rw [hfirst, ← hshared]
    exact AList.lookup_insert _
  have hsecond : sh₂.pending = sh₁.pending.register j (calls j).correlationId
      (now + (calls j).timeoutMs) now := rfl
  rw [PendingRegistry.register_duplicate (AList.lookup_isSome.mp (by rw [hlookup]; rfl))]
    at hsecond
  have hlookup₂ : sh₂.pending.entries.lookup (calls j).correlationId =
      some ⟨now + (calls i).timeoutMs, now, i⟩ := by
    rw [hsecond]
    exact hlookup
  -- the second call's publish fails
  have hfail : (requestSystem opts calls).step s₂ (.task j (.published (.error "down"))) =
      some (s₂.move j { sh₂ with pending := (sh₂.pending.settle (calls j).correlationId
        (.error (some (publishFailed "down")))).2 } (.ended (.error none "down"))) := by
    simp [System.step, requestSystem, s₂, callStep, hsyncj]
  have hsettles := (h _ _ (r.trans r')).2 j _ (Or.inl ⟨"down", hfail⟩) i hne
  have hsettled := PendingRegistry.settle_promise_self (.error (some (publishFailed "down")))
    hlookup₂
  have hlength := congrArg (fun q => q.settlements.length) hsettles
  change ((sh₂.pending.settle _ _).2.promise i).settlements.length =
    (sh₂.pending.promise i).settlements.length at hlength
  rw [hsettled, List.length_append] at hlength
  exact absurd hlength (Nat.succ_ne_self _)

/-- **Response correlation.**  For any number of synchronous calls, any capacity and timeout, any
interleaving and any behaviour of the transport and the peers: every call that returns status ok
returns an answer to its own envelope, and no failed publish and no timeout settles the call of
another, exactly when no two calls that get as far as publishing share a correlation id. -/
theorem requestAgent_correlated_iff (ι : Type) [DecidableEq ι] (opts : RequestAgentOptions)
    (calls : ι → RequestCall) (hsync : ∀ i, (calls i).mode = .sync) (capacity : Option Int)
    (pending : PendingRegistry ι (Option Json))
    (h₀ : createPendingRegistry ι (Option Json) capacity = .ok pending) (now : Int) :
    Correlated opts calls pending now ↔
      ∀ i j, Sends opts (calls i) → Sends opts (calls j) →
        (calls i).correlationId = (calls j).correlationId → i = j := by
  constructor
  · intro h i j hi hj hshared
    by_contra hne
    exact interferes_of_shared h₀ now hne hi hj (hsync i) (hsync j) hshared h
  · intro h
    exact correlated_of_distinct (fun i j hi hj _ _ hshared => h i j hi hj hshared) h₀ now

end

/-! ### Two calls of one skill -/

def peerOptions : RequestAgentOptions where
  selfAgent := "agent://concierge"
  peers := fun _ => some [⟨.memory, "agents.reviewer.requests"⟩]
  transports := fun kind => kind = .memory
  replyTo := some "memory://agents.concierge.responses"

/-- Two calls of one turn; `shared` is the correlation id of the turn. -/
def turnCalls (shared : Option String) (second : Bool) : RequestCall where
  input := { «to» := "agent://reviewer", capability := "review", payload := .null }
  ctx := { correlationId := shared }
  uuid := if second then "uuid-2" else "uuid-1"
  messageId := if second then "m2" else "m1"

theorem turnCalls_sends (shared : Option String) (second : Bool) :
    Sends peerOptions (turnCalls shared second) :=
  ⟨rfl, ⟨.memory, "memory://agents.reviewer.requests"⟩, rfl, rfl⟩

/-- The calls of a skill share its correlation id, and are not correlated. -/
theorem skill_calls_interfere : ¬ ∀ (opts : RequestAgentOptions) (calls : Bool → RequestCall),
    (∀ i, (calls i).mode = .sync) → ∀ (capacity : Option Int)
    (pending : PendingRegistry Bool (Option Json)),
      createPendingRegistry Bool (Option Json) capacity = .ok pending → ∀ now : Int,
        Correlated opts calls pending now := by
  intro h
  have h₀ : createPendingRegistry Bool (Option Json) none =
      .ok ⟨10000, by decide, ∅, fun _ => {}⟩ := rfl
  exact interferes_of_shared h₀ 0 Bool.false_ne_true (turnCalls_sends (some "skill:review") false)
    (turnCalls_sends _ true) rfl rfl rfl
    (h peerOptions (turnCalls (some "skill:review")) (fun _ => rfl) none _ h₀ 0)

/-- Without a correlation id of the turn, each call draws its own. -/
theorem requestAgent_correlated_iff_uuid : Correlated peerOptions (turnCalls none)
    ⟨10000, by decide, ∅, fun _ => {}⟩ 0 := by
  refine (requestAgent_correlated_iff Bool peerOptions (turnCalls none) (fun _ => rfl) none _ rfl
    0).mpr fun i j _ _ hshared => ?_
  cases i <;> cases j <;> simp_all [turnCalls, RequestCall.correlationId]

end Declaragent.Rpc
