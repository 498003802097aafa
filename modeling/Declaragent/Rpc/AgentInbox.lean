import Declaragent.Events.Types
import Declaragent.Rpc.Envelope
import Declaragent.Rpc.PendingRegistry

/-!
# Rpc — the agent inbox

What the inbox of an agent does with an envelope that a transport hands it: the tenant check, the
authentication of the sender, and then the request, the response or the event.  A request and an
event go to the host's hook where there is one, and else on the bus; a response settles what is
registered under its correlation id.

* `handleEnvelope_effects`: what one envelope brings about.
* `handleEnvelope_isolates_iff`: which envelopes an inbox bound to a tenant keeps to it.
-/

namespace Declaragent.Rpc
open JsonText Events

/-! ### The inbox -/

/-- What a provider's `verify` comes to. -/
inductive VerifyOutcome where
  | ok (subject : String)
  | rejected (reason message : String)
  | threw (err : String)

/-- What the auth registry resolves a sender to. -/
structure AuthVerifyEntry where
  provider : String
  verify : AgentRpcEnvelope Json → VerifyOutcome

inductive AuthDecision where
  | accept | reject
  deriving DecidableEq

structure AuthCheckAuditRecord where
  ts : Int
  tenantId : String
  peerId : String
  provider : String
  decision : AuthDecision
  correlationId : String
  reason : Option String
  subject : Option String

/-- The options of the adapter, what it is bound to, and which of its sinks and hooks it has. -/
structure AgentInboxOptions where
  tenant : Option TenantContext := none
  /-- The scope of the bus. -/
  tenantScope : Option String := none
  authRegistry : Option (String → Option AuthVerifyEntry) := none
  strictAuth : Bool := false
  authRejectSink : Bool := false
  auditSink : Bool := false
  onRequest : Bool := false
  onEvent : Bool := false

structure AgentInboxMetrics where
  received : Nat := 0
  processed : Nat := 0
  failed : Nat := 0
  tenantRejects : Nat := 0
  authAccepted : Nat := 0
  authRejected : Nat := 0
  responsesMatched : Nat := 0
  responsesStale : Nat := 0
  lastMessageAt : Option Int := none

/-- What an inbox does to the world around it. -/
inductive InboxEffect where
  | audit (record : AuthCheckAuditRecord)
  | authReject (reason message : String)
  /-- The event as it passes the bus. -/
  | published (event : AgentEvent)
  /-- The event is left to the host's hook. -/
  | hooked (event : AgentEvent)
  | settled (correlationId : String) (value : PendingSettleValue (Option Json))

/-- An inbox, with the pending registry where it has one and the log of its effects. -/
structure AgentInbox (π : Type) where
  metrics : AgentInboxMetrics := {}
  pending : Option (PendingRegistry π (Option Json)) := none
  effects : List InboxEffect := []

def defaultTenantId : String := "__default__"

section
variable {π : Type} (opts : AgentInboxOptions)

def AgentInbox.push (inbox : AgentInbox π) (effect : InboxEffect) : AgentInbox π :=
  { inbox with effects := inbox.effects ++ [effect] }

def AgentInbox.count (inbox : AgentInbox π) (f : AgentInboxMetrics → AgentInboxMetrics) :
    AgentInbox π :=
  { inbox with metrics := f inbox.metrics }

/-- One audit record for each envelope; an error of the sink is logged. -/
def emitAuthCheck (inbox : AgentInbox π) (envelope : AgentRpcEnvelope Json)
    (decision : AuthDecision) (provider : String) (subject reason : Option String) (now : Int) :
    AgentInbox π :=
  if opts.auditSink then
    inbox.push (.audit
      { ts := now
        tenantId := (envelope.tenantId <|> opts.tenant.map (·.id)).getD defaultTenantId
        peerId := envelope.from
        provider := provider
        decision := decision
        correlationId := envelope.correlationId
        reason := reason
        subject := subject.filter (· ≠ "") })
  else inbox

/-- The metric, the audit record and the reject sink of a sender that is refused. -/
def rejectAuth (inbox : AgentInbox π) (envelope : AgentRpcEnvelope Json)
    (provider reason message : String) (now : Int) : AgentInbox π :=
  let inbox := inbox.count fun m => { m with authRejected := m.authRejected + 1 }
  let inbox := emitAuthCheck opts inbox envelope .reject provider none (some reason) now
  if opts.authRejectSink then inbox.push (.authReject reason message) else inbox

/-- `envelope.auth?.kind ?? 'none'`. -/
def authKind (envelope : AgentRpcEnvelope Json) : String :=
  (envelope.auth.map (·.kind)).getD "none"

/-- Whether the envelope passes, with its record. -/
def verifyAuth (inbox : AgentInbox π) (envelope : AgentRpcEnvelope Json) (now : Int) :
    Bool × AgentInbox π :=
  match opts.authRegistry with
  | none => (true, emitAuthCheck opts inbox envelope .accept (authKind envelope) none none now)
  | some resolve =>
    match resolve envelope.from with
    | none =>
      if opts.strictAuth then
        (false, rejectAuth opts inbox envelope "none" "unknown-peer" ("sender " ++
          envelope.from ++ " is not in the auth registry (strict mode)") now)
      else (true, emitAuthCheck opts inbox envelope .accept (authKind envelope) none none now)
    | some entry =>
      match entry.verify envelope with
      | .ok subject =>
        let inbox := inbox.count fun m => { m with authAccepted := m.authAccepted + 1 }
        (true, emitAuthCheck opts inbox envelope .accept entry.provider (some subject) none
          now)
      | .rejected reason message =>
        (false, rejectAuth opts inbox envelope entry.provider reason message now)
      | .threw err =>
        (false, rejectAuth opts inbox envelope entry.provider "idp-unreachable" err now)

/-- The event of a request, under the id drawn for it. -/
def requestEvent (envelope : AgentRpcEnvelope Json) (id : String) (now : Int) : AgentEvent where
  id := id
  kind := .mailboxMessage
  source := .mailbox envelope.from
  target := .skill envelope.capability [("payload", envelope.payload)] none
  timestamp := now
  payload := envelope.payload
  auth := .internal
  info := some
    { correlationId := some envelope.correlationId
      causedBy := envelope.causedBy
      tenantId := envelope.tenantId }

/-- The event of a fire-and-forget envelope. -/
def eventKindEvent (envelope : AgentRpcEnvelope Json) (id : String) (now : Int) :
    AgentEvent where
  id := id
  kind := .mailboxMessage
  source := .mailbox envelope.from
  target := .broadcast
  timestamp := now
  payload := envelope.payload
  auth := .internal
  info := some
    { correlationId := some envelope.correlationId
      tenantId := envelope.tenantId }

/-- The hook where there is one, and else the bus. -/
def handOn (hook : Bool) (inbox : AgentInbox π) (event : AgentEvent) :
    Except String (AgentInbox π) :=
  if hook then .ok (inbox.push (.hooked event))
  else (enforceTenantScope opts.tenantScope event).map fun event => inbox.push (.published event)

/-- Whether a value counts as true. -/
def truthy : Json → Bool
  | .null => false
  | .bool b => b
  | .num n => n.mantissa ≠ 0
  | .str s => s ≠ ""
  | .arr _ | .obj _ => true

/-- What the payload of a response settles its correlation with; a malformed payload, nothing. -/
def responseValue (payload : Json) : Option (PendingSettleValue (Option Json)) :=
  match payload.field "ok" with
  | none => none
  | some ok =>
    some (if truthy ok then .ok (payload.field "data") else .error (payload.field "error"))

def handleResponse [DecidableEq π] (inbox : AgentInbox π) (envelope : AgentRpcEnvelope Json) :
    AgentInbox π :=
  match inbox.pending with
  | none => inbox
  | some pending =>
    match responseValue envelope.payload with
    | none => inbox.count fun m => { m with responsesStale := m.responsesStale + 1 }
    | some value =>
      match pending.settle envelope.correlationId value with
      | (true, pending) =>
        ({ inbox with pending := some pending }.push
          (.settled envelope.correlationId value)).count
          fun m => { m with responsesMatched := m.responsesMatched + 1 }
      | (false, _) => inbox.count fun m => { m with responsesStale := m.responsesStale + 1 }

/-- From the authentication on; an error of the handler is logged and counted. -/
def handleKind [DecidableEq π] (inbox : AgentInbox π) (envelope : AgentRpcEnvelope Json)
    (eventId : String) (now : Int) : AgentInbox π :=
  let handled := match envelope.kind with
    | .request => handOn opts opts.onRequest inbox (requestEvent envelope eventId now)
    | .response => .ok (handleResponse inbox envelope)
    | .event => handOn opts opts.onEvent inbox (eventKindEvent envelope eventId now)
  match handled with
  | .ok inbox => inbox.count fun m => { m with processed := m.processed + 1 }
  | .error _ => inbox.count fun m => { m with failed := m.failed + 1 }

/-- The tenant check drops the envelope: both sides name a tenant, and they differ. -/
def tenantMismatch (envelope : AgentRpcEnvelope Json) : Bool :=
  match opts.tenant, envelope.tenantId with
  | some tenant, some tenantId => tenantId ≠ "" && tenantId ≠ tenant.id
  | _, _ => false

/-- One envelope; `eventId` is the UUID drawn for its event. -/
def handleEnvelope [DecidableEq π] (inbox : AgentInbox π) (envelope : AgentRpcEnvelope Json)
    (eventId : String) (now : Int) : AgentInbox π :=
  let inbox := inbox.count fun m =>
    { m with received := m.received + 1, lastMessageAt := some now }
  if tenantMismatch opts envelope then
    inbox.count fun m => { m with tenantRejects := m.tenantRejects + 1 }
  else
    match verifyAuth opts inbox envelope now with
    | (false, inbox) => inbox
    | (true, inbox) => handleKind opts inbox envelope eventId now

/-! ### What an envelope brings about -/

/-- The verdict on the sender. -/
def Authentic (envelope : AgentRpcEnvelope Json) : Prop :=
  match opts.authRegistry with
  | none => True
  | some resolve =>
    match resolve envelope.from with
    | none => opts.strictAuth = false
    | some entry => ∃ subject, entry.verify envelope = .ok subject

/-- Neither an event on the bus nor a settlement. -/
def InboxEffect.Quiet : InboxEffect → Prop
  | .published _ | .settled _ _ => False
  | _ => True

/-- What becomes of an event. -/
def eventEffects (hook : Bool) (event : AgentEvent) : List InboxEffect :=
  if hook then [.hooked event]
  else
    match enforceTenantScope opts.tenantScope event with
    | .ok event => [.published event]
    | .error _ => []

/-- What a response settles. -/
def responseEffects (pending : Option (PendingRegistry π (Option Json)))
    (envelope : AgentRpcEnvelope Json) : List InboxEffect :=
  match pending, responseValue envelope.payload with
  | some pending, some value =>
    if envelope.correlationId ∈ pending.entries then [.settled envelope.correlationId value]
    else []
  | _, _ => []

/-- The effects of an authentic envelope. -/
def kindEffects (pending : Option (PendingRegistry π (Option Json)))
    (envelope : AgentRpcEnvelope Json) (eventId : String) (now : Int) : List InboxEffect :=
  match envelope.kind with
  | .request => eventEffects opts opts.onRequest (requestEvent envelope eventId now)
  | .response => responseEffects pending envelope
  | .event => eventEffects opts opts.onEvent (eventKindEvent envelope eventId now)

variable {opts} {inbox : AgentInbox π} {envelope : AgentRpcEnvelope Json} {eventId : String}
  {now : Int}

@[simp] theorem count_effects (f : AgentInboxMetrics → AgentInboxMetrics) :
    (inbox.count f).effects = inbox.effects := rfl

variable (opts inbox envelope now) in
theorem emitAuthCheck_spec (decision : AuthDecision) (provider : String)
    (subject reason : Option String) :
    let inbox' := emitAuthCheck opts inbox envelope decision provider subject reason now
    inbox'.pending = inbox.pending ∧
      ∃ quiet, inbox'.effects = inbox.effects ++ quiet ∧ ∀ effect ∈ quiet, effect.Quiet := by
  intro inbox'
  simp only [inbox', emitAuthCheck]
  split
  · exact ⟨rfl, _, rfl, fun effect he => by rw [List.mem_singleton.mp he]; trivial⟩
  · exact ⟨rfl, [], by simp, fun _ he => nomatch he⟩

variable (opts inbox envelope now) in
theorem rejectAuth_spec (provider reason message : String) :
    let inbox' := rejectAuth opts inbox envelope provider reason message now
    inbox'.pending = inbox.pending ∧
      ∃ quiet, inbox'.effects = inbox.effects ++ quiet ∧ ∀ effect ∈ quiet, effect.Quiet := by
  intro inbox'
  obtain ⟨hp, quiet, heff, hquiet⟩ := emitAuthCheck_spec opts
    (inbox.count fun m => { m with authRejected := m.authRejected + 1 }) envelope now .reject
    provider none (some reason)
  simp only [inbox', rejectAuth]
  split
  · refine ⟨hp, quiet ++ [.authReject reason message], ?_, fun effect he => ?_⟩
    · rw [AgentInbox.push, heff, count_effects, List.append_assoc]
    · rcases List.mem_append.mp he with he | he
      · exact hquiet effect he
      · rw [List.mem_singleton.mp he]
        trivial
  · exact ⟨hp, quiet, heff, hquiet⟩

variable (opts inbox envelope now) in
/-- **The authentication** publishes nothing and settles nothing. -/
theorem verifyAuth_spec :
    ((verifyAuth opts inbox envelope now).1 = true ↔ Authentic opts envelope) ∧
    (verifyAuth opts inbox envelope now).2.pending = inbox.pending ∧
    ∃ quiet, (verifyAuth opts inbox envelope now).2.effects = inbox.effects ++ quiet ∧
      ∀ effect ∈ quiet, effect.Quiet := by
  unfold verifyAuth Authentic
  cases opts.authRegistry with
  | none => exact ⟨by simp, emitAuthCheck_spec opts _ envelope now _ _ _ _⟩
  | some resolve =>
    dsimp only
    cases resolve envelope.from with
    | none =>
      cases opts.strictAuth with
      | true => exact ⟨by simp, rejectAuth_spec opts _ envelope now _ _ _⟩
      | false => exact ⟨by simp, emitAuthCheck_spec opts _ envelope now _ _ _ _⟩
    | some entry =>
      dsimp only
      cases entry.verify envelope with
      | ok subject => exact ⟨by simp, emitAuthCheck_spec opts _ envelope now _ _ _ _⟩
      | rejected reason message => exact ⟨by simp, rejectAuth_spec opts _ envelope now _ _ _⟩
      | threw err => exact ⟨by simp, rejectAuth_spec opts _ envelope now _ _ _⟩

theorem handOn_effects (hook : Bool) (event : AgentEvent)
    (f : AgentInboxMetrics → AgentInboxMetrics) (g : AgentInboxMetrics → AgentInboxMetrics) :
    (match handOn opts hook inbox event with
      | .ok inbox => inbox.count f
      | .error _ => inbox.count g).effects = inbox.effects ++ eventEffects opts hook event := by
  unfold handOn eventEffects
  cases hook with
  | true => rfl
  | false =>
    cases enforceTenantScope opts.tenantScope event with
    | ok event => rfl
    | error err => exact (List.append_nil _).symm

theorem handleResponse_effects [DecidableEq π] :
    (handleResponse inbox envelope).effects =
      inbox.effects ++ responseEffects inbox.pending envelope := by
  unfold handleResponse responseEffects
  cases inbox.pending with
  | none => simp
  | some pending =>
    dsimp only
    cases responseValue envelope.payload with
    | none => simp
    | some value =>
      dsimp only [PendingRegistry.settle]
      cases hl : pending.entries.lookup envelope.correlationId with
      | none => simp [AList.lookup_eq_none.mp hl]
      | some entry =>
        have hmem : envelope.correlationId ∈ pending.entries :=
          AList.lookup_isSome.mp (by rw [hl]; rfl)
        simp [hmem, AgentInbox.push]

variable (opts inbox envelope eventId now) in
theorem handleKind_effects [DecidableEq π] :
    (handleKind opts inbox envelope eventId now).effects =
      inbox.effects ++ kindEffects opts inbox.pending envelope eventId now := by
  unfold handleKind kindEffects
  cases envelope.kind with
  | request => exact handOn_effects _ _ _ _
  | response => exact handleResponse_effects
  | event => exact handOn_effects _ _ _ _

variable (opts inbox envelope eventId now) in
/-- **One envelope** past the tenant check: what it brings about is that of its kind, if it is
authentic, and nothing but records besides. -/
theorem handleEnvelope_effects [DecidableEq π] (h : tenantMismatch opts envelope = false) :
    ∃ quiet, (∀ effect ∈ quiet, effect.Quiet) ∧
      ((Authentic opts envelope ∧ (handleEnvelope opts inbox envelope eventId now).effects =
          inbox.effects ++ quiet ++ kindEffects opts inbox.pending envelope eventId now) ∨
        ¬ Authentic opts envelope ∧
          (handleEnvelope opts inbox envelope eventId now).effects = inbox.effects ++ quiet) := by
  let inbox₁ := inbox.count fun m =>
    { m with received := m.received + 1, lastMessageAt := some now }
  obtain ⟨hauth, hpending, quiet, heffects, hquiet⟩ := verifyAuth_spec opts inbox₁ envelope now
  refine ⟨quiet, hquiet, ?_⟩
  unfold handleEnvelope
  simp only [h, Bool.false_eq_true, if_false]
  rcases hv : verifyAuth opts inbox₁ envelope now with ⟨_ | _, inbox₂⟩
  · rw [hv] at hauth heffects
    exact Or.inr ⟨fun ha => Bool.false_ne_true (hauth.mpr ha), heffects⟩
  · rw [hv] at hauth hpending heffects
    refine Or.inl ⟨hauth.mp rfl, ?_⟩
    change (handleKind opts inbox₂ envelope eventId now).effects = _
    rw [handleKind_effects, heffects, hpending]
    rfl

/-! ### Tenant isolation -/

/-- An event on the bus or a settlement is of the bound tenant, by what the envelope says. -/
def Keeps (tenant : TenantContext) (envelope : AgentRpcEnvelope Json) : InboxEffect → Prop
  | .published event => envelope.tenantId = some tenant.id ∧
      event.info.bind (·.tenantId) = some tenant.id
  | .settled _ _ => envelope.tenantId = some tenant.id
  | _ => True

/-- What an envelope brings about. -/
def envelopeEffects [DecidableEq π] (opts : AgentInboxOptions) (inbox : AgentInbox π)
    (envelope : AgentRpcEnvelope Json) (eventId : String) (now : Int) : List InboxEffect :=
  (handleEnvelope opts { inbox with effects := [] } envelope eventId now).effects

/-- The envelope names a tenant; the empty text is none, unless it is the bound tenant's. -/
def NamesTenant (tenant : TenantContext) (envelope : AgentRpcEnvelope Json) : Prop :=
  ∃ tenantId, envelope.tenantId = some tenantId ∧ (tenantId = "" → tenant.id = "")

/-- The bus has the scope of another tenant than the envelope's. -/
def Refused (opts : AgentInboxOptions) (envelope : AgentRpcEnvelope Json) : Prop :=
  ∃ scope tenantId, opts.tenantScope = some scope ∧ scope ≠ "" ∧
    envelope.tenantId = some tenantId ∧ tenantId ≠ scope

/-- There is nothing the envelope could publish or settle. -/
def Inert (opts : AgentInboxOptions) (pending : Option (PendingRegistry π (Option Json)))
    (envelope : AgentRpcEnvelope Json) : Prop :=
  match envelope.kind with
  | .request => opts.onRequest = true ∨ Refused opts envelope
  | .response => ∀ registry, pending = some registry → ∀ value,
      responseValue envelope.payload = some value → envelope.correlationId ∉ registry.entries
  | .event => opts.onEvent = true ∨ Refused opts envelope

/-- The bus passes an event, with its tenant or the scope, or refuses it. -/
theorem enforceTenantScope_spec (scope : Option String) (event : AgentEvent) :
    (∃ event', enforceTenantScope scope event = .ok event' ∧
      (event.info.bind (·.tenantId) = none ∨ event' = event) ∧
      ¬ ∃ s t, scope = some s ∧ s ≠ "" ∧ event.info.bind (·.tenantId) = some t ∧ t ≠ s) ∨
    ∃ err, enforceTenantScope scope event = .error err ∧
      ∃ s t, scope = some s ∧ s ≠ "" ∧ event.info.bind (·.tenantId) = some t ∧ t ≠ s := by
  unfold enforceTenantScope
  split
  · exact Or.inl ⟨event, rfl, Or.inr rfl, by simp⟩
  · exact Or.inl ⟨event, rfl, Or.inr rfl, by simp⟩
  · rename_i s hs
    have hne : s ≠ "" := fun h => hs (by rw [h])
    split
    · rename_i ht
      exact Or.inl ⟨_, rfl, Or.inl ht, by simp [ht]⟩
    · rename_i t ht
      split
      · rename_i h
        exact Or.inl ⟨event, rfl, Or.inr rfl, by simp [ht, h]⟩
      · rename_i h
        exact Or.inr ⟨_, rfl, s, t, rfl, hne, ht, h⟩

theorem eventEffects_quiet_iff (hook : Bool) {event : AgentEvent}
    (ht : event.info.bind (·.tenantId) = envelope.tenantId) :
    (∀ effect ∈ eventEffects opts hook event, effect.Quiet) ↔
      hook = true ∨ Refused opts envelope := by
  unfold eventEffects Refused
  cases hook with
  | true => simp [InboxEffect.Quiet]
  | false =>
    rcases enforceTenantScope_spec opts.tenantScope event with
      ⟨event', hok, -, hnot⟩ | ⟨err, herr, hrefused⟩
    · rw [ht] at hnot
      simp only [hok, Bool.false_eq_true, if_false, false_or]
      exact iff_of_false (fun h => h _ (List.mem_singleton_self _)) hnot
    · rw [ht] at hrefused
      simp only [herr, Bool.false_eq_true, if_false, false_or]
      exact iff_of_true (fun _ he => nomatch he) hrefused

variable (opts envelope eventId now) in
theorem kindEffects_quiet_iff (pending : Option (PendingRegistry π (Option Json))) :
    (∀ effect ∈ kindEffects opts pending envelope eventId now, effect.Quiet) ↔
      Inert opts pending envelope := by
  unfold kindEffects Inert
  cases envelope.kind with
  | request => exact eventEffects_quiet_iff _ rfl
  | event => exact eventEffects_quiet_iff _ rfl
  | response =>
    unfold responseEffects
    cases pending with
    | none => simp
    | some registry =>
      cases hv : responseValue envelope.payload with
      | none => simp
      | some value =>
        by_cases hmem : envelope.correlationId ∈ registry.entries
        · simp [hmem, InboxEffect.Quiet]
        · simp [hmem]

theorem Keeps.of_quiet {tenant : TenantContext} {effect : InboxEffect} (h : effect.Quiet) :
    Keeps tenant envelope effect := by
  cases effect with
  | published _ | settled _ _ => exact h.elim
  | _ => trivial

/-- What an envelope of the tenant publishes and settles is the tenant's. -/
theorem kindEffects_keeps {tenant : TenantContext} (ht : envelope.tenantId = some tenant.id)
    (pending : Option (PendingRegistry π (Option Json))) :
    ∀ effect ∈ kindEffects opts pending envelope eventId now, Keeps tenant envelope effect := by
  have hevent : ∀ hook (event : AgentEvent), event.info.bind (·.tenantId) = envelope.tenantId →
      ∀ effect ∈ eventEffects opts hook event, Keeps tenant envelope effect := by
    intro hook event he effect heffect
    unfold eventEffects at heffect
    cases hook with
    | true => exact Keeps.of_quiet (by rw [List.mem_singleton.mp heffect]; trivial)
    | false =>
      rcases enforceTenantScope_spec opts.tenantScope event with
        ⟨event', hok, hsame, -⟩ | ⟨err, herr, -⟩
      · simp only [hok, Bool.false_eq_true, if_false, List.mem_singleton] at heffect
        subst heffect
        rcases hsame with hnone | rfl
        · rw [he, ht] at hnone
          cases hnone
        · exact ⟨ht, he.trans ht⟩
      · simp [herr] at heffect
  intro effect heffect
  unfold kindEffects at heffect
  cases hk : envelope.kind with
  | request =>
    rw [hk] at heffect
    exact hevent _ _ rfl effect heffect
  | event =>
    rw [hk] at heffect
    exact hevent _ _ rfl effect heffect
  | response =>
    rw [hk] at heffect
    cases effect with
    | published event =>
      cases pending with
      | none => cases heffect
      | some registry =>
        cases hv : responseValue envelope.payload with
        | none => simp [responseEffects, hv] at heffect
        | some value =>
          by_cases hmem : envelope.correlationId ∈ registry.entries
          · simp [responseEffects, hv, hmem] at heffect
          · simp [responseEffects, hv, hmem] at heffect
    | settled correlationId value => exact ht
    | audit | authReject | hooked => trivial

/-- **Tenant isolation.**  An inbox bound to a tenant publishes and settles for envelopes of that
tenant only, exactly where the envelope names a tenant, or its sender is not authentic, or there
is nothing it could publish or settle. -/
theorem handleEnvelope_isolates_iff (π : Type) [DecidableEq π] (opts : AgentInboxOptions)
    (tenant : TenantContext) (h : opts.tenant = some tenant) (inbox : AgentInbox π)
    (envelope : AgentRpcEnvelope Json) (eventId : String) (now : Int) :
    (∀ effect ∈ envelopeEffects opts inbox envelope eventId now, Keeps tenant envelope effect) ↔
      NamesTenant tenant envelope ∨ ¬ Authentic opts envelope ∨
        Inert opts inbox.pending envelope := by
  by_cases hnames : NamesTenant tenant envelope
  · refine iff_of_true ?_ (Or.inl hnames)
    obtain ⟨tenantId, ht, hempty⟩ := hnames
    by_cases hsame : tenantId = tenant.id
    · -- the tenant's own envelope
      have hmatch : tenantMismatch opts envelope = false := by
        simp [tenantMismatch, h, ht, hsame]
      rw [hsame] at ht
      obtain ⟨quiet, hquiet, ⟨-, heff⟩ | ⟨-, heff⟩⟩ := handleEnvelope_effects opts
        { inbox with effects := [] } envelope eventId now hmatch
      · intro effect heffect
        rw [envelopeEffects, heff, List.nil_append, List.mem_append] at heffect
        rcases heffect with he | he
        · exact .of_quiet (hquiet effect he)
        · exact kindEffects_keeps ht _ effect he
      · intro effect heffect
        rw [envelopeEffects, heff, List.nil_append] at heffect
        exact .of_quiet (hquiet effect heffect)
    · -- another tenant's is dropped
      have hne : tenantId ≠ "" := fun he => hsame (he.trans (hempty he).symm)
      have hdrop : tenantMismatch opts envelope = true := by
        simp [tenantMismatch, h, ht, hne, hsame]
      intro effect heffect
      simp [envelopeEffects, handleEnvelope, hdrop] at heffect
  · -- the check lets it pass, and it is not of the tenant
    have hother : envelope.tenantId ≠ some tenant.id := fun ht => hnames ⟨tenant.id, ht, id⟩
    have hmatch : tenantMismatch opts envelope = false := by
      unfold tenantMismatch
      rw [h]
      cases ht : envelope.tenantId with
      | none => rfl
      | some tenantId =>
        have he : tenantId = "" := by
          by_contra hne
          exact hnames ⟨tenantId, ht, fun he => absurd he hne⟩
        simp [he]
    have hkeeps : ∀ effect, Keeps tenant envelope effect ↔ effect.Quiet := by
      intro effect
      refine ⟨fun hk => ?_, .of_quiet⟩
      cases effect with
      | published event => exact hother hk.1
      | settled correlationId value => exact hother hk
      | audit | authReject | hooked => trivial
    simp only [hkeeps, hnames, false_or]
    obtain ⟨quiet, hquiet, ⟨hauth, heff⟩ | ⟨hauth, heff⟩⟩ := handleEnvelope_effects opts
      { inbox with effects := [] } envelope eventId now hmatch
    · rw [envelopeEffects, heff, List.nil_append]
      simp only [hauth, not_true_eq_false, false_or]
      rw [← kindEffects_quiet_iff opts envelope eventId now]
      exact ⟨fun hall effect he => hall effect (List.mem_append_right _ he), fun hall effect he =>
        (List.mem_append.mp he).elim (hquiet effect) (hall effect)⟩
    · rw [envelopeEffects, heff, List.nil_append]
      exact iff_of_true hquiet (Or.inl hauth)

end

/-- A request that names the tenant, or none. -/
def summarizeRequest (tenantId : Option String) : AgentRpcEnvelope Json where
  kind := .request
  messageId := "m1"
  correlationId := "c1"
  «from» := "agent://concierge"
  «to» := "agent://summarizer"
  capability := "summarize"
  tenantId := tenantId
  payload := .null
  auth := some .internal

/-- A request that names no tenant is published to the bound tenant. -/
theorem unnamed_tenant_published : ¬ ∀ (opts : AgentInboxOptions) (tenant : TenantContext),
    opts.tenant = some tenant → tenant.id ≠ defaultTenantId →
    ∀ (inbox : AgentInbox Nat) (envelope : AgentRpcEnvelope Json) (eventId : String) (now : Int),
      ∀ effect ∈ envelopeEffects opts inbox envelope eventId now,
        Keeps tenant envelope effect := by
  intro h
  have hkeeps := h { tenant := some ⟨"acme"⟩, tenantScope := some "acme" } ⟨"acme"⟩ rfl (by decide)
    {} (summarizeRequest none) "e1" 0 _ (List.mem_singleton_self _)
  cases hkeeps.1

/-- A request of the bound tenant, from a sender nobody vouches for. -/
theorem handleEnvelope_isolates_iff_acme :
    Keeps ⟨"acme"⟩ (summarizeRequest (some "acme"))
      (.published (requestEvent (summarizeRequest (some "acme")) "e1" 0)) :=
  (handleEnvelope_isolates_iff Nat { tenant := some ⟨"acme"⟩ } ⟨"acme"⟩ rfl {} _ "e1" 0).mpr
    (Or.inl ⟨"acme", rfl, fun h => absurd h (by decide)⟩) _ (List.mem_singleton_self _)

end Declaragent.Rpc
