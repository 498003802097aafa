import Declaragent.Events.Dispatcher
import Declaragent.Rpc.RequestAgent

/-!
# Engine — what caused the event a tool publishes

The dispatcher starts a turn for an event, the turn runs tools, and what a tool publishes is
handled by the dispatcher in its turn.  The cause passes through the input of the turn, the
correlation id of the tool's context and, where the Agent tool nests turns, the inputs of these.

What the dispatcher hands on is the cause of the event, not the event: a tool that copies its
correlation id names the event before.

* `causedBy_published_iff`: when what a tool publishes names the event of its turn.
* `detectLoop_of_chain`: the loop check finds a trigger along an unbroken chain of causes.
* `lineage_complete_iff`: both, over the runs of a dispatcher and its tools.
-/

namespace Declaragent.Engine
open Transition Events Rpc JsonText

/-! ### From an event to the context of a tool -/

/-- What a turn is started with. -/
structure TurnInput where
  causedBy : Option String
  subject : Option String
  depth : Nat

/-- The turn that `executeTarget` starts for an event, its session being at hand. -/
def turnInput (event : AgentEvent) : Option TurnInput :=
  let eventTurn (depth : Nat) : TurnInput :=
    ⟨event.causedBy, event.info.bind (·.platformUserId), depth⟩
  match event.target with
  | .broadcast => none
  | .session .. | .newSession .. => some (eventTurn 0)
  | .subAgent .. => some (eventTurn 1)
  | .skill name _ sessionKey =>
    match sessionKey with
    -- `runSkill`, in a child session
    | none | some "" => some ⟨some ("skill:" ++ name), none, 1⟩
    | some _ => some (eventTurn 0)

/-- A session, with the name of its spec. -/
structure SessionRef where
  id : String
  name : String

structure ToolContext where
  session : SessionRef
  depth : Nat
  tenant : Option TenantContext
  subject : Option String
  correlationId : Option String

/-- The context of the tools of a turn. -/
def toolContext (input : TurnInput) (session : SessionRef) (tenant : Option TenantContext) :
    ToolContext where
  session := session
  depth := input.depth
  tenant := tenant
  subject := input.subject
  correlationId := input.causedBy

/-- The input of the turn that the Agent tool starts. -/
def agentToolInput (ctx : ToolContext) : TurnInput where
  causedBy := some (ctx.correlationId.getD ctx.session.id)
  subject := none
  depth := ctx.depth + 1

/-- The context of a tool under nested calls of the Agent tool, in the last of their sessions. -/
def nestedContext (tenant : Option TenantContext) :
    TurnInput → SessionRef → List SessionRef → ToolContext
  | input, session, [] => toolContext input session tenant
  | input, session, child :: rest =>
    nestedContext tenant (agentToolInput (toolContext input session tenant)) child rest

/-! ### What a tool publishes -/

/-- The event of `mailbox.send`. -/
def mailboxEvent (id fromAgent : String) (payload : Json) (now : Int) : AgentEvent where
  id := id
  kind := .mailboxMessage
  source := .mailbox fromAgent
  target := .broadcast
  timestamp := now
  payload := payload
  auth := .internal
  info := some { idempotencyKey := some id }

/-- The tools that publish.  A tool of the host publishes the event it is given, and `stamps`
says whether it sets the cause to the correlation id of its context. -/
inductive PublishingTool where
  | sendMessage (id : String) (payload : Json)
  | requestAgent (opts : RequestAgentOptions) (input : RequestAgentInput)
      (uuid messageId eventId : String) (auth : RpcAuth)
  | hostTool (event : AgentEvent) (stamps : Bool)

/-- A call of a tool: in the session of the turn or under nested calls of the Agent tool. -/
structure ToolCall where
  session : SessionRef
  subAgents : List SessionRef
  tenant : Option TenantContext
  tool : PublishingTool

/-- The event that the inbox of the callee makes of an envelope. -/
def inboxEvent (envelope : AgentRpcEnvelope Json) (eventId : String) (now : Int) : AgentEvent :=
  match envelope.kind with
  | .event => eventKindEvent envelope eventId now
  | .request | .response => requestEvent envelope eventId now

def PublishingTool.published (ctx : ToolContext) (now : Int) : PublishingTool → AgentEvent
  | .sendMessage id payload => mailboxEvent id ctx.session.name payload now
  | .requestAgent opts input uuid messageId eventId auth =>
    let call : RequestCall :=
      ⟨input, ⟨ctx.correlationId, ctx.tenant.map (·.id)⟩, uuid, messageId⟩
    inboxEvent (call.envelope opts now auth) eventId now
  | .hostTool event stamps =>
    if stamps then
      { event with info := some { event.info.getD {} with causedBy := ctx.correlationId } }
    else event

def ToolCall.published (call : ToolCall) (input : TurnInput) (now : Int) : AgentEvent :=
  call.tool.published (nestedContext call.tenant input call.session call.subAgents) now

/-- What the turn of an event carries on is the event's own id: its cause is itself, or the id
is the text a skill's turn is started with, or that of the session a nested turn falls back to. -/
def CarriesSelf (call : ToolCall) (event : AgentEvent) : Prop :=
  match event.target with
  | .skill name _ none | .skill name _ (some "") => event.id = "skill:" ++ name
  | _ => event.causedBy = some event.id ∨
      event.causedBy = none ∧ call.subAgents ≠ [] ∧ call.session.id = event.id

/-- The call publishes under the event's id: a host's tool that was given it as the cause, or one
that stamps what the turn carries, where that is the id. -/
def NamesEvent (call : ToolCall) (event : AgentEvent) : Prop :=
  match call.tool with
  | .sendMessage .. | .requestAgent .. => False
  | .hostTool given stamps =>
    if stamps then CarriesSelf call event else given.causedBy = some event.id

/-! ### The cause of what is published -/

/-- Nested turns carry the first cause there is, else the first session. -/
theorem nestedContext_correlationId (tenant : Option TenantContext) (input : TurnInput)
    (session : SessionRef) (subAgents : List SessionRef) :
    (nestedContext tenant input session subAgents).correlationId =
      if subAgents = [] then input.causedBy
      else some (input.causedBy.getD session.id) := by
  induction subAgents generalizing input session with
  | nil => rfl
  | cons child rest ih =>
    rw [nestedContext, ih]
    split <;> rfl

/-- An envelope carries no cause: the id of its context is its correlation id. -/
theorem envelope_causedBy (call : RequestCall) (opts : RequestAgentOptions) (started : Int)
    (auth : RpcAuth) : (call.envelope opts started auth).causedBy = none := by
  unfold RequestCall.envelope RequestCall.correlationId
  cases call.ctx.correlationId with
  | none => rfl
  | some id => simp

theorem inboxEvent_causedBy {envelope : AgentRpcEnvelope Json} (h : envelope.causedBy = none)
    (eventId : String) (now : Int) : (inboxEvent envelope eventId now).causedBy = none := by
  unfold inboxEvent
  split
  · rfl
  · exact h
  · exact h

/-- When nested turns carry a given id. -/
theorem nestedContext_carries_iff (call : ToolCall) (input : TurnInput) (id : String) :
    (nestedContext call.tenant input call.session call.subAgents).correlationId = some id ↔
      input.causedBy = some id ∨
        input.causedBy = none ∧ call.subAgents ≠ [] ∧ call.session.id = id := by
  rw [nestedContext_correlationId]
  cases input.causedBy with
  | none => simp
  | some cause => simp

/-- **When the context of a tool carries the event of its turn.** -/
theorem carriesSelf_iff {event : AgentEvent} {input : TurnInput} (h : turnInput event = some input)
    (call : ToolCall) :
    (nestedContext call.tenant input call.session call.subAgents).correlationId = some event.id ↔
      CarriesSelf call event := by
  rw [nestedContext_carries_iff]
  unfold turnInput at h
  unfold CarriesSelf
  cases ht : event.target with
  | broadcast => simp [ht] at h
  | session sessionId mode =>
    simp only [ht, Option.some.injEq] at h
    subst h
    rfl
  | newSession agentSpec initialPrompt =>
    simp only [ht, Option.some.injEq] at h
    subst h
    rfl
  | subAgent parentSessionId spec =>
    simp only [ht, Option.some.injEq] at h
    subst h
    rfl
  | skill name inputs sessionKey =>
    simp only [ht] at h
    split at h
    · cases h
      simp [eq_comm]
    · cases h
      simp [eq_comm]
    · rename_i key hkey
      cases h
      split
      · simp_all
      · simp_all
      · rfl

/-- **The cause of what a tool publishes** is the event of its turn exactly where the tool is a
host's that was given the event's id or stamps a correlation id that is it. -/
theorem causedBy_published_iff {event : AgentEvent} {input : TurnInput}
    (h : turnInput event = some input) (call : ToolCall) (now : Int) :
    (call.published input now).causedBy = some event.id ↔ NamesEvent call event := by
  unfold ToolCall.published NamesEvent
  cases ht : call.tool with
  | sendMessage id payload => simp [PublishingTool.published, mailboxEvent, AgentEvent.causedBy]
  | requestAgent opts request uuid messageId eventId auth =>
    have hnone : (PublishingTool.published
        (nestedContext call.tenant input call.session call.subAgents) now
        (.requestAgent opts request uuid messageId eventId auth)).causedBy = none :=
      inboxEvent_causedBy (envelope_causedBy _ opts now auth) eventId now
    simp [hnone]
  | hostTool given stamps =>
    cases stamps with
    | false => exact Iff.rfl
    | true => exact carriesSelf_iff h call

/-! ### The runs of a dispatcher and its tools -/

/-- An event that the dispatcher took on, with the events whose turns led to it, the nearest
first.  Without an outcome its turn is running. -/
structure Handled where
  event : AgentEvent
  ancestors : List AgentEvent
  outcome : Option DispatchOutcome

/-- The dispatcher, what it took on, and what tools published: the event of the turn and the
event published. -/
structure LineageState where
  d : Dispatcher
  handled : List Handled := []
  published : List (AgentEvent × AgentEvent) := []

inductive LineageLabel where
  /-- A source publishes. -/
  | arrive (event : AgentEvent) (now : Int)
  /-- A tool publishes in a turn that runs. -/
  | toolPublishes (place : Nat) (call : ToolCall) (now : Int)
  /-- The target of an event is through. -/
  | settles (place : Nat) (now : Int)

section
variable (config : DispatcherConfig)

/-- An event is published, and the dispatcher takes it on. -/
def LineageState.take (s : LineageState) (event : AgentEvent) (ancestors : List AgentEvent)
    (now : Int) : LineageState :=
  match beginHandle config (s.d.push config event) event now with
  | (none, d) => { s with d := d }
  | (some (current, outcome), d) =>
    { s with d := d, handled := s.handled ++ [⟨current, ancestors, outcome⟩] }

/-- The turn that runs at a place, with the event it was started for. -/
def LineageState.turn (s : LineageState) (place : Nat) : Option (Handled × TurnInput) :=
  (s.handled[place]?.filter (·.outcome.isNone)).bind fun h =>
    (turnInput h.event).map fun input => (h, input)

/-- The event a label publishes, with the events that led to it. -/
def LineageState.emitted (s : LineageState) : LineageLabel → Option (AgentEvent × List AgentEvent)
  | .arrive event _ => some (event, [])
  | .toolPublishes place call now =>
    (s.turn place).map fun (h, input) => (call.published input now, h.event :: h.ancestors)
  | .settles .. => none

def lineageStep (s : LineageState) : LineageLabel → Option LineageState
  | .arrive event now => some (s.take config event [] now)
  | .toolPublishes place call now =>
    (s.turn place).map fun (h, input) =>
      let event := call.published input now
      let s := s.take config event (h.event :: h.ancestors) now
      { s with published := s.published ++ [(h.event, event)] }
  | .settles place now =>
    (s.handled[place]?.filter (·.outcome.isNone)).map fun h =>
      let outcome := targetOutcome config h.event
      { s with
        d := s.d.settle h.event outcome now
        handled := s.handled.set place { h with outcome := some outcome } }

/-- What a tool publishes, it publishes under the id of the event of its turn. -/
def NamesTrigger (s : LineageState) : LineageLabel → Prop
  | .toolPublishes place call _ => ∀ h ∈ s.handled[place]?, NamesEvent call h.event
  | .arrive .. | .settles .. => True

/-- The event is new to the dispatcher, under an id that the bus and the host's lookup have no
other event under, and no hook touches it. -/
def New (s : LineageState) (event : AgentEvent) (now : Int) : Prop :=
  config.before event = .passes ∧ event.id ≠ "" ∧
  (firstSeen config s.d.cache s.d.store event now).1 = none ∧
  (∀ prior ∈ s.d.recent, prior.id ≠ event.id) ∧
  ∀ hit, config.lookupEvent.bind (· event.id) = some hit → hit = event

def LineageLabel.now : LineageLabel → Int
  | .arrive _ now | .toolPublishes _ _ now | .settles _ now => now

/-- What a label publishes is new and, where a tool publishes it, names the event of its turn. -/
def Traced (s : LineageState) (a : LineageLabel) : Prop :=
  NamesTrigger s a ∧ ∀ event ancestors, s.emitted a = some (event, ancestors) →
    New config s event a.now

end

/-- Each event a tool published names the event of its turn as its cause. -/
def LineageState.Complete (s : LineageState) : Prop :=
  ∀ p ∈ s.published, p.2.causedBy = some p.1.id

/-- An event with the trigger of one of its nearest ancestors is rejected as a loop. -/
def LineageState.LoopsBroken (config : DispatcherConfig) (s : LineageState) : Prop :=
  ∀ h ∈ s.handled, ∀ trigger, Triggered h.event trigger →
    (∃ ancestor ∈ h.ancestors.take config.causedByDepthLimit.toNat,
      getTriggerId ancestor.source = some trigger) →
    h.outcome = some (.rejected .loop (some (loopDetails h.event)))

section
variable {config : DispatcherConfig} {s s' : LineageState}

theorem turn_eq_some {place : Nat} {h : Handled} {input : TurnInput}
    (ht : s.turn place = some (h, input)) :
    s.handled[place]? = some h ∧ turnInput h.event = some input := by
  unfold LineageState.turn at ht
  obtain ⟨h', hget, hinput⟩ := Option.bind_eq_some_iff.mp ht
  obtain ⟨input', hinput', he⟩ := Option.map_eq_some_iff.mp hinput
  cases he
  exact ⟨(Option.filter_eq_some_iff.mp hget).1, hinput'⟩

@[simp] theorem published_take (event : AgentEvent) (ancestors : List AgentEvent) (now : Int) :
    (s.take config event ancestors now).published = s.published := by
  unfold LineageState.take
  split <;> rfl

/-! ### Complete lineage -/

/-- A step keeps the lineage complete exactly when what it publishes names its trigger. -/
theorem complete_step {a : LineageLabel} (h : lineageStep config s a = some s') :
    s'.Complete ↔ s.Complete ∧ NamesTrigger s a := by
  cases a with
  | arrive event now =>
    cases h
    simp [LineageState.Complete, NamesTrigger]
  | toolPublishes place call now =>
    obtain ⟨⟨hd, input⟩, ht, rfl⟩ := Option.map_eq_some_iff.mp h
    obtain ⟨hget, hinput⟩ := turn_eq_some ht
    have hnames := causedBy_published_iff hinput call now
    simp [LineageState.Complete, NamesTrigger, hget, ← hnames, or_imp, forall_and]
  | settles place now =>
    obtain ⟨hd, -, rfl⟩ := Option.map_eq_some_iff.mp h
    simp [LineageState.Complete, NamesTrigger]

/-! ### Broken loops -/

/-- The dispatcher looks an event up under its id. -/
structure Traceable (config : DispatcherConfig) (d : Dispatcher) (event : AgentEvent) : Prop where
  id_ne : event.id ≠ ""
  logged : event ∈ d.store.logged
  host : ∀ hit, config.lookupEvent.bind (· event.id) = some hit → hit = event
  recent : ∀ prior ∈ d.recent, prior.id = event.id → prior = event

/-- What is traceable stays so when a new event is taken on. -/
theorem Traceable.add {d d' : Dispatcher} {event new : AgentEvent} {size : Nat}
    (h : Traceable config d event) (hrecent : d'.recent = pushRecent size d.recent new)
    (hlogged : d'.store.logged = d.store.logged ++ [new])
    (hnew : ∀ prior ∈ d.store.logged, prior.id ≠ new.id) : Traceable config d' event where
  id_ne := h.id_ne
  logged := by simp [hlogged, h.logged]
  host := h.host
  recent := by
    intro prior hprior hid
    rw [hrecent] at hprior
    rcases mem_pushRecent hprior with rfl | hprior
    · exact absurd hid.symm (hnew event h.logged)
    · exact h.recent prior hprior hid

/-- An event with an unbroken, traceable chain behind it, where a loop is rejected. -/
structure HandledSound (config : DispatcherConfig) (d : Dispatcher) (h : Handled) : Prop where
  chain : CauseChain h.event.causedBy h.ancestors
  traceable : ∀ event ∈ h.event :: h.ancestors, Traceable config d event
  broken : ∀ trigger, Triggered h.event trigger →
    (∃ ancestor ∈ h.ancestors.take config.causedByDepthLimit.toNat,
      getTriggerId ancestor.source = some trigger) →
    h.outcome = some (.rejected .loop (some (loopDetails h.event)))

def LineageSound (config : DispatcherConfig) (s : LineageState) : Prop :=
  ∀ h ∈ s.handled, HandledSound config s.d h

/-- **A new event is taken on soundly** behind an unbroken, traceable chain. -/
theorem LineageSound.take (hs : LineageSound config s) {event : AgentEvent}
    {ancestors : List AgentEvent} {now : Int} (hnew : New config s event now)
    (hchain : CauseChain event.causedBy ancestors)
    (htraceable : ∀ ancestor ∈ ancestors, Traceable config s.d ancestor) :
    LineageSound config (s.take config event ancestors now) := by
  obtain ⟨hhook, hid, hseen, hrecent, hhost⟩ := hnew
  have hfresh := firstSeen_eq_none hseen
  let d : Dispatcher := s.d.push config event
  obtain ⟨hr, hl, hloop⟩ := beginDispatch_spec (d := d) hseen
  have hstored : event ∈ (beginDispatch config d event now).2.store.logged :=
    hl.symm ▸ List.mem_append_right _ (List.mem_singleton_self event)
  intro h hmem
  simp only [LineageState.take, beginHandle, hhook] at hmem ⊢
  rcases List.mem_append.mp hmem with hmem | hmem
  · have hh := hs h hmem
    exact ⟨hh.chain, fun e he => (hh.traceable e he).add hr hl hfresh, hh.broken⟩
  · obtain rfl := List.mem_singleton.mp hmem
    refine ⟨hchain, fun e he => ?_, fun trigger ht hancestor => hloop ?_⟩
    · rcases List.mem_cons.mp he with rfl | he
      · refine ⟨hid, hstored, hhost, fun prior hprior hpid => ?_⟩
        rw [hr] at hprior
        rcases mem_pushRecent hprior with rfl | hprior
        · rfl
        · exact absurd hpid (hrecent prior hprior)
      · exact (htraceable e he).add hr hl hfresh
    · -- the check runs once the event is recorded
      have hrecorded : (d.remember event now).store.logged = s.d.store.logged ++ [event] :=
        logged_recordEvent hfresh
      refine detectLoop_of_chain ht hchain (fun ancestor ha => ?_) hancestor
      have htr : Traceable config (d.remember event now) ancestor :=
        (htraceable ancestor ha).add rfl hrecorded hfresh
      exact ⟨htr.id_ne, lookupAncestor_of_logged htr.logged htr.host htr.recent⟩

theorem LineageSound.step {a : LineageLabel} (hs : LineageSound config s)
    (hc : Traced config s a) (h : lineageStep config s a = some s') : LineageSound config s' := by
  obtain ⟨hnames, hnew⟩ := hc
  cases a with
  | arrive event now =>
    cases h
    exact hs.take (hnew event [] rfl) trivial (by simp)
  | toolPublishes place call now =>
    obtain ⟨⟨hd, input⟩, ht, rfl⟩ := Option.map_eq_some_iff.mp h
    obtain ⟨hget, hinput⟩ := turn_eq_some ht
    have hh := hs hd (List.mem_of_getElem? hget)
    have hcause := (causedBy_published_iff hinput call now).mpr (hnames hd (by simp [hget]))
    have hemitted : s.emitted (.toolPublishes place call now) =
        some (call.published input now, hd.event :: hd.ancestors) := by
      simp [LineageState.emitted, ht]
    exact hs.take (hnew _ _ hemitted) ⟨hcause, hh.chain⟩ hh.traceable
  | settles place now =>
    obtain ⟨hd, hget, rfl⟩ := Option.map_eq_some_iff.mp h
    obtain ⟨hget, hnone⟩ := Option.filter_eq_some_iff.mp hget
    have hkept : ∀ e, Traceable config s.d e →
        Traceable config (s.d.settle hd.event (targetOutcome config hd.event) now) e :=
      fun e he => ⟨he.id_ne, by simpa using he.logged, he.host, he.recent⟩
    intro h' hmem
    rcases List.mem_or_eq_of_mem_set hmem with hmem | rfl
    · have hh := hs h' hmem
      exact ⟨hh.chain, fun e he => hkept e (hh.traceable e he), hh.broken⟩
    · have hh := hs hd (List.mem_of_getElem? hget)
      refine ⟨hh.chain, fun e he => hkept e (hh.traceable e he), fun trigger ht ha => ?_⟩
      -- a loop was rejected before, and its turn never ran
      rw [hh.broken trigger ht ha] at hnone
      cases hnone

/-- **When lineage is complete.**  In a run of a dispatcher and its tools every event a tool
published names the event of its turn exactly where each tool was a host's that was given the id
of that event, or stamped a correlation id that is it; and where besides every event was new,
each event with the trigger of one of its nearest ancestors was rejected as a loop. -/
theorem lineage_complete_iff (config : DispatcherConfig) (d : Dispatcher)
    (as : List LineageLabel) (s : LineageState)
    (r : Run (lineageStep config) Any ⟨d, [], []⟩ as s) :
    (s.Complete ↔ Run (lineageStep config) NamesTrigger ⟨d, [], []⟩ as s) ∧
      (Run (lineageStep config) (Traced config) ⟨d, [], []⟩ as s →
        s.Complete ∧ s.LoopsBroken config) := by
  have hempty : (⟨d, [], []⟩ : LineageState).Complete := by simp [LineageState.Complete]
  have hcomplete := Run.meets_iff hempty (fun _ _ _ h => complete_step h) r
  refine ⟨hcomplete, fun rt => ⟨hcomplete.mpr ?_, fun h hmem => ?_⟩⟩
  · exact rt.mono trivial fun _ _ _ _ _ => ⟨trivial, And.left⟩
  · have hsound : LineageSound config s :=
      rt.invariant (by simp [LineageSound]) fun _ _ _ hs hc h => hs.step hc h
    exact (hsound h hmem).broken

end

/-! ### A trigger that fires itself -/

def nightlyConfig : DispatcherConfig where
  executeTarget _ := .ok (.dispatched "s1")

/-- A firing of the trigger `nightly`, into a session. -/
def nightly (id : String) (causedBy : Option String) : AgentEvent where
  id := id
  source := .cron "nightly" "0 3 * * *"
  target := .session "s1" .inject
  kind := .triggerFire
  timestamp := 0
  payload := .null
  auth := .trigger "nightly"
  info := some { causedBy := causedBy }

/-- A tool in its turn fires the trigger again. -/
def fireAgain (stamps : Bool) : ToolCall where
  session := ⟨"s1", "bot"⟩
  subAgents := []
  tenant := none
  tool := .hostTool (nightly "e2" (some "e1")) stamps

/-- The first firing has no cause, and so the one a tool makes in its turn has none when the
tool stamps what its context says: the second firing of the trigger starts its turn. -/
theorem stamped_loop_runs : ¬ ∀ (config : DispatcherConfig) (d : Dispatcher)
    (as : List LineageLabel) (s : LineageState),
    Run (lineageStep config) Any ⟨d, [], []⟩ as s → s.Complete ∧ s.LoopsBroken config := by
  intro h
  obtain ⟨s, r, hs⟩ := Run.any_of_replay
    (p := fun s : LineageState => s.handled.any fun h =>
      getTriggerId h.event.source == some "nightly" && h.outcome.isNone &&
        (h.ancestors.take 5).any fun ancestor => getTriggerId ancestor.source == some "nightly")
    (show (exec (lineageStep nightlyConfig) ⟨createEventDispatcher .empty, [], []⟩
      [.arrive (nightly "e1" none) 0, .toolPublishes 0 (fireAgain true) 1]).any _ = true by decide)
  obtain ⟨hd, hmem, hrun⟩ := List.any_eq_true.mp hs
  simp only [Bool.and_eq_true, beq_iff_eq, Option.isNone_iff_eq_none, List.any_eq_true] at hrun
  obtain ⟨⟨ht, hnone⟩, hancestor⟩ := hrun
  have hrejected := (h _ _ _ s r).2 hd hmem "nightly" ⟨ht, by decide⟩ hancestor
  rw [hnone] at hrejected
  cases hrejected

/-- Given the id of the first firing, the tool has the second rejected. -/
theorem lineage_complete_nightly : ∃ s,
    Run (lineageStep nightlyConfig) (Traced nightlyConfig) ⟨createEventDispatcher .empty, [], []⟩
      [.arrive (nightly "e1" none) 0, .toolPublishes 0 (fireAgain false) 1] s ∧
    s.handled.map (·.outcome) =
      [none, some (.rejected .loop (some (loopDetails (nightly "e2" (some "e1")))))] ∧
    s.Complete ∧ s.LoopsBroken nightlyConfig := by
  have hfirst : Traced nightlyConfig ⟨createEventDispatcher .empty, [], []⟩
      (.arrive (nightly "e1" none) 0) := by
    refine ⟨trivial, ?_⟩
    rintro event ancestors ⟨⟩
    exact ⟨rfl, by decide, rfl, by decide, by rintro hit ⟨⟩⟩
  have hsecond : Traced nightlyConfig
      ((⟨createEventDispatcher .empty, [], []⟩ : LineageState).take nightlyConfig
        (nightly "e1" none) [] 0)
      (.toolPublishes 0 (fireAgain false) 1) := by
    refine ⟨?_, ?_⟩
    · rintro hd ⟨⟩
      rfl
    · rintro event ancestors ⟨⟩
      exact ⟨rfl, by decide, rfl, by decide, by rintro hit ⟨⟩⟩
  have r : Run (lineageStep nightlyConfig) (Traced nightlyConfig)
      ⟨createEventDispatcher .empty, [], []⟩
      [.arrive (nightly "e1" none) 0, .toolPublishes 0 (fireAgain false) 1] _ :=
    .snoc (.snoc .nil hfirst rfl) hsecond rfl
  exact ⟨_, r, rfl, (lineage_complete_iff _ _ _ _ (r.mono (P := fun _ => True) trivial
    fun _ _ _ _ _ => ⟨trivial, fun _ => trivial⟩)).2 r⟩

end Declaragent.Engine
