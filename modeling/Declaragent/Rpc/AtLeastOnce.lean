import Declaragent.Rpc.AgentInbox
import Declaragent.Sources.BaseSource

/-!
# Rpc — at least once

SQS, AMQP and JetStream acknowledge a message after the handlers of its topic have returned, and
leave it to the broker when one of them throws.  The inbox catches what the bus and the hooks throw.

* `handleEnvelope` is the inbox with a bus and hooks that may throw; `handleEnvelope_faultless`
  connects it with the one where they do not.
* `handleEnvelope_returns`: the handler of an inbox never throws.
* `atLeastOnce_iff`: which messages are acknowledged only when they are handled.
-/

namespace Declaragent.Rpc.AtLeastOnce
open JsonText Events
open Sources (Handler throwing exec_bind exec_tryCatch)

/-! ### The inbox -/

/-- What the bus and the hooks of the host throw. -/
structure Faults where
  publish : Option String := none
  onRequest : Option String := none
  onEvent : Option String := none

@[simp] theorem isOk_ok {ε α : Type} (a : α) : (Except.ok a : Except ε α).isOk = true := rfl

@[simp] theorem isOk_error {ε α : Type} (e : ε) : (Except.error e : Except ε α).isOk = false := rfl

section
variable {π : Type} [DecidableEq π] (opts : AgentInboxOptions) (F : Faults)

/-- A hook is handed the event, and may throw then. -/
def callHook (fault : Option String) (event : AgentEvent) : Handler (AgentInbox π) Unit :=
  fun inbox => throwing fault (inbox.push (.hooked event))

/-- `bus.publish`, which refuses an event of another tenant. -/
def publish (event : AgentEvent) : Handler (AgentInbox π) Unit := fun inbox =>
  match enforceTenantScope opts.tenantScope event, F.publish with
  | .error err, _ | .ok _, some err => (.error err, inbox)
  | .ok event, none => (.ok (), inbox.push (.published event))

/-- The hook where there is one, and else the bus. -/
def deliverEvent (hook : Bool) (fault : Option String) (event : AgentEvent) :
    Handler (AgentInbox π) Unit :=
  if hook then callHook fault event else publish opts F event

def handleRequest (envelope : AgentRpcEnvelope Json) (eventId : String) (now : Int) :
    Handler (AgentInbox π) Unit :=
  deliverEvent opts F opts.onRequest F.onRequest (requestEvent envelope eventId now)

def handleEventKind (envelope : AgentRpcEnvelope Json) (eventId : String) (now : Int) :
    Handler (AgentInbox π) Unit :=
  deliverEvent opts F opts.onEvent F.onEvent (eventKindEvent envelope eventId now)

def handleByKind (envelope : AgentRpcEnvelope Json) (eventId : String) (now : Int) :
    Handler (AgentInbox π) Unit :=
  match envelope.kind with
  | .request => handleRequest opts F envelope eventId now
  | .response => fun inbox => (.ok (), handleResponse inbox envelope)
  | .event => handleEventKind opts F envelope eventId now

def count (f : AgentInboxMetrics → AgentInboxMetrics) : Handler (AgentInbox π) Unit :=
  fun inbox => (.ok (), inbox.count f)

def authenticate (envelope : AgentRpcEnvelope Json) (now : Int) : Handler (AgentInbox π) Bool :=
  fun inbox => let (authOk, inbox) := verifyAuth opts inbox envelope now; (.ok authOk, inbox)

/-- An error of the handler is logged and counted. -/
def handleEnvelope (envelope : AgentRpcEnvelope Json) (eventId : String) (now : Int) :
    Handler (AgentInbox π) Unit := do
  count fun m => { m with received := m.received + 1, lastMessageAt := some now }
  if tenantMismatch opts envelope then
    count fun m => { m with tenantRejects := m.tenantRejects + 1 }
  else if ← authenticate opts envelope now then
    tryCatch
      (do
        handleByKind opts F envelope eventId now
        count fun m => { m with processed := m.processed + 1 })
      fun _ => count fun m => { m with failed := m.failed + 1 }

/-- The inbox after the envelope. -/
def left (inbox : AgentInbox π) (envelope : AgentRpcEnvelope Json) (eventId : String)
    (now : Int) : AgentInbox π :=
  (Handler.exec (handleEnvelope opts F envelope eventId now) inbox).2

end

/-! ### The transports -/

inductive SqsDecodeFailPolicy where
  | leave | sendDlq | delete

inductive AmqpDecodeFailPolicy where
  | requeue | nackNoRequeue | ack

/-- A transport with the options that decide what becomes of a message.  The loop of JetStream
leaves a message where it stops. -/
inductive Transport where
  | sqs (decodeFail : SqsDecodeFailPolicy) (dlqQueueUrl : Option String)
  | amqp (decodeFail : AmqpDecodeFailPolicy) (requeueOnHandlerError : Bool)
  | jetstream (consuming : Bool)

/-- What a transport asks of its broker. -/
inductive BrokerCall where
  | deleteMessage
  | sendMessage (queueUrl : String)
  | ack
  | nack (requeue : Bool)
  | term
  deriving DecidableEq

/-- A handler of the topic: that of an inbox, as the inbox is when its turn comes, with the UUID
drawn for its event, or another one with what it throws. -/
inductive Subscriber (π : Type) where
  | inbox (opts : AgentInboxOptions) (F : Faults) (found : AgentInbox π) (eventId : String)
      (now : Int)
  | other (fault : Option String)

namespace Transport

def handleDecodeFailure : Transport → List BrokerCall
  | .sqs .leave _ => []
  | .sqs .sendDlq dlqQueueUrl => (dlqQueueUrl.map .sendMessage).toList ++ [.deleteMessage]
  | .sqs .delete _ => [.deleteMessage]
  | .amqp .requeue _ => [.nack true]
  | .amqp .nackNoRequeue _ => [.nack false]
  | .amqp .ack _ => [.ack]
  | .jetstream _ => [.term]

/-- The subscription was removed. -/
def withoutHandlers : Transport → List BrokerCall
  | .sqs .. => []
  | .amqp .. | .jetstream _ => [.nack true]

def afterThrow : Transport → List BrokerCall
  | .sqs .. => []
  | .amqp _ requeueOnHandlerError => [.nack requeueOnHandlerError]
  | .jetstream _ => [.nack true]

def afterSuccess : Transport → List BrokerCall
  | .sqs .. => [.deleteMessage]
  | .amqp .. | .jetstream _ => [.ack]

end Transport

section
variable {π : Type} [DecidableEq π]

/-- Whether the handler throws. -/
def Subscriber.throws (envelope : AgentRpcEnvelope Json) : Subscriber π → Bool
  | .inbox opts F found eventId now =>
    !(Handler.exec (handleEnvelope opts F envelope eventId now) found).1.isOk
  | .other fault => fault.isSome

/-- One message: its envelope if it decodes, and the handlers of its topic if there are any. -/
def dispatchMessage (T : Transport) (decoded : Option (AgentRpcEnvelope Json))
    (handlers : Option (List (Subscriber π))) : List BrokerCall :=
  match T, decoded, handlers with
  | .jetstream false, _, _ => []
  | T, none, _ => T.handleDecodeFailure
  | T, some _, none => T.withoutHandlers
  | .amqp .., some _, some [] => T.withoutHandlers
  | T, some envelope, some snapshot =>
    let handlerThrew :=
      snapshot.foldl (fun threw handler => threw || handler.throws envelope) false
    if handlerThrew then T.afterThrow else T.afterSuccess

/-! ### At least once -/

def Acknowledges (calls : List BrokerCall) : Prop := .ack ∈ calls ∨ .deleteMessage ∈ calls

/-- The handling by the inbox fails. -/
def Fails (opts : AgentInboxOptions) (F : Faults) (inbox : AgentInbox π)
    (envelope : AgentRpcEnvelope Json) (eventId : String) (now : Int) : Prop :=
  inbox.metrics.failed < (left opts F inbox envelope eventId now).metrics.failed

/-- The request was published to the bus, handed to `onRequest`, or rejected. -/
def Accounted (opts : AgentInboxOptions) (F : Faults) (inbox : AgentInbox π)
    (envelope : AgentRpcEnvelope Json) (eventId : String) (now : Int) : Prop :=
  tenantMismatch opts envelope = true ∨ ¬ Authentic opts envelope ∨
  ∃ effects, (left opts F inbox envelope eventId now).effects = inbox.effects ++ effects ∧
    ((∃ event, enforceTenantScope opts.tenantScope (requestEvent envelope eventId now) = .ok event ∧
        .published event ∈ effects) ∨
      .hooked (requestEvent envelope eventId now) ∈ effects)

/-- A message whose handling by an inbox fails is not acknowledged, and a request that is
acknowledged is accounted for by each inbox. -/
structure NoneLost (T : Transport) (envelope : AgentRpcEnvelope Json)
    (handlers : Option (List (Subscriber π))) : Prop where
  retried : ∀ snapshot, handlers = some snapshot → ∀ opts F inbox eventId now,
    .inbox opts F inbox eventId now ∈ snapshot → Fails opts F inbox envelope eventId now →
      ¬ Acknowledges (dispatchMessage T (some envelope) handlers)
  accounted : Acknowledges (dispatchMessage T (some envelope) handlers) →
    envelope.kind = .request → ∀ snapshot, handlers = some snapshot →
      ∀ opts F inbox eventId now, .inbox opts F inbox eventId now ∈ snapshot →
        Accounted opts F inbox envelope eventId now

end

/-! ### What an inbox does with an envelope -/

/-- The bus or the hook that the envelope goes to throws. -/
def HandlingThrows (opts : AgentInboxOptions) (F : Faults) (envelope : AgentRpcEnvelope Json) :
    Prop :=
  match envelope.kind with
  | .request =>
    if opts.onRequest then F.onRequest ≠ none else Refused opts envelope ∨ F.publish ≠ none
  | .response => False
  | .event => if opts.onEvent then F.onEvent ≠ none else Refused opts envelope ∨ F.publish ≠ none

/-- The inbox lets the envelope through to what throws. -/
def Faulty (opts : AgentInboxOptions) (F : Faults) (envelope : AgentRpcEnvelope Json) : Prop :=
  tenantMismatch opts envelope = false ∧ Authentic opts envelope ∧ HandlingThrows opts F envelope

section
variable {π : Type} [DecidableEq π] {opts : AgentInboxOptions} {F : Faults} {inbox : AgentInbox π}
  {envelope : AgentRpcEnvelope Json} {eventId : String} {now : Int}

omit [DecidableEq π] in
variable (opts F) in
/-- A delivery of an event throws where the hook or the bus does, counts no failure, and hands the
event on otherwise. -/
theorem deliverEvent_spec (hook : Bool) (fault : Option String) {event : AgentEvent}
    (ht : event.info.bind (·.tenantId) = envelope.tenantId) (inbox : AgentInbox π) :
    let r := Handler.exec (deliverEvent opts F hook fault event) inbox
    (r.1.isOk = false ↔ if hook then fault ≠ none else Refused opts envelope ∨ F.publish ≠ none) ∧
      r.2.metrics = inbox.metrics ∧ (r.1.isOk = true → handOn opts hook inbox event = .ok r.2) := by
  unfold deliverEvent handOn
  cases hook with
  | true =>
    cases fault with
    | none => simp [Handler.exec, callHook, throwing, AgentInbox.push]
    | some err => simp [Handler.exec, callHook, throwing, AgentInbox.push]
  | false =>
    rcases enforceTenantScope_spec opts.tenantScope event with
      ⟨event', hok, -, hnot⟩ | ⟨err, herr, hrefused⟩
    · have hnot' : ¬ Refused opts envelope := by
        rwa [ht] at hnot
      cases hp : F.publish with
      | none => simp [Handler.exec, publish, hok, hp, hnot', AgentInbox.push, Except.map]
      | some err => simp [Handler.exec, publish, hok, hp]
    · have hrefused' : Refused opts envelope := by
        rwa [ht] at hrefused
      simp [Handler.exec, publish, herr, hrefused']

/-- A settlement counts no failure. -/
theorem handleResponse_failed :
    (handleResponse inbox envelope).metrics.failed = inbox.metrics.failed := by
  unfold handleResponse
  split
  · rfl
  · split
    · rfl
    · split <;> rfl

variable (opts F envelope eventId now inbox) in
/-- The handling throws where the bus or the hook does, and else does what it does with a bus and
hooks that do not. -/
theorem handleByKind_spec :
    let r := Handler.exec (handleByKind opts F envelope eventId now) inbox
    (r.1.isOk = false ↔ HandlingThrows opts F envelope) ∧
      r.2.metrics.failed = inbox.metrics.failed ∧
      (r.1.isOk = true → handleKind opts inbox envelope eventId now =
        r.2.count fun m => { m with processed := m.processed + 1 }) := by
  unfold handleByKind HandlingThrows handleKind
  cases envelope.kind with
  | request =>
    have ht : (requestEvent envelope eventId now).info.bind (·.tenantId) = envelope.tenantId :=
      rfl
    obtain ⟨hthrows, hmetrics, hdone⟩ :=
      deliverEvent_spec opts F opts.onRequest F.onRequest ht inbox
    exact ⟨hthrows, congrArg _ hmetrics, fun h => by
      dsimp only
      rw [hdone h]
      rfl⟩
  | response => exact ⟨by simp [Handler.exec], handleResponse_failed, fun _ => rfl⟩
  | event =>
    have ht : (eventKindEvent envelope eventId now).info.bind (·.tenantId) = envelope.tenantId :=
      rfl
    obtain ⟨hthrows, hmetrics, hdone⟩ := deliverEvent_spec opts F opts.onEvent F.onEvent ht inbox
    exact ⟨hthrows, congrArg _ hmetrics, fun h => by
      dsimp only
      rw [hdone h]
      rfl⟩

omit [DecidableEq π] in
variable (opts envelope now inbox) in
theorem verifyAuth_failed :
    (verifyAuth opts inbox envelope now).2.metrics.failed = inbox.metrics.failed := by
  have hemit : ∀ (inbox : AgentInbox π) decision provider subject reason,
      (emitAuthCheck opts inbox envelope decision provider subject reason now).metrics.failed =
        inbox.metrics.failed := by
    intro inbox decision provider subject reason
    unfold emitAuthCheck
    split <;> rfl
  have hreject : ∀ provider reason message,
      (rejectAuth opts inbox envelope provider reason message now).metrics.failed =
        inbox.metrics.failed := by
    intro provider reason message
    unfold rejectAuth
    dsimp only
    split
    · exact hemit _ _ _ _ _
    · exact hemit _ _ _ _ _
  unfold verifyAuth
  split
  · exact hemit _ _ _ _ _
  · split
    · split
      · exact hreject _ _ _
      · exact hemit _ _ _ _ _
    · split
      · exact hemit _ _ _ _ _
      · exact hreject _ _ _
      · exact hreject _ _ _

variable (opts F envelope eventId now inbox) in
/-- What `handleEnvelope` comes to. -/
theorem handleEnvelope_exec :
    Handler.exec (handleEnvelope opts F envelope eventId now) inbox =
      (.ok (),
        let inbox := inbox.count fun m =>
          { m with received := m.received + 1, lastMessageAt := some now }
        if tenantMismatch opts envelope then
          inbox.count fun m => { m with tenantRejects := m.tenantRejects + 1 }
        else
          match verifyAuth opts inbox envelope now with
          | (false, inbox) => inbox
          | (true, inbox) =>
            let r := Handler.exec (handleByKind opts F envelope eventId now) inbox
            if r.1.isOk then r.2.count fun m => { m with processed := m.processed + 1 }
            else r.2.count fun m => { m with failed := m.failed + 1 }) := by
  unfold handleEnvelope
  rw [exec_bind]
  dsimp only [Handler.exec, count]
  split
  · rfl
  · change Handler.exec (authenticate opts envelope now >>= _) _ = _
    rw [exec_bind]
    dsimp only [Handler.exec, authenticate]
    generalize verifyAuth opts _ envelope now = verified
    obtain ⟨authOk, inbox'⟩ := verified
    cases authOk with
    | false => rfl
    | true =>
      change Handler.exec (tryCatch _ _) inbox' = _
      rw [exec_tryCatch, exec_bind]
      dsimp only [Handler.exec]
      generalize handleByKind opts F envelope eventId now inbox' = r
      obtain ⟨⟨err⟩ | ⟨⟨⟩⟩, inbox''⟩ := r
      · rfl
      · rfl

variable (opts F envelope eventId now inbox) in
/-- **The handler of an inbox never throws.** -/
theorem handleEnvelope_returns :
    (Handler.exec (handleEnvelope opts F envelope eventId now) inbox).1 = .ok () := by
  rw [handleEnvelope_exec]

variable (opts inbox) in
/-- With a bus and hooks that do not throw, an event is delivered as it is handed on. -/
theorem deliverEvent_faultless (hook : Bool) (event : AgentEvent) :
    Handler.exec (deliverEvent opts {} hook none event) inbox =
      match handOn opts hook inbox event with
      | .ok inbox => (.ok (), inbox)
      | .error err => (.error err, inbox) := by
  unfold deliverEvent handOn
  cases hook with
  | true => rfl
  | false =>
    change publish opts {} event inbox = _
    unfold publish
    cases enforceTenantScope opts.tenantScope event <;> rfl

variable (opts F envelope eventId now inbox) in
/-- The inbox fails on an envelope that it lets through to what throws, and does with another one
what it does with a bus and hooks that do not throw. -/
theorem left_spec :
    (Faulty opts F envelope ∧
      (left opts F inbox envelope eventId now).metrics.failed = inbox.metrics.failed + 1) ∨
    (¬ Faulty opts F envelope ∧
      (left opts F inbox envelope eventId now).metrics.failed = inbox.metrics.failed ∧
      left opts F inbox envelope eventId now =
        Rpc.handleEnvelope opts inbox envelope eventId now) := by
  unfold left
  rw [handleEnvelope_exec]
  unfold Rpc.handleEnvelope Faulty
  dsimp only
  cases tenantMismatch opts envelope with
  | true => exact Or.inr ⟨fun h => absurd h.1 (by decide), rfl, rfl⟩
  | false =>
    let inbox₁ := inbox.count fun m =>
      { m with received := m.received + 1, lastMessageAt := some now }
    have hauth := (verifyAuth_spec opts inbox₁ envelope now).1
    have hfailed := verifyAuth_failed opts inbox₁ envelope now
    simp only [Bool.false_eq_true, if_false, true_and]
    rcases hv : verifyAuth opts inbox₁ envelope now with ⟨_ | _, inbox₂⟩
    · rw [hv] at hauth hfailed
      exact Or.inr ⟨fun h => Bool.false_ne_true (hauth.mpr h.1), hfailed, rfl⟩
    · rw [hv] at hauth hfailed
      obtain ⟨hthrows, hkept, hdone⟩ := handleByKind_spec opts F inbox₂ envelope eventId now
      dsimp only
      cases hok : (Handler.exec (handleByKind opts F envelope eventId now) inbox₂).1.isOk with
      | false =>
        exact Or.inl ⟨⟨hauth.mp rfl, hthrows.mp hok⟩,
          congrArg (· + 1) (hkept.trans hfailed)⟩
      | true =>
        refine Or.inr ⟨fun h => ?_, hkept.trans hfailed, (hdone hok).symm⟩
        rw [hthrows.mpr h.2] at hok
        cases hok

/-- **A failure** is an envelope that the inbox lets through to what throws. -/
theorem fails_iff : Fails opts F inbox envelope eventId now ↔ Faulty opts F envelope := by
  unfold Fails
  rcases left_spec opts F inbox envelope eventId now with ⟨hfaulty, hfailed⟩ | ⟨hnot, hfailed, -⟩
  · exact iff_of_true (by omega) hfaulty
  · exact iff_of_false (by omega) hnot

/-- A request that does not fail is accounted for. -/
theorem accounted_of_not_faulty (hkind : envelope.kind = .request)
    (h : ¬ Faulty opts F envelope) : Accounted opts F inbox envelope eventId now := by
  unfold Accounted
  cases hmatch : tenantMismatch opts envelope with
  | true => exact Or.inl rfl
  | false =>
    rcases left_spec opts F inbox envelope eventId now with ⟨hfaulty, -⟩ | ⟨-, -, hleft⟩
    · exact absurd hfaulty h
    obtain ⟨quiet, -, ⟨hauth, heffects⟩ | ⟨hauth, -⟩⟩ :=
      handleEnvelope_effects opts inbox envelope eventId now hmatch
    · refine Or.inr (Or.inr ⟨_, by rw [hleft, heffects, List.append_assoc], ?_⟩)
      rw [kindEffects, hkind]
      dsimp only [eventEffects]
      have hquiet : ¬ HandlingThrows opts F envelope := fun hthrows =>
        h ⟨hmatch, hauth, hthrows⟩
      rw [HandlingThrows, hkind] at hquiet
      split
      · exact Or.inr (by simp)
      · rename_i hhook
        rw [if_neg hhook] at hquiet
        rcases enforceTenantScope_spec opts.tenantScope (requestEvent envelope eventId now) with
          ⟨event, hok, -, -⟩ | ⟨err, -, hrefused⟩
        · exact Or.inl ⟨event, hok, by simp [hok]⟩
        · exact absurd (Or.inl hrefused) hquiet
    · exact Or.inr (Or.inl hauth)

end

/-! ### What a transport acknowledges -/

/-- The loop of the topic is still running. -/
def Transport.consumes : Transport → Bool
  | .sqs .. | .amqp .. => true
  | .jetstream consuming => consuming

section
variable {π : Type} [DecidableEq π] {envelope : AgentRpcEnvelope Json}

@[simp] theorem throws_inbox (opts : AgentInboxOptions) (F : Faults) (found : AgentInbox π)
    (eventId : String) (now : Int) :
    (Subscriber.inbox opts F found eventId now).throws envelope = false := by
  rw [Subscriber.throws, handleEnvelope_returns]
  rfl

theorem handlerThrew_eq (snapshot : List (Subscriber π)) (threw : Bool) :
    snapshot.foldl (fun threw handler => threw || handler.throws envelope) threw =
      (threw || snapshot.any fun handler => handler.throws envelope) := by
  induction snapshot generalizing threw with
  | nil => simp
  | cons handler snapshot ih =>
    rw [List.foldl_cons, ih, List.any_cons, Bool.or_assoc]

/-- A message is acknowledged where no other handler of its topic throws: an inbox never does. -/
theorem acknowledges_iff (T : Transport) {snapshot : List (Subscriber π)} (hne : snapshot ≠ []) :
    Acknowledges (dispatchMessage T (some envelope) (some snapshot)) ↔
      T.consumes = true ∧ ∀ err, .other (some err) ∉ snapshot := by
  have hthrew : (snapshot.any fun handler => handler.throws envelope) = false ↔
      ∀ err, .other (some err) ∉ snapshot := by
    rw [List.any_eq_false]
    constructor
    · intro hall err hmem
      exact hall _ hmem rfl
    · intro hnone handler hmem
      cases handler with
      | inbox opts F found eventId now => simp
      | other fault =>
        cases fault with
        | none => simp [Subscriber.throws]
        | some err => exact absurd hmem (hnone err)
  have hafter : ∀ T : Transport, ¬ Acknowledges T.afterThrow ∧ Acknowledges T.afterSuccess := by
    intro T
    cases T <;> simp [Acknowledges, Transport.afterThrow, Transport.afterSuccess]
  have hdispatch : T.consumes = true → dispatchMessage T (some envelope) (some snapshot) =
      if (snapshot.any fun handler => handler.throws envelope) then T.afterThrow
      else T.afterSuccess := by
    intro hconsumes
    obtain ⟨handler, rest, rfl⟩ := List.exists_cons_of_ne_nil hne
    rw [← Bool.false_or (List.any _ _), ← handlerThrew_eq]
    cases T with
    | sqs decodeFail dlqQueueUrl => rfl
    | amqp decodeFail requeue => rfl
    | jetstream consuming =>
      obtain rfl : consuming = true := hconsumes
      rfl
  cases hconsumes : T.consumes with
  | false =>
    cases T with
    | sqs | amqp => cases hconsumes
    | jetstream consuming =>
      obtain rfl : consuming = false := hconsumes
      exact iff_of_false (by simp [Acknowledges, dispatchMessage]) fun h => nomatch h.1
  | true =>
    rw [hdispatch hconsumes, ← hthrew]
    cases snapshot.any fun handler => handler.throws envelope with
    | false => exact iff_of_true (hafter T).2 ⟨rfl, rfl⟩
    | true => exact iff_of_false (hafter T).1 fun h => nomatch h.2

/-- **At least once.**  A message is acknowledged only when each inbox has handled it, exactly where
no inbox of its topic lets its envelope through to a bus or a hook that throws, or another handler
throws, or the loop has stopped. -/
theorem noneLost_iff (T : Transport) (envelope : AgentRpcEnvelope Json)
    (handlers : Option (List (Subscriber π))) :
    NoneLost T envelope handlers ↔
      ∀ snapshot, handlers = some snapshot → T.consumes = true →
        (∃ err, .other (some err) ∈ snapshot) ∨
        ∀ opts F found eventId now, .inbox opts F found eventId now ∈ snapshot →
          ¬ Faulty opts F envelope := by
  constructor
  · rintro hnone snapshot rfl hconsumes
    by_contra hnot
    obtain ⟨hother, hfaulty⟩ := not_or.mp hnot
    refine hfaulty fun opts F found eventId now hmem h => ?_
    refine hnone.retried snapshot rfl opts F found eventId now hmem (fails_iff.mpr h) ?_
    exact (acknowledges_iff T (List.ne_nil_of_mem hmem)).mpr
      ⟨hconsumes, fun err he => hother ⟨err, he⟩⟩
  · intro h
    have hhandled : Acknowledges (dispatchMessage T (some envelope) handlers) →
        ∀ snapshot, handlers = some snapshot → ∀ opts F found eventId now,
          .inbox opts F found eventId now ∈ snapshot → ¬ Faulty opts F envelope := by
      rintro hack snapshot rfl opts F found eventId now hmem
      obtain ⟨hconsumes, hquiet⟩ := (acknowledges_iff T (List.ne_nil_of_mem hmem)).mp hack
      rcases h snapshot rfl hconsumes with ⟨err, herr⟩ | hfine
      · exact absurd herr (hquiet err)
      · exact hfine opts F found eventId now hmem
    refine ⟨fun snapshot hs opts F found eventId now hmem hfails hack => ?_,
      fun hack hkind snapshot hs opts F found eventId now hmem => ?_⟩
    · exact hhandled hack snapshot hs opts F found eventId now hmem (fails_iff.mp hfails)
    · exact accounted_of_not_faulty hkind (hhandled hack snapshot hs opts F found eventId now hmem)

/-- SQS deletes the message of a request whose hook has thrown. -/
theorem failed_request_deleted :
    dispatchMessage (.sqs .delete none) (some (summarizeRequest none))
        (some [.inbox { onRequest := true } { onRequest := some "llm unavailable" }
          ({} : AgentInbox Nat) "e1" 0]) = [.deleteMessage] ∧
      ¬ NoneLost (.sqs .delete none) (summarizeRequest none)
        (some [.inbox { onRequest := true } { onRequest := some "llm unavailable" }
          ({} : AgentInbox Nat) "e1" 0]) := by
  have hdeleted : dispatchMessage (.sqs .delete none) (some (summarizeRequest none))
      (some [.inbox { onRequest := true } { onRequest := some "llm unavailable" }
        ({} : AgentInbox Nat) "e1" 0]) = [.deleteMessage] := rfl
  have hfaulty : Faulty { onRequest := true } { onRequest := some "llm unavailable" }
      (summarizeRequest none) :=
    ⟨rfl, trivial, nofun⟩
  refine ⟨hdeleted, fun h => ?_⟩
  refine h.retried _ rfl _ _ _ _ _ (List.mem_singleton_self _) (fails_iff.mpr hfaulty) (Or.inr ?_)
  rw [hdeleted]
  exact List.mem_singleton_self _

end

end Declaragent.Rpc.AtLeastOnce
