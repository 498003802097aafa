import Declaragent.Library.Json

/-!
# Events — the event contract

The event that travels from a source through the bus to the dispatcher, and the outcome the
dispatcher gives it.  Texts and optional fields are the source's; a payload, an agent spec and
the inputs of a skill are JSON values that nothing here looks into.
-/

namespace Declaragent.Events
open JsonText

inductive EventKind where
  | userInput | triggerFire | webhookReceived | fileChanged | mcpNotification | mailboxMessage
  | selfWakeup | selfRetry | chatMessage | chatMention | chatDm | chatVoice | chatFile
  | channelInteraction | channelCommand | channelReaction | channelPresence
  | channelSendRequest | channelSendDelivered | channelSendFailed | assistantMessage
  | assistantFinal | turnStarted
  deriving DecidableEq

/-- Where an event comes from. -/
inductive EventSourceTag where
  | user (sessionId : String)
  | cron (triggerId schedule : String)
  | webhook (triggerId : String) (remoteAddr : Option String)
  | fileWatch (path change : String)
  | mcpNotification (server method : String)
  | mailbox (fromAgent : String)
  | self (reason : String)
  | subAgent (parentSessionId childId : String)
  | engine (sessionId turnId : String)
  | kafka (triggerId topic : String) (partition : Nat) (offset : String)
  | sqs (triggerId queueUrl messageId : String) (messageGroupId : Option String)
  | mqtt (triggerId topic : String) (qos : Nat)
  | amqp (triggerId exchange routingKey queue : String) (deliveryTag : Nat)
  | nats (triggerId stream subject : String) (streamSequence : Nat)
  | telegram (channelId chatId : String) (updateId : Nat)
  | discord (channelId : String) (guildId : Option String) (channelDiscordId messageId : String)
  | slack (channelId teamId channelSlackId ts : String) (threadTs : Option String)
  | whatsapp (channelId phoneNumberId waId messageId : String)
  deriving DecidableEq

/-- `source.type`. -/
def EventSourceTag.type : EventSourceTag → String
  | .user .. => "user"
  | .cron .. => "cron"
  | .webhook .. => "webhook"
  | .fileWatch .. => "file-watch"
  | .mcpNotification .. => "mcp-notification"
  | .mailbox .. => "mailbox"
  | .self .. => "self"
  | .subAgent .. => "sub-agent"
  | .engine .. => "engine"
  | .kafka .. => "kafka"
  | .sqs .. => "sqs"
  | .mqtt .. => "mqtt"
  | .amqp .. => "amqp"
  | .nats .. => "nats"
  | .telegram .. => "telegram"
  | .discord .. => "discord"
  | .slack .. => "slack"
  | .whatsapp .. => "whatsapp"

/-- The trigger id, for the sources that carry one. -/
def getTriggerId : EventSourceTag → Option String
  | .cron t _ | .webhook t _ | .kafka t .. | .sqs t .. | .mqtt t .. | .amqp t .. | .nats t .. =>
    some t
  | _ => none

inductive SessionMode where
  | inject | replace | queue
  deriving DecidableEq

/-- What an event is for. -/
inductive EventTarget where
  | session (sessionId : String) (mode : SessionMode)
  | newSession (agentSpec : Option Json) (initialPrompt : String)
  | skill (name : String) (inputs : List (String × Json)) (sessionKey : Option String)
  | subAgent (parentSessionId : String) (spec : Json)
  | broadcast

inductive EventAuth where
  | localUser
  | trigger (triggerId : String)
  | bearer (tokenHash : String)
  | hmac (signatureHash : String)
  | internal

structure AgentEventMeta where
  correlationId : Option String := none
  causedBy : Option String := none
  idempotencyKey : Option String := none
  priority : Option Number := none
  tenantId : Option String := none
  /-- `principal.platformUserId`. -/
  platformUserId : Option String := none

structure AgentEvent where
  id : String
  source : EventSourceTag
  target : EventTarget
  kind : EventKind
  timestamp : Int
  payload : Json
  auth : EventAuth
  info : Option AgentEventMeta := none

/-- `event.meta?.causedBy`. -/
def AgentEvent.causedBy (event : AgentEvent) : Option String := event.info.bind (·.causedBy)

/-- `event.meta?.idempotencyKey`. -/
def AgentEvent.idempotencyKey (event : AgentEvent) : Option String :=
  event.info.bind (·.idempotencyKey)

inductive QueuedReason where
  | sessionBusy | sessionNotActive
  deriving DecidableEq

inductive RejectReason where
  | rateLimit | unauthorized | noHandler | loop | invalid | circuitOpen | interrupted
  deriving DecidableEq

/-- What the dispatcher did with an event. -/
inductive DispatchOutcome where
  | dispatched (sessionId : String)
  | broadcast
  | queued (reason : QueuedReason)
  | duplicate (firstSeenAt : Int) (eventId : String)
  | rejected (reason : RejectReason) (details : Option String)
  deriving DecidableEq

/-- The tenant a component is scoped to. -/
structure TenantContext where
  id : String

/-- Fill the tenant in where it is absent. -/
def stampTenantId (event : AgentEvent) (tenant : Option TenantContext) : AgentEvent :=
  match tenant with
  | none => event
  | some tenant =>
    if (event.info.bind (·.tenantId)).isSome then event
    else { event with info := some { event.info.getD {} with tenantId := some tenant.id } }

/-- `TenantBoundaryError`'s message for an event. -/
def tenantBoundaryMessage (sourceTenantId targetTenantId eventId : String) : String :=
  "tenant boundary violation: tenant " ++ sourceTenantId ++ " attempted to access event \"" ++
    eventId ++ "\" owned by tenant " ++ targetTenantId

/-- What a bus makes of an event that is published on it: an event of another tenant is refused,
and one without a tenant gets the scope of the bus.  An empty scope is none. -/
def enforceTenantScope (tenantScope : Option String) (event : AgentEvent) :
    Except String AgentEvent :=
  match tenantScope with
  | none | some "" => .ok event
  | some tenantScope =>
    match event.info.bind (·.tenantId) with
    | none =>
      .ok { event with info := some { event.info.getD {} with tenantId := some tenantScope } }
    | some eventTenantId =>
      if eventTenantId = tenantScope then .ok event
      else .error (tenantBoundaryMessage eventTenantId tenantScope event.id)

end Declaragent.Events
