import Declaragent.Channels.ChatEvents
import Declaragent.Rpc.Signing
import Declaragent.Sources.BaseSource

/-!
# Channels — the way in

What the adapters do with the updates of their platforms: the webhooks of Slack, Telegram and
WhatsApp, and the long polling of Telegram.  A webhook is answered, and the loop moves its offset;
either tells the platform whether to deliver the update again.

The bus, the hook on what was published and the store of the conversation windows are parameters
that may throw; what they answer may depend on everything that was published so far.

* `ingest_exec`: a failed publish is swallowed.
* `ingestAll_exec`, `runBatch_exec`: a batch is published one by one, whatever fails.
* `atLeastOnce_iff`: when the platform is left to deliver again what could not be published.
-/

namespace Declaragent.Channels
open Events JsonText Rpc
open Declaragent.Sources (Handler exec_bind exec_tryCatch)

/-! ### Publishing -/

structure Attempt where
  event : AgentEvent
  result : Except String Unit

/-- The own state of an instance, and what it published so far. -/
structure Inbound (σ : Type) where
  own : σ
  attempts : List Attempt

/-- What an instance works with. -/
structure ChannelDependencies where
  /-- `bus.publish`. -/
  publish : List Attempt → AgentEvent → Except String Unit
  onInbound : List Attempt → ParsedUpdate → Except String Unit := fun _ _ => .ok ()
  /-- `windowTracker.recordInbound`. -/
  recordInbound : ParsedUpdate → Except String Unit := fun _ => .ok ()
  tenant : Option TenantContext := none

section
variable {σ : Type} (deps : ChannelDependencies)

/-- The attempt to publish an event after others. -/
def attempt (attempts : List Attempt) (event : AgentEvent) : Attempt :=
  let stamped := stampTenantId event deps.tenant
  ⟨stamped, deps.publish attempts stamped⟩

def publishInbound (event : AgentEvent) : Handler (Inbound σ) Unit := fun w =>
  let result := attempt deps w.attempts event
  (result.result, { w with attempts := w.attempts ++ [result] })

/-- `onInbound?.(parsed)`. -/
def onInbound (parsed : ParsedUpdate) : Handler (Inbound σ) Unit := fun w =>
  (deps.onInbound w.attempts parsed, w)

/-- `try { await publishInbound(…); onInbound?.(…) } catch { log }`. -/
def ingest (parsed : ParsedUpdate) : Handler (Inbound σ) Unit :=
  tryCatch (do publishInbound deps parsed.event; onInbound deps parsed) fun _ => pure ()

/-- The attempts to publish some events, one after the other. -/
def publishAll (attempts : List Attempt) : List AgentEvent → List Attempt
  | [] => attempts
  | event :: events => publishAll (attempts ++ [attempt deps attempts event]) events

/-- The bus accepts the events, one after the other. -/
def Accepts (attempts : List Attempt) : List AgentEvent → Prop
  | [] => True
  | event :: events =>
    (attempt deps attempts event).result = .ok () ∧
      Accepts (attempts ++ [attempt deps attempts event]) events

end

/-! ### Requests -/

/-- A request; `body` is its decoded text. -/
structure WebhookRequest where
  method : String := "POST"
  headers : String → Option String
  body : String

structure WebhookResponse where
  status : Nat
  body : String
  deriving DecidableEq

/-- The request is answered as an error, or not answered at all. -/
def AnsweredWithError : Except String WebhookResponse → Prop
  | .error _ => True
  | .ok response => 400 ≤ response.status

instance : ∀ r, Decidable (AnsweredWithError r)
  | .error _ => .isTrue trivial
  | .ok response => inferInstanceAs (Decidable (400 ≤ response.status))

/-- `Number.parseInt(text, 10)`. -/
def parseInt10 (text : String) : Option Int :=
  let digitsOf (cs : List Char) : Option Nat :=
    match cs.takeWhile Char.isDigit with
    | [] => none
    | digits => some (Nat.ofDigitChars 10 digits 0)
  match text.toList.dropWhile Numeral.isWhite with
  | '-' :: rest => (digitsOf rest).map fun n => -(n : Int)
  | '+' :: rest => (digitsOf rest).map (↑)
  | rest => (digitsOf rest).map (↑)

/-! ### Slack -/

namespace Slack

inductive ThreadOnMentionPolicy where
  | always | never | auto
  deriving DecidableEq

structure Config where
  /-- `transport.mode` is `events`. -/
  eventsMode : Bool
  signingSecret : Option String
  threadOnMention : Option ThreadOnMentionPolicy := none
  options : ParseOptions

def SLACK_TIMESTAMP_WINDOW_SEC : Int := 60 * 5

/-- `threadHints`: the thread that was last seen, for each conversation. -/
abbrev ThreadHints := String → Option String

def threadHintKey (conv : ConversationRef) : String := conv.channelId ++ ":" ++ conv.conversationId

def resolveThreadReplyTarget (hint : ThreadHint) (policy : ThreadOnMentionPolicy) :
    Option String :=
  if !hint.isMention then hint.threadTs
  else
    match policy with
    | .always => some (hint.threadTs.getD hint.parentTs)
    | .never => none
    | .auto => hint.threadTs

/-- Remember the thread for a later `doSend`. -/
def rememberThread (config : Config) (parsed : ParsedUpdate) (hints : ThreadHints) : ThreadHints :=
  match parsed.threadHint with
  | none => hints
  | some hint =>
    Function.update hints (threadHintKey parsed.conversation)
      (resolveThreadReplyTarget hint (config.threadOnMention.getD .auto))

/-- What a webhook knows: the keyed hash, the clock in seconds, and `JSON.parse` of a body. -/
structure Env where
  hmac : String → String → List UInt8
  nowSec : Int
  decode : String → Option Payload
  parse : ParseEnv

/-- The answer to a request that is not dispatched, or the payload of the one that is. -/
def authenticate (E : Env) (config : Config) (req : WebhookRequest) :
    Except WebhookResponse Payload :=
  if !config.eventsMode then .error ⟨405, "webhook mode not enabled"⟩
  else
    match E.decode req.body with
    | none => .error ⟨400, "invalid JSON"⟩
    | some (.urlVerification challenge) => .error ⟨200, challenge⟩
    | some payload =>
      match config.signingSecret with
      | none | some "" => .error ⟨500, "signingSecret missing"⟩
      | some signingSecret =>
        match req.headers "x-slack-request-timestamp", req.headers "x-slack-signature" with
        | some ts, some sig =>
          match parseInt10 ts with
          | none => .error ⟨401, "stale timestamp"⟩
          | some tsNum =>
            if SLACK_TIMESTAMP_WINDOW_SEC < |E.nowSec - tsNum| then
              .error ⟨401, "stale timestamp"⟩
            else if timingSafeEqual sig
                ("v0=" ++ hmacSha256Hex E.hmac signingSecret
                  ("v0:" ++ ts ++ ":" ++ req.body)) then
              .ok payload
            else .error ⟨401, "invalid signature"⟩
        | _, _ => .error ⟨401, "missing signature headers"⟩

def dispatchParsedPayload (deps : ChannelDependencies) (E : Env) (config : Config)
    (payload : Payload) : Handler (Inbound ThreadHints) Unit :=
  match parseSlackEvent E.parse config.options payload with
  | none => pure ()
  | some parsed => do
      modify fun w => { w with own := rememberThread config parsed w.own }
      ingest deps parsed

def handleWebhook (deps : ChannelDependencies) (E : Env) (config : Config) (req : WebhookRequest) :
    Handler (Inbound ThreadHints) WebhookResponse :=
  match authenticate E config req with
  | .error response => pure response
  | .ok payload => do
      dispatchParsedPayload deps E config payload
      pure ⟨200, ""⟩

end Slack

/-! ### Telegram -/

namespace Telegram

structure Config where
  /-- `transport.mode` is `webhook`. -/
  webhookMode : Bool
  webhookSecret : Option String
  options : ParseOptions

structure Env where
  /-- `JSON.parse` of a body. -/
  decode : String → Option Update
  parse : ParseEnv

/-- The state is `lastUpdateId`; the answer to a callback query is not awaited for. -/
def ingestUpdate (deps : ChannelDependencies) (parse : ParseEnv) (options : ParseOptions)
    (update : Update) : Handler (Inbound Nat) Unit :=
  match parseUpdate parse options update with
  | none => pure ()
  | some parsed => ingest deps parsed

/-- `lastUpdateId = Math.max(lastUpdateId, update.update_id)`. -/
def advance (update : Update) : Handler (Inbound Nat) Unit :=
  modify fun w => { w with own := max w.own update.updateId }

/-- The answer to a request that is not ingested, or the update of the one that is. -/
def authenticate (E : Env) (config : Config) (req : WebhookRequest) :
    Except WebhookResponse Update :=
  if !config.webhookMode then .error ⟨405, "webhook mode not enabled"⟩
  else
    match config.webhookSecret with
    | none | some "" => .error ⟨401, "invalid secret"⟩
    | some expectedSecret =>
      if req.headers "x-telegram-bot-api-secret-token" ≠ some expectedSecret then
        .error ⟨401, "invalid secret"⟩
      else
        match E.decode req.body with
        | none => .error ⟨400, "invalid JSON"⟩
        | some update => .ok update

def handleWebhook (deps : ChannelDependencies) (E : Env) (config : Config) (req : WebhookRequest) :
    Handler (Inbound Nat) WebhookResponse :=
  match authenticate E config req with
  | .error response => pure response
  | .ok update => do
      advance update
      ingestUpdate deps E.parse config.options update
      pure ⟨200, ""⟩

/-- An update of a batch, with the value of `signal.aborted` when its turn comes. -/
structure Polled where
  update : Update
  aborted : Bool := false
  parse : ParseEnv

/-- The updates of one `getUpdates`, as `runLongPoll` ingests them. -/
def runBatch (deps : ChannelDependencies) (options : ParseOptions) :
    List Polled → Handler (Inbound Nat) Unit
  | [] => pure ()
  | polled :: rest =>
    if polled.aborted then pure ()
    else do
      advance polled.update
      ingestUpdate deps polled.parse options polled.update
      runBatch deps options rest

/-- The `offset` of the next `getUpdates`: the platform delivers no update before it again. -/
def offset (lastUpdateId : Nat) : Nat := lastUpdateId + 1

end Telegram

/-! ### WhatsApp -/

namespace WhatsApp

structure Config where
  webhookVerifyToken : String
  webhookAppSecret : String
  options : ParseOptions

structure Env where
  hmac : String → String → List UInt8
  /-- `JSON.parse` of a body. -/
  decode : String → Option WebhookBody
  parse : Nat → ParseEnv

def lowerCase (text : String) : String := String.ofList (text.toList.map Char.toLower)

def upperCase (text : String) : String := String.ofList (text.toList.map Char.toUpper)

/-- The handshake of a `GET`. -/
def verify (config : Config) (req : WebhookRequest) : WebhookResponse :=
  let mode := (req.headers "hub.mode").or (req.headers "x-hub-mode")
  let token := (req.headers "hub.verify_token").or (req.headers "x-hub-verify-token")
  let challenge := ((req.headers "hub.challenge").or (req.headers "x-hub-challenge")).getD ""
  if mode ≠ some "subscribe" then ⟨400, "invalid hub mode"⟩
  else
    match token with
    | none => ⟨403, "bad verify token"⟩
    | some token =>
      if timingSafeEqual token config.webhookVerifyToken then ⟨200, challenge⟩
      else ⟨403, "bad verify token"⟩

/-- The answer to a request that is not published, or the body of the one that is. -/
def authenticate (E : Env) (config : Config) (req : WebhookRequest) :
    Except WebhookResponse WebhookBody :=
  if upperCase req.method = "GET" then .error (verify config req)
  else if upperCase req.method ≠ "POST" then .error ⟨405, "method not allowed"⟩
  else
    match (req.headers "x-hub-signature-256").or (req.headers "X-Hub-Signature-256") with
    | none => .error ⟨401, "missing signature"⟩
    | some signatureHeader =>
      if signatureHeader.toList.take 7 ≠ "sha256=".toList then .error ⟨401, "missing signature"⟩
      else
        let presentedHex := lowerCase (String.ofList (signatureHeader.toList.drop 7))
        let expectedHex := lowerCase (hmacSha256Hex E.hmac config.webhookAppSecret req.body)
        if !timingSafeEqual presentedHex expectedHex then .error ⟨401, "bad signature"⟩
        else
          match E.decode req.body with
          | none => .error ⟨400, "invalid JSON"⟩
          | some body => .ok body

def recordInbound (deps : ChannelDependencies) (parsed : ParsedUpdate) :
    Handler (Inbound Unit) Unit := fun w => (deps.recordInbound parsed, w)

/-- One message of a body: its window is recorded before it is published. -/
def ingestMessage (deps : ChannelDependencies) (parsed : ParsedUpdate) :
    Handler (Inbound Unit) Unit :=
  tryCatch
    (do
      recordInbound deps parsed
      publishInbound deps parsed.event
      onInbound deps parsed)
    fun _ => pure ()

def ingestAll (deps : ChannelDependencies) : List ParsedUpdate → Handler (Inbound Unit) Unit
  | [] => pure ()
  | parsed :: rest => do
      ingestMessage deps parsed
      ingestAll deps rest

def handleWebhook (deps : ChannelDependencies) (E : Env) (config : Config) (req : WebhookRequest) :
    Handler (Inbound Unit) WebhookResponse :=
  match authenticate E config req with
  | .error response => pure response
  | .ok body => do
      ingestAll deps (parseWhatsAppWebhook E.parse config.options body)
      pure ⟨200, ""⟩

end WhatsApp

/-! ### What is published -/

section
variable {σ : Type} (deps : ChannelDependencies)

theorem exec_pure {α : Type} (a : α) (w : Inbound σ) :
    Handler.exec (pure a) w = (.ok a, w) := rfl

theorem exec_modify (f : Inbound σ → Inbound σ) (w : Inbound σ) :
    Handler.exec (modify f) w = (.ok (), f w) := rfl

theorem publishInbound_exec (event : AgentEvent) (w : Inbound σ) :
    Handler.exec (publishInbound deps event) w =
      ((attempt deps w.attempts event).result,
        { w with attempts := w.attempts ++ [attempt deps w.attempts event] }) := rfl

/-- A hook that throws throws the error away with it. -/
theorem tryCatch_onInbound_exec (event : AgentEvent) (parsed : ParsedUpdate) (w : Inbound σ) :
    Handler.exec (tryCatch (do publishInbound deps event; onInbound deps parsed)
      fun _ => pure ()) w =
      (.ok (), { w with attempts := w.attempts ++ [attempt deps w.attempts event] }) := by
  rw [exec_tryCatch, exec_bind, publishInbound_exec]
  cases (attempt deps w.attempts event).result with
  | error err => rfl
  | ok u =>
    unfold onInbound Handler.exec
    dsimp only
    cases deps.onInbound (w.attempts ++ [attempt deps w.attempts event]) parsed <;> rfl

/-- A failed publish is swallowed. -/
theorem ingest_exec (parsed : ParsedUpdate) (w : Inbound σ) :
    Handler.exec (ingest deps parsed) w =
      (.ok (), { w with attempts := publishAll deps w.attempts [parsed.event] }) :=
  tryCatch_onInbound_exec deps parsed.event parsed w

theorem publishAll_append (attempts : List Attempt) (es es' : List AgentEvent) :
    publishAll deps attempts (es ++ es') = publishAll deps (publishAll deps attempts es) es' := by
  induction es generalizing attempts with
  | nil => rfl
  | cons event es ih => exact ih _

/-- The attempts are those of the events. -/
theorem of_mem_publishAll {attempts : List Attempt} {es : List AgentEvent} {a : Attempt}
    (h : a ∈ publishAll deps attempts es) :
    a ∈ attempts ∨ ∃ event ∈ es, a.event = stampTenantId event deps.tenant := by
  induction es generalizing attempts with
  | nil => exact Or.inl h
  | cons event es ih =>
    rcases ih h with h | ⟨event', hevent', ha⟩
    · rcases List.mem_append.mp h with h | h
      · exact Or.inl h
      · obtain rfl := List.mem_singleton.mp h
        exact Or.inr ⟨event, List.mem_cons_self, rfl⟩
    · exact Or.inr ⟨event', List.mem_cons_of_mem _ hevent', ha⟩

theorem forall_publishAll_iff (attempts : List Attempt) (es : List AgentEvent) :
    (∀ a ∈ publishAll deps attempts es, a.result = .ok ()) ↔
      (∀ a ∈ attempts, a.result = .ok ()) ∧ Accepts deps attempts es := by
  induction es generalizing attempts with
  | nil => simp [publishAll, Accepts]
  | cons event es ih =>
    unfold publishAll Accepts
    rw [ih, List.forall_mem_append, List.forall_mem_singleton, and_assoc]

/-- The bus accepts the events when no attempt to publish them fails. -/
theorem accepts_iff (es : List AgentEvent) :
    Accepts deps [] es ↔ ∀ a ∈ publishAll deps [] es, a.result = .ok () := by
  rw [forall_publishAll_iff]
  exact ⟨fun h => ⟨List.forall_mem_nil _, h⟩, fun h => h.2⟩

@[simp] theorem source_stampTenantId (event : AgentEvent) (tenant : Option TenantContext) :
    (stampTenantId event tenant).source = event.source := by
  unfold stampTenantId
  split
  · rfl
  · split <;> rfl

end

/-! ### What becomes of an update -/

section
variable (deps : ChannelDependencies)

theorem Slack.dispatchParsedPayload_exec (E : Slack.Env) (config : Slack.Config)
    (payload : Slack.Payload) (w : Inbound Slack.ThreadHints) :
    Handler.exec (Slack.dispatchParsedPayload deps E config payload) w =
      match Slack.parseSlackEvent E.parse config.options payload with
      | none => (.ok (), w)
      | some parsed => (.ok (), ⟨Slack.rememberThread config parsed w.own,
          publishAll deps w.attempts [parsed.event]⟩) := by
  unfold Slack.dispatchParsedPayload
  cases Slack.parseSlackEvent E.parse config.options payload with
  | none => rfl
  | some parsed =>
    rw [exec_bind, exec_modify]
    dsimp only
    rw [ingest_exec]

theorem Telegram.ingestUpdate_exec (parse : ParseEnv) (options : ParseOptions)
    (update : Telegram.Update) (w : Inbound Nat) :
    Handler.exec (Telegram.ingestUpdate deps parse options update) w =
      (.ok (), ⟨w.own, publishAll deps w.attempts
        ((Telegram.parseUpdate parse options update).map (·.event)).toList⟩) := by
  unfold Telegram.ingestUpdate
  cases Telegram.parseUpdate parse options update with
  | none => rfl
  | some parsed => exact ingest_exec deps parsed w

/-- The updates of a batch that are looked at. -/
def Telegram.taken (batch : List Telegram.Polled) : List Telegram.Polled :=
  batch.takeWhile fun polled => !polled.aborted

/-- The events of a batch, in the order in which they are published. -/
def Telegram.eventsOf (options : ParseOptions) (batch : List Telegram.Polled) : List AgentEvent :=
  (Telegram.taken batch).flatMap fun polled =>
    ((Telegram.parseUpdate polled.parse options polled.update).map (·.event)).toList

def Telegram.lastUpdateId (last : Nat) (batch : List Telegram.Polled) : Nat :=
  (Telegram.taken batch).foldl (fun last polled => max last polled.update.updateId) last

/-- A batch is published one by one, whatever fails, and the offset is moved for each update. -/
theorem Telegram.runBatch_exec (options : ParseOptions) (batch : List Telegram.Polled)
    (w : Inbound Nat) :
    Handler.exec (Telegram.runBatch deps options batch) w =
      (.ok (), ⟨Telegram.lastUpdateId w.own batch,
        publishAll deps w.attempts (Telegram.eventsOf options batch)⟩) := by
  induction batch generalizing w with
  | nil => rfl
  | cons polled rest ih =>
    unfold runBatch eventsOf lastUpdateId taken
    rw [List.takeWhile_cons]
    cases polled.aborted with
    | true => rfl
    | false =>
      rw [if_neg Bool.false_ne_true, exec_bind, advance, exec_modify]
      dsimp only
      rw [exec_bind, ingestUpdate_exec]
      dsimp only
      rw [ih, if_pos Bool.not_false, List.flatMap_cons, publishAll_append, List.foldl_cons]
      rfl

/-- The events of a body that are published: those whose window could be recorded. -/
def WhatsApp.published (parsed : List ParsedUpdate) : List AgentEvent :=
  (parsed.filter fun p => (deps.recordInbound p).isOk).map (·.event)

theorem WhatsApp.ingestMessage_exec (parsed : ParsedUpdate) (w : Inbound Unit) :
    Handler.exec (WhatsApp.ingestMessage deps parsed) w =
      (.ok (), ⟨w.own, publishAll deps w.attempts (WhatsApp.published deps [parsed])⟩) := by
  have hrecord : Handler.exec (recordInbound deps parsed) w = (deps.recordInbound parsed, w) := rfl
  unfold ingestMessage published
  rw [exec_tryCatch, exec_bind, hrecord]
  cases hr : deps.recordInbound parsed with
  | error err => simp [hr, Except.isOk, Except.toBool, publishAll, exec_pure]
  | ok u =>
    have hrest := tryCatch_onInbound_exec deps parsed.event parsed w
    rw [exec_tryCatch] at hrest
    simpa [hr, Except.isOk, Except.toBool, publishAll] using hrest

theorem WhatsApp.ingestAll_exec (parsed : List ParsedUpdate) (w : Inbound Unit) :
    Handler.exec (WhatsApp.ingestAll deps parsed) w =
      (.ok (), ⟨w.own, publishAll deps w.attempts (WhatsApp.published deps parsed)⟩) := by
  induction parsed generalizing w with
  | nil => rfl
  | cons first rest ih =>
    have happend : published deps (first :: rest) =
        published deps [first] ++ published deps rest := by
      unfold published
      rw [← List.map_append, ← List.filter_append]
      rfl
    unfold ingestAll
    rw [exec_bind, ingestMessage_exec]
    dsimp only
    rw [ih, happend, publishAll_append]

/-! ### What a webhook answers -/

variable {deps}

theorem Slack.handleWebhook_of_refused {E : Slack.Env} {config : Slack.Config}
    {req : WebhookRequest} {response : WebhookResponse}
    (h : Slack.authenticate E config req = .error response) (w : Inbound Slack.ThreadHints) :
    Handler.exec (Slack.handleWebhook deps E config req) w = (.ok response, w) := by
  unfold Slack.handleWebhook
  rw [h]
  rfl

/-- An authentic request is answered as taken, whatever becomes of it. -/
theorem Slack.handleWebhook_of_authentic {E : Slack.Env} {config : Slack.Config}
    {req : WebhookRequest} {payload : Slack.Payload}
    (h : Slack.authenticate E config req = .ok payload) (w : Inbound Slack.ThreadHints) :
    (Handler.exec (Slack.handleWebhook deps E config req) w).1 = .ok ⟨200, ""⟩ ∧
      (Handler.exec (Slack.handleWebhook deps E config req) w).2.attempts =
        publishAll deps w.attempts
          ((Slack.parseSlackEvent E.parse config.options payload).map (·.event)).toList := by
  unfold Slack.handleWebhook
  rw [h]
  dsimp only
  rw [exec_bind, Slack.dispatchParsedPayload_exec]
  cases Slack.parseSlackEvent E.parse config.options payload <;> exact ⟨rfl, rfl⟩

theorem Telegram.handleWebhook_of_refused {E : Telegram.Env} {config : Telegram.Config}
    {req : WebhookRequest} {response : WebhookResponse}
    (h : Telegram.authenticate E config req = .error response) (w : Inbound Nat) :
    Handler.exec (Telegram.handleWebhook deps E config req) w = (.ok response, w) := by
  unfold Telegram.handleWebhook
  rw [h]
  rfl

theorem Telegram.handleWebhook_of_authentic {E : Telegram.Env} {config : Telegram.Config}
    {req : WebhookRequest} {update : Telegram.Update}
    (h : Telegram.authenticate E config req = .ok update) (w : Inbound Nat) :
    (Handler.exec (Telegram.handleWebhook deps E config req) w).1 = .ok ⟨200, ""⟩ ∧
      (Handler.exec (Telegram.handleWebhook deps E config req) w).2.attempts =
        publishAll deps w.attempts
          ((Telegram.parseUpdate E.parse config.options update).map (·.event)).toList := by
  unfold Telegram.handleWebhook
  rw [h]
  dsimp only
  rw [exec_bind, Telegram.advance, exec_modify]
  dsimp only
  rw [exec_bind, Telegram.ingestUpdate_exec]
  exact ⟨rfl, rfl⟩

theorem WhatsApp.handleWebhook_of_refused {E : WhatsApp.Env} {config : WhatsApp.Config}
    {req : WebhookRequest} {response : WebhookResponse}
    (h : WhatsApp.authenticate E config req = .error response) (w : Inbound Unit) :
    Handler.exec (WhatsApp.handleWebhook deps E config req) w = (.ok response, w) := by
  unfold WhatsApp.handleWebhook
  rw [h]
  rfl

theorem WhatsApp.handleWebhook_of_authentic {E : WhatsApp.Env} {config : WhatsApp.Config}
    {req : WebhookRequest} {body : WhatsApp.WebhookBody}
    (h : WhatsApp.authenticate E config req = .ok body) (w : Inbound Unit) :
    (Handler.exec (WhatsApp.handleWebhook deps E config req) w).1 = .ok ⟨200, ""⟩ ∧
      (Handler.exec (WhatsApp.handleWebhook deps E config req) w).2.attempts =
        publishAll deps w.attempts (WhatsApp.published deps
          (WhatsApp.parseWhatsAppWebhook E.parse config.options body)) := by
  unfold WhatsApp.handleWebhook
  rw [h]
  dsimp only
  rw [exec_bind, WhatsApp.ingestAll_exec]
  exact ⟨rfl, rfl⟩

/-! ### At least once -/

/-- What a platform delivers, with the instance that takes it. -/
inductive Delivery where
  | slack (E : Slack.Env) (config : Slack.Config) (hints : Slack.ThreadHints)
      (req : WebhookRequest)
  | telegram (E : Telegram.Env) (config : Telegram.Config) (last : Nat) (req : WebhookRequest)
  | polled (options : ParseOptions) (last : Nat) (batch : List Telegram.Polled)
  | whatsapp (E : WhatsApp.Env) (config : WhatsApp.Config) (req : WebhookRequest)

namespace Delivery

variable (deps)

/-- The events it is parsed to, as far as they are published. -/
def events : Delivery → List AgentEvent
  | .slack E config _ req =>
    match Slack.authenticate E config req with
    | .error _ => []
    | .ok payload =>
      ((Slack.parseSlackEvent E.parse config.options payload).map (·.event)).toList
  | .telegram E config _ req =>
    match Telegram.authenticate E config req with
    | .error _ => []
    | .ok update => ((Telegram.parseUpdate E.parse config.options update).map (·.event)).toList
  | .polled options _ batch => Telegram.eventsOf options batch
  | .whatsapp E config req =>
    match WhatsApp.authenticate E config req with
    | .error _ => []
    | .ok body =>
      WhatsApp.published deps (WhatsApp.parseWhatsAppWebhook E.parse config.options body)

/-- What the instance publishes of it. -/
def attempts : Delivery → List Attempt
  | .slack E config hints req =>
    (Handler.exec (Slack.handleWebhook deps E config req) ⟨hints, []⟩).2.attempts
  | .telegram E config last req =>
    (Handler.exec (Telegram.handleWebhook deps E config req) ⟨last, []⟩).2.attempts
  | .polled options last batch =>
    (Handler.exec (Telegram.runBatch deps options batch) ⟨last, []⟩).2.attempts
  | .whatsapp E config req =>
    (Handler.exec (WhatsApp.handleWebhook deps E config req) ⟨(), []⟩).2.attempts

/-- The platform is left to deliver the update of the event again: the webhook answers with an
error, or the offset has not passed the update. -/
def LeftToPlatform : Delivery → AgentEvent → Prop
  | .slack E config hints req, _ =>
    AnsweredWithError (Handler.exec (Slack.handleWebhook deps E config req) ⟨hints, []⟩).1
  | .telegram E config last req, _ =>
    AnsweredWithError (Handler.exec (Telegram.handleWebhook deps E config req) ⟨last, []⟩).1
  | .polled options last batch, event =>
    ∃ channelId chatId updateId, event.source = .telegram channelId chatId updateId ∧
      Telegram.offset (Handler.exec (Telegram.runBatch deps options batch) ⟨last, []⟩).2.own ≤
        updateId
  | .whatsapp E config req, _ =>
    AnsweredWithError (Handler.exec (WhatsApp.handleWebhook deps E config req) ⟨(), []⟩).1

/-- Every event that could not be published is left to the platform. -/
def AtLeastOnce (D : Delivery) : Prop :=
  ∀ a ∈ D.attempts deps, a.result ≠ .ok () → D.LeftToPlatform deps a.event

variable {deps} {D : Delivery}

theorem attempts_eq (D : Delivery) : D.attempts deps = publishAll deps [] (D.events deps) := by
  cases D with
  | slack E config hints req =>
    simp only [attempts, events]
    cases h : Slack.authenticate E config req with
    | error response => rw [Slack.handleWebhook_of_refused h]; rfl
    | ok payload => exact (Slack.handleWebhook_of_authentic h _).2
  | telegram E config last req =>
    simp only [attempts, events]
    cases h : Telegram.authenticate E config req with
    | error response => rw [Telegram.handleWebhook_of_refused h]; rfl
    | ok update => exact (Telegram.handleWebhook_of_authentic h _).2
  | polled options last batch =>
    simp only [attempts, events]
    rw [Telegram.runBatch_exec]
  | whatsapp E config req =>
    simp only [attempts, events]
    cases h : WhatsApp.authenticate E config req with
    | error response => rw [WhatsApp.handleWebhook_of_refused h]; rfl
    | ok body => exact (WhatsApp.handleWebhook_of_authentic h _).2

/-- An update that was looked at is behind the offset. -/
theorem updateId_le_lastUpdateId (last : Nat) {batch : List Telegram.Polled}
    {polled : Telegram.Polled} (h : polled ∈ Telegram.taken batch) :
    polled.update.updateId ≤ Telegram.lastUpdateId last batch := by
  have hfold : ∀ (ps : List Telegram.Polled) (last : Nat),
      last ≤ ps.foldl (fun last p => max last p.update.updateId) last ∧
        ∀ p ∈ ps, p.update.updateId ≤ ps.foldl (fun last p => max last p.update.updateId) last := by
    intro ps
    induction ps with
    | nil => intro last; exact ⟨le_rfl, List.forall_mem_nil _⟩
    | cons first rest ih =>
      intro last
      obtain ⟨hlast, hrest⟩ := ih (max last first.update.updateId)
      rw [List.foldl_cons]
      exact ⟨le_trans (le_max_left _ _) hlast,
        List.forall_mem_cons.mpr ⟨le_trans (le_max_right _ _) hlast, hrest⟩⟩
  exact (hfold _ last).2 polled h

/-- The event of an update carries its number. -/
theorem source_of_parseUpdate {parse : ParseEnv} {options : ParseOptions}
    {update : Telegram.Update} {parsed : ParsedUpdate}
    (h : Telegram.parseUpdate parse options update = some parsed) :
    ∃ channelId chatId, parsed.event.source = .telegram channelId chatId update.updateId := by
  have hmessage : ∀ {msg isEdit}, Telegram.parseMessage parse options update msg isEdit =
      some parsed →
      ∃ channelId chatId, parsed.event.source = .telegram channelId chatId update.updateId := by
    intro msg isEdit h
    unfold Telegram.parseMessage at h
    split at h
    · cases h
    · cases h
      exact ⟨_, _, rfl⟩
  unfold Telegram.parseUpdate at h
  split at h
  · exact hmessage h
  · exact hmessage h
  · unfold Telegram.parseCallback at h
    split at h
    · cases h
    · cases h
      exact ⟨_, _, rfl⟩
  · cases h

/-- Nothing that was published is left to the platform. -/
theorem not_leftToPlatform {a : Attempt} (ha : a ∈ D.attempts deps) :
    ¬ D.LeftToPlatform deps a.event := by
  rw [attempts_eq] at ha
  obtain h | ⟨event, hevent, ha⟩ := of_mem_publishAll deps ha
  · cases h
  cases D with
  | slack E config hints req =>
    simp only [events, LeftToPlatform] at hevent ⊢
    cases h : Slack.authenticate E config req with
    | error response => rw [h] at hevent; cases hevent
    | ok payload =>
      rw [(Slack.handleWebhook_of_authentic h _).1]
      decide
  | telegram E config last req =>
    simp only [events, LeftToPlatform] at hevent ⊢
    cases h : Telegram.authenticate E config req with
    | error response => rw [h] at hevent; cases hevent
    | ok update =>
      rw [(Telegram.handleWebhook_of_authentic h _).1]
      decide
  | whatsapp E config req =>
    simp only [events, LeftToPlatform] at hevent ⊢
    cases h : WhatsApp.authenticate E config req with
    | error response => rw [h] at hevent; cases hevent
    | ok body =>
      rw [(WhatsApp.handleWebhook_of_authentic h _).1]
      decide
  | polled options last batch =>
    obtain ⟨polled, hpolled, hevent⟩ := List.mem_flatMap.mp hevent
    rw [Option.mem_toList, Option.map_eq_some_iff] at hevent
    obtain ⟨parsed, hparsed, rfl⟩ := hevent
    obtain ⟨channelId, chatId, hsource⟩ := source_of_parseUpdate hparsed
    rintro ⟨channelId', chatId', updateId, hsource', hoffset⟩
    rw [ha, source_stampTenantId, hsource] at hsource'
    cases hsource'
    rw [Telegram.runBatch_exec] at hoffset
    exact absurd hoffset (Nat.not_le.mpr
      (Nat.lt_succ_of_le (updateId_le_lastUpdateId last hpolled)))

/-- **The platform is left to deliver an update again exactly when there is nothing to deliver
again**: when the bus accepts each of its events. -/
theorem atLeastOnce_iff (deps : ChannelDependencies) (D : Delivery) :
    D.AtLeastOnce deps ↔ Accepts deps [] (D.events deps) := by
  rw [accepts_iff, ← attempts_eq]
  constructor
  · intro h a ha
    by_contra hfailed
    exact not_leftToPlatform ha (h a ha hfailed)
  · intro h a ha hfailed
    exact absurd (h a ha) hfailed

/-- A bus that is full. -/
def fullBus : ChannelDependencies where
  publish _ _ := .error "queue full"

/-- A private message, number 7. -/
def greeting : Telegram.Update where
  updateId := 7
  message := some
    { messageId := 1
      date := 0
      chatId := 5
      chatType := "private"
      text := some "hi"
      raw := .null }

/-- The polled update is lost: its publish fails, and the next poll starts after it. -/
theorem update_lost :
    ¬ ∀ (deps : ChannelDependencies) (D : Delivery), D.AtLeastOnce deps := by
  intro h
  let parse : ParseEnv := ⟨"e1", 0, fun _ => none, fun _ => none⟩
  let batch : List Telegram.Polled := [{ update := greeting, parse := parse }]
  obtain ⟨channelId, chatId, updateId, hsource, hoffset⟩ :=
    h fullBus (.polled ⟨"telegram-main", none⟩ 0 batch) _ (List.mem_singleton.mpr rfl) nofun
  cases hsource
  exact absurd hoffset (by decide)

end Delivery

end

end Declaragent.Channels
