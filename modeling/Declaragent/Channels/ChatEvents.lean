import Declaragent.Channels.SendIdempotency
import Declaragent.Events.Types
import Declaragent.Library.JsNumber

/-!
# Channels — the events of the chat platforms

What the Slack, Telegram and WhatsApp adapters make of a message: one event for a session, with a
new id.  The records are those of the platforms, as far as the parsers read them; `raw` is the
JSON value itself.

* `ParsedUpdate.IsChat`: what every parsed event has in common.
* `Slack.isChat_of_parse`, `Telegram.isChat_of_parse`, `WhatsApp.isChat_of_parse`: the parsers
  make such events.
-/

namespace Declaragent.Channels
open Events JsonText

/-- `crypto.randomUUID()`, `Date.now()`, and `1000 *` a text that is read as a double: by
`parseFloat`, and by `Number`.  The product is none where the text is no finite number. -/
structure ParseEnv where
  randomUUID : String
  now : Int
  parseFloatMs : String → Option Int
  numberMs : String → Option Int

/-- `{ ...(value !== undefined && { [key]: value }) }`. -/
def field? (key : String) (value : Option Json) : List (String × Json) :=
  (value.map fun v => (key, v)).toList

structure ThreadHint where
  isMention : Bool
  threadTs : Option String
  parentTs : String

structure ParsedUpdate where
  event : AgentEvent
  conversation : ConversationRef
  threadHint : Option ThreadHint := none
  recordedAtMs : Int := 0

/-! ### The session of a conversation -/

def escapeComponent (component : String) : String :=
  String.ofList (component.toList.flatMap fun c =>
    if c = '\\' then ['\\', '\\'] else if c = ':' then ['\\', ':'] else [c])

def conversationSessionId (ref : ConversationRef) : String :=
  ":".intercalate ["chat", escapeComponent ref.channelId, escapeComponent ref.conversationId,
    escapeComponent (ref.threadId.getD "main")]

/-- `buildPrincipal(…).platformUserId`: no user, or an empty id, is anonymous. -/
def platformUserId (userId : Option String) : String :=
  match userId with
  | none | some "" => "anonymous"
  | some userId => userId

/-- The event of a parser: for the session of its conversation, without an idempotency key. -/
def chatEvent (env : ParseEnv) (kind : EventKind) (source : EventSourceTag)
    (conversation : ConversationRef) (timestamp : Int) (payload : List (String × Json))
    (userId : String) (correlationId : Option String) : AgentEvent where
  id := env.randomUUID
  kind := kind
  source := source
  target := .session (conversationSessionId conversation) .inject
  timestamp := timestamp
  payload := .obj payload
  auth := .internal
  info := some { platformUserId := some userId, correlationId := correlationId }

/-- `options` of a parser. -/
structure ParseOptions where
  channelId : String
  correlationId : Option String := none

/-! ### Slack -/

namespace Slack

structure MessageEvent where
  subtype : Option String := none
  channel : String
  channelType : Option String := none
  user : Option String := none
  text : Option String := none
  ts : String
  threadTs : Option String := none
  botId : Option String := none
  team : Option String := none
  files : List Json := []
  raw : Json

structure AppMentionEvent where
  user : Option String := none
  text : Option String := none
  ts : String
  channel : String
  threadTs : Option String := none
  team : Option String := none
  raw : Json

structure ReactionEvent where
  added : Bool
  user : String
  reaction : String
  channel : String
  ts : String
  raw : Json

structure BlockAction where
  actionId : String
  value : Option String := none
  selectedOption : Option String := none

structure BlockActionsPayload where
  userId : String
  teamId : Option String := none
  channel : Option String := none
  containerMessageTs : Option String := none
  containerThreadTs : Option String := none
  messageTs : Option String := none
  messageThreadTs : Option String := none
  triggerId : String
  responseUrl : Option String := none
  primaryAction : Option BlockAction := none
  actions : Json
  raw : Json

structure SlashCommandPayload where
  teamId : Option String := none
  channelId : String
  userId : String
  command : String
  text : Option String := none
  responseUrl : Option String := none
  triggerId : Option String := none
  raw : Json

inductive EventInner where
  | appMention (event : AppMentionEvent)
  | message (event : MessageEvent)
  | reaction (event : ReactionEvent)
  | other (type : String)

/-- The body of a request, or the payload of a socket frame. -/
inductive Payload where
  | urlVerification (challenge : String)
  | eventCallback (teamId : Option String) (event : EventInner)
  | blockActions (payload : BlockActionsPayload)
  | slashCommand (payload : SlashCommandPayload)
  | other

section
variable (env : ParseEnv) (options : ParseOptions)

def tsToMs (ts : String) : Int := (env.parseFloatMs ts).getD env.now

def parseMessage (teamId : Option String) (msg : MessageEvent) : Option ParsedUpdate :=
  -- loop prevention: what a bot wrote is dropped; an empty id is none
  if msg.botId.getD "" ≠ "" then none
  else if msg.subtype = some "bot_message" then none
  else if msg.subtype = some "message_deleted" ∨ msg.subtype = some "message_changed" then none
  else
    let conversation : ConversationRef :=
      { channelId := options.channelId
        conversationId := msg.channel
        threadId := msg.threadTs.filter (· ≠ msg.ts) }
    let kind := if msg.channelType = some "im" then .chatDm else .chatMessage
    let payload :=
      [("text", .str (msg.text.getD "")), ("channelType", .str (msg.channelType.getD "unknown")),
        ("ts", .str msg.ts)] ++ field? "threadTs" (msg.threadTs.map .str) ++ [("raw", msg.raw)] ++
        (if msg.files = [] then [] else [("files", .arr msg.files)])
    some
      { event := chatEvent env kind
          (.slack options.channelId ((teamId.or msg.team).getD "") msg.channel msg.ts msg.threadTs)
          conversation (tsToMs env msg.ts) payload (platformUserId msg.user) options.correlationId
        conversation := conversation
        threadHint := some ⟨false, msg.threadTs, msg.ts⟩ }

def parseAppMention (teamId : Option String) (event : AppMentionEvent) : Option ParsedUpdate :=
  let conversation : ConversationRef :=
    { channelId := options.channelId
      conversationId := event.channel
      threadId := event.threadTs }
  let payload :=
    [("text", .str (event.text.getD "")), ("ts", .str event.ts)] ++
      field? "threadTs" (event.threadTs.map .str) ++ [("raw", event.raw)]
  some
    { event := chatEvent env .chatMention
        (.slack options.channelId ((teamId.or event.team).getD "") event.channel event.ts
          event.threadTs)
        conversation (tsToMs env event.ts) payload (platformUserId event.user)
        options.correlationId
      conversation := conversation
      threadHint := some ⟨true, event.threadTs, event.ts⟩ }

def parseReaction (teamId : Option String) (event : ReactionEvent) : Option ParsedUpdate :=
  let conversation : ConversationRef :=
    { channelId := options.channelId
      conversationId := event.channel }
  let payload :=
    [("added", .bool event.added), ("emoji", .str event.reaction), ("targetTs", .str event.ts),
      ("channel", .str event.channel), ("raw", event.raw)]
  some
    { event := chatEvent env .channelReaction
        (.slack options.channelId (teamId.getD "") event.channel event.ts none)
        conversation env.now payload (platformUserId (some event.user)) options.correlationId
      conversation := conversation }

def parseBlockActions (payload : BlockActionsPayload) : Option ParsedUpdate :=
  match payload.channel with
  | none | some "" => none
  | some channel =>
    let threadTs := payload.containerThreadTs.or payload.messageThreadTs
    let ts := (payload.messageTs.or payload.containerMessageTs).getD ""
    let conversation : ConversationRef :=
      { channelId := options.channelId
        conversationId := channel
        threadId := threadTs }
    let value := payload.primaryAction.bind fun a => a.value.or a.selectedOption
    let body :=
      [("interaction", .str "button"),
        ("actionId", .str ((payload.primaryAction.map (·.actionId)).getD "")),
        ("value", .str (value.getD "")), ("triggerId", .str payload.triggerId)] ++
        field? "responseUrl" (payload.responseUrl.map .str) ++
        [("actions", payload.actions), ("raw", payload.raw)]
    some
      { event := chatEvent env .channelInteraction
          (.slack options.channelId (payload.teamId.getD "") channel ts threadTs)
          conversation env.now body (platformUserId (some payload.userId)) options.correlationId
        conversation := conversation }

/-- `text.replace(/^\//, '')`. -/
def dropSlash (text : String) : String :=
  match text.toList with
  | '/' :: rest => String.ofList rest
  | _ => text

def parseSlashCommand (payload : SlashCommandPayload) : Option ParsedUpdate :=
  let conversation : ConversationRef :=
    { channelId := options.channelId
      conversationId := payload.channelId }
  let body :=
    [("command", .str (dropSlash payload.command)), ("args", .str (payload.text.getD ""))] ++
      field? "responseUrl" (payload.responseUrl.map .str) ++
      field? "triggerId" (payload.triggerId.map .str) ++ [("raw", payload.raw)]
  some
    { event := chatEvent env .channelCommand
        (.slack options.channelId (payload.teamId.getD "") payload.channelId "" none)
        conversation env.now body (platformUserId (some payload.userId)) options.correlationId
      conversation := conversation }

def parseInnerEvent (teamId : Option String) : EventInner → Option ParsedUpdate
  | .appMention event => parseAppMention env options teamId event
  | .message event => parseMessage env options teamId event
  | .reaction event => parseReaction env options teamId event
  | .other _ => none

def parseSlackEvent : Payload → Option ParsedUpdate
  | .slashCommand payload => parseSlashCommand env options payload
  | .blockActions payload => parseBlockActions env options payload
  | .eventCallback teamId event => parseInnerEvent env options teamId event
  | .urlVerification _ | .other => none

end

end Slack

/-! ### Telegram -/

namespace Telegram

structure User where
  id : Int
  isBot : Bool
  raw : Json

structure MessageEntity where
  type : String
  offset : Nat

structure Message where
  messageId : Int
  sender : Option User := none
  /-- In seconds. -/
  date : Int
  chatId : Int
  chatType : String
  text : Option String := none
  caption : Option String := none
  entities : List MessageEntity := []
  document : Option Json := none
  photo : Option Json := none
  voice : Option Json := none
  raw : Json

structure CallbackQuery where
  id : String
  sender : User
  message : Option Message := none
  data : Option String := none

structure Update where
  updateId : Nat
  message : Option Message := none
  editedMessage : Option Message := none
  callbackQuery : Option CallbackQuery := none

/-- The message is a command at its start. -/
def Message.isCommand (msg : Message) : Bool :=
  match msg.text with
  | none => false
  | some text =>
    text.toList.head? = some '/' &&
      msg.entities.any fun e => e.type = "bot_command" && e.offset = 0

def Message.kind (msg : Message) : EventKind :=
  if msg.isCommand then .channelCommand
  else if msg.chatType = "private" then .chatDm
  else if msg.voice.isSome then .chatVoice
  else if msg.document.isSome || msg.photo.isSome then .chatFile
  else .chatMessage

/-- `text.split(/\s+/)[0]`. -/
def firstWord (text : List Char) : List Char := text.takeWhile fun c => !Numeral.isWhite c

def Message.commandFields (msg : Message) : List (String × Json) :=
  if msg.isCommand then
    let text := (msg.text.getD "").toList
    let first := firstWord text
    [("command", .str (Slack.dropSlash (String.ofList first))),
      ("args", .str (String.ofList (Numeral.trim (text.drop first.length))))]
  else []

section
variable (env : ParseEnv) (options : ParseOptions)

def parseMessage (update : Update) (msg : Message) (isEdit : Bool) : Option ParsedUpdate :=
  if (msg.sender.map (·.isBot)).getD false then none
  else
    let conversation : ConversationRef :=
      { channelId := options.channelId
        conversationId := toString msg.chatId }
    let payload :=
      [("text", .str ((msg.text.or msg.caption).getD "")), ("raw", msg.raw),
        ("chatType", .str msg.chatType)] ++ field? "from" (msg.sender.map (·.raw)) ++
        (if isEdit then [("edited", .bool true)] else []) ++ msg.commandFields ++
        field? "voice" msg.voice ++ field? "document" msg.document ++ field? "photo" msg.photo
    some
      { event := chatEvent env msg.kind
          (.telegram options.channelId (toString msg.chatId) update.updateId)
          conversation (msg.date * 1000) payload
          ((msg.sender.map fun user => toString user.id).getD "anonymous") options.correlationId
        conversation := conversation }

def parseCallback (update : Update) (cq : CallbackQuery) : Option ParsedUpdate :=
  match cq.message with
  | none => none
  | some msg =>
    let conversation : ConversationRef :=
      { channelId := options.channelId
        conversationId := toString msg.chatId }
    let payload :=
      [("interaction", .str "button"), ("callbackQueryId", .str cq.id),
        ("buttonId", .str (cq.data.getD "")), ("originalMessage", msg.raw)]
    some
      { event := chatEvent env .channelInteraction
          (.telegram options.channelId (toString msg.chatId) update.updateId)
          conversation env.now payload (toString cq.sender.id) options.correlationId
        conversation := conversation }

def parseUpdate (update : Update) : Option ParsedUpdate :=
  match update.message, update.editedMessage, update.callbackQuery with
  | some msg, _, _ => parseMessage env options update msg false
  | none, some msg, _ => parseMessage env options update msg true
  | none, none, some cq => parseCallback env options update cq
  | none, none, none => none

end

end Telegram

/-! ### WhatsApp -/

namespace WhatsApp

/-- What is particular to each type of message; a descriptor of media is its JSON value. -/
inductive MessageBody where
  | text (body : String)
  | button (payload label : String)
  | buttonReply (id title : String)
  | listReply (id title : String) (description : Option String)
  | reaction (messageId emoji : String)
  | image (media : Json)
  | document (media : Json)
  | audio (media : Json)
  | video (media : Json)
  | other (type : String)

structure InboundMessage where
  id : String
  sender : String
  timestamp : String
  body : MessageBody
  raw : Json

structure WebhookChange where
  field : String
  phoneNumberId : Option String := none
  messages : List InboundMessage := []

structure WebhookBody where
  object : String
  /-- Of all entries, in their order. -/
  changes : List WebhookChange

/-- The kind of the event, and the fields of its payload. -/
def MessageBody.parts : MessageBody → Option (EventKind × List (String × Json))
  | .text body => some (.chatDm, [("text", .str body)])
  | .button payload label => some (.channelInteraction,
      [("interaction", .str "button"), ("buttonId", .str payload), ("buttonText", .str label)])
  | .buttonReply id title => some (.channelInteraction,
      [("interaction", .str "button"), ("buttonId", .str id), ("buttonText", .str title)])
  | .listReply id title description => some (.channelInteraction,
      [("interaction", .str "list"), ("buttonId", .str id), ("buttonText", .str title)] ++
        field? "buttonDescription" (description.map .str))
  | .reaction messageId emoji => some (.channelReaction,
      [("emoji", .str emoji), ("reactedToMessageId", .str messageId)])
  | .image media | .document media | .video media => some (.chatFile, [("media", media)])
  | .audio media => some (.chatVoice, [("media", media)])
  | .other _ => none

section
variable (env : ParseEnv) (options : ParseOptions)

def parseMessage (phoneNumberId : String) (message : InboundMessage) : Option ParsedUpdate :=
  match message.body.parts with
  | none => none
  | some (kind, fields) =>
    let conversation : ConversationRef :=
      { channelId := options.channelId
        conversationId := message.sender }
    let timestampMs := (env.numberMs message.timestamp).getD env.now
    some
      { event := chatEvent env kind
          (.whatsapp options.channelId phoneNumberId message.sender message.id)
          conversation timestampMs
          ([("from", .str message.sender), ("raw", message.raw)] ++ fields) message.sender
          options.correlationId
        conversation := conversation
        recordedAtMs := timestampMs }

end

/-- The messages of a body, each with the number it was sent to. -/
def WebhookBody.messages (body : WebhookBody) (channelId : String) :
    List (String × InboundMessage) :=
  if body.object ≠ "whatsapp_business_account" then []
  else
    (body.changes.filter (·.field = "messages")).flatMap fun change =>
      change.messages.map fun message => (change.phoneNumberId.getD channelId, message)

/-- The `n`-th message is parsed with `env n`. -/
def parseWhatsAppWebhook (env : Nat → ParseEnv) (options : ParseOptions) (body : WebhookBody) :
    List ParsedUpdate :=
  (body.messages options.channelId).zipIdx.filterMap fun (message, n) =>
    parseMessage (env n) options message.1 message.2

end WhatsApp

/-! ### What the parsers make -/

/-- `source.channelId`. -/
def channelIdOf : EventSourceTag → Option String
  | .telegram channelId .. | .discord channelId .. | .slack channelId .. | .whatsapp channelId .. =>
    some channelId
  | _ => none

/-- An event of a channel: it has the id it was given, is for a session, and carries no key. -/
structure ParsedUpdate.IsChat (parsed : ParsedUpdate) (env : ParseEnv) (channelId : String) :
    Prop where
  id : parsed.event.id = env.randomUUID
  session : ∃ sessionId, parsed.event.target = .session sessionId .inject
  source : channelIdOf parsed.event.source = some channelId
  key : parsed.event.idempotencyKey = none
  payload : ∃ fields, parsed.event.payload = .obj fields

section
variable {env : ParseEnv} {options : ParseOptions} {parsed : ParsedUpdate}

theorem Slack.isChat_of_parse {payload : Slack.Payload}
    (h : Slack.parseSlackEvent env options payload = some parsed) :
    parsed.IsChat env options.channelId := by
  cases payload with
  | urlVerification challenge => cases h
  | other => cases h
  | slashCommand payload =>
    cases h
    exact ⟨rfl, ⟨_, rfl⟩, rfl, rfl, ⟨_, rfl⟩⟩
  | blockActions payload =>
    simp only [parseSlackEvent, parseBlockActions] at h
    split at h
    · cases h
    · cases h
    · cases h
      exact ⟨rfl, ⟨_, rfl⟩, rfl, rfl, ⟨_, rfl⟩⟩
  | eventCallback teamId event =>
    cases event with
    | other type => cases h
    | appMention event =>
      cases h
      exact ⟨rfl, ⟨_, rfl⟩, rfl, rfl, ⟨_, rfl⟩⟩
    | reaction event =>
      cases h
      exact ⟨rfl, ⟨_, rfl⟩, rfl, rfl, ⟨_, rfl⟩⟩
    | message event =>
      simp only [parseSlackEvent, parseInnerEvent, parseMessage] at h
      split at h
      · cases h
      · split at h
        · cases h
        · split at h
          · cases h
          · cases h
            exact ⟨rfl, ⟨_, rfl⟩, rfl, rfl, ⟨_, rfl⟩⟩

theorem Telegram.isChat_of_parseMessage {update : Telegram.Update} {msg : Telegram.Message}
    {isEdit : Bool} (h : Telegram.parseMessage env options update msg isEdit = some parsed) :
    parsed.IsChat env options.channelId := by
  unfold Telegram.parseMessage at h
  split at h
  · cases h
  · cases h
    exact ⟨rfl, ⟨_, rfl⟩, rfl, rfl, ⟨_, rfl⟩⟩

theorem Telegram.isChat_of_parse {update : Telegram.Update}
    (h : Telegram.parseUpdate env options update = some parsed) :
    parsed.IsChat env options.channelId := by
  unfold Telegram.parseUpdate at h
  split at h
  · exact isChat_of_parseMessage h
  · exact isChat_of_parseMessage h
  · unfold parseCallback at h
    split at h
    · cases h
    · cases h
      exact ⟨rfl, ⟨_, rfl⟩, rfl, rfl, ⟨_, rfl⟩⟩
  · cases h

theorem WhatsApp.isChat_of_parse {phoneNumberId : String} {message : WhatsApp.InboundMessage}
    (h : WhatsApp.parseMessage env options phoneNumberId message = some parsed) :
    parsed.IsChat env options.channelId := by
  unfold WhatsApp.parseMessage at h
  split at h
  · cases h
  · cases h
    exact ⟨rfl, ⟨_, rfl⟩, rfl, rfl, ⟨_, rfl⟩⟩

end

end Declaragent.Channels
