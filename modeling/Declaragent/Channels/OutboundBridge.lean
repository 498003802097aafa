import Declaragent.Channels.SendIdempotency
import Declaragent.Engine.Messages

/-!
# Channels — streaming a reply

With streaming on, the first `assistant.message` of a turn posts its delta, and each later one
edits that message; the `assistant.final` of a turn that was streamed posts nothing.  A send is
repeated up to `sendMaxAttempts` times, and an edit is not.  A send or an edit that fails has not
taken effect.

An edit replaces the text of the message by the delta alone, so the deltas before it are lost:

* `forwardAssistantMessage_progress`: what one delta does to the turn, and `forwardAll_progress`
  what a list of them does.
* `full_reply_iff`: when the reply ends as the one message of the turn, with the full text.
-/

namespace Declaragent.Channels
open Engine (MessageContent)

/-! ### The channel -/

structure MessageRef where
  conversation : ConversationRef
  id : String
  deriving DecidableEq

inductive MessageTextFormat where
  | plain | markdown | html
  deriving DecidableEq

/-- A `ChannelMessageContent` of the kind `text`. -/
structure TextContent where
  text : String
  format : Option MessageTextFormat := none
  deriving DecidableEq

structure SendMessageParams where
  conversation : ConversationRef
  content : TextContent
  replyTo : Option MessageRef := none
  idempotencyKey : String

/-- A message on a channel, with the key it was sent under. -/
structure Posted where
  ref : MessageRef
  content : TextContent
  replyTo : Option MessageRef
  idempotencyKey : String

structure ChannelInstance where
  id : String
  supportsEditMessage : Bool
  /-- `channel.edit !== undefined`. -/
  edits : Bool

/-- Which sends and edits succeed, and what the platform assigns to the messages, by the number of
sends and edits before. -/
structure Platform where
  accepts : Nat → Bool
  messageId : Nat → String
  sentAt : Nat → Option Int := fun _ => none

/-- The messages that are on the channels, and how many sends and edits were tried so far. -/
structure Chat where
  posted : List Posted := []
  attempts : Nat := 0

namespace Platform

variable (P : Platform)

/-- The receipt of the `n`-th attempt. -/
def receipt (conversation : ConversationRef) (n : Nat) : SentMessage :=
  ⟨P.messageId n, conversation, P.sentAt n⟩

end Platform

def SentMessage.ref (sent : SentMessage) : MessageRef := ⟨sent.conversation, sent.id⟩

def SendMessageParams.posted (params : SendMessageParams) (sent : SentMessage) : Posted :=
  ⟨sent.ref, params.content, params.replyTo, params.idempotencyKey⟩

def Posted.edit (ref : MessageRef) (content : TextContent) (m : Posted) : Posted :=
  if m.ref = ref then { m with content := content } else m

namespace Platform

variable (P : Platform)

def send (params : SendMessageParams) (chat : Chat) : Chat × Option SentMessage :=
  if P.accepts chat.attempts then
    let sent := P.receipt params.conversation chat.attempts
    (⟨chat.posted ++ [params.posted sent], chat.attempts + 1⟩, some sent)
  else (⟨chat.posted, chat.attempts + 1⟩, none)

/-- An edit, and whether it succeeded. -/
def edit (ref : MessageRef) (content : TextContent) (chat : Chat) : Chat × Bool :=
  if P.accepts chat.attempts then
    (⟨chat.posted.map (Posted.edit ref content), chat.attempts + 1⟩, true)
  else (⟨chat.posted, chat.attempts + 1⟩, false)

/-- `sendWithLogging` with `left` attempts left. -/
def sendWithLogging (params : SendMessageParams) : Nat → Chat → Chat × Option SentMessage
  | 0, chat => (chat, none)
  | left + 1, chat =>
    match P.send params chat with
    | (chat, some sent) => (chat, some sent)
    | (chat, none) => sendWithLogging params left chat

end Platform

/-! ### The bridge -/

structure SessionChannelContext where
  channelOrigin : ConversationRef
  lastInboundMessageRef : Option MessageRef := none

structure StreamState where
  turnId : String
  messageRef : Option MessageRef
  streamed : Bool

structure ChannelOutboundBridgeDeps where
  channels : String → Option ChannelInstance
  sessionChannelContext : String → Option SessionChannelContext
  streaming : Option Bool := none
  sendMaxAttempts : Option Nat := none

def ChannelOutboundBridgeDeps.streamingEnabled (deps : ChannelOutboundBridgeDeps) : Bool :=
  deps.streaming.getD false

def ChannelOutboundBridgeDeps.maxAttempts (deps : ChannelOutboundBridgeDeps) : Nat :=
  max 1 (deps.sendMaxAttempts.getD 3)

/-- The bridge and the channels it posts to. -/
structure Outbox where
  streams : String → Option StreamState := fun _ => none
  chat : Chat := {}

structure AssistantMessagePayload where
  sessionId : String
  turnId : String
  delta : String

structure AssistantFinalPayload where
  sessionId : String
  turnId : String
  content : List MessageContent

/-- The text blocks that are not empty. -/
def textPieces (content : List MessageContent) : List String :=
  content.filterMap fun
    | .text text => if text = "" then none else some text
    | _ => none

def joinPieces (pieces : List String) : String := "\n".intercalate pieces

def extractAssistantContent (content : List MessageContent) : Option TextContent :=
  if textPieces content = [] then none
  else some ⟨joinPieces (textPieces content), some .markdown⟩

/-- The idempotency key of a buffered reply. -/
def finalKey (sessionId turnId : String) : String := "session:" ++ sessionId ++ ":" ++ turnId

/-- The idempotency key of a streamed reply. -/
def streamKey (sessionId turnId : String) : String := finalKey sessionId turnId ++ ":stream"

section Bridge

variable (P : Platform) (deps : ChannelOutboundBridgeDeps)

def forwardAssistantFinal (payload : AssistantFinalPayload) (s : Outbox) : Outbox :=
  match deps.sessionChannelContext payload.sessionId with
  | none => s
  | some ctx =>
    match deps.channels ctx.channelOrigin.channelId with
    | none => s
    | some _ =>
      let existing := s.streams payload.sessionId
      let ofTurn := existing.any fun state => state.turnId = payload.turnId
      let cleared := Function.update s.streams payload.sessionId none
      if deps.streamingEnabled && ofTurn && existing.any (·.streamed) then ⟨cleared, s.chat⟩
      else
        match extractAssistantContent payload.content with
        | none => ⟨if ofTurn then cleared else s.streams, s.chat⟩
        | some content =>
          let params : SendMessageParams :=
            ⟨ctx.channelOrigin, content, ctx.lastInboundMessageRef,
              finalKey payload.sessionId payload.turnId⟩
          let (chat, _) := P.sendWithLogging params deps.maxAttempts s.chat
          ⟨if ofTurn then cleared else s.streams, chat⟩

def forwardAssistantMessage (payload : AssistantMessagePayload) (s : Outbox) : Outbox :=
  if !deps.streamingEnabled || payload.delta = "" then s
  else
    match deps.sessionChannelContext payload.sessionId with
    | none => s
    | some ctx =>
      match deps.channels ctx.channelOrigin.channelId with
      | none => s
      | some channel =>
        if !channel.supportsEditMessage || !channel.edits then s
        else
          let content : TextContent := ⟨payload.delta, some .markdown⟩
          -- the state of another turn is dropped
          let state := (s.streams payload.sessionId).filter (·.turnId = payload.turnId)
          let streams := Function.update s.streams payload.sessionId state
          match state, state.bind (·.messageRef) with
          | some state, some ref =>
            let (chat, ok) := P.edit ref content s.chat
            let next : StreamState := { state with streamed := ok || state.streamed }
            ⟨Function.update streams payload.sessionId (some next), chat⟩
          | _, _ =>
            let params : SendMessageParams :=
              ⟨ctx.channelOrigin, content, ctx.lastInboundMessageRef,
                streamKey payload.sessionId payload.turnId⟩
            match P.sendWithLogging params deps.maxAttempts s.chat with
            | (chat, none) => ⟨streams, chat⟩
            | (chat, some sent) =>
              let next : StreamState := ⟨payload.turnId, some sent.ref, true⟩
              ⟨Function.update streams payload.sessionId (some next), chat⟩

def forwardAll (sessionId turnId : String) (deltas : List String) (s : Outbox) : Outbox :=
  deltas.foldl (fun s delta => forwardAssistantMessage P deps ⟨sessionId, turnId, delta⟩ s) s

/-- The events of a turn, in order. -/
def turn (sessionId turnId : String) (deltas : List String) (content : List MessageContent)
    (s : Outbox) : Outbox :=
  forwardAssistantFinal P deps ⟨sessionId, turnId, content⟩
    (forwardAll P deps sessionId turnId deltas s)

end Bridge

/-! ### What is asked of a turn -/

/-- The messages of the turn that are on a channel. -/
def ofTurn (sessionId turnId : String) (posted : List Posted) : List Posted :=
  posted.filter fun m => m.idempotencyKey = finalKey sessionId turnId ∨
    m.idempotencyKey = streamKey sessionId turnId

/-- The text that the turn ends with. -/
def fullText (content : List MessageContent) : String := joinPieces (textPieces content)

/-- One message of the turn is on the channel, with that text. -/
def Delivers (sessionId turnId text : String) (s : Outbox) : Prop :=
  ∃ m, ofTurn sessionId turnId s.chat.posted = [m] ∧ m.content = ⟨text, some .markdown⟩

/-- Streaming is on, and the session is bound to a channel that can edit. -/
structure Streaming (deps : ChannelOutboundBridgeDeps) (sessionId : String)
    (ctx : SessionChannelContext) (channel : ChannelInstance) : Prop where
  enabled : deps.streamingEnabled = true
  bound : deps.sessionChannelContext sessionId = some ctx
  registered : deps.channels ctx.channelOrigin.channelId = some channel
  supported : channel.supportsEditMessage = true
  edits : channel.edits = true

/-- Nothing of the turn was posted yet, and the stream, if there is one, is of another turn. -/
structure Unposted (sessionId turnId : String) (s : Outbox) : Prop where
  stream : (s.streams sessionId).filter (·.turnId = turnId) = none
  posted : ofTurn sessionId turnId s.chat.posted = []

/-- Something was tried from `s` to `s'`, and the last try succeeded. -/
def LastSucceeds (P : Platform) (s s' : Outbox) : Prop :=
  ∃ n, s.chat.attempts ≤ n ∧ s'.chat.attempts = n + 1 ∧ P.accepts n = true

/-- The deltas that the bridge does not skip. -/
def filled (deltas : List String) : List String := deltas.filter (· ≠ "")

/-! ### Sends and edits -/

section Sends

variable {P : Platform} {params : SendMessageParams} {chat chat' : Chat} {left : Nat}

/-- The sends all fail. -/
theorem Platform.sendWithLogging_none
    (h : P.sendWithLogging params left chat = (chat', none)) :
    chat' = ⟨chat.posted, chat.attempts + left⟩ ∧
      ∀ n < left, P.accepts (chat.attempts + n) = false := by
  induction left generalizing chat with
  | zero =>
    obtain ⟨rfl, -⟩ := Prod.mk.inj h
    exact ⟨rfl, fun n lt => absurd lt n.not_lt_zero⟩
  | succ left ih =>
    by_cases ok : P.accepts chat.attempts = true
    · simp [sendWithLogging, send, ok] at h
    · simp only [sendWithLogging, send, ok, Bool.false_eq_true, if_false] at h
      obtain ⟨rfl, fails⟩ := ih h
      refine ⟨by rw [Nat.add_assoc, Nat.add_comm 1], fun n lt => ?_⟩
      cases n with
      | zero => simpa using ok
      | succ n =>
        have shift : chat.attempts + (n + 1) = chat.attempts + 1 + n := by omega
        rw [shift]
        exact fails n (by omega)

/-- A send succeeds, the last that is tried. -/
theorem Platform.sendWithLogging_some {sent : SentMessage}
    (h : P.sendWithLogging params left chat = (chat', some sent)) :
    ∃ n < left, P.accepts (chat.attempts + n) = true ∧
      chat' = ⟨chat.posted ++ [params.posted sent], chat.attempts + n + 1⟩ := by
  induction left generalizing chat with
  | zero => simp [sendWithLogging] at h
  | succ left ih =>
    by_cases ok : P.accepts chat.attempts = true
    · simp only [sendWithLogging, send, ok, if_true, Prod.mk.injEq, Option.some.injEq] at h
      obtain ⟨rfl, rfl⟩ := h
      exact ⟨0, by omega, ok, rfl⟩
    · simp only [sendWithLogging, send, ok, Bool.false_eq_true, if_false] at h
      obtain ⟨n, lt, accepted, rfl⟩ := ih h
      have shift : chat.attempts + (n + 1) = chat.attempts + 1 + n := by omega
      exact ⟨n + 1, by omega, shift ▸ accepted, by rw [shift]⟩

end Sends

variable {sessionId turnId : String}

/-- An edit leaves the keys as they are. -/
theorem ofTurn_edit (ref : MessageRef) (content : TextContent) (posted : List Posted) :
    ofTurn sessionId turnId (posted.map (Posted.edit ref content)) =
      (ofTurn sessionId turnId posted).map (Posted.edit ref content) := by
  rw [ofTurn, List.filter_map, ofTurn]
  congr 2
  funext m
  by_cases same : m.ref = ref <;> simp [Posted.edit, same]

theorem ofTurn_sent {posted : List Posted} {m : Posted}
    (key : m.idempotencyKey = finalKey sessionId turnId ∨
      m.idempotencyKey = streamKey sessionId turnId) :
    ofTurn sessionId turnId (posted ++ [m]) = ofTurn sessionId turnId posted ++ [m] := by
  simp [ofTurn, key]

/-! ### A delta -/

/-- The message of the turn, which the stream refers to. -/
structure Shown (sessionId turnId : String) (m : Posted) (s : Outbox) : Prop where
  stream : s.streams sessionId = some ⟨turnId, some m.ref, true⟩
  posted : ofTurn sessionId turnId s.chat.posted = [m]

/-- Where the turn is after the deltas: all sends failed so far, or the message is posted, and is
the last delta if the last try succeeded. -/
inductive Progress (P : Platform) (deps : ChannelOutboundBridgeDeps) (sessionId turnId : String)
    (s : Outbox) (deltas : List String) (s' : Outbox) : Prop where
  | unsent (fresh : Unposted sessionId turnId s')
      (attempts : s'.chat.attempts = s.chat.attempts + deps.maxAttempts * (filled deltas).length)
      (fails : ∀ n < deps.maxAttempts * (filled deltas).length,
        P.accepts (s.chat.attempts + n) = false)
  | shown (m : Posted) (shown : Shown sessionId turnId m s')
      (accepted : ∃ n < deps.maxAttempts * (filled deltas).length,
        P.accepts (s.chat.attempts + n) = true)
      (last : LastSucceeds P s s' →
        ∃ delta, (filled deltas).getLast? = some delta ∧ m.content = ⟨delta, some .markdown⟩)

section Turn

variable {P : Platform} {deps : ChannelOutboundBridgeDeps} {ctx : SessionChannelContext}
  {channel : ChannelInstance} {s s' : Outbox} {delta : String} {deltas : List String}

/-- An empty delta is skipped. -/
theorem forwardAssistantMessage_empty :
    forwardAssistantMessage P deps ⟨sessionId, turnId, ""⟩ s = s := by
  simp [forwardAssistantMessage]

/-- Before the message is posted, a delta is sent. -/
theorem forwardAssistantMessage_unsent (on : Streaming deps sessionId ctx channel)
    (filled : delta ≠ "") (fresh : Unposted sessionId turnId s) :
    ∃ streams, streams sessionId = none ∧
      forwardAssistantMessage P deps ⟨sessionId, turnId, delta⟩ s =
        let params : SendMessageParams := ⟨ctx.channelOrigin, ⟨delta, some .markdown⟩,
          ctx.lastInboundMessageRef, streamKey sessionId turnId⟩
        match P.sendWithLogging params deps.maxAttempts s.chat with
        | (chat, none) => ⟨streams, chat⟩
        | (chat, some sent) =>
          ⟨Function.update streams sessionId (some ⟨turnId, some sent.ref, true⟩), chat⟩ := by
  refine ⟨Function.update s.streams sessionId none, Function.update_self .., ?_⟩
  simp only [forwardAssistantMessage, on.enabled, on.bound, on.registered, on.supported, on.edits,
    fresh.stream, filled]
  rfl

/-- Once the message is posted, a delta replaces its text. -/
theorem forwardAssistantMessage_shown {m : Posted} (on : Streaming deps sessionId ctx channel)
    (filled : delta ≠ "") (shown : Shown sessionId turnId m s) :
    let next := forwardAssistantMessage P deps ⟨sessionId, turnId, delta⟩ s
    next.streams sessionId = some ⟨turnId, some m.ref, true⟩ ∧
      next.chat = (P.edit m.ref ⟨delta, some .markdown⟩ s.chat).1 := by
  have own : (s.streams sessionId).filter (·.turnId = turnId) =
      some ⟨turnId, some m.ref, true⟩ := by
    rw [shown.stream, Option.filter_some, if_pos (by simp)]
  simp [forwardAssistantMessage, on.enabled, on.bound, on.registered, on.supported, on.edits,
    own, filled]

/-- What one delta does to the turn. -/
theorem forwardAssistantMessage_progress (on : Streaming deps sessionId ctx channel)
    (before : Progress P deps sessionId turnId s deltas s') :
    Progress P deps sessionId turnId s (deltas ++ [delta])
      (forwardAssistantMessage P deps ⟨sessionId, turnId, delta⟩ s') := by
  by_cases empty : delta = ""
  · have skipped : filled (deltas ++ [delta]) = filled deltas := by simp [filled, empty]
    rw [empty, forwardAssistantMessage_empty, ← empty]
    cases before with
    | unsent fresh attempts fails =>
      exact .unsent fresh (by rw [skipped, attempts]) (by rw [skipped]; exact fails)
    | shown m shown accepted last =>
      exact .shown m shown (by rw [skipped]; exact accepted) (by rw [skipped]; exact last)
  have kept : filled (deltas ++ [delta]) = filled deltas ++ [delta] := by simp [filled, empty]
  have tries : deps.maxAttempts * (filled (deltas ++ [delta])).length =
      deps.maxAttempts * (filled deltas).length + deps.maxAttempts := by
    rw [kept, List.length_append, List.length_singleton, Nat.mul_succ]
  cases before with
  | unsent fresh attempts fails =>
    obtain ⟨streams, none, eq⟩ := forwardAssistantMessage_unsent (P := P) on empty fresh
    rw [eq]
    dsimp only
    rcases sends : P.sendWithLogging _ deps.maxAttempts s'.chat with ⟨chat, _ | sent⟩
    · obtain ⟨rfl, failed⟩ := Platform.sendWithLogging_none sends
      refine .unsent ⟨by simp [none], fresh.posted⟩ (by rw [tries, ← Nat.add_assoc, ← attempts])
        fun n lt => ?_
      by_cases old : n < deps.maxAttempts * (filled deltas).length
      · exact fails n old
      · have := failed (n - deps.maxAttempts * (filled deltas).length) (by omega)
        rwa [attempts, Nat.add_assoc, Nat.add_sub_cancel' (by omega)] at this
    · obtain ⟨n, lt, accepted, rfl⟩ := Platform.sendWithLogging_some sends
      rw [attempts, Nat.add_assoc] at accepted
      let params : SendMessageParams := ⟨ctx.channelOrigin, ⟨delta, some .markdown⟩,
        ctx.lastInboundMessageRef, streamKey sessionId turnId⟩
      have posted : ofTurn sessionId turnId (s'.chat.posted ++ [params.posted sent]) =
          [params.posted sent] := by
        rw [ofTurn_sent (.inr rfl), fresh.posted, List.nil_append]
      exact .shown (params.posted sent) ⟨Function.update_self sessionId _ streams, posted⟩
        ⟨_, by omega, accepted⟩ fun _ => ⟨delta, by simp [kept], rfl⟩
  | shown m shown accepted last =>
    obtain ⟨stream, chat⟩ := forwardAssistantMessage_shown (P := P) on empty shown
    obtain ⟨n, lt, accepted⟩ := accepted
    by_cases ok : P.accepts s'.chat.attempts = true
    · refine .shown { m with content := ⟨delta, some .markdown⟩ } ⟨stream, ?_⟩
        ⟨n, by omega, accepted⟩ fun _ => ⟨delta, by simp [kept], rfl⟩
      rw [chat, Platform.edit, if_pos ok, ofTurn_edit, shown.posted]
      simp [Posted.edit]
    · refine .shown m ⟨stream, ?_⟩ ⟨n, by omega, accepted⟩ fun ⟨n, _, eq, accepted⟩ => ?_
      · rw [chat, Platform.edit, if_neg ok, shown.posted]
      · rw [chat, Platform.edit, if_neg ok] at eq
        exact absurd (Nat.succ.inj eq ▸ accepted) ok

/-- What a list of deltas does to the turn. -/
theorem forwardAll_progress (deltas : List String) (on : Streaming deps sessionId ctx channel)
    (fresh : Unposted sessionId turnId s) :
    Progress P deps sessionId turnId s deltas (forwardAll P deps sessionId turnId deltas s) := by
  induction deltas using List.reverseRecOn with
  | nil => exact .unsent fresh rfl fun n lt => absurd lt n.not_lt_zero
  | append_singleton deltas delta ih =>
    rw [forwardAll, List.foldl_append]
    exact forwardAssistantMessage_progress on ih

/-! ### The end of the turn -/

variable {content : List MessageContent}

/-- After a streamed turn the final posts nothing. -/
theorem forwardAssistantFinal_shown {m : Posted} (on : Streaming deps sessionId ctx channel)
    (shown : Shown sessionId turnId m s) :
    (forwardAssistantFinal P deps ⟨sessionId, turnId, content⟩ s).chat = s.chat := by
  simp [forwardAssistantFinal, on.enabled, on.bound, on.registered, shown.stream]

/-- The final of a turn that was not streamed is sent. -/
theorem forwardAssistantFinal_unsent (content : List MessageContent)
    (on : Streaming deps sessionId ctx channel)
    (fresh : Unposted sessionId turnId s) :
    (forwardAssistantFinal P deps ⟨sessionId, turnId, content⟩ s).chat =
      match extractAssistantContent content with
      | none => s.chat
      | some content =>
        (P.sendWithLogging ⟨ctx.channelOrigin, content, ctx.lastInboundMessageRef,
          finalKey sessionId turnId⟩ deps.maxAttempts s.chat).1 := by
  have other : ((s.streams sessionId).any fun state => state.turnId = turnId) = false := by
    have := fresh.stream
    cases h : s.streams sessionId <;> simp_all
  simp only [forwardAssistantFinal, on.enabled, on.bound, on.registered, other]
  cases extractAssistantContent content <;> rfl

theorem extractAssistantContent_text {text : TextContent}
    (h : extractAssistantContent content = some text) :
    text = ⟨fullText content, some .markdown⟩ := by
  rw [extractAssistantContent] at h
  split at h
  · cases h
  · exact (Option.some.inj h).symm

/-- A turn that posted none of its deltas delivers its text with the final. -/
theorem delivers_of_unsent (on : Streaming deps sessionId ctx channel)
    (fresh : Unposted sessionId turnId s')
    (fails : ∀ n, s.chat.attempts ≤ n → n < s'.chat.attempts → P.accepts n = false)
    (last : LastSucceeds P s (forwardAssistantFinal P deps ⟨sessionId, turnId, content⟩ s')) :
    Delivers sessionId turnId (fullText content)
      (forwardAssistantFinal P deps ⟨sessionId, turnId, content⟩ s') := by
  obtain ⟨n, le, eq, accepted⟩ := last
  have chat := forwardAssistantFinal_unsent (P := P) content on fresh
  cases text : extractAssistantContent content with
  | none =>
    simp only [text] at chat
    rw [chat] at eq
    exact absurd accepted (by simp [fails n le (by omega)])
  | some text' =>
    simp only [text] at chat
    rcases sends : P.sendWithLogging _ deps.maxAttempts s'.chat with ⟨chat', _ | sent⟩
    · obtain ⟨rfl, failed⟩ := Platform.sendWithLogging_none sends
      rw [chat, sends] at eq
      by_cases old : n < s'.chat.attempts
      · exact absurd accepted (by simp [fails n le old])
      · have := failed (n - s'.chat.attempts) (by dsimp only at eq; omega)
        rw [Nat.add_sub_cancel' (by omega)] at this
        exact absurd accepted (by simp [this])
    · obtain ⟨n, lt, accepted, rfl⟩ := Platform.sendWithLogging_some sends
      rw [Delivers, chat, sends, ofTurn_sent (.inl rfl), fresh.posted]
      exact ⟨_, rfl, extractAssistantContent_text text⟩

/-- Of a turn that posted its deltas, the message that stays is the last delta. -/
theorem delivers_iff_of_shown {m : Posted} {text : String}
    (on : Streaming deps sessionId ctx channel) (shown : Shown sessionId turnId m s')
    (showsLast : m.content = ⟨delta, some .markdown⟩) :
    Delivers sessionId turnId text
      (forwardAssistantFinal P deps ⟨sessionId, turnId, content⟩ s') ↔ delta = text := by
  rw [Delivers, forwardAssistantFinal_shown on shown, shown.posted]
  constructor
  · rintro ⟨m', one, eq⟩
    obtain rfl := List.singleton_inj.mp one
    exact (TextContent.mk.inj (showsLast ▸ eq)).1
  · rintro rfl
    exact ⟨m, rfl, showsLast⟩

/-- A turn whose last try succeeds ends with its full text in one message if every send of a delta
fails, or the last delta that is not empty is the full text; and only then. -/
theorem full_reply_iff (on : Streaming deps sessionId ctx channel)
    (fresh : Unposted sessionId turnId s)
    (last : LastSucceeds P s (turn P deps sessionId turnId deltas content s)) :
    Delivers sessionId turnId (fullText content)
        (turn P deps sessionId turnId deltas content s) ↔
      (∀ n < deps.maxAttempts * (filled deltas).length,
        P.accepts (s.chat.attempts + n) = false) ∨
      (filled deltas).getLast? = some (fullText content) := by
  rw [turn] at last ⊢
  cases forwardAll_progress (P := P) deltas on fresh with
  | unsent fresh attempts fails =>
    refine iff_of_true (delivers_of_unsent on fresh (fun n le lt => ?_) last) (.inl fails)
    have := fails (n - s.chat.attempts) (by omega)
    rwa [Nat.add_sub_cancel' le] at this
  | shown m shown accepted latest =>
    rw [LastSucceeds, forwardAssistantFinal_shown on shown] at last
    obtain ⟨delta, getLast, showsLast⟩ := latest last
    obtain ⟨n, lt, accepted⟩ := accepted
    rw [delivers_iff_of_shown on shown showsLast, getLast, Option.some_inj]
    refine ⟨.inr, fun h => h.resolve_left fun fails => ?_⟩
    exact absurd accepted (by simp [fails n lt])

end Turn

/-! ### A turn in two deltas -/

/-- A platform that takes every send and edit. -/
def willing : Platform := ⟨fun _ => true, fun _ => "100", fun _ => none⟩

def helloChat : ConversationRef := ⟨"telegram-main", "42", none⟩

def streamingDeps : ChannelOutboundBridgeDeps where
  channels _ := some ⟨"telegram-main", true, true⟩
  sessionChannelContext _ := some ⟨helloChat, none⟩
  streaming := some true

theorem streamingDeps_streaming :
    Streaming streamingDeps "s1" ⟨helloChat, none⟩ ⟨"telegram-main", true, true⟩ :=
  ⟨rfl, rfl, rfl, rfl, rfl⟩

/-- A turn that ends with a text of two words. -/
def helloTurn (deltas : List String) : Outbox :=
  turn willing streamingDeps "s1" "t1" deltas [.text "Hello world"] {}

theorem full_reply_iff_whole :
    Delivers "s1" "t1" "Hello world" (helloTurn ["Hello", "Hello world"]) :=
  (full_reply_iff streamingDeps_streaming ⟨rfl, rfl⟩ ⟨1, by decide, by rfl, rfl⟩).mpr
    (.inr (by decide))

/-- The text comes in two deltas, and nothing fails: the message ends as the second delta. -/
theorem first_delta_lost :
    Streaming streamingDeps "s1" ⟨helloChat, none⟩ ⟨"telegram-main", true, true⟩ ∧
      Unposted "s1" "t1" {} ∧ LastSucceeds willing {} (helloTurn ["Hello", " world"]) ∧
      fullText [.text "Hello world"] = String.join ["Hello", " world"] ∧
      ¬ Delivers "s1" "t1" (fullText [.text "Hello world"]) (helloTurn ["Hello", " world"]) := by
  refine ⟨streamingDeps_streaming, ⟨rfl, rfl⟩, ⟨1, by decide, by rfl, rfl⟩, by decide, ?_⟩
  rintro ⟨m, one, eq⟩
  have shown : (ofTurn "s1" "t1" (helloTurn ["Hello", " world"]).chat.posted).map (·.content) =
      [⟨" world", some .markdown⟩] := by rfl
  rw [one, List.map_singleton, eq] at shown
  exact absurd shown (by decide)

end Declaragent.Channels
