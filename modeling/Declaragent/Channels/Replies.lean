import Declaragent.Channels.Inbound

/-!
# Channels — where a reply goes

A Slack instance keeps one thread for each conversation, which every message and mention sets, and
a send that names no thread reads.  A Discord instance keeps one follow-up token for each
conversation, which every interaction sets, and the next send takes.  Messages of several users
and the sends that answer them may come in any order.

* `Slack.hints_eq`, `Discord.pending_eq`: the slot is that of the last message, or interaction.
* `repliesRight_iff`: when a reply goes to what it answers.
-/

namespace Declaragent.Channels
open Events Transition

/-! ### Slack threads -/

namespace Slack

/-- The thread of a reply, as the policy has it. -/
def target (config : Config) (hint : ThreadHint) : Option String :=
  resolveThreadReplyTarget hint (config.threadOnMention.getD .auto)

/-- The thread that `doSend` posts to. -/
def threadTs (hints : ThreadHints) (conversation : ConversationRef) (replyTo : Option String) :
    Option String :=
  conversation.threadId.or (replyTo.or (hints (threadHintKey conversation)))

/-- What was posted in answer to a message. -/
structure Post where
  answers : ThreadHint
  thread : Option String

structure Threads where
  hints : ThreadHints := fun _ => none
  /-- What came in so far, the first first. -/
  inbound : List ParsedUpdate := []
  posts : List Post := []

/-- How a reply is addressed: with the thread of the conversation, and as an answer to the
message. -/
structure Address where
  named : Bool
  quoted : Bool

inductive ThreadEvent where
  | inbound (parse : ParseEnv) (payload : Payload)
  /-- `doSend` for a reply to the `m`-th message. -/
  | reply (m : Nat) (address : Address)

/-- `params.conversation` of a reply. -/
def Address.conversation (address : Address) (answered : ParsedUpdate) : ConversationRef :=
  if address.named then answered.conversation
  else { answered.conversation with threadId := none }

/-- `params.replyTo` of a reply. -/
def Address.replyTo (address : Address) (hint : ThreadHint) : Option String :=
  if address.quoted then some hint.parentTs else none

/-- The thread that a reply names itself. -/
def Address.explicit (address : Address) (answered : ParsedUpdate) (hint : ThreadHint) :
    Option String :=
  (address.conversation answered).threadId.or (address.replyTo hint)

def threadStep (config : Config) (s : Threads) : ThreadEvent → Option Threads
  | .inbound parse payload =>
    match parseSlackEvent parse config.options payload with
    | none => some s
    | some parsed => some { s with
        hints := rememberThread config parsed s.hints
        inbound := s.inbound ++ [parsed] }
  | .reply m address =>
    match s.inbound[m]? with
    | none => none
    | some answered =>
      match answered.threadHint with
      | none => none
      | some hint => some { s with
          posts := s.posts ++ [⟨hint, threadTs s.hints (address.conversation answered)
            (address.replyTo hint)⟩] }

/-- The thread of the last message or mention of a conversation. -/
def lastHint (key : String) (inbound : List ParsedUpdate) : Option ThreadHint :=
  (inbound.filter fun parsed => threadHintKey parsed.conversation = key).reverse.findSome?
    (·.threadHint)

/-- Every reply is in the thread that the policy gives for what it answers. -/
def InThread (config : Config) (s : Threads) : Prop :=
  ∀ post ∈ s.posts, post.thread = target config post.answers

/-- A thread that a reply names is the one the policy gives; where it names none, the policy gives
the same thread for the last message of the conversation as for the one that is answered. -/
def Threaded (config : Config) (s : Threads) : ThreadEvent → Prop
  | .inbound .. => True
  | .reply m address => ∀ answered ∈ s.inbound[m]?, ∀ hint ∈ answered.threadHint,
      match address.explicit answered hint with
      | some thread => target config hint = some thread
      | none =>
        (lastHint (threadHintKey answered.conversation) s.inbound).bind (target config) =
          target config hint

variable {config : Config} {s s' : Threads}

theorem lastHint_append (key : String) (inbound : List ParsedUpdate) (parsed : ParsedUpdate) :
    lastHint key (inbound ++ [parsed]) =
      if threadHintKey parsed.conversation = key ∧ parsed.threadHint.isSome then parsed.threadHint
      else lastHint key inbound := by
  unfold lastHint
  rw [List.filter_append]
  by_cases hkey : threadHintKey parsed.conversation = key
  · cases hhint : parsed.threadHint <;> simp [hkey, hhint]
  · simp [hkey]

/-- The slot is that of the last message. -/
def HintsKept (config : Config) (s : Threads) : Prop :=
  ∀ key, s.hints key = (lastHint key s.inbound).bind (target config)

theorem hints_eq (h : HintsKept config s) {event : ThreadEvent}
    (hstep : threadStep config s event = some s') : HintsKept config s' := by
  cases event with
  | inbound parse payload =>
    simp only [threadStep] at hstep
    split at hstep
    · cases hstep
      exact h
    · rename_i parsed hparsed
      cases hstep
      intro key
      rw [lastHint_append]
      unfold rememberThread
      cases hhint : parsed.threadHint with
      | none => simpa using h key
      | some hint =>
        by_cases hkey : threadHintKey parsed.conversation = key
        · subst hkey
          simp [target]
        · simp [Function.update_of_ne (Ne.symm hkey), hkey, h key]
  | reply m address =>
    simp only [threadStep] at hstep
    split at hstep
    · cases hstep
    · split at hstep
      · cases hstep
      · cases hstep
        exact h

@[simp] theorem threadHintKey_conversation (address : Address) (answered : ParsedUpdate) :
    threadHintKey (address.conversation answered) = threadHintKey answered.conversation := by
  unfold Address.conversation
  split <;> rfl

/-- The thread of a reply is what it names itself, or that of the slot. -/
theorem threadTs_eq (hints : ThreadHints) (address : Address) (answered : ParsedUpdate)
    (hint : ThreadHint) :
    threadTs hints (address.conversation answered) (address.replyTo hint) =
      (address.explicit answered hint).or (hints (threadHintKey answered.conversation)) := by
  unfold threadTs Address.explicit
  rw [threadHintKey_conversation, Option.or_assoc]

/-- **One step** keeps the replies in their threads exactly when it meets the condition. -/
theorem inThread_step (h : HintsKept config s) {event : ThreadEvent}
    (hstep : threadStep config s event = some s') :
    InThread config s' ↔ InThread config s ∧ Threaded config s event := by
  cases event with
  | inbound parse payload =>
    simp only [threadStep] at hstep
    split at hstep
    · cases hstep
      exact (and_iff_left trivial).symm
    · cases hstep
      exact (and_iff_left trivial).symm
  | reply m address =>
    simp only [threadStep] at hstep
    split at hstep
    · cases hstep
    · rename_i answered hanswered
      split at hstep
      · cases hstep
      · rename_i hint hhint
        cases hstep
        have hslot : Threaded config s (.reply m address) ↔
            (address.explicit answered hint).or (s.hints (threadHintKey answered.conversation)) =
              target config hint := by
          simp only [Threaded, hanswered, hhint, Option.mem_some_iff, forall_eq']
          cases address.explicit answered hint with
          | none => rw [Option.none_or, h]
          | some thread => exact eq_comm
        rw [hslot, ← threadTs_eq]
        unfold InThread
        rw [List.forall_mem_append, List.forall_mem_singleton]

end Slack

/-! ### Discord follow-ups -/

namespace Discord

structure Interaction where
  id : String
  token : String
  type : Nat
  channelId : Option String := none
  /-- `channel.id`. -/
  channel : Option String := none
  /-- It has a `user`, or a `member` with one. -/
  hasUser : Bool := true
  deriving DecidableEq

/-- The conversation of an interaction that `parseInteraction` takes. -/
def Interaction.conversationId (interaction : Interaction) : Option String :=
  if interaction.type ≠ 2 ∧ interaction.type ≠ 3 then none
  else
    match (interaction.channelId.or interaction.channel).getD "" with
    | "" => none
    | channelDiscordId => if interaction.hasUser then some channelDiscordId else none

structure PendingFollowup where
  interactionId : String
  token : String
  expiresAt : Int
  deriving DecidableEq

inductive PayloadKind where
  | text | rich | file | voice | template
  deriving DecidableEq

/-- `sendViaClient` has a call with the token for it. -/
def PayloadKind.followsUp : PayloadKind → Bool
  | .text | .rich => true
  | .file | .voice | .template => false

/-- `pendingFollowups`, for each conversation. -/
abbrev PendingFollowups := String → Option PendingFollowup

/-- The token for a send, which takes it; one that has expired is none. -/
def takeFollowup (pending : PendingFollowups) (conversationId : String) (now : Int) :
    Option PendingFollowup × PendingFollowups :=
  ((pending conversationId).filter fun entry => now ≤ entry.expiresAt,
    Function.update pending conversationId none)

/-- The time for which a token can be used. -/
def tokenWindow : Int := 15 * 60 * 1000

/-- What happened to the slot of a conversation: an interaction came in, or a send went out. -/
inductive Occurrence where
  | interaction (conversationId : String) (interaction : Interaction) (now : Int)
  | send (conversationId : String)

def Occurrence.conversationId : Occurrence → String
  | .interaction conversationId .. | .send conversationId => conversationId

/-- A send with a token; `answers` is the interaction it replies to. -/
structure Use where
  token : String
  answers : Option Interaction

structure Followups where
  pending : PendingFollowups := fun _ => none
  /-- The interactions whose acknowledgement is awaited. -/
  acking : List Interaction := []
  /-- The last first. -/
  history : List Occurrence := []
  uses : List Use := []

inductive FollowupEvent where
  | interaction (interaction : Interaction)
  /-- The acknowledgement is through, or has failed. -/
  | acked (interaction : Interaction) (now : Int)
  /-- `doSend`, from the look at the token on. -/
  | send (conversationId : String) (kind : PayloadKind) (answers : Option Interaction) (now : Int)

def followupStep (s : Followups) : FollowupEvent → Option Followups
  | .interaction interaction =>
    match interaction.conversationId with
    | none => some s
    | some _ => some { s with acking := s.acking ++ [interaction] }
  | .acked interaction now =>
    match interaction.conversationId with
    | none => none
    | some conversationId =>
      if interaction ∈ s.acking then
        some { s with
          acking := s.acking.erase interaction
          pending := Function.update s.pending conversationId
            (some ⟨interaction.id, interaction.token, now + tokenWindow⟩)
          history := .interaction conversationId interaction now :: s.history }
      else none
  | .send conversationId kind answers now =>
    let (followup, pending) := takeFollowup s.pending conversationId now
    let s := { s with pending := pending, history := .send conversationId :: s.history }
    match followup with
    | some followup =>
      if kind.followsUp then some { s with uses := s.uses ++ [⟨followup.token, answers⟩] }
      else some s
    | none => some s

/-- The interaction that the next send of the conversation finds: the last one, when nothing was
sent to the conversation since. -/
def waiting (conversationId : String) (history : List Occurrence) : Option (Interaction × Int) :=
  match history.find? fun occurrence => occurrence.conversationId = conversationId with
  | some (.interaction _ interaction now) => some (interaction, now)
  | _ => none

/-- A token is used once, and for a reply to its interaction. -/
structure TokensOwn (s : Followups) : Prop where
  once : (s.uses.map (·.token)).Nodup
  own : ∀ u ∈ s.uses, u.answers.map (·.token) = some u.token

/-- A message that finds an interaction waiting answers it, as the first one. -/
def Answering (s : Followups) : FollowupEvent → Prop
  | .send conversationId kind answers now => ∀ interaction since,
      waiting conversationId s.history = some (interaction, since) → now ≤ since + tokenWindow →
      kind.followsUp = true →
      answers.map (·.token) = some interaction.token ∧
        interaction.token ∉ s.uses.map (·.token)
  | _ => True

variable {s s' : Followups}

/-- The slot is that of the interaction that waits. -/
def PendingKept (s : Followups) : Prop :=
  ∀ conversationId, s.pending conversationId =
    (waiting conversationId s.history).map fun (interaction, since) =>
      ⟨interaction.id, interaction.token, since + tokenWindow⟩

theorem waiting_cons (conversationId : String) (occurrence : Occurrence)
    (history : List Occurrence) :
    waiting conversationId (occurrence :: history) =
      if occurrence.conversationId = conversationId then
        match occurrence with
        | .interaction _ interaction now => some (interaction, now)
        | .send _ => none
      else waiting conversationId history := by
  unfold waiting
  rw [List.find?_cons]
  by_cases h : occurrence.conversationId = conversationId
  · simp only [h, decide_true, if_true]
    cases occurrence <;> rfl
  · simp [h]

theorem pending_eq (h : PendingKept s) {event : FollowupEvent}
    (hstep : followupStep s event = some s') : PendingKept s' := by
  cases event with
  | interaction interaction =>
    simp only [followupStep] at hstep
    split at hstep <;> cases hstep <;> exact h
  | acked interaction now =>
    simp only [followupStep] at hstep
    split at hstep
    · cases hstep
    · rename_i conversationId _
      split at hstep
      · cases hstep
        intro other
        rw [waiting_cons]
        by_cases he : conversationId = other
        · subst he
          simp [Occurrence.conversationId]
        · simp [Occurrence.conversationId, he, Function.update_of_ne (Ne.symm he), h other]
      · cases hstep
  | send conversationId kind answers now =>
    have hkept : ∀ uses, PendingKept
        { s with
          pending := Function.update s.pending conversationId none
          history := .send conversationId :: s.history
          uses := uses } := by
      intro uses other
      rw [waiting_cons]
      by_cases he : conversationId = other
      · subst he
        simp [Occurrence.conversationId]
      · simp [Occurrence.conversationId, he, Function.update_of_ne (Ne.symm he), h other]
    simp only [followupStep, takeFollowup] at hstep
    split at hstep
    · split at hstep <;> cases hstep <;> exact hkept _
    · cases hstep
      exact hkept _

theorem tokensOwn_append (s : Followups) (pending : PendingFollowups)
    (history : List Occurrence) (u : Use) :
    TokensOwn { s with
      pending := pending
      history := history
      uses := s.uses ++ [u] } ↔
      TokensOwn s ∧ u.answers.map (·.token) = some u.token ∧ u.token ∉ s.uses.map (·.token) := by
  constructor
  · rintro ⟨honce, hown⟩
    rw [List.forall_mem_append, List.forall_mem_singleton] at hown
    rw [List.map_append, List.map_singleton, List.nodup_append'] at honce
    exact ⟨⟨honce.1, hown.1⟩, hown.2,
      fun hmem => honce.2.2 hmem (List.mem_singleton_self _)⟩
  · rintro ⟨⟨honce, hown⟩, hu, hnew⟩
    refine ⟨?_, List.forall_mem_append.mpr ⟨hown, List.forall_mem_singleton.mpr hu⟩⟩
    rw [List.map_append, List.map_singleton, List.nodup_append']
    exact ⟨honce, List.nodup_singleton _, List.disjoint_singleton.mpr hnew⟩

/-- **One step** keeps the tokens to their own exactly when it meets the condition. -/
theorem tokensOwn_step (h : PendingKept s) {event : FollowupEvent}
    (hstep : followupStep s event = some s') :
    TokensOwn s' ↔ TokensOwn s ∧ Answering s event := by
  cases event with
  | interaction interaction =>
    simp only [followupStep] at hstep
    split at hstep
    · cases hstep
      exact (and_iff_left trivial).symm
    · cases hstep
      exact ⟨fun hown => ⟨⟨hown.once, hown.own⟩, trivial⟩, fun hown => ⟨hown.1.once, hown.1.own⟩⟩
  | acked interaction now =>
    simp only [followupStep] at hstep
    split at hstep
    · cases hstep
    · split at hstep
      · cases hstep
        exact ⟨fun hown => ⟨⟨hown.once, hown.own⟩, trivial⟩,
          fun hown => ⟨hown.1.once, hown.1.own⟩⟩
      · cases hstep
  | send conversationId kind answers now =>
    have hquiet : Answering s (.send conversationId kind answers now) →
        ∀ pending history, TokensOwn
          { s with
            pending := pending
            history := history } ↔
          TokensOwn s ∧ Answering s (.send conversationId kind answers now) :=
      fun hanswering _ _ => ⟨fun hown => ⟨⟨hown.once, hown.own⟩, hanswering⟩,
        fun hown => ⟨hown.1.once, hown.1.own⟩⟩
    simp only [followupStep, takeFollowup, h conversationId] at hstep
    cases hwaiting : waiting conversationId s.history with
    | none =>
      rw [hwaiting] at hstep
      cases hstep
      exact hquiet (fun _ _ hw => by rw [hwaiting] at hw; cases hw) _ _
    | some entry =>
      obtain ⟨interaction, since⟩ := entry
      rw [hwaiting] at hstep
      by_cases hnow : now ≤ since + tokenWindow
      · cases hkind : kind.followsUp with
        | true =>
          simp only [Option.map_some, Option.filter_some, hnow, decide_true, if_true,
            hkind] at hstep
          cases hstep
          rw [tokensOwn_append]
          refine and_congr_right fun _ => ⟨?_, fun hanswering => ?_⟩
          · rintro hanswers interaction' since' hwaiting' - -
            rw [hwaiting] at hwaiting'
            cases hwaiting'
            exact hanswers
          · exact hanswering interaction since hwaiting hnow hkind
        | false =>
          simp only [Option.map_some, Option.filter_some, hnow, decide_true, if_true,
            hkind] at hstep
          cases hstep
          exact hquiet (fun _ _ _ _ hf => by rw [hkind] at hf; cases hf) _ _
      · simp only [Option.map_some, Option.filter_some, hnow, decide_false] at hstep
        cases hstep
        refine hquiet (fun _ _ hw hle _ => ?_) _ _
        rw [hwaiting] at hw
        cases hw
        exact absurd hle hnow

end Discord

/-! ### Both -/

/-- Mentions are answered in their own threads. -/
def threadedConfig : Slack.Config where
  eventsMode := true
  signingSecret := some "secret"
  threadOnMention := some .always
  options := { channelId := "slack-main" }

/-- A mention in a channel, at a time. -/
def mentioned (ts : String) : Slack.ThreadEvent :=
  .inbound ⟨"e" ++ ts, 0, fun _ => none, fun _ => none⟩
    (.eventCallback none (.appMention
      { ts := ts
        channel := "C1"
        raw := .null }))

def pressed (id : String) : Discord.Interaction where
  id := id
  token := "token of " ++ id
  type := 3
  channelId := some "D1"

end Declaragent.Channels
