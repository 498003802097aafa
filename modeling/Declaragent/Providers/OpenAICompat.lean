import Declaragent.Engine.Messages
import Declaragent.Library.JsValue
import Mathlib.Data.List.Count

/-!
# Providers — the OpenAI wire format

Two translations, of the transcript into the messages of a request and of a response into content.
The arguments of a call are a text on the wire and a value in the transcript, and the engine runs
the calls of a response only for the stop reason `tool_use`.

* `equivalent_iff`: which arguments a call has on its way back.
* `keepsCalls_iff`: which responses keep their calls.
* `followed_iff`: in which requests the results come right after their calls; `inPlace_of_paired`
  says that they do where each call is answered in the next user message.
-/

namespace Declaragent.Providers
open JsonText
open Engine (Role StopReason TokenUsage)

/-! ### The transcript -/

inductive MessageContent where
  | text (text : String)
  | toolUse (id name : String) (input : JsValue)
  | toolResult (toolUseId content : String) (isError : Option Bool)

structure Message where
  role : Role
  content : List MessageContent

structure LLMResponse where
  content : List MessageContent
  stopReason : StopReason
  usage : TokenUsage
  model : String

/-! ### The wire -/

structure OpenAIToolCall where
  id : String
  name : String
  arguments : String
  deriving DecidableEq

inductive OpenAIRole where
  | system | user | assistant | tool
  deriving DecidableEq

structure OpenAIMessage where
  role : OpenAIRole
  content : Option String
  toolCalls : Option (List OpenAIToolCall) := none
  toolCallId : Option String := none
  deriving DecidableEq

structure OpenAIChoice where
  content : Option String
  toolCalls : Option (List OpenAIToolCall) := none
  finishReason : Option String

structure OpenAIResponse where
  model : String
  choices : List OpenAIChoice
  usage : Option (Nat × Nat) := none

/-! ### Translation: ours to OpenAI -/

def MessageContent.text? : MessageContent → Option String
  | .text part => some part
  | _ => none

/-- `JSON.stringify(input ?? {})`. -/
def argumentsOf (input : JsValue) : String :=
  match input with
  | .undefined | .null => objectText []
  | input => (jsonText input).getD "undefined"

def MessageContent.toolCall? : MessageContent → Option OpenAIToolCall
  | .toolUse id name input => some ⟨id, name, argumentsOf input⟩
  | _ => none

def MessageContent.toolMessage? : MessageContent → Option OpenAIMessage
  | .toolResult toolUseId content _ =>
    some { role := .tool, toolCallId := some toolUseId, content := some content }
  | _ => none

def textParts (content : List MessageContent) : List String :=
  content.filterMap MessageContent.text?

def joined (content : List MessageContent) : String := String.intercalate "\n" (textParts content)

def assistantMessage (content : List MessageContent) : OpenAIMessage where
  role := .assistant
  content := if textParts content = [] then none else some (joined content)
  toolCalls :=
    if content.filterMap MessageContent.toolCall? = [] then none
    else some (content.filterMap MessageContent.toolCall?)

def toOpenAIMessage (m : Message) : List OpenAIMessage :=
  match m.role with
  | .user => m.content.filterMap MessageContent.toolMessage? ++
      if joined m.content = "" then [] else [{ role := .user, content := some (joined m.content) }]
  | .assistant => [assistantMessage m.content]
  | .system | .tool => []

def toOpenAIMessages (messages : List Message) : List OpenAIMessage :=
  messages.flatMap toOpenAIMessage

/-! ### Translation: OpenAI to ours -/

def mapFinishReason (reason : Option String) : StopReason :=
  if reason = some "tool_calls" then .toolUse
  else if reason = some "length" then .maxTokens
  else if reason = some "content_filter" then .stopSequence
  else .endTurn

section
variable (F : NumberFormat)

/-- Arguments that are no JSON stay the text that they are. -/
def inputOf (arguments : String) : JsValue := (jsonParse F arguments).getD (.str arguments)

def toolUseOf (tc : OpenAIToolCall) : MessageContent :=
  .toolUse tc.id tc.name (inputOf F tc.arguments)

def contentOf (choice : OpenAIChoice) : List MessageContent :=
  (match choice.content with
    | none | some "" => []
    | some text => [.text text]) ++ (choice.toolCalls.getD []).map (toolUseOf F)

def fromOpenAIResponse (response : OpenAIResponse) : Except String LLMResponse :=
  match response.choices with
  | [] => .error "OpenAI-compat response had no choices"
  | choice :: _ => .ok
      { content := contentOf F choice
        stopReason := mapFinishReason choice.finishReason
        usage :=
          { inputTokens := (response.usage.map Prod.fst).getD 0
            outputTokens := (response.usage.map Prod.snd).getD 0 }
        model := response.model }

/-! ### What is promised of a response -/

def MessageContent.isToolUse : MessageContent → Bool
  | .toolUse .. => true
  | _ => false

/-- The same text, or texts of the same value. -/
def Equivalent (s t : String) : Prop :=
  s = t ∨ ∃ v, jsonParse F s = some v ∧ jsonParse F t = some v

structure SameCall (tc tc' : OpenAIToolCall) : Prop where
  id : tc'.id = tc.id
  name : tc'.name = tc.name
  arguments : Equivalent F tc.arguments tc'.arguments

/-- **A response keeps its calls**: with a call in it, it stops for tools, and what is sent of it
in the next request is one message of the same text and the same calls. -/
def KeepsCalls (response : OpenAIResponse) : Prop :=
  ∀ mapped choice, fromOpenAIResponse F response = .ok mapped →
    response.choices.head? = some choice →
    (mapped.content.any MessageContent.isToolUse = true → mapped.stopReason = .toolUse) ∧
    ∃ m, toOpenAIMessages [⟨.assistant, mapped.content⟩] = [m] ∧
      m.content.getD "" = choice.content.getD "" ∧
      List.Forall₂ (SameCall F) (choice.toolCalls.getD []) (m.toolCalls.getD [])

/-- Arguments that are JSON, of a value that is not `null`, and has no number too large. -/
def Spoken (arguments : String) : Prop :=
  ∃ v, jsonParse F arguments = some v ∧ v ≠ .null ∧ v.Lossless

/-- The response names its calls as the reason it finished, and its arguments are spoken. -/
def CallsNamed (response : OpenAIResponse) : Prop :=
  ∀ choice, response.choices.head? = some choice →
    (choice.toolCalls.getD [] ≠ [] → choice.finishReason = some "tool_calls") ∧
    ∀ tc ∈ choice.toolCalls.getD [], Spoken F tc.arguments

end

/-! ### What is promised of a request -/

/-- The calls that the tool messages at the front are for. -/
def answered (messages : List OpenAIMessage) : List (Option String) :=
  (messages.takeWhile (·.role = .tool)).map OpenAIMessage.toolCallId

/-- **Calls are followed by their results**: exactly one tool message for each, right after. -/
def Followed : List OpenAIMessage → Prop
  | [] => True
  | m :: rest =>
    (∀ tc ∈ m.toolCalls.getD [], (answered rest).count (some tc.id) = 1) ∧ Followed rest

def MessageContent.toolUseId? : MessageContent → Option String
  | .toolUse id _ _ => some id
  | _ => none

def MessageContent.toolResultId? : MessageContent → Option String
  | .toolResult id _ _ => some id
  | _ => none

/-- The results of the user messages that come next, as long as they have no text; messages of
the system and of tools are passed over. -/
def answersAfter : List Message → List String
  | [] => []
  | m :: rest =>
    match m.role with
    | .user => m.content.filterMap MessageContent.toolResultId? ++
        if joined m.content = "" then answersAfter rest else []
    | .assistant => []
    | .system | .tool => answersAfter rest

/-- The calls of the assistant have one result each in the user messages that come next. -/
def InPlace : List Message → Prop
  | [] => True
  | m :: rest =>
    (m.role = .assistant → ∀ id ∈ m.content.filterMap MessageContent.toolUseId?,
      (answersAfter rest).count id = 1) ∧ InPlace rest

/-! ### Arguments -/

variable {F : RoundingFormat} {arguments : String}

theorem argumentsOf_of_toJson {input : JsValue} {j : Json} (hnull : input ≠ .null)
    (h : toJson input = some j) : argumentsOf input = stringify j := by
  unfold argumentsOf
  split
  · cases h
  · exact absurd rfl hnull
  · rw [jsonText, h]
    rfl

/-- **Arguments come back** just if they are spoken. -/
theorem equivalent_iff : Equivalent F.toNumberFormat arguments
      (argumentsOf (inputOf F.toNumberFormat arguments)) ↔
    Spoken F.toNumberFormat arguments := by
  have hread (input : JsValue) (hinput : inputOf F.toNumberFormat arguments = input)
      (hnull : input ≠ .null) (j : Json) (hj : toJson input = some j) :
      jsonParse F.toNumberFormat (argumentsOf (inputOf F.toNumberFormat arguments)) =
        some (evaluate F.toNumberFormat j) := by
    rw [hinput, argumentsOf_of_toJson hnull hj, jsonParse_stringify]
  cases hparse : jsonParse F.toNumberFormat arguments with
  | none =>
    have hinput : inputOf F.toNumberFormat arguments = .str arguments := by
      rw [inputOf, hparse]
      rfl
    refine iff_of_false ?_ ?_
    · rintro (heq | ⟨v, hv, -⟩)
      · have hback := hread _ hinput JsValue.noConfusion _ rfl
        rw [← heq, hparse] at hback
        cases hback
      · rw [hparse] at hv
        cases hv
    · rintro ⟨v, hv, -⟩
      rw [hparse] at hv
      cases hv
  | some value =>
    obtain ⟨read, -, hvalue⟩ := Option.map_eq_some_iff.mp hparse
    have hinput : inputOf F.toNumberFormat arguments = value := by
      rw [inputOf, hparse]
      rfl
    by_cases hnull : value = .null
    · rw [hnull] at hinput hparse
      have hback : jsonParse F.toNumberFormat
          (argumentsOf (inputOf F.toNumberFormat arguments)) = some (.obj []) := by
        rw [hinput]
        exact jsonParse_stringify _ (.obj [])
      refine iff_of_false ?_ ?_
      · rintro (heq | ⟨v, hv, hv'⟩)
        · rw [← heq, hparse] at hback
          cases hback
        · rw [hparse, Option.some.injEq] at hv
          rw [hback, ← hv] at hv'
          cases hv'
      · rintro ⟨v, hv, hne, -⟩
        rw [hparse, Option.some.injEq] at hv
        exact hne hv.symm
    · obtain ⟨j, hj⟩ : ∃ j, toJson value = some j := by
        refine Option.isSome_iff_exists.mp (Option.isSome_iff_ne_none.mpr fun hnone => ?_)
        have hdefined := evaluate_isUndefined (F := F.toNumberFormat) read
        rw [hvalue, toJson_eq_none.mp hnone] at hdefined
        cases hdefined
      have hback := hread value hinput hnull j hj
      have hproper : value.Proper F.toNumberFormat := hvalue ▸ evaluate_proper F read
      have hreread := reread_iff hproper
      rw [hj, Option.map_some] at hreread
      constructor
      · intro hequivalent
        refine ⟨value, hparse, hnull, hreread.mp ?_⟩
        rcases hequivalent with heq | ⟨v, hv, hv'⟩
        · rw [← heq, hparse] at hback
          exact hback.symm
        · rw [hparse] at hv
          rw [hback] at hv'
          exact hv'.trans hv.symm
      · rintro ⟨v, hv, -, hlossless⟩
        rw [hparse] at hv
        obtain rfl := Option.some.inj hv
        exact .inr ⟨value, hparse, hback.trans (hreread.mpr hlossless)⟩

/-! ### Responses -/

variable {choice : OpenAIChoice} {response : OpenAIResponse}

theorem mapFinishReason_eq {reason : Option String} :
    mapFinishReason reason = .toolUse ↔ reason = some "tool_calls" := by
  unfold mapFinishReason
  constructor
  · intro h
    by_contra hother
    rw [if_neg hother] at h
    split at h
    · cases h
    · split at h <;> cases h
  · intro h
    rw [if_pos h]

/-- The text of a choice, if it has one. -/
def textOf (choice : OpenAIChoice) : List String :=
  match choice.content with
  | none | some "" => []
  | some text => [text]

theorem contentOf_eq (F : NumberFormat) (choice : OpenAIChoice) :
    contentOf F choice = (textOf choice).map MessageContent.text ++
      (choice.toolCalls.getD []).map (toolUseOf F) := by
  rw [contentOf, textOf]
  split <;> rfl

theorem textParts_contentOf (F : NumberFormat) (choice : OpenAIChoice) :
    textParts (contentOf F choice) = textOf choice := by
  have htext : ((textOf choice).map MessageContent.text).filterMap MessageContent.text? =
      textOf choice := by
    rw [List.filterMap_map]
    exact List.filterMap_some
  have hcalls : ((choice.toolCalls.getD []).map (toolUseOf F)).filterMap MessageContent.text? =
      [] := by
    rw [List.filterMap_map]
    exact List.filterMap_eq_nil_iff.mpr fun _ _ => rfl
  rw [textParts, contentOf_eq, List.filterMap_append, htext, hcalls, List.append_nil]

theorem toolCalls_contentOf (F : NumberFormat) (choice : OpenAIChoice) :
    (contentOf F choice).filterMap MessageContent.toolCall? =
      (choice.toolCalls.getD []).map fun tc =>
        ⟨tc.id, tc.name, argumentsOf (inputOf F tc.arguments)⟩ := by
  have htext : ((textOf choice).map MessageContent.text).filterMap MessageContent.toolCall? =
      [] := by
    rw [List.filterMap_map]
    exact List.filterMap_eq_nil_iff.mpr fun _ _ => rfl
  have hcalls : ((choice.toolCalls.getD []).map (toolUseOf F)).filterMap
      MessageContent.toolCall? = (choice.toolCalls.getD []).map fun tc =>
        ⟨tc.id, tc.name, argumentsOf (inputOf F tc.arguments)⟩ := by
    rw [List.filterMap_map, ← List.filterMap_eq_map]
    rfl
  rw [contentOf_eq, List.filterMap_append, htext, hcalls, List.nil_append]

theorem any_contentOf (F : NumberFormat) (choice : OpenAIChoice) :
    (contentOf F choice).any MessageContent.isToolUse = true ↔ choice.toolCalls.getD [] ≠ [] := by
  have htext : ((textOf choice).map MessageContent.text).any MessageContent.isToolUse = false := by
    rw [List.any_map]
    exact List.any_eq_false.mpr fun _ _ => Bool.false_ne_true
  rw [contentOf_eq, List.any_append, htext, Bool.false_or]
  cases choice.toolCalls.getD [] with
  | nil => simp
  | cons tc tcs => simp [toolUseOf, MessageContent.isToolUse]

/-- What is sent of a choice in the next request. -/
theorem assistantMessage_contentOf (F : NumberFormat) (choice : OpenAIChoice) :
    ((assistantMessage (contentOf F choice)).content.getD "" = choice.content.getD "") ∧
      (assistantMessage (contentOf F choice)).toolCalls.getD [] =
        (choice.toolCalls.getD []).map fun tc =>
          ⟨tc.id, tc.name, argumentsOf (inputOf F tc.arguments)⟩ := by
  constructor
  · rw [assistantMessage, joined, textParts_contentOf, textOf]
    dsimp only
    split
    · rename_i hnone
      rw [hnone]
      rfl
    · rename_i hempty
      rw [hempty]
      rfl
    · rename_i text _ htext
      rw [htext]
      rw [if_neg (List.cons_ne_nil text []), String.intercalate_singleton]
  · rw [assistantMessage, toolCalls_contentOf]
    dsimp only
    split
    · rename_i hnone
      exact hnone.symm
    · rfl

/-- **Which responses keep their calls.** -/
theorem keepsCalls_iff (response : OpenAIResponse) :
    KeepsCalls F.toNumberFormat response ↔ CallsNamed F.toNumberFormat response := by
  have hcalls (choice : OpenAIChoice) : List.Forall₂ (SameCall F.toNumberFormat)
        (choice.toolCalls.getD [])
        ((choice.toolCalls.getD []).map fun tc =>
          ⟨tc.id, tc.name, argumentsOf (inputOf F.toNumberFormat tc.arguments)⟩) ↔
      ∀ tc ∈ choice.toolCalls.getD [], Spoken F.toNumberFormat tc.arguments := by
    rw [List.forall₂_map_right_iff, List.forall₂_same]
    refine forall₂_congr fun tc _ => ?_
    rw [← equivalent_iff]
    exact ⟨fun h => h.arguments, fun h => ⟨rfl, rfl, h⟩⟩
  unfold KeepsCalls CallsNamed fromOpenAIResponse
  cases response.choices with
  | nil => exact iff_of_true (fun _ _ h => by cases h) (fun _ h => by cases h)
  | cons first rest =>
    rw [List.head?_cons]
    constructor
    · intro h choice hchoice
      obtain rfl := Option.some.inj hchoice
      obtain ⟨hstops, m, hm, -, hsame⟩ := h _ first rfl rfl
      obtain rfl := (List.cons.inj hm).1
      rw [(assistantMessage_contentOf _ first).2, hcalls] at hsame
      refine ⟨fun hne => mapFinishReason_eq.mp (hstops ((any_contentOf _ first).mpr hne)), hsame⟩
    · intro h mapped choice hmapped hchoice
      obtain rfl := Option.some.inj hchoice
      obtain rfl := Except.ok.inj hmapped
      obtain ⟨hnamed, hspoken⟩ := h first rfl
      refine ⟨fun hany => mapFinishReason_eq.mpr (hnamed ((any_contentOf _ first).mp hany)),
        assistantMessage (contentOf F.toNumberFormat first), rfl,
        (assistantMessage_contentOf _ first).1, ?_⟩
      rw [(assistantMessage_contentOf _ first).2, hcalls]
      exact hspoken

/-! ### Requests -/

theorem toolMessages (content : List MessageContent) :
    ∀ m ∈ content.filterMap MessageContent.toolMessage?, m.role = .tool ∧ m.toolCalls = none := by
  intro m hm
  obtain ⟨c, -, hc⟩ := List.mem_filterMap.mp hm
  cases c with
  | toolResult id text isError =>
    obtain rfl := Option.some.inj hc
    exact ⟨rfl, rfl⟩
  | text | toolUse => cases hc

theorem toolCallIds (content : List MessageContent) :
    (content.filterMap MessageContent.toolMessage?).map OpenAIMessage.toolCallId =
      (content.filterMap MessageContent.toolResultId?).map some := by
  rw [List.map_filterMap, List.map_filterMap]
  congr 1
  funext c
  cases c <;> rfl

/-- The messages of a user have no calls, and neither have those of the system and of tools. -/
theorem toolCalls_toOpenAIMessage {m : Message} (hrole : m.role ≠ .assistant) :
    ∀ w ∈ toOpenAIMessage m, w.toolCalls = none := by
  intro w hw
  rw [toOpenAIMessage] at hw
  split at hw
  · rcases List.mem_append.mp hw with htool | htext
    · exact (toolMessages m.content w htool).2
    · split at htext
      · cases htext
      · rw [List.mem_singleton.mp htext]
  · contradiction
  · cases hw
  · cases hw

theorem answered_append {front : List OpenAIMessage} (h : ∀ w ∈ front, w.role = .tool)
    (rest : List OpenAIMessage) :
    answered (front ++ rest) = front.map OpenAIMessage.toolCallId ++ answered rest := by
  have hfront : ∀ w ∈ front, decide (w.role = .tool) = true :=
    fun w hw => decide_eq_true (h w hw)
  rw [answered, List.takeWhile_append_of_pos hfront, List.map_append, answered]

/-- The tool messages at the front are the results that come next. -/
theorem answered_toOpenAIMessages (messages : List Message) :
    answered (toOpenAIMessages messages) = (answersAfter messages).map some := by
  induction messages with
  | nil => rfl
  | cons m rest ih =>
    have hcons : toOpenAIMessages (m :: rest) = toOpenAIMessage m ++ toOpenAIMessages rest :=
      List.flatMap_cons
    rw [hcons, toOpenAIMessage, answersAfter]
    cases m.role with
    | user =>
      dsimp only
      rw [List.append_assoc, answered_append fun w hw => (toolMessages m.content w hw).1,
        toolCallIds, List.map_append]
      congr 1
      split
      · exact ih
      · rfl
    | assistant => rfl
    | system | tool => exact ih

theorem followed_append {front : List OpenAIMessage} (h : ∀ w ∈ front, w.toolCalls = none)
    (rest : List OpenAIMessage) : Followed (front ++ rest) ↔ Followed rest := by
  induction front with
  | nil => rfl
  | cons w front ih =>
    rw [List.cons_append, Followed, h w List.mem_cons_self,
      ih fun w' hw' => h w' (List.mem_cons_of_mem _ hw')]
    constructor
    · intro hf
      exact hf.2
    · intro hf
      refine ⟨fun tc htc => ?_, hf⟩
      cases htc

/-- The calls of an assistant message have the ids of its blocks. -/
theorem toolCalls_assistantMessage (content : List MessageContent) :
    ((assistantMessage content).toolCalls.getD []).map OpenAIToolCall.id =
      content.filterMap MessageContent.toolUseId? := by
  have hcalls : (assistantMessage content).toolCalls.getD [] =
      content.filterMap MessageContent.toolCall? := by
    rw [assistantMessage]
    dsimp only
    split
    · rename_i hnone
      exact hnone.symm
    · rfl
  rw [hcalls, List.map_filterMap]
  congr 1
  funext c
  cases c <;> rfl

/-- **In which requests calls are followed by their results.** -/
theorem followed_iff (messages : List Message) :
    Followed (toOpenAIMessages messages) ↔ InPlace messages := by
  induction messages with
  | nil => rfl
  | cons m rest ih =>
    have hcons : toOpenAIMessages (m :: rest) = toOpenAIMessage m ++ toOpenAIMessages rest :=
      List.flatMap_cons
    rw [hcons, InPlace, ← ih]
    by_cases hrole : m.role = .assistant
    · have hone : toOpenAIMessage m = [assistantMessage m.content] := by
        rw [toOpenAIMessage, hrole]
      have hcount (id : String) : (answered (toOpenAIMessages rest)).count (some id) =
          (answersAfter rest).count id := by
        rw [answered_toOpenAIMessages]
        exact List.count_map_of_injective (answersAfter rest) some
          (Option.some_injective String) id
      rw [hone, List.singleton_append, Followed, ← toolCalls_assistantMessage,
        List.forall_mem_map]
      simp only [hcount, hrole, true_imp_iff]
    · rw [followed_append (toolCalls_toOpenAIMessage hrole)]
      exact ⟨fun h => ⟨fun hassistant => absurd hassistant hrole, h⟩, fun h => h.2⟩

/-! ### Linked transcripts -/

/-- A block as the engine's transcript has it. -/
def MessageContent.toEngine : MessageContent → Engine.MessageContent
  | .text part => .text part
  | .toolUse id name input => .toolUse id name ((toJson input).getD .null)
  | .toolResult id content isError => .toolResult id content isError

def Message.toEngine (m : Message) : Engine.Message where
  role := m.role
  content := m.content.map MessageContent.toEngine

theorem resultIds_toEngine (content : List MessageContent) :
    Engine.resultIds (content.map MessageContent.toEngine) =
      content.filterMap MessageContent.toolResultId? := by
  rw [Engine.resultIds, List.filterMap_map]
  refine List.filterMap_congr fun c _ => ?_
  cases c <;> rfl

theorem useIds_toEngine (content : List MessageContent) :
    Engine.useIds (content.map MessageContent.toEngine) =
      content.filterMap MessageContent.toolUseId? := by
  rw [Engine.useIds, List.filterMap_map]
  refine List.filterMap_congr fun c _ => ?_
  cases c <;> rfl

/-- After a message without calls nothing is answered, up to the next assistant message. -/
theorem answersAfter_of_closed {rest : List Message} :
    ∀ {prev : Option Engine.Message},
      (prev :: (rest.map Message.toEngine).map some).IsChain Engine.Meets →
      Engine.callsOf prev = [] → answersAfter rest = [] := by
  induction rest with
  | nil => intro _ _ _; rfl
  | cons m rest ih =>
    intro prev hchain hclosed
    rw [List.map_cons, List.map_cons, List.isChain_cons_cons] at hchain
    obtain ⟨hmeets, hchain⟩ := hchain
    have hnone : m.content.filterMap MessageContent.toolResultId? = [] := by
      rw [← resultIds_toEngine]
      exact (Engine.meets_of_closed hclosed).mp hmeets
    have hcalls (hrole : m.role ≠ .assistant) : Engine.callsOf (some m.toEngine) = [] :=
      if_neg hrole
    rw [answersAfter]
    cases hrole : m.role with
    | user =>
      dsimp only
      rw [hnone, ih hchain (hcalls (by rw [hrole]; exact Role.noConfusion)), ite_self]
      rfl
    | assistant => rfl
    | system | tool => exact ih hchain (hcalls (by rw [hrole]; exact Role.noConfusion))

theorem inPlace_of_chain {messages : List Message} :
    ∀ {prev : Option Engine.Message},
      (prev :: (messages.map Message.toEngine).map some).IsChain Engine.Meets →
      Engine.callsOf (messages.map Message.toEngine).getLast? = [] → InPlace messages := by
  induction messages with
  | nil => intro _ _ _; trivial
  | cons m rest ih =>
    intro prev hchain hclosed
    rw [List.map_cons, List.map_cons, List.isChain_cons_cons] at hchain
    refine ⟨fun hrole id hid => ?_, ?_⟩
    · have hcall : id ∈ Engine.callsOf (some m.toEngine) := by
        have hcalls : Engine.callsOf (some m.toEngine) =
            Engine.useIds (m.content.map MessageContent.toEngine) := if_pos hrole
        rwa [hcalls, useIds_toEngine]
      cases rest with
      | nil =>
        have hnone : Engine.callsOf (some m.toEngine) = [] := hclosed
        rw [hnone] at hcall
        cases hcall
      | cons next rest =>
        obtain ⟨hmeets, hchain⟩ := List.isChain_cons_cons.mp hchain.2
        obtain ⟨⟨_, hnext, huser⟩, hcount⟩ := hmeets.answered id hcall
        obtain rfl := Option.some.inj hnext
        have huser : next.role = .user := huser
        have hafter : answersAfter rest = [] := by
          refine answersAfter_of_closed hchain (if_neg fun hassistant => ?_)
          cases huser.symm.trans hassistant
        have hresults : Engine.answersOf (some next.toEngine) =
            next.content.filterMap MessageContent.toolResultId? := resultIds_toEngine _
        rw [answersAfter, huser]
        dsimp only
        rwa [hafter, ite_self, List.append_nil, ← hresults]
    · refine ih hchain.2 ?_
      cases rest with
      | nil => rfl
      | cons => exact hclosed

/-- Where each call is answered in the next user message, the results are in place. -/
theorem inPlace_of_paired {messages : List Message}
    (h : Engine.Paired (messages.map Message.toEngine)) : InPlace messages :=
  inPlace_of_chain h.linked h.closed

/-! ### The translation -/

/-- **The wire keeps calls** in the responses that name them, with arguments that are spoken, and
in the requests whose results are in place, as in every transcript whose calls are answered in the
next user message. -/
theorem wire_keeps_iff (F : RoundingFormat) :
    (∀ response, KeepsCalls F.toNumberFormat response ↔ CallsNamed F.toNumberFormat response) ∧
      (∀ messages, Followed (toOpenAIMessages messages) ↔ InPlace messages) ∧
      ∀ messages, Engine.Paired (messages.map Message.toEngine) →
        Followed (toOpenAIMessages messages) :=
  ⟨keepsCalls_iff, followed_iff,
    fun messages h => (followed_iff messages).mpr (inPlace_of_paired h)⟩

/-- One call without arguments, in a response that says it just stopped. -/
def stoppedWithCall : OpenAIResponse where
  model := "llama3.1"
  choices := [{
    content := none
    toolCalls := some [⟨"call_1", "read", "\x7b\x7d"⟩]
    finishReason := some "stop" }]

/-- The call is in the content, and the turn is over. -/
theorem call_of_ended_turn : ¬ ∃ F : NumberFormat, KeepsCalls F stoppedWithCall := by
  rintro ⟨F, h⟩
  cases (h _ _ rfl rfl).1 rfl

end Declaragent.Providers
