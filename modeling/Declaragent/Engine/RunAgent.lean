import Declaragent.Engine.Messages
import Mathlib.Algebra.GroupWithZero.Nat

/-!
# Engine — the turn loop

`runAgent` runs one turn of a session: it appends the user message, then calls the provider up
to `maxIterations` times, appends each response, runs the tools the response calls, and appends
their results, until the response asks for no tool or something stops the turn.

What the collaborators answer is an input: a `Turn` holds, for each iteration, the provider's
response and what the spend cap, the abort signal and the session answer, and for each tool
block what the hooks, the permission gate, the prompter, the quota and the tool do.  Any of
them may throw where the source lets it.

* `callTool_id`, `runBlocks_ids`: the results of a batch answer its blocks in order.
* `runIteration_view`: what one iteration adds to the transcript.
* `paired_iff_clean`: after any turns on a well-formed transcript, the transcript is well formed
  if and only if every iteration that was reached is `Clean`.
-/

namespace Declaragent.Engine
open JsonText

/-! ### Tools -/

inductive ToolOutput where
  | undefined
  | text (text : String)
  | value (value : Json)

structure ToolError where
  message : String
  code : Option String := none

inductive ToolEvent where
  | progress (message : String)
  | result (output : ToolOutput)
  | error (error : ToolError)

/-- What `tool.execute` yields, and the message of what it throws in the end. -/
structure ToolRun where
  events : List ToolEvent
  throws : Option String := none

def stringifyOutput : ToolOutput → String
  | .text text => text
  | .undefined => ""
  | .value value => stringifyIndented value

def errorToolResult (id message : String) (code : Option String) : MessageContent :=
  let lead := match code with
    | none => ""
    | some code => if code = "" then "" else "[" ++ code ++ "] "
  .toolResult id (lead ++ message) (some true)

/-- The last output and the last error; an output that is `undefined` is none. -/
def drainToolEvents (run : ToolRun) : Except String (ToolOutput × Option ToolError) :=
  match run.throws with
  | some err => .error err
  | none => .ok (run.events.foldl (fun acc event => match event with
      | .progress _ => acc
      | .result output => (output, acc.2)
      | .error error => (acc.1, some error)) (.undefined, none))

/-! ### Hooks and permissions -/

inductive ToolCallOverride where
  | error (error : ToolError)
  | output (output : ToolOutput)

/-- What one subscriber of `tool.before` does. -/
inductive SubscriberReply where
  | passes
  | overrides (override : ToolCallOverride)
  | throws (err : String)

/-- `fire` at a before-style point: the first override ends the chain, and so does a throw. -/
def fire : List SubscriberReply → Except String (Option ToolCallOverride)
  | [] => .ok none
  | .passes :: subs => fire subs
  | .overrides override :: _ => .ok (some override)
  | .throws err :: _ => .error err

inductive PermissionOutcome where
  | allow | deny | prompt
  deriving DecidableEq

structure PermissionDecision where
  outcome : PermissionOutcome
  reason : Option String := none

def DEFAULT_DENIAL_ESCALATION : Nat := 3

def shouldEscalate (denialsInSession : Nat) : Bool :=
  decide (DEFAULT_DENIAL_ESCALATION ≤ denialsInSession)

/-- `quotas.acquireToolCall()`. -/
inductive QuotaReply where
  | granted
  | exceeded (message : String)
  | throws (err : String)

/-! ### One tool block -/

structure ToolUse where
  id : String
  name : String
  input : Json

/-- `response.content.filter(isToolUse)`. -/
def toolUseBlocks (content : List MessageContent) : List ToolUse :=
  content.filterMap fun block => match block with
    | .toolUse id name input => some ⟨id, name, input⟩
    | _ => none

/-- What the collaborators answer for one tool block; `denialsInSession` is what the gate counts
once the block was denied. -/
structure ToolReplies where
  aborted : Bool := false
  permissionKey : Except String String := .ok ""
  subscribers : List SubscriberReply := []
  check : Except String PermissionDecision := .ok { outcome := .allow }
  prompter : Except String Bool := .ok true
  denialsInSession : Nat := 0
  acquireToolCall : QuotaReply := .granted
  execute : ToolRun

structure EngineConfig where
  tools : List String
  maxIterations : Nat := 50
  prompter : Bool := false
  quotas : Bool := false

/-- How the block ends: with its result, with its result and an end of the batch, or with a
throw. -/
inductive BlockEnd where
  | answered (result : MessageContent)
  | escalated (result : MessageContent)
  | aborted (result : MessageContent)
  | threw (err : String)

def abortedResult (block : ToolUse) : MessageContent :=
  errorToolResult block.id "Turn aborted before execution" (some "EABORT")

/-- A denied call, with the reason of the gate. -/
def denyTool (block : ToolUse) (decision : PermissionDecision) (denialsInSession : Nat) :
    BlockEnd :=
  let result := errorToolResult block.id (decision.reason.getD "Permission denied") (some "EPERM")
  if shouldEscalate denialsInSession then .escalated result else .answered result

/-- The quota and the tool itself. -/
def executeTool (config : EngineConfig) (block : ToolUse) (replies : ToolReplies) : BlockEnd :=
  match (if config.quotas then replies.acquireToolCall else .granted) with
  | .throws err => .threw err
  | .exceeded message => .answered (errorToolResult block.id message (some "EQUOTA"))
  | .granted =>
    match drainToolEvents replies.execute with
    | .error err => .threw err
    | .ok (_, some error) => .answered (errorToolResult block.id error.message error.code)
    | .ok (output, none) => .answered (.toolResult block.id (stringifyOutput output) none)

/-- The permission gate, and the prompter where it asks. -/
def permitTool (config : EngineConfig) (block : ToolUse) (replies : ToolReplies) : BlockEnd :=
  match replies.check with
  | .error err => .threw err
  | .ok decision =>
    match decision.outcome with
    | .allow => executeTool config block replies
    | .deny => denyTool block decision replies.denialsInSession
    | .prompt =>
      if config.prompter then
        match replies.prompter with
        | .error err => .threw err
        | .ok true => executeTool config block replies
        | .ok false => denyTool block decision replies.denialsInSession
      else denyTool block decision replies.denialsInSession

/-- One turn of the inner loop, where the batch was not ended before. -/
def callTool (config : EngineConfig) (block : ToolUse) (replies : ToolReplies) : BlockEnd :=
  if replies.aborted then .aborted (abortedResult block)
  else if block.name ∉ config.tools then
    .answered (errorToolResult block.id ("Unknown tool: " ++ block.name) (some "ENOTOOL"))
  else
    match replies.permissionKey with
    | .error err =>
      .answered (errorToolResult block.id ("permissionKey failed: " ++ err) (some "EINVAL"))
    | .ok _ =>
      match fire replies.subscribers with
      | .error err => .threw err
      | .ok (some (.error error)) =>
        .answered (errorToolResult block.id error.message error.code)
      | .ok (some (.output output)) =>
        .answered (.toolResult block.id (stringifyOutput output) none)
      | .ok none => permitTool config block replies

/-- How a batch of tool blocks ends. -/
inductive BatchEnd where
  | completed
  | escalated
  | aborted
  deriving DecidableEq

/-- The inner loop: once the batch is escalated or aborted, the other blocks are answered
without being called. -/
def runBlocks (config : EngineConfig) (replies : Nat → ToolReplies) :
    Nat → List ToolUse → Except String (List MessageContent × BatchEnd)
  | _, [] => .ok ([], .completed)
  | j, block :: blocks =>
    match callTool config block (replies j) with
    | .threw err => .error err
    | .escalated result => .ok (result :: blocks.map abortedResult, .escalated)
    | .aborted result => .ok (result :: blocks.map abortedResult, .aborted)
    | .answered result =>
      match runBlocks config replies (j + 1) blocks with
      | .error err => .error err
      | .ok (results, batch) => .ok (result :: results, batch)

/-! ### One iteration -/

structure LLMResponse where
  content : List MessageContent
  stopReason : StopReason
  usage : TokenUsage
  model : String

/-- `quotas.addTokenSpendUSD(cost)`, where the call costs anything. -/
inductive SpendReply where
  | accepted
  | capped
  | throws (err : String)
  deriving DecidableEq

/-- What happens in one iteration; the two appends may throw. -/
structure Iteration where
  aborted : Bool := false
  complete : Except String LLMResponse
  appendAssistant : Option String := none
  spend : SpendReply := .accepted
  blocks : Nat → ToolReplies
  appendResults : Option String := none
  abortedAfter : Bool := false

inductive RunStopReason where
  | endTurn | maxIterations | aborted | error | permissionEscalated | quotaExceeded
  deriving DecidableEq

structure LoopState where
  transcript : List Message
  inputTokens : Nat := 0
  outputTokens : Nat := 0
  lastAssistantMessage : Option Message := none

def LoopState.append (s : LoopState) (m : Message) : LoopState :=
  { s with transcript := s.transcript ++ [m] }

inductive Next where
  | goesOn
  | stops (reason : RunStopReason)
  | throws (err : String)

def assistantMessage (response : LLMResponse) : Message where
  role := .assistant
  content := response.content
  info := some
    { model := some response.model
      stopReason := some response.stopReason
      usage := some response.usage }

def resultsMessage (results : List MessageContent) : Message :=
  { role := .user, content := results }

/-- The tools of a response, and the message of their results. -/
def runTools (config : EngineConfig) (it : Iteration) (response : LLMResponse) (s : LoopState) :
    LoopState × Next :=
  match runBlocks config it.blocks 0 (toolUseBlocks response.content) with
  | .error err => (s, .throws err)
  | .ok (results, batch) =>
    match results.isEmpty, it.appendResults with
    | false, some err => (s, .throws err)
    | empty, _ =>
      let s := if empty then s else s.append (resultsMessage results)
      match batch with
      | .escalated => (s, .stops .permissionEscalated)
      | .aborted => (s, .stops .aborted)
      | .completed => (s, if it.abortedAfter then .stops .aborted else .goesOn)

def runIteration (config : EngineConfig) (it : Iteration) (s : LoopState) : LoopState × Next :=
  if it.aborted then (s, .stops .aborted)
  else
    match it.complete with
    | .error err => (s, .throws err)
    | .ok response =>
      let s := { s with
        inputTokens := s.inputTokens + response.usage.inputTokens
        outputTokens := s.outputTokens + response.usage.outputTokens
        lastAssistantMessage := some (assistantMessage response) }
      match it.appendAssistant with
      | some err => (s, .throws err)
      | none =>
        let s := s.append (assistantMessage response)
        match (if config.quotas then it.spend else .accepted) with
        | .capped => (s, .stops .quotaExceeded)
        | .throws err => (s, .throws err)
        | .accepted =>
          match response.stopReason with
          | .toolUse => runTools config it response s
          | .error => (s, .stops .error)
          | .endTurn | .maxTokens | .stopSequence => (s, .stops .endTurn)

/-! ### A turn -/

/-- The outer loop, from iteration `k` with `n` iterations left. -/
def runLoop (config : EngineConfig) (iterations : Nat → Iteration) :
    Nat → Nat → LoopState → LoopState × RunStopReason × Option String
  | 0, _, s => (s, .maxIterations, none)
  | n + 1, k, s =>
    match runIteration config (iterations k) s with
    | (s, .goesOn) => runLoop config iterations n (k + 1) s
    | (s, .stops reason) => (s, reason, none)
    | (s, .throws err) => (s, .error, some err)

/-- One call of `runAgent` on the session, with what happens in it.  `mailbox` are the texts of
the drained events; the append of the user message and the mark of the turn may throw. -/
structure Turn where
  depth : Int := 0
  subagentDepthCap : Option Int := none
  maxIterations : Option Nat := none
  mailbox : List String := []
  userMessage : String
  appendUser : Option String := none
  iterations : Nat → Iteration
  markTurn : Option String := none

def DEFAULT_SUBAGENT_DEPTH_CAP : Int := 2

structure RunAgentResult where
  stopReason : RunStopReason
  inputTokens : Nat
  outputTokens : Nat
  lastAssistantMessage : Option Message
  error : Option String

def Turn.depthCap (turn : Turn) : Int := turn.subagentDepthCap.getD DEFAULT_SUBAGENT_DEPTH_CAP

def Turn.effectiveMaxIterations (turn : Turn) (config : EngineConfig) : Nat :=
  turn.maxIterations.getD config.maxIterations

/-- The result of the turn, or what it throws, and the transcript it leaves. -/
def runAgent (config : EngineConfig) (turn : Turn) (transcript : List Message) :
    Except String RunAgentResult × List Message :=
  if turn.depthCap < turn.depth then
    let err := "Sub-agent depth cap exceeded (depth=" ++ toString turn.depth ++ ", cap=" ++
      toString turn.depthCap ++ ")"
    (.ok ⟨.error, 0, 0, none, some err⟩, transcript)
  else
    let transcript := transcript ++ turn.mailbox.map userText
    match turn.appendUser with
    | some err => (.error err, transcript)
    | none =>
      let (s, stopReason, runError) := runLoop config turn.iterations
        (turn.effectiveMaxIterations config) 0
        { transcript := transcript ++ [userText turn.userMessage] }
      match turn.markTurn with
      | some err => (.error err, s.transcript)
      | none => (.ok ⟨stopReason, s.inputTokens, s.outputTokens, s.lastAssistantMessage,
          runError⟩, s.transcript)

/-- The turns of a session, one after the other. -/
def runTurns (config : EngineConfig) (turns : List Turn) (transcript : List Message) :
    List Message :=
  turns.foldl (fun transcript turn => (runAgent config turn transcript).2) transcript

/-! ### What a batch answers -/

/-- The result a block ends with. -/
def BlockEnd.result? : BlockEnd → Option MessageContent
  | .answered result | .escalated result | .aborted result => some result
  | .threw _ => none

/-- Whatever happens to a block, its result carries its id. -/
def BlockEnd.Answers (e : BlockEnd) (block : ToolUse) : Prop :=
  ∀ result, e.result? = some result → result.toolResultId? = some block.id

theorem answers_threw (block : ToolUse) (err : String) : (BlockEnd.threw err).Answers block := by
  intro result h
  cases h

theorem answers_answered {block : ToolUse} {result : MessageContent}
    (h : result.toolResultId? = some block.id) : (BlockEnd.answered result).Answers block := by
  rintro result' ⟨⟩
  exact h

theorem denyTool_answers (block : ToolUse) (decision : PermissionDecision) (n : Nat) :
    (denyTool block decision n).Answers block := by
  unfold denyTool
  dsimp only
  split
  · rintro result ⟨⟩
    rfl
  · exact answers_answered rfl

theorem executeTool_answers (config : EngineConfig) (block : ToolUse) (replies : ToolReplies) :
    (executeTool config block replies).Answers block := by
  unfold executeTool
  split
  · exact answers_threw _ _
  · exact answers_answered rfl
  · split
    · exact answers_threw _ _
    · exact answers_answered rfl
    · exact answers_answered rfl

theorem permitTool_answers (config : EngineConfig) (block : ToolUse) (replies : ToolReplies) :
    (permitTool config block replies).Answers block := by
  unfold permitTool
  split
  · exact answers_threw _ _
  · split
    · exact executeTool_answers _ _ _
    · exact denyTool_answers _ _ _
    · split
      · split
        · exact answers_threw _ _
        · exact executeTool_answers _ _ _
        · exact denyTool_answers _ _ _
      · exact denyTool_answers _ _ _

/-- **A block's result** carries the block's id. -/
theorem callTool_answers (config : EngineConfig) (block : ToolUse) (replies : ToolReplies) :
    (callTool config block replies).Answers block := by
  unfold callTool
  split
  · rintro result ⟨⟩
    rfl
  · split
    · exact answers_answered rfl
    · split
      · exact answers_answered rfl
      · split
        · exact answers_threw _ _
        · exact answers_answered rfl
        · exact answers_answered rfl
        · exact permitTool_answers _ _ _

theorem useIds_eq (content : List MessageContent) :
    useIds content = (toolUseBlocks content).map ToolUse.id := by
  unfold useIds toolUseBlocks
  rw [List.map_filterMap]
  congr 1
  funext block
  cases block <;> rfl

theorem resultIds_abortedResult (blocks : List ToolUse) :
    resultIds (blocks.map abortedResult) = blocks.map ToolUse.id := by
  induction blocks with
  | nil => rfl
  | cons block blocks ih =>
    rw [List.map_cons, List.map_cons, ← ih]
    rfl

theorem resultIds_cons {result : MessageContent} {id : String} (results : List MessageContent)
    (h : result.toolResultId? = some id) :
    resultIds (result :: results) = id :: resultIds results :=
  List.filterMap_cons_some h

/-- **A batch answers its blocks**, in their order, whichever way it ends. -/
theorem runBlocks_ids {config : EngineConfig} {replies : Nat → ToolReplies} :
    ∀ {blocks : List ToolUse} {j : Nat} {results : List MessageContent} {batch : BatchEnd},
      runBlocks config replies j blocks = .ok (results, batch) →
        resultIds results = blocks.map ToolUse.id := by
  intro blocks
  induction blocks with
  | nil =>
    intro j results batch h
    cases h
    rfl
  | cons block blocks ih =>
    intro j results batch h
    have hans := callTool_answers config block (replies j)
    unfold runBlocks at h
    split at h
    · cases h
    · rename_i result hend
      cases h
      rw [resultIds_cons _ (hans result (by rw [hend]; rfl)), resultIds_abortedResult]
      rfl
    · rename_i result hend
      cases h
      rw [resultIds_cons _ (hans result (by rw [hend]; rfl)), resultIds_abortedResult]
      rfl
    · rename_i result hend
      split at h
      · cases h
      · rename_i results' batch' hrest
        cases h
        rw [resultIds_cons _ (hans result (by rw [hend]; rfl)), ih hrest]
        rfl

/-! ### When an iteration leaves the transcript well formed -/

/-- No call of the batch throws, as far as the batch is called. -/
def Returns (config : EngineConfig) (replies : Nat → ToolReplies) : Nat → List ToolUse → Prop
  | _, [] => True
  | j, block :: blocks =>
    match callTool config block (replies j) with
    | .threw _ => False
    | .escalated _ | .aborted _ => True
    | .answered _ => Returns config replies (j + 1) blocks

/-- Every block of the batch is called, and none throws, escalates or aborts. -/
def Completes (config : EngineConfig) (replies : Nat → ToolReplies) : Nat → List ToolUse → Prop
  | _, [] => True
  | j, block :: blocks =>
    match callTool config block (replies j) with
    | .answered _ => Completes config replies (j + 1) blocks
    | .threw _ | .escalated _ | .aborted _ => False

/-- The response of the iteration, if there is one and it gets into the transcript. -/
def Iteration.response? (it : Iteration) : Option LLMResponse :=
  if it.aborted then none
  else
    match it.complete, it.appendAssistant with
    | .ok response, none => some response
    | _, _ => none

/-- The response asks for its tools, no call that is reached throws, and neither the spend cap
nor the session stands between the calls and their results. -/
structure Answered (config : EngineConfig) (it : Iteration) (response : LLMResponse) : Prop where
  stopReason : response.stopReason = .toolUse
  spend : config.quotas → it.spend = .accepted
  returns : Returns config it.blocks 0 (toolUseBlocks response.content)
  appended : it.appendResults = none

/-- The response answers nothing, and if it calls anything, the calls have different ids and are
answered. -/
def Clean (config : EngineConfig) (it : Iteration) : Prop :=
  ∀ response, it.response? = some response → resultIds response.content = [] ∧
    (useIds response.content = [] ∨
      ((useIds response.content).Nodup ∧ Answered config it response))

/-- The loop goes on after the iteration. -/
def GoesOn (config : EngineConfig) (it : Iteration) : Prop :=
  ∃ response, it.response? = some response ∧ response.stopReason = .toolUse ∧
    (config.quotas → it.spend = .accepted) ∧
    Completes config it.blocks 0 (toolUseBlocks response.content) ∧
    (toolUseBlocks response.content = [] ∨ it.appendResults = none) ∧ it.abortedAfter = false

/-- Every iteration the turn reaches is clean. -/
def Turn.Clean (config : EngineConfig) (turn : Turn) : Prop :=
  turn.depth ≤ turn.depthCap → turn.appendUser = none →
    ∀ k, k < turn.effectiveMaxIterations config →
      (∀ j, j < k → GoesOn config (turn.iterations j)) → Engine.Clean config (turn.iterations k)

variable {config : EngineConfig} {replies : Nat → ToolReplies} {it : Iteration}

theorem runBlocks_isOk : ∀ {blocks : List ToolUse} {j : Nat},
    Returns config replies j blocks ↔ ∃ r, runBlocks config replies j blocks = .ok r := by
  intro blocks
  induction blocks with
  | nil => exact fun {_} => ⟨fun _ => ⟨_, rfl⟩, fun _ => trivial⟩
  | cons block blocks ih =>
    intro j
    unfold Returns runBlocks
    cases callTool config block (replies j) with
    | threw err => exact ⟨False.elim, fun ⟨_, h⟩ => by cases h⟩
    | escalated result => exact ⟨fun _ => ⟨_, rfl⟩, fun _ => trivial⟩
    | aborted result => exact ⟨fun _ => ⟨_, rfl⟩, fun _ => trivial⟩
    | answered result =>
      dsimp only
      rw [ih]
      cases runBlocks config replies (j + 1) blocks with
      | error err => exact ⟨fun ⟨_, h⟩ => (by cases h), fun ⟨_, h⟩ => by cases h⟩
      | ok r => exact ⟨fun _ => ⟨_, rfl⟩, fun _ => ⟨_, rfl⟩⟩

theorem runBlocks_completed : ∀ {blocks : List ToolUse} {j : Nat},
    Completes config replies j blocks ↔
      ∃ results, runBlocks config replies j blocks = .ok (results, .completed) := by
  intro blocks
  induction blocks with
  | nil => exact fun {_} => ⟨fun _ => ⟨_, rfl⟩, fun _ => trivial⟩
  | cons block blocks ih =>
    intro j
    unfold Completes runBlocks
    cases callTool config block (replies j) with
    | threw err => exact ⟨False.elim, fun ⟨_, h⟩ => by cases h⟩
    | escalated result => exact ⟨False.elim, fun ⟨_, h⟩ => by cases h⟩
    | aborted result => exact ⟨False.elim, fun ⟨_, h⟩ => by cases h⟩
    | answered result =>
      dsimp only
      rw [ih]
      cases runBlocks config replies (j + 1) blocks with
      | error err => exact ⟨fun ⟨_, h⟩ => (by cases h), fun ⟨_, h⟩ => by cases h⟩
      | ok r =>
        obtain ⟨results, batch⟩ := r
        constructor
        · rintro ⟨_, ⟨⟩⟩
          exact ⟨_, rfl⟩
        · rintro ⟨_, ⟨⟩⟩
          exact ⟨_, rfl⟩

/-! ### One iteration -/

/-- What one iteration adds to the transcript: nothing, the response alone, or the response and
the results of its calls. -/
inductive IterationView (config : EngineConfig) (it : Iteration) (s : LoopState)
    (r : LoopState × Next) : Prop where
  | silent (hr : it.response? = none) (ht : r.1.transcript = s.transcript)
      (hnext : r.2 ≠ .goesOn)
  | alone (response : LLMResponse) (hr : it.response? = some response)
      (ht : r.1.transcript = s.transcript ++ [assistantMessage response])
      (hopen : useIds response.content = [] ∨
        (¬ Answered config it response ∧ r.2 ≠ .goesOn))
  | answered (response : LLMResponse) (hr : it.response? = some response)
      (results : List MessageContent) (hids : resultIds results = useIds response.content)
      (ht : r.1.transcript =
        s.transcript ++ [assistantMessage response, resultsMessage results])
      (hans : Answered config it response)

theorem useIds_eq_nil {content : List MessageContent} (h : toolUseBlocks content = []) :
    useIds content = [] := by
  rw [useIds_eq, h]
  rfl

/-- A batch answers with no result exactly when there is no block. -/
theorem runBlocks_isEmpty {blocks : List ToolUse} {j : Nat} {results : List MessageContent}
    {batch : BatchEnd} (h : runBlocks config replies j blocks = .ok (results, batch)) :
    results.isEmpty = true ↔ blocks = [] := by
  have hlength : results = [] ↔ blocks = [] := by
    constructor
    · rintro rfl
      have hids := runBlocks_ids h
      exact List.map_eq_nil_iff.mp hids.symm
    · rintro rfl
      cases h
      rfl
  rw [List.isEmpty_iff, hlength]

/-- The tools of a response that got into the transcript. -/
theorem runTools_view {response : LLMResponse} {s t : LoopState}
    (hr : it.response? = some response) (hstop : response.stopReason = .toolUse)
    (hspend : config.quotas → it.spend = .accepted)
    (ht : t.transcript = s.transcript ++ [assistantMessage response]) :
    IterationView config it s (runTools config it response t) := by
  unfold runTools
  split
  · rename_i err hblocks
    refine .alone response hr ht (Or.inr ⟨fun hans => ?_, fun e => by cases e⟩)
    obtain ⟨r, hok⟩ := runBlocks_isOk.mp hans.returns
    rw [hblocks] at hok
    cases hok
  · rename_i results batch hblocks
    split
    · rename_i err hempty happend
      refine .alone response hr ht (Or.inr ⟨fun hans => ?_, fun e => by cases e⟩)
      rw [hans.appended] at happend
      cases happend
    · rename_i hno
      cases he : results.isEmpty with
      | true =>
        have hnone : useIds response.content = [] :=
          useIds_eq_nil ((runBlocks_isEmpty hblocks).mp he)
        rw [if_pos rfl]
        cases batch <;> exact .alone response hr ht (Or.inl hnone)
      | false =>
        have happend : it.appendResults = none :=
          Option.eq_none_iff_forall_ne_some.mpr fun err h => hno err he h
        have hans : Answered config it response :=
          ⟨hstop, hspend, runBlocks_isOk.mpr ⟨_, hblocks⟩, happend⟩
        have hids : resultIds results = useIds response.content := by
          rw [useIds_eq]
          exact runBlocks_ids hblocks
        have ht' : (t.append (resultsMessage results)).transcript =
            s.transcript ++ [assistantMessage response, resultsMessage results] := by
          simp [LoopState.append, ht]
        rw [if_neg (by simp)]
        cases batch <;> exact .answered response hr results hids ht' hans

/-- What the loop is told about the spend of an answered response. -/
theorem Answered.spendReply {response : LLMResponse} (h : Answered config it response) :
    (if config.quotas then it.spend else .accepted) = SpendReply.accepted := by
  split
  · rename_i hq
    exact h.spend hq
  · rfl

/-- **What an iteration adds**, by the branches of the loop's body. -/
theorem runIteration_view (config : EngineConfig) (it : Iteration) (s : LoopState) :
    IterationView config it s (runIteration config it s) := by
  unfold runIteration
  by_cases ha : it.aborted
  · rw [if_pos ha]
    exact .silent (by simp [Iteration.response?, ha]) rfl fun e => by cases e
  · rw [if_neg ha]
    cases hc : it.complete with
    | error err => exact .silent (by simp [Iteration.response?, ha, hc]) rfl fun e => by cases e
    | ok response =>
      cases happend : it.appendAssistant with
      | some err =>
        exact .silent (by simp [Iteration.response?, ha, hc, happend]) rfl
          fun e => by cases e
      | none =>
        have hr : it.response? = some response := by
          simp [Iteration.response?, ha, hc, happend]
        dsimp only
        split
        -- the response is stored before its spend is counted
        · rename_i hcap
          refine .alone response hr rfl (Or.inr ⟨fun hans => ?_, fun e => by cases e⟩)
          rw [hans.spendReply] at hcap
          cases hcap
        · rename_i err hcap
          refine .alone response hr rfl (Or.inr ⟨fun hans => ?_, fun e => by cases e⟩)
          rw [hans.spendReply] at hcap
          cases hcap
        · rename_i hspend
          have hspend' : config.quotas → it.spend = .accepted := fun hq => by
            rwa [if_pos hq] at hspend
          split
          · rename_i hstop
            exact runTools_view hr hstop hspend' rfl
          -- with any other stop reason the calls of the response are not looked at
          all_goals
            rename_i hstop
            refine .alone response hr rfl (Or.inr ⟨fun hans => ?_, fun e => by cases e⟩)
            rw [hans.stopReason] at hstop
            cases hstop

theorem assistantMessage_calls (response : LLMResponse) :
    (assistantMessage response).calls = useIds response.content := rfl

theorem assistantMessage_answers (response : LLMResponse) :
    (assistantMessage response).answers = resultIds response.content := rfl

/-- **One iteration** keeps the transcript well formed exactly when it is clean. -/
theorem runIteration_paired {s : LoopState} (h : Paired s.transcript) :
    Paired (runIteration config it s).1.transcript ↔ Clean config it := by
  cases runIteration_view config it s with
  | silent hr ht hnext =>
    rw [ht]
    exact iff_of_true h fun response hr' => by rw [hr] at hr'; cases hr'
  | alone response hr ht hopen =>
    have hclean : Clean config it ↔ resultIds response.content = [] ∧
        useIds response.content = [] := by
      constructor
      · intro hc
        obtain ⟨hres, huse⟩ := hc response hr
        refine ⟨hres, huse.elim id fun hans => ?_⟩
        exact hopen.elim id fun hnot => absurd hans.2 hnot.1
      · rintro ⟨hres, huse⟩ response' hr'
        rw [hr] at hr'
        cases hr'
        exact ⟨hres, Or.inl huse⟩
    rw [ht, h.append_iff, hclean, assistantMessage_calls, assistantMessage_answers]
  | answered response hr results hids ht hans =>
    have hclean : Clean config it ↔ resultIds response.content = [] ∧
        (useIds response.content).Nodup := by
      constructor
      · intro hc
        obtain ⟨hres, huse⟩ := hc response hr
        refine ⟨hres, huse.elim (fun e => ?_) fun hans => hans.1⟩
        rw [e]
        exact List.nodup_nil
      · rintro ⟨hres, hnodup⟩ response' hr'
        rw [hr] at hr'
        cases hr'
        exact ⟨hres, Or.inr ⟨hnodup, hans⟩⟩
    have hpair : Paired (s.transcript ++ [assistantMessage response, resultsMessage results]) ↔
        resultIds response.content = [] ∧ (useIds response.content).Nodup :=
      h.append_pair_iff rfl hids
    rw [ht, hpair, hclean]

variable (config it) in
/-- An iteration the loop goes on from leaves no call open, so a fault of it is for good. -/
theorem not_linked_of_goesOn {s : LoopState} (h : Paired s.transcript)
    (hgo : (runIteration config it s).2 = .goesOn) (hclean : ¬ Clean config it) :
    ¬ Linked (runIteration config it s).1.transcript := by
  intro hlinked
  refine hclean ((runIteration_paired h).mp ⟨hlinked, ?_⟩)
  cases runIteration_view config it s with
  | silent hr ht hnext => exact absurd hgo hnext
  | alone response hr ht hopen =>
    rw [ht, List.getLast?_concat]
    exact hopen.elim id fun hnot => absurd hgo hnot.2
  | answered response hr results hids ht hans =>
    rw [ht, List.getLast?_append]
    rfl

theorem runIteration_extends (config : EngineConfig) (it : Iteration) (s : LoopState) :
    ∃ more, (runIteration config it s).1.transcript = s.transcript ++ more := by
  cases runIteration_view config it s with
  | silent hr ht hnext => exact ⟨[], by rw [ht, List.append_nil]⟩
  | alone response hr ht hopen => exact ⟨_, ht⟩
  | answered response hr results hids ht hans => exact ⟨_, ht⟩

/-- When the loop goes on after the tools of a response. -/
theorem runTools_goesOn {response : LLMResponse} {t : LoopState} :
    (runTools config it response t).2 = .goesOn ↔
      Completes config it.blocks 0 (toolUseBlocks response.content) ∧
      (toolUseBlocks response.content = [] ∨ it.appendResults = none) ∧
      it.abortedAfter = false := by
  rw [runBlocks_completed]
  unfold runTools
  cases hblocks : runBlocks config it.blocks 0 (toolUseBlocks response.content) with
  | error err => exact ⟨fun e => by (cases e), fun ⟨⟨_, h⟩, _⟩ => by cases h⟩
  | ok r =>
    obtain ⟨results, batch⟩ := r
    have hempty := runBlocks_isEmpty hblocks
    have hcompleted : (∃ results', (Except.ok (results, batch) : Except String _) =
        .ok (results', .completed)) ↔ batch = .completed :=
      ⟨by rintro ⟨_, ⟨⟩⟩; rfl, by rintro rfl; exact ⟨_, rfl⟩⟩
    rw [hcompleted, ← hempty]
    dsimp only
    split
    · rename_i err he happend
      refine ⟨fun e => by (cases e), fun ⟨_, h, _⟩ => ?_⟩
      rw [he, happend] at h
      rcases h with h | h <;> cases h
    · rename_i hno
      have happended : results.isEmpty = true ∨ it.appendResults = none := by
        cases he : results.isEmpty with
        | true => exact Or.inl rfl
        | false => exact Or.inr (Option.eq_none_iff_forall_ne_some.mpr fun err h => hno err he h)
      cases batch with
      | escalated => exact ⟨fun e => by (cases e), fun ⟨h, _⟩ => by cases h⟩
      | aborted => exact ⟨fun e => by (cases e), fun ⟨h, _⟩ => by cases h⟩
      | completed =>
        cases it.abortedAfter with
        | true => exact ⟨fun e => by (cases e), fun ⟨_, _, h⟩ => by cases h⟩
        | false => exact ⟨fun _ => ⟨rfl, happended, rfl⟩, fun _ => rfl⟩

/-- **When the loop goes on** after an iteration, whatever the transcript. -/
theorem runIteration_goesOn (config : EngineConfig) (it : Iteration) (s : LoopState) :
    (runIteration config it s).2 = .goesOn ↔ GoesOn config it := by
  unfold runIteration GoesOn
  by_cases ha : it.aborted
  · rw [if_pos ha]
    exact ⟨fun e => by (cases e), fun ⟨_, h, _⟩ => by simp [Iteration.response?, ha] at h⟩
  · rw [if_neg ha]
    cases hc : it.complete with
    | error err =>
      exact ⟨fun e => by (cases e), fun ⟨_, h, _⟩ => by
        simp [Iteration.response?, ha, hc] at h⟩
    | ok response =>
      cases happend : it.appendAssistant with
      | some err =>
        exact ⟨fun e => by (cases e), fun ⟨_, h, _⟩ => by
          simp [Iteration.response?, ha, hc, happend] at h⟩
      | none =>
        have hr : it.response? = some response := by
          simp [Iteration.response?, ha, hc, happend]
        have hspend : (if config.quotas then it.spend else .accepted) = SpendReply.accepted ↔
            (config.quotas → it.spend = .accepted) := by
          by_cases hq : config.quotas <;> simp [hq]
        rw [hr]
        simp only [Option.some.injEq, exists_eq_left']
        rw [← hspend]
        split
        · rename_i hcap
          exact ⟨fun e => by (cases e), fun ⟨_, h, _⟩ => by rw [hcap] at h; cases h⟩
        · rename_i err hcap
          exact ⟨fun e => by (cases e), fun ⟨_, h, _⟩ => by rw [hcap] at h; cases h⟩
        · rename_i haccepted
          rw [haccepted]
          cases hstop : response.stopReason with
          | toolUse =>
            rw [runTools_goesOn]
            exact ⟨fun h => ⟨rfl, rfl, h⟩, fun h => h.2.2⟩
          | error | endTurn | maxTokens | stopSequence =>
            exact ⟨fun e => by (cases e), fun ⟨h, _⟩ => by cases h⟩

/-! ### Turns -/

/-- Every iteration reached from `k` on, of at most `n`, is clean. -/
def CleanFrom (config : EngineConfig) (iterations : Nat → Iteration) (n k : Nat) : Prop :=
  ∀ j, j < n → (∀ i, i < j → GoesOn config (iterations (k + i))) →
    Clean config (iterations (k + j))

/-- The first iteration, and the others if the loop gets to them. -/
theorem cleanFrom_succ {iterations : Nat → Iteration} {n k : Nat} :
    CleanFrom config iterations (n + 1) k ↔ Clean config (iterations k) ∧
      (GoesOn config (iterations k) → CleanFrom config iterations n (k + 1)) := by
  constructor
  · intro h
    refine ⟨h 0 (by omega) fun i hi => absurd hi (by omega), fun hgo j hj hreach => ?_⟩
    have hclean := h (j + 1) (by omega) fun i hi => by
      cases i with
      | zero => exact hgo
      | succ i => rw [show k + (i + 1) = k + 1 + i by omega]; exact hreach i (by omega)
    rwa [show k + (j + 1) = k + 1 + j by omega] at hclean
  · rintro ⟨hfirst, hrest⟩ j hj hreach
    cases j with
    | zero => exact hfirst
    | succ j =>
      have hclean := hrest (hreach 0 (by omega)) j (by omega) fun i hi => by
        rw [show k + 1 + i = k + (i + 1) by omega]
        exact hreach (i + 1) (by omega)
      rwa [show k + 1 + j = k + (j + 1) by omega] at hclean

theorem runLoop_extends (config : EngineConfig) (iterations : Nat → Iteration) :
    ∀ (n k : Nat) (s : LoopState),
      ∃ more, (runLoop config iterations n k s).1.transcript = s.transcript ++ more := by
  intro n
  induction n with
  | zero => exact fun k s => ⟨[], by simp [runLoop]⟩
  | succ n ih =>
    intro k s
    obtain ⟨more, hmore⟩ := runIteration_extends config (iterations k) s
    unfold runLoop
    rcases hr : runIteration config (iterations k) s with ⟨t, _ | _ | _⟩
    · obtain ⟨more', hmore'⟩ := ih (k + 1) t
      rw [hr] at hmore
      exact ⟨more ++ more', by dsimp only at hmore ⊢; rw [hmore', hmore, List.append_assoc]⟩
    · rw [hr] at hmore
      exact ⟨more, hmore⟩
    · rw [hr] at hmore
      exact ⟨more, hmore⟩

/-- **The loop** keeps the transcript well formed exactly when the iterations it reaches are
clean.  By induction on the iterations left; an iteration that is not clean and that the loop
goes on from has broken the transcript for good. -/
theorem runLoop_paired (config : EngineConfig) (iterations : Nat → Iteration) :
    ∀ (n k : Nat) (s : LoopState), Paired s.transcript →
      (Paired (runLoop config iterations n k s).1.transcript ↔
        CleanFrom config iterations n k) := by
  intro n
  induction n with
  | zero => exact fun k s h => iff_of_true h fun j hj => absurd hj (by omega)
  | succ n ih =>
    intro k s h
    have hstep : Paired (runIteration config (iterations k) s).1.transcript ↔
        Clean config (iterations k) := runIteration_paired h
    have hgoesOn := runIteration_goesOn config (iterations k) s
    have hbroken := not_linked_of_goesOn config (iterations k) h
    rw [cleanFrom_succ]
    unfold runLoop
    rcases hr : runIteration config (iterations k) s with ⟨t, _ | _ | _⟩
    · rw [hr] at hstep hgoesOn hbroken
      have hgo : GoesOn config (iterations k) := hgoesOn.mp rfl
      dsimp only at hstep hbroken ⊢
      by_cases hclean : Clean config (iterations k)
      · rw [ih (k + 1) t (hstep.mpr hclean)]
        exact ⟨fun hrest => ⟨hclean, fun _ => hrest⟩, fun hrest => hrest.2 hgo⟩
      · -- what the later iterations append does not mend it
        refine iff_of_false (fun hp => ?_) fun hrest => hclean hrest.1
        obtain ⟨more, hmore⟩ := runLoop_extends config iterations n (k + 1) t
        have hlinked := hp.linked
        rw [hmore] at hlinked
        exact hbroken rfl hclean hlinked.of_append
    all_goals
      rw [hr] at hstep hgoesOn
      have hno : ¬ GoesOn config (iterations k) := fun hgo => by
        have hnext := hgoesOn.mpr hgo
        cases hnext
      -- the loop ends here, so no later iteration is reached
      dsimp only at hstep ⊢
      rw [hstep]
      exact ⟨fun hclean => ⟨hclean, fun hgo => absurd hgo hno⟩, fun hrest => hrest.1⟩

/-- The drained messages call and answer nothing. -/
theorem Paired.append_userTexts {transcript : List Message} (h : Paired transcript)
    (texts : List String) : Paired (transcript ++ texts.map userText) := by
  induction texts generalizing transcript with
  | nil => simpa using h
  | cons text texts ih =>
    have hone : Paired (transcript ++ [userText text]) := h.append_iff.mpr ⟨rfl, rfl⟩
    rw [List.map_cons, List.append_cons]
    exact ih hone

/-- A transcript that is not well formed stays so, whatever user texts and messages follow. -/
theorem not_paired_append {transcript : List Message} (h : ¬ Paired transcript)
    {more : List Message} (hmore : ∀ m ∈ more.head?, m.answers = []) :
    ¬ Paired (transcript ++ more) := by
  intro hp
  cases more with
  | nil => exact h (by simpa using hp)
  | cons m more =>
    have hlinked : Linked (transcript ++ [m]) := by
      have hl := hp.linked
      rw [List.append_cons] at hl
      exact hl.of_append
    have hm : m.answers = [] := hmore m rfl
    -- either the fault is before the end, or a call was open there and `m` leaves it open
    by_cases hopen : callsOf transcript.getLast? = []
    · exact h ⟨(linked_append.mp hlinked).1, hopen⟩
    · exact not_linked_of_open hopen hm hlinked

/-- **A turn** on a well-formed transcript. -/
theorem runAgent_paired (config : EngineConfig) (turn : Turn) {transcript : List Message}
    (h : Paired transcript) :
    Paired (runAgent config turn transcript).2 ↔ turn.Clean config := by
  have hmailbox := h.append_userTexts turn.mailbox
  unfold runAgent Turn.Clean
  by_cases hdepth : turn.depthCap < turn.depth
  · rw [if_pos hdepth]
    exact iff_of_true h fun hle => absurd hle (by omega)
  · rw [if_neg hdepth]
    cases happend : turn.appendUser with
    | some err => exact iff_of_true hmailbox fun _ hnone => by cases hnone
    | none =>
      have huser : Paired (transcript ++ turn.mailbox.map userText ++
          [userText turn.userMessage]) := hmailbox.append_iff.mpr ⟨rfl, rfl⟩
      have hloop := runLoop_paired config turn.iterations
        (turn.effectiveMaxIterations config) 0 ⟨_, 0, 0, none⟩ huser
      have hclean : CleanFrom config turn.iterations (turn.effectiveMaxIterations config) 0 ↔
          (turn.depth ≤ turn.depthCap → none = (none : Option String) →
            ∀ k, k < turn.effectiveMaxIterations config →
              (∀ j, j < k → GoesOn config (turn.iterations j)) →
                Clean config (turn.iterations k)) := by
        unfold CleanFrom
        simp only [Nat.zero_add]
        exact ⟨fun hc _ _ => hc, fun hc => hc (by omega) trivial⟩
      rw [← hclean, ← hloop]
      dsimp only
      cases turn.markTurn <;> rfl

/-- A turn on a transcript that is not well formed does not mend it. -/
theorem runAgent_not_paired (config : EngineConfig) (turn : Turn) {transcript : List Message}
    (h : ¬ Paired transcript) : ¬ Paired (runAgent config turn transcript).2 := by
  have hextends : ∃ more, (runAgent config turn transcript).2 = transcript ++ more ∧
      ∀ m ∈ more.head?, m.answers = [] := by
    unfold runAgent
    split
    · exact ⟨[], by simp, fun m hm => by cases hm⟩
    · have hhead : ∀ m ∈ (turn.mailbox.map userText).head?, m.answers = [] := by
        intro m hm
        cases hbox : turn.mailbox with
        | nil => rw [hbox] at hm; cases hm
        | cons text texts => rw [hbox] at hm; cases hm; rfl
      cases turn.appendUser with
      | some err => exact ⟨_, rfl, hhead⟩
      | none =>
        obtain ⟨more, hmore⟩ := runLoop_extends config turn.iterations
          (turn.effectiveMaxIterations config) 0
          ⟨transcript ++ turn.mailbox.map userText ++ [userText turn.userMessage], 0, 0, none⟩
        refine ⟨turn.mailbox.map userText ++ userText turn.userMessage :: more, ?_, ?_⟩
        · dsimp only
          cases turn.markTurn <;> (dsimp only; rw [hmore]; simp)
        · intro m hm
          cases hbox : turn.mailbox with
          | nil => rw [hbox] at hm; cases hm; rfl
          | cons text texts => rw [hbox] at hm; cases hm; rfl
  obtain ⟨more, hmore, hhead⟩ := hextends
  rw [hmore]
  exact not_paired_append h hhead

/-- **The transcript is well formed exactly when the turns were clean.**  For any turns of a
session on a transcript that is well formed, whatever the provider, the hooks, the gate, the
prompter, the quotas and the tools do: each call is answered once right after it, and nothing
else is, if and only if in every iteration reached the response answers nothing itself and
either calls nothing, or calls under different ids and gets its results: it stops for its
tools, neither the spend cap nor the session stops it, and no call reached throws. -/
theorem paired_iff_clean (config : EngineConfig) (turns : List Turn) {transcript : List Message}
    (h : Paired transcript) :
    Paired (runTurns config turns transcript) ↔ ∀ turn ∈ turns, turn.Clean config := by
  have hbroken : ∀ (turns : List Turn) (transcript : List Message), ¬ Paired transcript →
      ¬ Paired (runTurns config turns transcript) := by
    intro turns
    induction turns with
    | nil => exact fun _ h => h
    | cons turn turns ih => exact fun _ h => ih _ (runAgent_not_paired config turn h)
  induction turns generalizing transcript with
  | nil => exact iff_of_true h fun turn hmem => by cases hmem
  | cons turn turns ih =>
    have hturn := runAgent_paired config turn h
    rw [List.forall_mem_cons]
    by_cases hclean : turn.Clean config
    · exact (ih (hturn.mpr hclean)).trans
        ⟨fun hrest => ⟨hclean, hrest⟩, fun hrest => hrest.2⟩
    · exact iff_of_false (hbroken turns _ fun hp => hclean (hturn.mp hp)) fun hrest =>
        hclean hrest.1

/-! ### One tool call -/

/-- The provider calls one tool, then ends the turn. -/
def oneCall (replies : ToolReplies) : Nat → Iteration
  | 0 =>
    { complete := .ok
        { content := [.toolUse "t1" "Read" .null]
          stopReason := .toolUse
          usage := { inputTokens := 1, outputTokens := 1 }
          model := "m" }
      blocks := fun _ => replies }
  | _ =>
    { complete := .ok
        { content := [.text "done"]
          stopReason := .endTurn
          usage := { inputTokens := 1, outputTokens := 1 }
          model := "m" }
      blocks := fun _ => replies }

def oneTurn (replies : ToolReplies) : Turn :=
  { userMessage := "go", iterations := oneCall replies }

/-- A `tool.before` hook that throws leaves the call open. -/
theorem not_paired_of_hook : ¬ ∀ (config : EngineConfig) (turns : List Turn),
    Paired (runTurns config turns []) := by
  intro h
  have hp := h { tools := ["Read"] }
    [oneTurn { subscribers := [.throws "denied by policy"], execute := ⟨[], none⟩ }]
  exact absurd hp.closed (by decide)

theorem paired_iff_clean_call :
    Paired (runTurns { tools := ["Read"] }
      [oneTurn { execute := ⟨[.result (.text "ok")], none⟩ }] []) := by
  refine (paired_iff_clean _ _ paired_nil).mpr fun turn hturn => ?_
  obtain rfl := List.mem_singleton.mp hturn
  intro _ _ k _ _ response hresponse
  cases k with
  | zero =>
    cases hresponse
    refine ⟨rfl, Or.inr ⟨List.nodup_singleton _, rfl, fun hq => by (cases hq), ?_, rfl⟩⟩
    simp [Returns, toolUseBlocks, oneCall, oneTurn, callTool, fire, permitTool, executeTool,
      drainToolEvents]
  | succ k =>
    cases hresponse
    exact ⟨rfl, Or.inl rfl⟩

/-! ### What a turn reports -/

/-- The response of the provider, if the iteration gets to it. -/
def Iteration.reply? (it : Iteration) : Option LLMResponse :=
  if it.aborted then none else it.complete.toOption

/-- The responses of `m` iterations from `k` on. -/
def repliesOf (iterations : Nat → Iteration) (k m : Nat) : List LLMResponse :=
  (List.range' k m).filterMap fun i => (iterations i).reply?

/-- From `s` to `t` the loop counts the responses. -/
structure Counts (s t : LoopState) (replies : List LLMResponse) : Prop where
  input : t.inputTokens = s.inputTokens + (replies.map (·.usage.inputTokens)).sum
  output : t.outputTokens = s.outputTokens + (replies.map (·.usage.outputTokens)).sum
  last : t.lastAssistantMessage =
    (replies.getLast?.map assistantMessage).or s.lastAssistantMessage

/-- Of `n` iterations from `k` on the loop takes `m`: it goes on from all of them but the last
one, and from that one only if none is left. -/
structure Takes (config : EngineConfig) (iterations : Nat → Iteration) (n k m : Nat) : Prop where
  le : m ≤ n
  goesOn : ∀ i, i + 1 < m → GoesOn config (iterations (k + i))
  ends : m < n → ∃ i, m = i + 1 ∧ ¬ GoesOn config (iterations (k + i))

/-- A turn of `m` iterations reports the tokens of every response it got and the last of them, and
that it ran out of iterations exactly if it would have gone on from each it may take. -/
structure Reports (config : EngineConfig) (turn : Turn) (result : RunAgentResult) (m : Nat) :
    Prop where
  takes : Takes config turn.iterations (turn.effectiveMaxIterations config) 0 m
  input : result.inputTokens =
    ((repliesOf turn.iterations 0 m).map (·.usage.inputTokens)).sum
  output : result.outputTokens =
    ((repliesOf turn.iterations 0 m).map (·.usage.outputTokens)).sum
  last : result.lastAssistantMessage =
    (repliesOf turn.iterations 0 m).getLast?.map assistantMessage
  cap : result.stopReason = .maxIterations ↔
    ∀ i, i < turn.effectiveMaxIterations config → GoesOn config (turn.iterations i)

theorem Counts.refl (s : LoopState) : Counts s s [] := ⟨rfl, rfl, rfl⟩

theorem Counts.trans {s t u : LoopState} {replies replies' : List LLMResponse}
    (h : Counts s t replies) (h' : Counts t u replies') : Counts s u (replies ++ replies') where
  input := by rw [h'.input, h.input, List.map_append, List.sum_append, Nat.add_assoc]
  output := by rw [h'.output, h.output, List.map_append, List.sum_append, Nat.add_assoc]
  last := by
    rw [h'.last, h.last, List.getLast?_append, ← Option.or_assoc]
    cases replies'.getLast? <;> rfl

/-- The tools count nothing, and do not run out of iterations. -/
theorem runTools_counts (config : EngineConfig) (it : Iteration) (response : LLMResponse)
    (s : LoopState) : Counts s (runTools config it response s).1 [] ∧
      (runTools config it response s).2 ≠ .stops .maxIterations := by
  unfold runTools
  split
  · exact ⟨.refl s, fun e => by cases e⟩
  · rename_i results batch hblocks
    split
    · exact ⟨.refl s, fun e => by cases e⟩
    · cases results.isEmpty <;> cases batch <;> cases it.abortedAfter <;>
        exact ⟨⟨rfl, rfl, rfl⟩, fun e => by cases e⟩

/-- **One iteration** counts its response, also if the session or the spend cap stops it. -/
theorem runIteration_counts (config : EngineConfig) (it : Iteration) (s : LoopState) :
    Counts s (runIteration config it s).1 it.reply?.toList ∧
      (runIteration config it s).2 ≠ .stops .maxIterations := by
  unfold runIteration Iteration.reply?
  split
  · exact ⟨.refl s, fun e => by cases e⟩
  · cases it.complete with
    | error err => exact ⟨.refl s, fun e => by cases e⟩
    | ok response =>
      have hcounted : ∀ transcript, Counts s
          { s with
            transcript
            inputTokens := s.inputTokens + response.usage.inputTokens
            outputTokens := s.outputTokens + response.usage.outputTokens
            lastAssistantMessage := some (assistantMessage response) } [response] :=
        fun transcript => ⟨by simp, by simp, rfl⟩
      cases it.appendAssistant with
      | some err => exact ⟨hcounted _, fun e => by cases e⟩
      | none =>
        dsimp only
        split
        · exact ⟨hcounted _, fun e => by cases e⟩
        · exact ⟨hcounted _, fun e => by cases e⟩
        · split
          · obtain ⟨htools, hne⟩ := runTools_counts config it response
              (LoopState.append _ (assistantMessage response))
            exact ⟨(hcounted _).trans htools, hne⟩
          all_goals exact ⟨hcounted _, fun e => by cases e⟩

/-- **The loop**, by induction on the iterations left. -/
theorem runLoop_counts (config : EngineConfig) (iterations : Nat → Iteration) (n : Nat) :
    ∀ (k : Nat) (s : LoopState), ∃ m, Takes config iterations n k m ∧
      Counts s (runLoop config iterations n k s).1 (repliesOf iterations k m) ∧
      ((runLoop config iterations n k s).2.1 = .maxIterations ↔
        ∀ i, i < n → GoesOn config (iterations (k + i))) := by
  induction n with
  | zero =>
    intro k s
    exact ⟨0, ⟨Nat.le_refl 0, fun i hi => absurd hi (Nat.not_lt_zero _), fun hi =>
      absurd hi (Nat.not_lt_zero _)⟩, .refl s, iff_of_true rfl fun i hi =>
      absurd hi (Nat.not_lt_zero i)⟩
  | succ n ih =>
    intro k s
    obtain ⟨hcounts, hreason⟩ := runIteration_counts config (iterations k) s
    have hgoesOn := runIteration_goesOn config (iterations k) s
    have hfirst : repliesOf iterations k 1 = (iterations k).reply?.toList := by
      cases hreply : (iterations k).reply? <;> simp [repliesOf, hreply]
    have hshift (i : Nat) : k + 1 + i = k + (i + 1) := by omega
    have hlast (hno : ¬ GoesOn config (iterations k)) : Takes config iterations (n + 1) k 1 :=
      ⟨Nat.le_add_left 1 n, fun i hi => absurd hi (by omega), fun _ => ⟨0, rfl, hno⟩⟩
    unfold runLoop
    rcases hr : runIteration config (iterations k) s with ⟨t, _ | reason | err⟩
    · rw [hr] at hcounts hgoesOn
      have hgo : GoesOn config (iterations k) := hgoesOn.mp rfl
      obtain ⟨m, htakes, hrest, hcap⟩ := ih (k + 1) t
      refine ⟨m + 1, ⟨Nat.succ_le_succ htakes.le, fun i hi => ?_, fun hm => ?_⟩, ?_, ?_⟩
      · cases i with
        | zero => exact hgo
        | succ i =>
          rw [← hshift]
          exact htakes.goesOn i (Nat.lt_of_succ_lt_succ hi)
      · obtain ⟨i, rfl, hno⟩ := htakes.ends (Nat.lt_of_succ_lt_succ hm)
        exact ⟨i + 1, rfl, hshift i ▸ hno⟩
      · have hsplit : repliesOf iterations k (m + 1) =
            repliesOf iterations k 1 ++ repliesOf iterations (k + 1) m := by
          rw [repliesOf, List.range'_succ, ← List.singleton_append, List.filterMap_append]
          rfl
        rw [hsplit, hfirst]
        exact hcounts.trans hrest
      · rw [hcap, Nat.forall_lt_succ_left]
        simp only [hshift, Nat.add_zero, hgo, true_and]
    all_goals
      rw [hr] at hcounts hgoesOn hreason
      have hno : ¬ GoesOn config (iterations k) := fun hgo => by cases hgoesOn.mpr hgo
      refine ⟨1, hlast hno, hfirst ▸ hcounts, iff_of_false ?_ fun h => hno (h 0 n.succ_pos)⟩
      rintro ⟨⟩
    exact hreason rfl

/-- **The report of a turn** that is not too deep, whatever stops it. -/
theorem runAgent_reports (config : EngineConfig) (turn : Turn) (transcript : List Message)
    {result : RunAgentResult} (hdepth : turn.depth ≤ turn.depthCap)
    (h : (runAgent config turn transcript).1 = .ok result) :
    ∃ m, Reports config turn result m := by
  unfold runAgent at h
  rw [if_neg (Int.not_lt.mpr hdepth)] at h
  dsimp only at h
  split at h
  · cases h
  · obtain ⟨m, htakes, hcounts, hcap⟩ := runLoop_counts config turn.iterations
      (turn.effectiveMaxIterations config) 0
      { transcript := transcript ++ turn.mailbox.map userText ++ [userText turn.userMessage] }
    split at h
    · cases h
    · obtain rfl := Except.ok.inj h
      exact ⟨m, htakes, by simpa using hcounts.input, by simpa using hcounts.output,
        by simpa using hcounts.last, by simpa using hcap⟩

theorem runAgent_reports_call : ∃ m result, Reports { tools := ["Read"] }
    (oneTurn { execute := ⟨[.result (.text "ok")], none⟩ }) result m := by
  obtain ⟨m, hm⟩ := runAgent_reports { tools := ["Read"] }
    (oneTurn { execute := ⟨[.result (.text "ok")], none⟩ }) [] (by decide) rfl
  exact ⟨m, _, hm⟩

end Declaragent.Engine
