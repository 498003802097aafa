import Declaragent.Library.Transition
import Declaragent.Permission.Gate

/-!
# Permission — escalation

The gate counts the denials that are recorded on it, and the engine ends a turn where the count
has reached its threshold when a call is refused.  The turns of any number of sessions that share
a gate interleave call by call: what a call does between recording its denial and looking at the
count is not interrupted.

* `callTool_escalated_iff`: what escalates a call.
* `escalation_per_session_iff`: in which runs a call is escalated for the denials of its own
  session.
-/

namespace Declaragent.Engine

/-! ### One call -/

/-- What becomes of a call before its tool would be run. -/
inductive Verdict where
  | notAsked
  | permitted
  | refused
  deriving DecidableEq

/-- The gate, and the prompter where it asks. -/
def permitVerdict (config : EngineConfig) (replies : ToolReplies) : Verdict :=
  match replies.check with
  | .error _ => .notAsked
  | .ok decision =>
    match decision.outcome with
    | .allow => .permitted
    | .deny => .refused
    | .prompt =>
      if config.prompter then
        match replies.prompter with
        | .error _ => .notAsked
        | .ok true => .permitted
        | .ok false => .refused
      else .refused

def verdict (config : EngineConfig) (block : ToolUse) (replies : ToolReplies) : Verdict :=
  if replies.aborted then .notAsked
  else if block.name ∉ config.tools then .notAsked
  else
    match replies.permissionKey, fire replies.subscribers with
    | .ok _, .ok none => permitVerdict config replies
    | _, _ => .notAsked

def QuotaReply.isExceeded : QuotaReply → Bool
  | .exceeded _ => true
  | _ => false

/-- The call is refused, or permitted and over the quota of tool calls: both are recorded. -/
def recordsDenial (config : EngineConfig) (block : ToolUse) (replies : ToolReplies) : Bool :=
  match verdict config block replies with
  | .refused => true
  | .permitted => config.quotas && replies.acquireToolCall.isExceeded
  | .notAsked => false

def BlockEnd.isEscalated : BlockEnd → Bool
  | .escalated _ => true
  | _ => false

theorem denyTool_escalated (block : ToolUse) (decision : PermissionDecision) (n : Nat) :
    (denyTool block decision n).isEscalated = shouldEscalate n := by
  unfold denyTool
  cases shouldEscalate n <;> rfl

theorem executeTool_not_escalated (config : EngineConfig) (block : ToolUse)
    (replies : ToolReplies) : (executeTool config block replies).isEscalated = false := by
  unfold executeTool
  split
  · rfl
  · rfl
  · split <;> rfl

theorem permitTool_escalated_iff (config : EngineConfig) (block : ToolUse)
    (replies : ToolReplies) : (permitTool config block replies).isEscalated = true ↔
      permitVerdict config replies = .refused ∧
        shouldEscalate replies.denialsInSession = true := by
  have hexecute := executeTool_not_escalated config block replies
  unfold permitTool permitVerdict
  cases replies.check with
  | error err => simp [BlockEnd.isEscalated]
  | ok decision =>
    dsimp only
    cases decision.outcome with
    | allow => simp [hexecute]
    | deny => simp [denyTool_escalated]
    | prompt =>
      dsimp only
      cases config.prompter with
      | false => simp [denyTool_escalated]
      | true =>
        cases replies.prompter with
        | error err => simp [BlockEnd.isEscalated]
        | ok permitted => cases permitted <;> simp [hexecute, denyTool_escalated]

/-- **What escalates a call**: it is refused, and the count has reached the threshold. -/
theorem callTool_escalated_iff (config : EngineConfig) (block : ToolUse) (replies : ToolReplies) :
    (callTool config block replies).isEscalated = true ↔
      verdict config block replies = .refused ∧
        shouldEscalate replies.denialsInSession = true := by
  unfold callTool verdict
  by_cases haborted : replies.aborted = true
  · simp [haborted, BlockEnd.isEscalated]
  by_cases htool : block.name ∉ config.tools
  · simp [haborted, htool, BlockEnd.isEscalated]
  rw [if_neg haborted, if_neg haborted, if_neg htool, if_neg htool]
  cases replies.permissionKey with
  | error err => simp [BlockEnd.isEscalated]
  | ok key =>
    cases fire replies.subscribers with
    | error err => simp [BlockEnd.isEscalated]
    | ok override =>
      cases override with
      | some override => cases override <;> simp [BlockEnd.isEscalated]
      | none => exact permitTool_escalated_iff config block replies

end Declaragent.Engine

namespace Declaragent.Permission
open Engine Transition

/-! ### Sessions on one gate -/

/-- The count of the gate, and the sessions whose denials it counts, in their order. -/
structure GateUse (ι : Type) where
  denials : Nat
  denied : List ι

def GateUse.init (ι : Type) : GateUse ι := ⟨0, []⟩

/-- A tool call of a session; the gate and its count answer in place of the replies' own. -/
structure SessionCall (ι : Type) where
  session : ι
  block : ToolUse
  readonly : Bool
  replies : ToolReplies

/-- `config.escalateAfterDenials ?? DEFAULT_DENIAL_ESCALATION`. -/
def GateConfig.escalateAfter (gate : GateConfig) : Nat :=
  gate.escalateAfterDenials.getD DEFAULT_DENIAL_ESCALATION

section
variable {ι : Type}

/-- What the call is answered on this gate. -/
def gateReplies (gate : GateConfig) (u : GateUse ι) (call : SessionCall ι) : ToolReplies :=
  { call.replies with
    check := call.replies.permissionKey.map fun key =>
      (check gate (codeUnits call.block.name) (codeUnits key) call.readonly).toPermissionDecision
    denialsInSession := u.denials + 1 }

/-- `recordDenial`, where the call comes to it. -/
def callStep (engine : EngineConfig) (gate : GateConfig) (u : GateUse ι) (call : SessionCall ι) :
    Option (GateUse ι) :=
  some (if recordsDenial engine call.block (gateReplies gate u call) then
    ⟨u.denials + 1, u.denied ++ [call.session]⟩ else u)

def Refused (engine : EngineConfig) (gate : GateConfig) (u : GateUse ι) (call : SessionCall ι) :
    Prop :=
  verdict engine call.block (gateReplies gate u call) = .refused

theorem callStep_counted {engine : EngineConfig} {gate : GateConfig} {u t : GateUse ι}
    {call : SessionCall ι} (h : u.denials = u.denied.length)
    (hstep : callStep engine gate u call = some t) : t.denials = t.denied.length := by
  cases hstep
  split
  · simp [h]
  · exact h

variable [DecidableEq ι]

/-- The call is escalated exactly when it is refused and its own session has `escalateAfter`
denials by then. -/
def EscalatesByOwn (engine : EngineConfig) (gate : GateConfig) (u : GateUse ι)
    (call : SessionCall ι) : Prop :=
  (callTool engine call.block (gateReplies gate u call)).isEscalated = true ↔
    Refused engine gate u call ∧ gate.escalateAfter ≤ u.denied.count call.session + 1

/-- Where the call is refused, the denials of all sessions have reached the built-in threshold
exactly when those of its own session have reached the configured one. -/
def CountsAgree (engine : EngineConfig) (gate : GateConfig) (u : GateUse ι)
    (call : SessionCall ι) : Prop :=
  Refused engine gate u call →
    (DEFAULT_DENIAL_ESCALATION ≤ u.denied.length + 1 ↔
      gate.escalateAfter ≤ u.denied.count call.session + 1)

variable {engine : EngineConfig} {gate : GateConfig} {u : GateUse ι} {call : SessionCall ι}

theorem escalatesByOwn_iff (h : u.denials = u.denied.length) :
    EscalatesByOwn engine gate u call ↔ CountsAgree engine gate u call := by
  unfold EscalatesByOwn CountsAgree Refused
  rw [callTool_escalated_iff]
  have hcount : shouldEscalate (gateReplies gate u call).denialsInSession = true ↔
      DEFAULT_DENIAL_ESCALATION ≤ u.denied.length + 1 := by
    rw [← h]
    exact decide_eq_true_iff
  rw [hcount]
  tauto

/-- **Escalation by session.**  For every run of calls of any sessions on one gate: each call is
escalated for the denials of its own session if and only if at each refused call the two counts
agree. -/
theorem escalation_per_session_iff (engine : EngineConfig) (gate : GateConfig)
    (calls : List (SessionCall ι)) (t : GateUse ι) :
    Run (callStep engine gate) (EscalatesByOwn engine gate) (.init ι) calls t ↔
      Run (callStep engine gate) (CountsAgree engine gate) (.init ι) calls t :=
  Run.congr (P := fun u => u.denials = u.denied.length) rfl fun _ _ _ hu hstep =>
    ⟨callStep_counted hu hstep, escalatesByOwn_iff hu⟩

end

/-! ### Which thresholds, and how many sessions -/

/-- A call that no rule and no prompter permits. -/
def unpermitted {ι : Type} (i : ι) : SessionCall ι :=
  ⟨i, ⟨"t1", "Bash", .null⟩, false, { execute := ⟨[], none⟩ }⟩

def toolEngine : EngineConfig := { tools := ["Bash"] }

section
variable {ι : Type}

theorem refused_unpermitted (n : Option Nat) (u : GateUse ι) (i : ι) :
    Refused toolEngine ⟨.default, [], n⟩ u (unpermitted i) := rfl

theorem run_unpermitted (n : Option Nat) (sessions : List ι) :
    Run (callStep toolEngine ⟨.default, [], n⟩) Any (.init ι) (sessions.map unpermitted)
      ⟨sessions.length, sessions⟩ := by
  induction sessions using List.reverseRecOn with
  | nil => exact .nil
  | append_singleton sessions i ih =>
    rw [List.map_append]
    refine .snoc ih trivial ?_
    rw [List.length_append]
    rfl

variable [DecidableEq ι]

end

/-- Two sessions on one gate: the one is escalated for the denials of the other. -/
theorem escalated_for_others : ¬ ∀ (engine : EngineConfig) (gate : GateConfig)
    (calls : List (SessionCall Bool)) (u : GateUse Bool),
    Run (callStep engine gate) Any (.init Bool) calls u → ∀ call,
      EscalatesByOwn engine gate u call := by
  intro h
  have hown := h toolEngine ⟨.default, [], none⟩ _ _ (run_unpermitted none [true, true])
    (unpermitted false)
  have hagree := (escalatesByOwn_iff rfl).mp hown (refused_unpermitted none _ _)
  exact absurd hagree (by decide)

end Declaragent.Permission
