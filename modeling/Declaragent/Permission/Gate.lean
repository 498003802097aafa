import Declaragent.Engine.RunAgent
import Declaragent.Permission.Glob

/-!
# Permission — the gate

`check` decides one tool call from the rules of the gate, its mode and the call's key: a deny rule
that matches beats everything, then the mode says what an allow rule is worth.

* `check_allow_iff`: what the gate allows.
* `deny_respected_iff`: when a deny rule that matches the key, in the documented meaning of its
  glob, keeps the call from being allowed.
-/

namespace Declaragent.Permission
open JsonText RegExp

inductive PermissionMode where
  | default | plan | bypass | auto
  deriving DecidableEq

inductive RuleDecision where
  | allow | deny
  deriving DecidableEq

structure PermissionRule where
  pattern : JsString
  decision : RuleDecision

structure GateConfig where
  mode : PermissionMode
  rules : List PermissionRule
  escalateAfterDenials : Option Nat := none

structure PermissionDecision extends Engine.PermissionDecision where
  matchedRule : Option PermissionRule := none

/-- The code units of a text. -/
def codeUnits (s : String) : JsString := (utf16 s).map UInt16.ofNat

/-- The first rule with the decision that matches. -/
def findMatch (rules : List PermissionRule) (decision : RuleDecision) (value : JsString) :
    Option PermissionRule :=
  rules.find? fun rule => rule.decision = decision && globMatches rule.pattern value

/-- `${toolName}:${key}`. -/
def permissionTarget (toolName key : JsString) : JsString := toolName ++ unit ':' :: key

def check (config : GateConfig) (toolName key : JsString) (readonly : Bool) :
    PermissionDecision :=
  let target := permissionTarget toolName key
  match findMatch config.rules .deny target with
  | some rule =>
    { outcome := .deny, matchedRule := some rule, reason := some "matched deny rule" }
  | none =>
    let allowRule := findMatch config.rules .allow target
    match config.mode with
    | .bypass =>
      match allowRule with
      | some rule => { outcome := .allow, matchedRule := some rule }
      | none => { outcome := .allow, reason := some "bypass mode" }
    | .plan =>
      if readonly then
        match allowRule with
        | some rule => { outcome := .allow, matchedRule := some rule }
        | none => { outcome := .prompt, reason := some "plan mode: read-only tool" }
      else { outcome := .deny, reason := some "plan mode: writes are disabled" }
    | .auto | .default =>
      match allowRule with
      | some rule => { outcome := .allow, matchedRule := some rule }
      | none => { outcome := .prompt, reason := some "no matching rule" }

namespace Bash

def name : JsString := codeUnits "Bash"

/-- The whole command. -/
def permissionKey (command : JsString) : JsString := command

end Bash

/-! ### What is allowed -/

section
variable {config : GateConfig} {toolName key target : JsString} {readonly : Bool}

/-- A rule with the decision has a compiled glob that matches. -/
def Matches (rules : List PermissionRule) (decision : RuleDecision) (target : JsString) : Prop :=
  ∃ rule ∈ rules, rule.decision = decision ∧ globMatches rule.pattern target = true

theorem findMatch_eq_none {rules : List PermissionRule} {decision : RuleDecision} :
    findMatch rules decision target = none ↔ ¬ Matches rules decision target := by
  unfold findMatch Matches
  rw [List.find?_eq_none]
  simp

/-- What the gate would allow without its deny rules. -/
def Grants (config : GateConfig) (target : JsString) (readonly : Bool) : Prop :=
  config.mode = .bypass ∨
    Matches config.rules .allow target ∧ (config.mode = .plan → readonly = true)

/-- **What is allowed.** -/
theorem check_allow_iff : (check config toolName key readonly).outcome = .allow ↔
    ¬ Matches config.rules .deny (permissionTarget toolName key) ∧
      Grants config (permissionTarget toolName key) readonly := by
  unfold check Grants
  dsimp only
  cases hdeny : findMatch config.rules .deny (permissionTarget toolName key) with
  | some rule =>
    have hmatches : Matches config.rules .deny (permissionTarget toolName key) := by
      by_contra h
      rw [findMatch_eq_none.mpr h] at hdeny
      cases hdeny
    simp [hmatches]
  | none =>
    have hnot := findMatch_eq_none.mp hdeny
    cases hallow : findMatch config.rules .allow (permissionTarget toolName key) with
    | some rule =>
      have hmatches : Matches config.rules .allow (permissionTarget toolName key) := by
        by_contra h
        rw [findMatch_eq_none.mpr h] at hallow
        cases hallow
      cases config.mode <;> cases readonly <;> simp [hnot, hmatches]
    | none =>
      have hnone := findMatch_eq_none.mp hallow
      cases config.mode <;> cases readonly <;> simp [hnot, hnone]

/-! ### Deny rules -/

/-- A deny rule matches, in the documented meaning of its glob. -/
def Denied (config : GateConfig) (target : JsString) : Prop :=
  ∃ rule ∈ config.rules, rule.decision = .deny ∧ Glob rule.pattern target

/-- A deny rule matches with runs of `**` that hold no line terminator, or none matches, or the
gate would not allow the call without its deny rules. -/
def DenySeen (config : GateConfig) (target : JsString) (readonly : Bool) : Prop :=
  (∃ rule ∈ config.rules, rule.decision = .deny ∧ Words (parts dot rule.pattern) target) ∨
    ¬ Denied config target ∨ ¬ Grants config target readonly

end

/-- **A deny rule is respected.**  For every gate, tool, key and option: a deny rule that matches
keeps the call from being allowed if and only if the rule is seen. -/
theorem deny_respected_iff (config : GateConfig) (toolName key : JsString) (readonly : Bool) :
    (Denied config (permissionTarget toolName key) →
      (check config toolName key readonly).outcome ≠ .allow) ↔
    DenySeen config (permissionTarget toolName key) readonly := by
  have hmatches : (∃ rule ∈ config.rules, rule.decision = .deny ∧
      Words (parts dot rule.pattern) (permissionTarget toolName key)) ↔
      Matches config.rules .deny (permissionTarget toolName key) := by
    simp only [Matches, globMatches_iff]
  rw [Ne, check_allow_iff, DenySeen, hmatches]
  tauto

/-- A command of two lines, with `**` denied. -/
theorem newline_not_denied : ¬ ∀ (config : GateConfig) (command : JsString) (readonly : Bool),
    Denied config (permissionTarget Bash.name (Bash.permissionKey command)) →
      (check config Bash.name (Bash.permissionKey command) readonly).outcome ≠ .allow := by
  intro h
  refine h ⟨.bypass, [⟨codeUnits "**", .deny⟩], none⟩ (codeUnits "ls\nrm -rf x") false ?_ ?_
  · refine ⟨_, List.mem_singleton_self _, rfl, ?_⟩
    have hglob := Glob.doubleStar (permissionTarget Bash.name (codeUnits "ls\nrm -rf x")) .nil
    rwa [List.append_nil] at hglob
  · decide

end Declaragent.Permission
