import Declaragent.Library.Json

/-!
# Builder — applying a proposal, and undoing it

`DeclaraApplyChange` dispatches the steps of a confirmed proposal one after the other.  When one
fails it checks the paths out that the steps before it have reported, and `/undo` does so after all
of them have succeeded.

* What a step does to the files is a parameter, and so is a commit of the repository.
* `checkout`: all of the paths, or none where one is not in the commit.
* `atomic_iff`: the files come back exactly if the reported paths are as committed and nothing else
  has changed.
-/

namespace Declaragent.Builder
open JsonText

/-- The files of a working tree, or of a commit. -/
abbrev Files := String → Option String

structure Git where
  isRepo : Bool
  head : Option String
  commits : String → Files

/-- A tree that is no repository, or has no commit, has no head. -/
def captureHead (git : Git) : Option String := if git.isRepo then git.head else none

/-- `git checkout <commit> -- <paths>`, where the commit has all of the paths. -/
def checkout (git : Git) (commit : String) (paths : List String) (files : Files) : Option Files :=
  if paths.all fun path => (git.commits commit path).isSome then
    some fun path => if path ∈ paths then git.commits commit path else files path
  else none

/-! ### Proposals -/

inductive ProposalStatus where
  | pending | confirmed | rejected | expired | applied
  deriving DecidableEq

def ProposalStatus.text : ProposalStatus → String
  | .pending => "pending"
  | .confirmed => "confirmed"
  | .rejected => "rejected"
  | .expired => "expired"
  | .applied => "applied"

structure ProposalStep where
  kind : String
  payload : Json

structure Proposal where
  id : String
  steps : List ProposalStep
  status : ProposalStatus

structure AppliedProposalMeta where
  proposalId : String
  gitHeadBefore : Option String
  writes : List String
  appliedAt : Nat
  auditCorrelationId : String

structure ProposalRegistry where
  proposals : List Proposal := []
  lastAppliedMeta : Option AppliedProposalMeta := none

namespace ProposalRegistry
variable (registry : ProposalRegistry)

def get (id : String) : Option Proposal := registry.proposals.find? (·.id = id)

def setStatus (id : String) (status : ProposalStatus) : ProposalRegistry :=
  { registry with proposals := registry.proposals.map fun proposal =>
      if proposal.id = id then { proposal with status } else proposal }

/-- Only a confirmed proposal becomes an applied one. -/
def markApplied (id : String) (applied : AppliedProposalMeta) : ProposalRegistry :=
  match registry.get id with
  | some proposal =>
    if proposal.status = .confirmed then
      { registry.setStatus id .applied with lastAppliedMeta := some applied }
    else registry
  | none => registry

def clearLastApplied : ProposalRegistry := { registry with lastAppliedMeta := none }

end ProposalRegistry

/-! ### `DeclaraApplyChange` -/

structure ApplyStepResult where
  kind : String
  ok : Bool
  writes : List String := []
  error : Option String := none

structure ApplyChangeOutput where
  ok : Bool
  proposalId : String
  results : List ApplyStepResult
  gitHeadBefore : Option String
  auditCorrelationId : String
  rolledBack : Bool

/-- What the tool yields. -/
inductive ApplyChangeEvent where
  | error (code message : String)
  | result (output : ApplyChangeOutput)

/-- What surrounds the tool: the repository, what a step does to the files and comes to, before
which steps the turn is aborted, and what the clock and `randomUUID` give. -/
structure ApplyChangeContext where
  git : Git
  dispatchStep : ProposalStep → Files → Files × Except String ApplyStepResult
  aborted : Nat → Bool := fun _ => false
  appliedAt : Nat := 0
  auditCorrelationId : String := ""

/-- The variables of the loop over the steps. -/
structure ApplyRun where
  files : Files
  results : List ApplyStepResult := []
  writesAccumulated : List String := []
  failed : Bool := false

/-- The loop; `i` steps have been dispatched before. -/
def applySteps (ctx : ApplyChangeContext) : Nat → List ProposalStep → ApplyRun → ApplyRun
  | _, [], run => run
  | i, step :: steps, run =>
    if ctx.aborted i then
      { run with
        results := run.results ++ [
          { kind := step.kind, ok := false, error := some "aborted before dispatch" }]
        failed := true }
    else
      match ctx.dispatchStep step run.files with
      | (files, .error error) =>
        { run with
          files
          results := run.results ++ [{ kind := "unknown", ok := false, error := some error }]
          failed := true }
      | (files, .ok result) =>
        let run := { run with files, results := run.results ++ [result] }
        if result.ok then
          applySteps ctx (i + 1) steps
            { run with writesAccumulated := run.writesAccumulated ++ result.writes }
        else { run with failed := true }

/-- The proposal, if it is confirmed. -/
def confirmedProposal (id : String) : Option Proposal → Except (String × String) Proposal
  | none => .error ("E_BUILDER_VALIDATION", s!"no proposal with id {id}")
  | some proposal =>
    let status := proposal.status.text
    match proposal.status with
    | .rejected | .expired => .error ("E_BUILDER_CONFLICT",
        s!"proposal {proposal.id} is {status} — re-propose before applying")
    | .applied => .error ("E_BUILDER_CONFLICT",
        s!"proposal {proposal.id} has already been applied")
    | .pending => .error ("E_BUILDER_CONFLICT",
        s!"proposal {proposal.id} is {status} — needs /yes first")
    | .confirmed => .ok proposal

/-- The files after the paths that were reported are checked out, where that succeeds. -/
def rollback (git : Git) (run : ApplyRun) : Option Files :=
  if run.failed ∧ run.writesAccumulated ≠ [] then
    (captureHead git).bind fun head => checkout git head run.writesAccumulated run.files
  else none

def applyChange (ctx : ApplyChangeContext) (id : String) (registry : ProposalRegistry)
    (files : Files) : ApplyChangeEvent × ProposalRegistry × Files :=
  match confirmedProposal id (registry.get id) with
  | .error (code, message) => (.error code message, registry, files)
  | .ok proposal =>
    let run := applySteps ctx 0 proposal.steps { files }
    let rolledBack := rollback ctx.git run
    let registry :=
      if run.failed then registry
      else registry.markApplied id
        { proposalId := id
          gitHeadBefore := captureHead ctx.git
          writes := run.writesAccumulated
          appliedAt := ctx.appliedAt
          auditCorrelationId := ctx.auditCorrelationId }
    (.result
      { ok := !run.failed
        proposalId := id
        results := run.results
        gitHeadBefore := captureHead ctx.git
        auditCorrelationId := ctx.auditCorrelationId
        rolledBack := rolledBack.isSome },
      registry, rolledBack.getD run.files)

/-! ### `/undo` -/

structure RunUndoOutput where
  ok : Bool
  reverted : List String := []
  proposalId : Option String := none
  gitHeadBefore : Option String := none
  message : String

def runUndo (git : Git) (registry : ProposalRegistry) (files : Files) :
    RunUndoOutput × ProposalRegistry × Files :=
  match registry.lastAppliedMeta with
  | none =>
    ({ ok := false, message := "nothing to undo — no apply has landed in this session." },
      registry, files)
  | some last =>
    let id := last.proposalId
    if last.writes = [] then
      ({ ok := true
         proposalId := id
         message := s!"proposal {id} had no writes — nothing to revert." },
        registry.clearLastApplied, files)
    else if git.isRepo = false then
      ({ ok := false
         proposalId := id
         message := "working tree is not a git repo — /undo needs git to revert. Re-run the " ++
           "builder with git initialised, or manually edit the files back." },
        registry, files)
    else
      match last.gitHeadBefore with
      | none =>
        ({ ok := false
           proposalId := id
           message := "no git HEAD was captured for this apply — /undo cannot revert. " ++
             "(Phase 6 limitation; a snapshot fallback lands in v0.3.)" },
          registry, files)
      | some head =>
        let short := String.ofList (head.toList.take 7)
        match checkout git head last.writes files with
        | none =>
          ({ ok := false
             proposalId := id
             gitHeadBefore := head
             message := s!"git revert failed: git checkout {head} failed" },
            registry, files)
        | some reverted =>
          let count := last.writes.length
          ({ ok := true
             reverted := last.writes
             proposalId := id
             gitHeadBefore := head
             message := s!"reverted {count} path(s) to {short} (proposal {id})." },
            registry.clearLastApplied, reverted)

/-! ### Atomicity -/

/-- The files after the tool, and after an `/undo` that follows it. -/
def undone (ctx : ApplyChangeContext) (id : String) (registry : ProposalRegistry) (files : Files) :
    Files :=
  let (_, registry, files) := applyChange ctx id registry files
  (runUndo ctx.git registry files).2.2

/-- A failure that is rolled back, and a success that is undone, leave the files as they were. -/
def Atomic (ctx : ApplyChangeContext) (id : String) (registry : ProposalRegistry)
    (files : Files) : Prop :=
  ∀ output, (applyChange ctx id registry files).1 = .result output →
    (output.ok = false → output.rolledBack = true →
        (applyChange ctx id registry files).2.2 = files) ∧
      (output.ok = true → undone ctx id registry files = files)

/-- What steps do: the files they leave, the paths that those report which succeed, and whether all
of them do. -/
structure StepsEffect where
  files : Files
  reported : List String := []
  succeed : Bool := true

def stepsEffect (ctx : ApplyChangeContext) : Nat → List ProposalStep → Files → StepsEffect
  | _, [], files => { files }
  | i, step :: steps, files =>
    if ctx.aborted i then { files, succeed := false }
    else
      match ctx.dispatchStep step files with
      | (files, .error _) => { files, succeed := false }
      | (files, .ok result) =>
        if result.ok then
          let rest := stepsEffect ctx (i + 1) steps files
          { rest with reported := result.writes ++ rest.reported }
        else { files, succeed := false }

/-- Every path that was reported was as it is in the commit, and no other has changed. -/
def Restorable (commit before : Files) (effect : StepsEffect) : Prop :=
  (∀ path ∈ effect.reported, before path = commit path) ∧
    ∀ path, path ∉ effect.reported → effect.files path = before path

/-- The head, where its commit has all of the paths. -/
def headWith (git : Git) (paths : List String) : Option String :=
  (captureHead git).filter fun head => paths.all fun path => (git.commits head path).isSome

/-- The files with the paths as they are in a commit. -/
def restore (git : Git) (head : Option String) (paths : List String) (files : Files) : Files :=
  match head with
  | some head => fun path => if path ∈ paths then git.commits head path else files path
  | none => files

/-- What is asked of the files and of the steps: where every reported path is in the commit, that
the paths come back with it; where it is not, that a success has changed nothing. -/
def Recoverable (git : Git) (files : Files) (effect : StepsEffect) : Prop :=
  match headWith git effect.reported with
  | some head =>
    effect.succeed = true ∨ effect.reported ≠ [] → Restorable (git.commits head) files effect
  | none => effect.succeed = true → effect.files = files

variable {files : Files}

/-- The loop leaves what the steps do. -/
theorem applySteps_effect (ctx : ApplyChangeContext) : ∀ (i : Nat)
    (steps : List ProposalStep) (run : ApplyRun),
    let last := applySteps ctx i steps run
    let effect := stepsEffect ctx i steps run.files
    last.files = effect.files ∧
      last.writesAccumulated = run.writesAccumulated ++ effect.reported ∧
      last.failed = (run.failed || !effect.succeed)
  | _, [], run => ⟨rfl, (List.append_nil _).symm, (Bool.or_false _).symm⟩
  | i, step :: steps, run => by
      unfold applySteps stepsEffect
      dsimp only
      split
      · exact ⟨rfl, (List.append_nil _).symm, (Bool.or_true _).symm⟩
      · cases ctx.dispatchStep step run.files with
        | mk after outcome =>
          cases outcome with
          | error error => exact ⟨rfl, (List.append_nil _).symm, (Bool.or_true _).symm⟩
          | ok result =>
            dsimp only
            split
            · obtain ⟨hfiles, hwrites, hfailed⟩ := applySteps_effect ctx (i + 1) steps
                { run with
                  files := after
                  results := run.results ++ [result]
                  writesAccumulated := run.writesAccumulated ++ result.writes }
              refine ⟨hfiles, hwrites.trans ?_, hfailed⟩
              exact List.append_assoc _ _ _
            · exact ⟨rfl, (List.append_nil _).symm, (Bool.or_true _).symm⟩

theorem checkout_of_known {git : Git} {head : String} {paths : List String}
    (h : (paths.all fun path => (git.commits head path).isSome) = true) :
    checkout git head paths files =
      some fun path => if path ∈ paths then git.commits head path else files path :=
  if_pos h

theorem checkout_of_unknown {git : Git} {head : String} {paths : List String}
    (h : (paths.all fun path => (git.commits head path).isSome) ≠ true) :
    checkout git head paths files = none :=
  if_neg h

/-- A checkout of the reported paths gives the files back exactly if they are restorable. -/
theorem restorable_iff (commit before : Files) (effect : StepsEffect) :
    (fun path => if path ∈ effect.reported then commit path else effect.files path) = before ↔
      Restorable commit before effect := by
  constructor
  · rintro rfl
    refine ⟨fun path hmem => if_pos hmem, fun path hmem => (if_neg hmem).symm⟩
  · rintro ⟨hreported, hothers⟩
    funext path
    by_cases hmem : path ∈ effect.reported
    · rw [if_pos hmem, hreported path hmem]
    · rw [if_neg hmem, hothers path hmem]

theorem checkout_head (git : Git) (paths : List String) (files : Files) :
    ((captureHead git).bind fun head => checkout git head paths files) =
      (headWith git paths).map fun head => restore git (some head) paths files := by
  rw [headWith]
  cases captureHead git with
  | none => rfl
  | some head =>
    rw [Option.bind_some]
    by_cases hknown : (paths.all fun path => (git.commits head path).isSome) = true
    · rw [checkout_of_known hknown, Option.filter_some, if_pos hknown]
      rfl
    · rw [checkout_of_unknown hknown, Option.filter_some, if_neg hknown]
      rfl

/-- What `/undo` leaves, of an apply that has captured the head. -/
theorem runUndo_files (git : Git) {registry : ProposalRegistry} {last : AppliedProposalMeta}
    (hlast : registry.lastAppliedMeta = some last) (hhead : last.gitHeadBefore = captureHead git)
    (files : Files) :
    (runUndo git registry files).2.2 =
      restore git (headWith git last.writes) last.writes files := by
  have hcheckout := checkout_head git last.writes files
  unfold runUndo
  rw [hlast]
  dsimp only
  rw [hhead]
  split
  · rename_i hnone
    rw [hnone]
    unfold restore
    split
    · funext path
      rw [if_neg List.not_mem_nil]
    · rfl
  · split
    · rename_i hrepo
      have hnone : headWith git last.writes = none := by
        rw [headWith, captureHead, hrepo]
        rfl
      rw [hnone]
      rfl
    · cases hcapture : captureHead git with
      | none =>
        have hnone : headWith git last.writes = none := by
          rw [headWith, hcapture]
          rfl
        rw [hnone]
        rfl
      | some head =>
        rw [hcapture, Option.bind_some] at hcheckout
        dsimp only
        rw [hcheckout]
        cases headWith git last.writes with
        | none => rfl
        | some head => rfl

/-- After a success: what was applied can be undone, up to what a checkout brings back. -/
theorem applyChange_succeeded (ctx : ApplyChangeContext) {id : String}
    {registry : ProposalRegistry} {proposal : Proposal} (hget : registry.get id = some proposal)
    (hconfirmed : proposal.status = .confirmed) (files : Files)
    (hsucceed : (stepsEffect ctx 0 proposal.steps files).succeed = true) :
    let effect := stepsEffect ctx 0 proposal.steps files
    (∃ output, (applyChange ctx id registry files).1 = .result output ∧ output.ok = true) ∧
      undone ctx id registry files =
        restore ctx.git (headWith ctx.git effect.reported) effect.reported effect.files := by
  obtain ⟨hfiles, hwrites, hfailed⟩ := applySteps_effect ctx 0 proposal.steps { files }
  have hadmitted : confirmedProposal id (some proposal) = .ok proposal := by
    rw [confirmedProposal, hconfirmed]
  have hrun : (applySteps ctx 0 proposal.steps { files }).failed = false := by
    rw [hfailed, hsucceed]
    rfl
  have hkept : rollback ctx.git (applySteps ctx 0 proposal.steps { files }) = none := by
    rw [rollback, hrun]
    exact if_neg fun h => absurd h.1 Bool.false_ne_true
  unfold undone applyChange
  rw [hget, hadmitted]
  dsimp only
  rw [hrun, hkept]
  refine ⟨⟨_, rfl, rfl⟩, ?_⟩
  rw [List.nil_append] at hwrites
  have hmarked : ∀ applied, (registry.markApplied id applied).lastAppliedMeta = some applied := by
    intro applied
    rw [ProposalRegistry.markApplied, hget]
    dsimp only
    rw [if_pos hconfirmed]
  rw [if_neg Bool.false_ne_true, runUndo_files ctx.git (hmarked _) rfl, Option.getD_none, hfiles,
    hwrites]

/-- After a failure: what is checked out, if anything is. -/
theorem applyChange_failed (ctx : ApplyChangeContext) {id : String} {registry : ProposalRegistry}
    {proposal : Proposal} (hget : registry.get id = some proposal)
    (hconfirmed : proposal.status = .confirmed) (files : Files)
    (hsucceed : (stepsEffect ctx 0 proposal.steps files).succeed = false) :
    let effect := stepsEffect ctx 0 proposal.steps files
    ∃ output, (applyChange ctx id registry files).1 = .result output ∧ output.ok = false ∧
      output.rolledBack =
        (decide (effect.reported ≠ []) && (headWith ctx.git effect.reported).isSome) ∧
      (output.rolledBack = true → (applyChange ctx id registry files).2.2 =
        restore ctx.git (headWith ctx.git effect.reported) effect.reported effect.files) := by
  obtain ⟨hfiles, hwrites, hfailed⟩ := applySteps_effect ctx 0 proposal.steps { files }
  have hadmitted : confirmedProposal id (some proposal) = .ok proposal := by
    rw [confirmedProposal, hconfirmed]
  have hrun : (applySteps ctx 0 proposal.steps { files }).failed = true := by
    rw [hfailed, hsucceed]
    rfl
  rw [List.nil_append] at hwrites
  have hback : rollback ctx.git (applySteps ctx 0 proposal.steps { files }) =
      if (stepsEffect ctx 0 proposal.steps files).reported ≠ [] then
        (headWith ctx.git (stepsEffect ctx 0 proposal.steps files).reported).map fun head =>
          restore ctx.git (some head) (stepsEffect ctx 0 proposal.steps files).reported
            (stepsEffect ctx 0 proposal.steps files).files
      else none := by
    rw [rollback, hrun, hwrites, hfiles, checkout_head]
    simp only [true_and]
  unfold applyChange
  rw [hget, hadmitted]
  dsimp only
  rw [hrun, hback]
  refine ⟨_, rfl, rfl, ?_, ?_⟩
  · by_cases hnone : (stepsEffect ctx 0 proposal.steps files).reported = []
    · simp [hnone]
    · simp [hnone]
  · dsimp only
    by_cases hnone : (stepsEffect ctx 0 proposal.steps files).reported = []
    · simp [hnone]
    · cases headWith ctx.git (stepsEffect ctx 0 proposal.steps files).reported with
      | none => simp [hnone]
      | some head => simp [hnone]

/-- **Builder changes are atomic** if and only if the paths that steps report, where they are all in
the commit, have no uncommitted edits and no other has changed; where one is new, only a success
without changes can be undone. -/
theorem atomic_iff (ctx : ApplyChangeContext) {id : String} {registry : ProposalRegistry}
    {proposal : Proposal} (hget : registry.get id = some proposal)
    (hconfirmed : proposal.status = .confirmed) (files : Files) :
    Atomic ctx id registry files ↔
      Recoverable ctx.git files (stepsEffect ctx 0 proposal.steps files) := by
  unfold Atomic Recoverable
  cases hsucceed : (stepsEffect ctx 0 proposal.steps files).succeed with
  | true =>
    obtain ⟨⟨output, houtput, hok⟩, hundone⟩ :=
      applyChange_succeeded ctx hget hconfirmed files hsucceed
    have hatomic : (∀ output', (applyChange ctx id registry files).1 = .result output' →
        (output'.ok = false → output'.rolledBack = true →
            (applyChange ctx id registry files).2.2 = files) ∧
          (output'.ok = true → undone ctx id registry files = files)) ↔
        undone ctx id registry files = files := by
      constructor
      · intro h
        exact (h output houtput).2 hok
      · intro h output' houtput'
        cases houtput.symm.trans houtput'
        exact ⟨fun hfalse => absurd (hok.symm.trans hfalse) nofun, fun _ => h⟩
    rw [hatomic, hundone]
    cases headWith ctx.git (stepsEffect ctx 0 proposal.steps files).reported with
    | none => exact ⟨fun h _ => h, fun h => h rfl⟩
    | some head =>
      have hiff := restorable_iff (ctx.git.commits head) files
        (stepsEffect ctx 0 proposal.steps files)
      exact ⟨fun h _ => hiff.mp h, fun h => hiff.mpr (h (.inl rfl))⟩
  | false =>
    obtain ⟨output, houtput, hok, hrolledBack, hfiles⟩ :=
      applyChange_failed ctx hget hconfirmed files hsucceed
    have hatomic : (∀ output', (applyChange ctx id registry files).1 = .result output' →
        (output'.ok = false → output'.rolledBack = true →
            (applyChange ctx id registry files).2.2 = files) ∧
          (output'.ok = true → undone ctx id registry files = files)) ↔
        (output.rolledBack = true → (applyChange ctx id registry files).2.2 = files) := by
      constructor
      · intro h
        exact (h output houtput).1 hok
      · intro h output' houtput'
        cases houtput.symm.trans houtput'
        exact ⟨fun _ => h, fun htrue => absurd (hok.symm.trans htrue) nofun⟩
    rw [hatomic]
    cases hhead : headWith ctx.git (stepsEffect ctx 0 proposal.steps files).reported with
    | none =>
      rw [hhead, Option.isSome_none, Bool.and_false] at hrolledBack
      rw [hrolledBack]
      exact ⟨fun _ => nofun, fun _ => nofun⟩
    | some head =>
      rw [hhead, Option.isSome_some, Bool.and_true] at hrolledBack
      rw [hhead] at hfiles
      have hiff := restorable_iff (ctx.git.commits head) files
        (stepsEffect ctx 0 proposal.steps files)
      rw [hrolledBack, decide_eq_true_iff] at hfiles ⊢
      constructor
      · intro h hreported
        have hne := hreported.resolve_left nofun
        exact hiff.mp ((hfiles hne).symm.trans (h hne))
      · intro h hne
        exact (hfiles hne).trans (hiff.mpr (h (.inr hne)))

/-- A repository with one file. -/
def sourcesRepo : Git where
  isRepo := true
  head := some "4f2c1e9"
  commits := fun _ path => if path = "event-sources.yaml" then some "sources: []\n" else none

/-- Steps that write the file that their payload names, and fail without one. -/
def writeContext : ApplyChangeContext where
  git := sourcesRepo
  dispatchStep step files :=
    match step.payload with
    | .str written =>
      (fun path => if path = written then some "added" else files path,
        .ok { kind := step.kind, ok := true, writes := [written] })
    | _ => (files, .ok { kind := step.kind, ok := false, error := some "payload invalid" })

def registryOf (steps : List ProposalStep) : ProposalRegistry where
  proposals := [⟨"p1", steps, .confirmed⟩]

/-- A step that succeeds, and one that fails. -/
def sourceThenMcp : List ProposalStep :=
  [⟨"addSource", .str "event-sources.yaml"⟩, ⟨"addMCP", .null⟩]

/-- A file without uncommitted edits comes back when the second step fails. -/
theorem atomic_iff_committed :
    Atomic writeContext "p1" (registryOf sourceThenMcp) (sourcesRepo.commits "4f2c1e9") := by
  have hget : (registryOf sourceThenMcp).get "p1" = some ⟨"p1", sourceThenMcp, .confirmed⟩ := rfl
  refine (atomic_iff writeContext hget rfl _).mpr fun _ => ⟨fun path _ => rfl, fun path hpath => ?_⟩
  exact if_neg fun heq => hpath (List.mem_singleton.mpr heq)

/-- An uncommitted edit is lost in a rollback, and a file that was created stays after `/undo`. -/
theorem edits_lost :
    (∃ output after, applyChange writeContext "p1" (registryOf sourceThenMcp)
          (fun _ => some "edited") = (.result output, after) ∧
        output.ok = false ∧ output.rolledBack = true ∧
        after.2 "event-sources.yaml" = some "sources: []\n") ∧
      ¬ Atomic writeContext "p1" (registryOf sourceThenMcp) (fun _ => some "edited") ∧
      undone writeContext "p1" (registryOf [⟨"addSkill", .str "skills/triage/SKILL.md"⟩])
          (sourcesRepo.commits "4f2c1e9") "skills/triage/SKILL.md" = some "added" ∧
      ¬ Atomic writeContext "p1" (registryOf [⟨"addSkill", .str "skills/triage/SKILL.md"⟩])
          (sourcesRepo.commits "4f2c1e9") := by
  refine ⟨⟨_, _, rfl, rfl, rfl, rfl⟩, fun h => ?_, rfl, fun h => ?_⟩
  · have hfiles := (h _ rfl).1 rfl rfl
    have hlost := congrFun hfiles "event-sources.yaml"
    revert hlost
    decide
  · have hfiles := (h _ rfl).2 rfl
    have hleft := congrFun hfiles "skills/triage/SKILL.md"
    revert hleft
    decide

end Declaragent.Builder
