import Declaragent.Fleet.Deploy
import Declaragent.Library.JsNumber
import Declaragent.Library.Transition

/-!
# Fleet — the history of deploys

Every deploy that comes to an end appends a record to a file of JSON lines, and a rollback looks up
in it what to go back to.

* `readDeployHistory_append`: what is appended is read back, whatever the file was.
* `allOrRollback_iff`: a deploy without success is undone and recorded as such exactly if no call to
  an adapter throws.
* `restores_iff_of_run`: after any deploys and rollbacks, a rollback goes back to what was live
  before exactly if nothing was ever deployed.
-/

namespace Declaragent.Fleet
open JsonText Transition

/-- What a line of the history holds, if it is not blank and parses. -/
def historyLine (raw : List Char) : Option Json :=
  let line := Numeral.trim raw
  if line = [] then none else parse (String.ofList line)

def readDeployHistory (file : Option String) : List Json :=
  match file with
  | none => []
  | some text => (text.toList.splitOn '\n').filterMap historyLine

def appendDeployRecord (record : FleetDeployRecord) (file : Option String) : String :=
  let existing := file.getD ""
  let next := if existing.toList.getLast? = some '\n' ∨ existing.toList = [] then existing
    else existing ++ "\n"
  next ++ stringify record.toJson ++ "\n"

/-! ### The command -/

/-- The options of the command; `agents` is empty where none are named. -/
structure FleetDeployArgs where
  target : Option String := none
  agents : List String := []
  strategy : Option FleetDeployStrategy := none
  dryRun : Bool := false
  rollback : Bool := false
  canaryWaitMs : Option Nat := none

/-- What the command is given from outside: the adapters, the version of the tree, the time, the
targets of `--target-config`, and the order in which a `per-agent` deploy settles. -/
structure FleetDeployDeps where
  targets : List (String × FleetDeployTarget) := []
  targetFactory : String → Option FleetDeployTarget := fun _ => none
  fleetVersion : String
  now : String
  sleep : Nat → Except String Unit := fun _ => .ok ()
  extraTargets : List (String × FleetDeployTargetConfig) := []
  order : List PlanEntry → List PlanEntry := id

/-- How the command ends, with `none` for the exit code where it throws. -/
structure FleetDeployEnd where
  exit : Option Nat
  file : Option String
  err : String := ""
  /-- The version that `executeDeploy` was given. -/
  version : Option String := none
  /-- Whether an agent failed in it. -/
  failed : Bool := false
  record : Option FleetDeployRecord := none
  /-- What a rollback goes back to. -/
  previous : Option Json := none

def resolveAdapters (deps : FleetDeployDeps) : List PlanEntry → List (String × FleetDeployTarget) →
    Except String (List (String × FleetDeployTarget))
  | [], adapters => .ok adapters
  | entry :: entries, adapters =>
    if (adapters.lookup entry.targetKey).isSome then resolveAdapters deps entries adapters
    else
      match deps.targets.lookup entry.targetKey <|>
          deps.targetFactory entry.targetConfig.kind with
      | some adapter => resolveAdapters deps entries (adapters ++ [(entry.targetKey, adapter)])
      | none => .error (s!"no adapter registered for target \"{entry.targetKey}\" " ++
          s!"(kind={entry.targetConfig.kind}). Supply one via deps.targets or " ++
          "deps.targetFactory.")

/-- `executeDeploy`, and the record of what it comes to. -/
def deployAndRecord (targets : List (String × FleetDeployTarget)) (opts : ExecuteDeployOptions)
    (plan : DeployPlan) (order : List PlanEntry → List PlanEntry)
    (record : DeployRun → FleetDeployRecord) (file : Option String) : FleetDeployEnd :=
  let run := executeDeploy targets opts plan order
  if run.thrown.isEmpty then
    { exit := some (if run.ok then 0 else 1)
      file := some (appendDeployRecord (record run) file)
      version := some opts.fleetVersion
      failed := run.failed.isSome
      record := some (record run) }
  else { exit := none, file, version := some opts.fleetVersion }

/-- The record of a deploy. -/
def deployRecord (fleetVersion now : String) (strategy : FleetDeployStrategy) (run : DeployRun) :
    FleetDeployRecord where
  fleetVersion := fleetVersion
  timestamp := now
  strategy := strategy
  agents := run.outcomes
  status := if run.failed.isSome then .rolledBack else .deployed

/-- The record of a rollback. -/
def rollbackRecord (fleetVersion now : String) (run : DeployRun) : FleetDeployRecord where
  fleetVersion := fleetVersion
  timestamp := now
  strategy := .rolling
  agents := run.outcomes
  status := .rolledBack

def isDeployed (record : Json) : Bool :=
  match record.field "status" with
  | some (.str status) => status == "deployed"
  | _ => false

/-- The last record of the history whose status is `deployed`. -/
def previousDeploy (history : List Json) : Option Json := history.reverse.find? isDeployed

/-- A field that holds a text. -/
def textField (key : String) (record : Json) : String :=
  match record.field key with
  | some (.str text) => text
  | _ => "undefined"

/-- An agent is redeployed to the target that the record has for it. -/
def retarget (previous : Json) (entry : PlanEntry) : PlanEntry :=
  match (previous.field "agents").bind (·.field entry.agent.id) with
  | some prior => { entry with targetKey := textField "target" prior }
  | none => entry

theorem retarget_agent (previous : Json) (entry : PlanEntry) :
    (retarget previous entry).agent = entry.agent := by
  unfold retarget
  split <;> rfl

def DeployPlan.retarget (previous : Json) (plan : DeployPlan) : DeployPlan where
  entries := plan.entries.map (Fleet.retarget previous)
  distinct := by
    have hids : (fun entry : PlanEntry => entry.agent.id) ∘ Fleet.retarget previous =
        fun entry => entry.agent.id :=
      funext fun entry => congrArg LoadedAgentEntry.id (retarget_agent previous entry)
    rw [List.map_map, hids]
    exact plan.distinct

def runRollback (args : FleetDeployArgs) (deps : FleetDeployDeps) (fleet : LoadedFleet)
    (file : Option String) : FleetDeployEnd :=
  match previousDeploy (readDeployHistory file) with
  | none =>
    { exit := some 1
      file
      err := "✗ no previous successful deploy found in history to roll back to.\n" }
  | some previous =>
    match planDeploy fleet { agents := args.agents } with
    | .error error => { exit := some 1, file, err := s!"✗ {error}\n", previous }
    | .ok plan =>
      let plan := plan.retarget previous
      match resolveAdapters deps plan.entries [] with
      | .error error => { exit := some 1, file, err := s!"✗ {error}\n", previous }
      | .ok adapters =>
        let fleetVersion := textField "fleetVersion" previous
        let opts : ExecuteDeployOptions :=
          { strategy := .rolling, fleet, fleetVersion, previousRecord := previous }
        { deployAndRecord adapters opts plan deps.order (rollbackRecord fleetVersion deps.now)
            file with previous }

/-- The command, in a fleet that has loaded. -/
def fleetDeploy (args : FleetDeployArgs) (deps : FleetDeployDeps) (fleet : LoadedFleet)
    (file : Option String) : FleetDeployEnd :=
  if args.rollback then runRollback args deps fleet file
  else
    match planDeploy fleet { args with
      targetOverride := args.target, extraTargets := deps.extraTargets } with
    | .error error => { exit := some 1, file, err := s!"✗ {error}\n" }
    | .ok plan =>
      if plan.entries = [] then
        let named := ",".intercalate args.agents
        { exit := some 1
          file
          err := if args.agents = [] then "✗ fleet has no agents to deploy.\n"
            else s!"✗ none of --agent {named} match agents declared in fleet.yaml.\n" }
      else if args.dryRun then { exit := some 0, file }
      else
        match resolveAdapters deps plan.entries [] with
        | .error error => { exit := some 1, file, err := s!"✗ {error}\n" }
        | .ok adapters =>
          let strategy := (args.strategy <|> fleet.deploy.strategy).getD .rolling
          let opts : ExecuteDeployOptions :=
            { strategy, fleet
              fleetVersion := deps.fleetVersion
              canaryWaitMs := args.canaryWaitMs.getD 60000
              sleep := deps.sleep }
          deployAndRecord adapters opts plan deps.order
            (deployRecord deps.fleetVersion deps.now strategy) file

/-! ### The file -/

theorem historyLine_nil : historyLine [] = none := rfl

/-- A record is one line, which neither starts nor ends with a blank. -/
theorem historyLine_obj (fields : List (String × Json)) :
    historyLine (stringify (.obj fields)).toList = some (.obj fields) := by
  have htext : (stringify (.obj fields)).toList = render (.obj fields) := String.toList_ofList
  have hne : render (.obj fields) ≠ [] := by rw [render]; exact List.cons_ne_nil _ _
  rw [htext, historyLine, Numeral.trim_render_obj, if_neg hne]
  exact parse_stringify _

/-- What is appended is read back after everything that was there. -/
theorem readDeployHistory_append (record : FleetDeployRecord) (file : Option String) :
    readDeployHistory (some (appendDeployRecord record file)) =
      readDeployHistory file ++ [record.toJson] := by
  have hline : historyLine (stringify record.toJson).toList = some record.toJson :=
    historyLine_obj _
  have hsplit : ((stringify record.toJson).toList ++ ['\n']).splitOn '\n' =
      [(stringify record.toJson).toList, []] := by
    rw [List.splitOn_append_cons_self_of_not_mem (newline_notMem_stringify _), List.splitOn_nil]
  have hread : (((stringify record.toJson).toList ++ ['\n']).splitOn '\n').filterMap historyLine =
      [record.toJson] := by
    rw [hsplit, List.filterMap_cons_some hline, List.filterMap_cons_none historyLine_nil,
      List.filterMap_nil]
  have hfile : readDeployHistory file =
      ((file.getD "").toList.splitOn '\n').filterMap historyLine := by
    cases file with
    | none => rfl
    | some text => rfl
  rw [hfile, readDeployHistory, appendDeployRecord]
  have hend : "\n".toList = ['\n'] := rfl
  generalize file.getD "" = existing
  rw [String.toList_append, String.toList_append, List.append_assoc, hend]
  split
  · rename_i hends
    rcases hends with hends | hempty
    · obtain ⟨before, hbefore⟩ := List.getLast?_eq_some_iff.mp hends
      have hold : (before ++ ['\n']).splitOn '\n' = before.splitOn '\n' ++ [[]] := by
        rw [List.splitOn_append_cons_self, List.splitOn_nil]
      rw [hbefore, hold, List.append_assoc, List.singleton_append, List.splitOn_append_cons_self,
        List.filterMap_append, hread, List.filterMap_append,
        List.filterMap_cons_none historyLine_nil, List.filterMap_nil, List.append_nil]
    · rw [hempty, List.nil_append, hread, List.splitOn_nil,
        List.filterMap_cons_none historyLine_nil]
      rfl
  · have hbreak : (existing ++ "\n").toList = existing.toList ++ ['\n'] := String.toList_append
    rw [hbreak, List.append_assoc, List.singleton_append, List.splitOn_append_cons_self,
      List.filterMap_append, hread]

/-! ### All or rollback -/

/-- A deploy without success is undone, and recorded as one that was. -/
def AllOrRollback (targets : List (String × FleetDeployTarget)) (opts : ExecuteDeployOptions)
    (plan : DeployPlan) (order : List PlanEntry → List PlanEntry) (now : String)
    (file : Option String) : Prop :=
  let run := executeDeploy targets opts plan order
  let last := deployAndRecord targets opts plan order
    (deployRecord opts.fleetVersion now opts.strategy) file
  run.thrown ≠ [] ∨ run.ok = false →
    RolledBack targets plan.entries run ∧ ∃ record : FleetDeployRecord,
      readDeployHistory last.file = readDeployHistory file ++ [record.toJson] ∧
        record.status ≠ .deployed

/-- **All or rollback**, for every strategy that rolls back, if and only if no call to an adapter
throws that is reached. -/
theorem allOrRollback_iff (targets : List (String × FleetDeployTarget))
    (opts : ExecuteDeployOptions) (plan : DeployPlan) (order : List PlanEntry → List PlanEntry)
    (now : String) (file : Option String) (hstrategy : opts.strategy ≠ .perAgent) :
    AllOrRollback targets opts plan order now file ↔ Answered targets opts plan := by
  have hthrown := executeDeploy_thrown targets order plan hstrategy
  constructor
  · intro hall
    by_contra hanswered
    have hthrows := mt hthrown.mp hanswered
    obtain ⟨-, record, hrecord, -⟩ := hall (.inl hthrows)
    have hfile : (deployAndRecord targets opts plan order
        (deployRecord opts.fleetVersion now opts.strategy) file).file = file := by
      rw [deployAndRecord, if_neg (by rwa [List.isEmpty_iff])]
    rw [hfile] at hrecord
    exact absurd (List.self_eq_append_right.mp hrecord) (List.cons_ne_nil _ _)
  · intro hanswered hends
    have hcalm := hthrown.mpr hanswered
    have hok : (executeDeploy targets opts plan order).ok = false :=
      hends.resolve_left fun hne => hne hcalm
    obtain ⟨hfailed, hrolledBack⟩ := executeDeploy_rolledBack order plan hstrategy hanswered hok
    refine ⟨hrolledBack,
      deployRecord opts.fleetVersion now opts.strategy (executeDeploy targets opts plan order),
      ?_, ?_⟩
    · rw [deployAndRecord, if_pos (by rw [hcalm]; rfl)]
      exact readDeployHistory_append _ file
    · rw [deployRecord, if_pos (Option.isSome_iff_ne_none.mpr hfailed)]
      exact nofun

/-- A fleet of two agents that are deployed to `prod`. -/
def apiAndWeb : LoadedFleet where
  deploy := { targets := [("prod", ⟨"kubectl"⟩)] }
  agents := [⟨"api", some "prod"⟩, ⟨"web", some "prod"⟩]
  distinct := by decide

def apiAndWebPlan : DeployPlan where
  entries := [⟨⟨"api", some "prod"⟩, "prod", ⟨"kubectl"⟩⟩,
    ⟨⟨"web", some "prod"⟩, "prod", ⟨"kubectl"⟩⟩]
  distinct := by decide

/-- An adapter on which the deploy of `web` comes to what is given. -/
def webTarget (outcome : Except String DeployOutcome) : FleetDeployTarget where
  deploy agent _ := if agent.id = "web" then outcome else .ok (.deployed agent.id)
  healthCheck := none
  rollback := some fun _ _ _ => .ok ()

example : planDeploy apiAndWeb {} = .ok apiAndWebPlan := rfl

/-- The deploy of `web` is rejected, and `api` rolled back. -/
theorem allOrRollback_iff_rejected :
    let targets := [("prod", webTarget (.ok (.failed "no quota")))]
    let opts : ExecuteDeployOptions :=
      { strategy := .rolling, fleet := apiAndWeb, fleetVersion := "v1.0.0-abcdef0" }
    rollbackCalls (executeDeploy targets opts apiAndWebPlan id).events = ["api"] ∧
      (AllOrRollback targets opts apiAndWebPlan id "2026-01-01T00:00:00.000Z" none ↔
        Answered targets opts apiAndWebPlan) :=
  ⟨rfl, allOrRollback_iff _ _ _ _ _ _ nofun⟩

/-- The deploy of `web` throws: `api` stays deployed, and nothing is recorded. -/
theorem deploy_throws :
    let targets := [("prod", webTarget (.error "spawn kubectl ENOENT"))]
    let opts : ExecuteDeployOptions :=
      { strategy := .rolling, fleet := apiAndWeb, fleetVersion := "v1.0.0-abcdef0" }
    tookEffect (executeDeploy targets opts apiAndWebPlan id).events = ["api"] ∧
      rollbackCalls (executeDeploy targets opts apiAndWebPlan id).events = [] ∧
      (fleetDeploy {}
        { targets, fleetVersion := "v1.0.0-abcdef0", now := "2026-01-01T00:00:00.000Z" }
        apiAndWeb none).file = none ∧
      ¬ AllOrRollback targets opts apiAndWebPlan id "2026-01-01T00:00:00.000Z" none := by
  refine ⟨rfl, rfl, rfl, fun hall => ?_⟩
  obtain ⟨⟨hcalls, -⟩, -⟩ := hall (.inl (List.cons_ne_nil _ _))
  cases hcalls

/-! ### What a rollback goes back to -/

structure FleetCommand where
  args : FleetDeployArgs
  deps : FleetDeployDeps
  fleet : LoadedFleet

def FleetCommand.run (c : FleetCommand) (file : Option String) : FleetDeployEnd :=
  fleetDeploy c.args c.deps c.fleet file

/-- A fleet's root.  `deployments` and `current` are history variables, both with the newest first:
the deploys that no failure has undone, and those of them up to the one that is live. -/
structure FleetRoot where
  file : Option String := none
  deployments : List FleetDeployRecord := []
  current : List FleetDeployRecord := []

def fleetStep (s : FleetRoot) (c : FleetCommand) : Option FleetRoot :=
  let last := c.run s.file
  let s := { s with file := last.file }
  match last.record, last.previous with
  | none, _ => some s
  | some record, none =>
    -- a deploy that is not undone is live
    if record.status = .deployed then
      let deployments := record :: s.deployments
      some { s with deployments, current := deployments }
    else some s
  | some _, some previous =>
    -- after a rollback without failures, the deploy is live that it went back to
    if last.failed then some s
    else some { s with
      current := s.deployments.dropWhile (stringify ·.toJson ≠ stringify previous) }

/-- The last deploy before the live one in which every agent succeeded. -/
def FleetRoot.target (s : FleetRoot) : Option FleetDeployRecord :=
  s.current.tail.find? fun record => record.agents.all (·.2.ok)

/-- What a rollback deploys is the version of the target, and not the one that is live. -/
def Restores (s : FleetRoot) : Prop :=
  ∀ c : FleetCommand, c.args.rollback = true → ∀ version, (c.run s.file).version = some version →
    s.target.map (·.fleetVersion) = some version ∧
      s.current.head?.map (·.fleetVersion) ≠ some version

variable {s : FleetRoot} {c : FleetCommand}

theorem isDeployed_toJson (record : FleetDeployRecord) :
    isDeployed record.toJson = decide (record.status = .deployed) := by
  have hfield : record.toJson.field "status" = some (.str record.status.text) := rfl
  rw [isDeployed, hfield]
  cases record.status <;> rfl

theorem deployAndRecord_end (targets : List (String × FleetDeployTarget))
    (opts : ExecuteDeployOptions) (plan : DeployPlan) (order : List PlanEntry → List PlanEntry)
    (record : DeployRun → FleetDeployRecord) (file : Option String) :
    let last := deployAndRecord targets opts plan order record file
    last.version = some opts.fleetVersion ∧ last.previous = none ∧
      ((last.record = none ∧ last.file = file) ∨
        ∃ run, last.record = some (record run) ∧
          last.file = some (appendDeployRecord (record run) file)) := by
  unfold deployAndRecord
  dsimp only
  split
  · exact ⟨rfl, rfl, .inr ⟨_, rfl, rfl⟩⟩
  · exact ⟨rfl, rfl, .inl ⟨rfl, rfl⟩⟩

/-- What is recorded is appended, and a rollback does not record a deploy. -/
theorem run_end (c : FleetCommand) (file : Option String) :
    let last := c.run file
    (last.record = none ∧ last.file = file) ∨
      ∃ record, last.record = some record ∧ last.file = some (appendDeployRecord record file) ∧
        (last.previous = none ∨ record.status = .rolledBack ∧
          last.previous = previousDeploy (readDeployHistory file)) := by
  unfold FleetCommand.run fleetDeploy
  dsimp only
  split
  · unfold runRollback
    split
    · exact .inl ⟨rfl, rfl⟩
    · rename_i previous hprevious
      split
      · exact .inl ⟨rfl, rfl⟩
      · rename_i plan hplan
        dsimp only
        split
        · exact .inl ⟨rfl, rfl⟩
        · rename_i adapters hadapters
          obtain ⟨-, -, hend⟩ := deployAndRecord_end adapters
            { strategy := .rolling
              fleet := c.fleet
              fleetVersion := textField "fleetVersion" previous
              previousRecord := previous }
            (plan.retarget previous) c.deps.order
            (rollbackRecord (textField "fleetVersion" previous) c.deps.now) file
          rcases hend with hend | ⟨run, hrecord, hfile⟩
          · exact .inl hend
          · refine .inr ⟨_, hrecord, hfile, .inr ⟨?_, hprevious.symm⟩⟩
            rfl
  · split
    · exact .inl ⟨rfl, rfl⟩
    · split
      · exact .inl ⟨rfl, rfl⟩
      · split
        · exact .inl ⟨rfl, rfl⟩
        · split
          · exact .inl ⟨rfl, rfl⟩
          · rename_i adapters hadapters
            obtain ⟨-, hprevious, hend⟩ := deployAndRecord_end adapters _ _ c.deps.order _ file
            rcases hend with hend | ⟨run, hrecord, hfile⟩
            · exact .inl hend
            · exact .inr ⟨_, hrecord, hfile, .inl hprevious⟩

/-- The history holds the deploys, and the last of them is live. -/
structure HistoryKept (s : FleetRoot) : Prop where
  history : (readDeployHistory s.file).filter isDeployed =
    (s.deployments.map FleetDeployRecord.toJson).reverse
  current : s.current = s.deployments

/-- What is found in the history is the live deploy. -/
theorem HistoryKept.previous (h : HistoryKept s) : previousDeploy (readDeployHistory s.file) =
    s.deployments.head?.map FleetDeployRecord.toJson := by
  rw [previousDeploy, ← List.head?_filter, List.filter_reverse, h.history, List.reverse_reverse,
    List.head?_map]

theorem HistoryKept.step (h : HistoryKept s) {t : FleetRoot} (hstep : fleetStep s c = some t) :
    HistoryKept t := by
  unfold fleetStep at hstep
  dsimp only at hstep
  rcases run_end c s.file with ⟨hrecord, hfile⟩ | ⟨record, hrecord, hfile, hprevious⟩
  · rw [hrecord] at hstep
    obtain rfl := Option.some.inj hstep
    refine ⟨?_, h.current⟩
    show (readDeployHistory (c.run s.file).file).filter isDeployed = _
    rw [hfile]
    exact h.history
  · have hhistory : (readDeployHistory (c.run s.file).file).filter isDeployed =
        (s.deployments.map FleetDeployRecord.toJson).reverse ++
          [record.toJson].filter isDeployed := by
      rw [hfile, readDeployHistory_append, List.filter_append, h.history]
    have hundone : record.status ≠ .deployed →
        (readDeployHistory (c.run s.file).file).filter isDeployed =
          (s.deployments.map FleetDeployRecord.toJson).reverse := fun hne => by
      rw [hhistory, List.filter_cons_of_neg, List.filter_nil, List.append_nil]
      rw [isDeployed_toJson, decide_eq_true_iff]
      exact hne
    rw [hrecord] at hstep
    cases hlast : (c.run s.file).previous with
    | none =>
      rw [hlast] at hstep
      dsimp only at hstep
      split at hstep
      · rename_i hdeployed
        obtain rfl := Option.some.inj hstep
        refine ⟨?_, rfl⟩
        show (readDeployHistory (c.run s.file).file).filter isDeployed = _
        rw [hhistory, List.filter_cons_of_pos, List.filter_nil, List.map_cons, List.reverse_cons]
        rw [isDeployed_toJson, decide_eq_true_iff]
        exact hdeployed
      · rename_i hdeployed
        obtain rfl := Option.some.inj hstep
        exact ⟨hundone hdeployed, h.current⟩
    | some previous =>
      rw [hlast] at hprevious hstep
      obtain ⟨hrolledBack, hprevious⟩ := hprevious.resolve_left nofun
      have hne : record.status ≠ .deployed := by rw [hrolledBack]; exact nofun
      dsimp only at hstep
      split at hstep
      · obtain rfl := Option.some.inj hstep
        exact ⟨hundone hne, h.current⟩
      · obtain rfl := Option.some.inj hstep
        refine ⟨hundone hne, ?_⟩
        -- the deploy that was found is the last one
        rw [h.previous] at hprevious
        cases hdeployments : s.deployments with
        | nil => rw [hdeployments] at hprevious; cases hprevious
        | cons record records =>
          rw [hdeployments] at hprevious
          cases hprevious
          dsimp only
          rw [List.dropWhile_cons_of_neg]
          exact fun hne => absurd (Eq.refl _) (of_decide_eq_true hne)

theorem historyKept_of_run {commands : List FleetCommand}
    (r : Run fleetStep Any {} commands s) : HistoryKept s :=
  Run.invariant ⟨rfl, rfl⟩ (fun _ _ _ h _ hstep => h.step hstep) r

/-- A rollback in a fleet of one agent, for whose target there is an adapter. -/
def rollbackApi : FleetCommand where
  args := { rollback := true }
  deps :=
    { targetFactory := fun _ => some (webTarget (.ok (.deployed "web")))
      fleetVersion := "v1.0.0-abcdef0"
      now := "2026-01-01T00:00:00.000Z" }
  fleet :=
    { deploy := { targets := [("prod", ⟨"kubectl"⟩)] }
      agents := [⟨"api", some "prod"⟩]
      distinct := by decide }

/-- It deploys the version of the record that it finds. -/
theorem rollbackApi_version {file : Option String} {previous : Json}
    (h : previousDeploy (readDeployHistory file) = some previous) :
    (rollbackApi.run file).version = some (textField "fleetVersion" previous) := by
  have hplan : planDeploy rollbackApi.fleet {} = .ok
      ⟨[⟨⟨"api", some "prod"⟩, "prod", ⟨"kubectl"⟩⟩], by decide⟩ := rfl
  have hrun : rollbackApi.run file =
      runRollback rollbackApi.args rollbackApi.deps rollbackApi.fleet file := rfl
  have hagents : rollbackApi.args.agents = [] := rfl
  rw [hrun, runRollback, h]
  dsimp only
  rw [hagents, hplan]
  have hadapters : ∀ entry : PlanEntry, resolveAdapters rollbackApi.deps [entry] [] =
      .ok [(entry.targetKey, webTarget (.ok (.deployed "web")))] := fun _ => rfl
  have hentries : (DeployPlan.retarget previous
      ⟨[⟨⟨"api", some "prod"⟩, "prod", ⟨"kubectl"⟩⟩], by decide⟩).entries =
        [retarget previous ⟨⟨"api", some "prod"⟩, "prod", ⟨"kubectl"⟩⟩] := rfl
  dsimp only
  rw [hentries, hadapters]
  exact (deployAndRecord_end _ _ _ _ _ file).1

/-- **A rollback restores nothing** once anything was deployed: in every state that deploys and
rollbacks lead to, it goes back to what was live before if and only if there is nothing that it
could go back to. -/
theorem restores_iff_of_run {commands : List FleetCommand} (r : Run fleetStep Any {} commands s) :
    Restores s ↔ s.deployments = [] := by
  have hkept := historyKept_of_run r
  have hprevious := hkept.previous
  constructor
  · intro hrestores
    cases hdeployments : s.deployments with
    | nil => rfl
    | cons record records =>
      rw [hdeployments] at hprevious
      have hversion := rollbackApi_version hprevious
      obtain ⟨-, hlive⟩ := hrestores rollbackApi rfl _ hversion
      rw [hkept.current, hdeployments] at hlive
      exact absurd rfl hlive
  · intro hnone c hrollback version hversion
    rw [hnone] at hprevious
    have hrun : c.run s.file = runRollback c.args c.deps c.fleet s.file := if_pos hrollback
    rw [hrun, runRollback, hprevious] at hversion
    cases hversion

def deployApi (fleetVersion : String) : FleetCommand :=
  { rollbackApi with args := {}, deps := { rollbackApi.deps with fleetVersion } }

theorem restores_iff_of_run_deployed :
    ∃ s : FleetRoot, Run fleetStep Any {} [deployApi "v1.0.0-abcdef0"] s ∧
      s.deployments.map (·.fleetVersion) = ["v1.0.0-abcdef0"] ∧
      (Restores s ↔ s.deployments = []) := by
  have hrun : Run fleetStep Any {} [deployApi "v1.0.0-abcdef0"] _ := .any_of_exec rfl
  exact ⟨_, hrun, rfl, restores_iff_of_run hrun⟩

/-- After two deploys, a rollback deploys the second one again. -/
theorem rollback_of_live :
    ∃ s : FleetRoot,
      Run fleetStep Any {} [deployApi "v1.0.0-abcdef0", deployApi "v2.0.0-0123456"] s ∧
      s.target.map (·.fleetVersion) = some "v1.0.0-abcdef0" ∧
      s.current.head?.map (·.fleetVersion) = some "v2.0.0-0123456" ∧
      (rollbackApi.run s.file).version = some "v2.0.0-0123456" ∧ ¬ Restores s := by
  have hrun : Run fleetStep Any {} [deployApi "v1.0.0-abcdef0", deployApi "v2.0.0-0123456"] _ :=
    .any_of_exec rfl
  have hversion := rollbackApi_version (historyKept_of_run hrun).previous
  refine ⟨_, hrun, rfl, rfl, hversion, fun hrestores => ?_⟩
  obtain ⟨htarget, -⟩ := hrestores rollbackApi rfl _ hversion
  revert htarget
  decide

end Declaragent.Fleet
