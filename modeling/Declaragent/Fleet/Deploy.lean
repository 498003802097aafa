import Declaragent.Library.JsValue

/-!
# Fleet — executing a deploy

A plan has an entry for each agent that is deployed.  `executeDeploy` deploys one after the other,
with a canary first or not, or all at once, and rolls back what it has deployed when one of them
fails.

* The adapters are parameters: what each call to them comes to, a result or an error it throws.
  An agent has one entry in a plan, so a result for each agent is any pattern of results.
* `DeployRun`: the variables of `executeDeploy` and the calls it has made.
* `executeDeploy_thrown`: it throws exactly if an adapter throws that it reaches.
* `executeDeploy_rolledBack`: otherwise a failure rolls back every agent that was deployed.
-/

namespace Declaragent.Fleet
open JsonText

inductive FleetDeployStrategy where
  | rolling | allOrNothing | perAgent | canary
  deriving DecidableEq

def FleetDeployStrategy.text : FleetDeployStrategy → String
  | .rolling => "rolling"
  | .allOrNothing => "all-or-nothing"
  | .perAgent => "per-agent"
  | .canary => "canary"

structure FleetDeployTargetConfig where
  kind : String

/-- An agent, with `entry.deploy?.target`. -/
structure LoadedAgentEntry where
  id : String
  target : Option String

/-- The manifest's `deploy`, with `{}` for targets that are not given. -/
structure FleetDeploy where
  strategy : Option FleetDeployStrategy := none
  targets : List (String × FleetDeployTargetConfig) := []

/-- `loadFleet` refuses a second agent of an id. -/
structure LoadedFleet where
  deploy : FleetDeploy
  agents : List LoadedAgentEntry
  distinct : (agents.map (·.id)).Nodup

structure DeployContext where
  fleet : LoadedFleet
  fleetVersion : String
  targetConfig : FleetDeployTargetConfig
  injectedEnv : List (String × String)

inductive DeployOutcome where
  | deployed (artifact : String)
  | failed (error : String)

structure HealthProbe where
  ok : Bool
  message : Option String := none

/-- An adapter.  A call that throws comes to an error. -/
structure FleetDeployTarget where
  deploy : LoadedAgentEntry → DeployContext → Except String DeployOutcome
  healthCheck : Option (LoadedAgentEntry → DeployContext → Except String HealthProbe)
  rollback : Option (LoadedAgentEntry → Json → DeployContext → Except String Unit)

/-! ### Records -/

structure FleetDeployAgentRecord where
  target : String
  ok : Bool
  artifact : Option String := none
  error : Option String := none

inductive FleetDeployStatus where
  | deployed | rolledBack
  deriving DecidableEq

def FleetDeployStatus.text : FleetDeployStatus → String
  | .deployed => "deployed"
  | .rolledBack => "rolled-back"

structure FleetDeployRecord where
  fleetVersion : String
  timestamp : String
  strategy : FleetDeployStrategy
  agents : List (String × FleetDeployAgentRecord)
  status : FleetDeployStatus

/-- What a field is in an object; one that is `undefined` is left out. -/
def optionalField (key : String) (value : Option String) : List (String × Json) :=
  match value with
  | some text => [(key, .str text)]
  | none => []

def FleetDeployAgentRecord.toJson (record : FleetDeployAgentRecord) : Json :=
  .obj ([("target", .str record.target), ("ok", .bool record.ok)] ++
    optionalField "artifact" record.artifact ++ optionalField "error" record.error)

def FleetDeployRecord.toJson (record : FleetDeployRecord) : Json :=
  .obj [("fleetVersion", .str record.fleetVersion), ("timestamp", .str record.timestamp),
    ("strategy", .str record.strategy.text),
    ("agents", .obj (enumerate (record.agents.map fun (id, agent) => (id, agent.toJson)))),
    ("status", .str record.status.text)]

/-- What `rollback` is given where no record is. -/
def emptyPreviousRecord (fleetVersion : String) : FleetDeployRecord where
  fleetVersion := fleetVersion
  timestamp := "1970-01-01T00:00:00.000Z"
  strategy := .rolling
  agents := []
  status := .deployed

/-! ### The plan -/

structure PlanEntry where
  agent : LoadedAgentEntry
  targetKey : String
  targetConfig : FleetDeployTargetConfig

/-- A plan has one entry for an agent. -/
structure DeployPlan where
  entries : List PlanEntry
  distinct : (entries.map (·.agent.id)).Nodup

structure PlanDeployOptions where
  agents : List String := []
  targetOverride : Option String := none
  extraTargets : List (String × FleetDeployTargetConfig) := []

/-- `planDeploy`'s loop, over the agents that are asked for. -/
def planEntries (targets : List (String × FleetDeployTargetConfig))
    (targetOverride : Option String) : List LoadedAgentEntry → Except String (List PlanEntry)
  | [] => .ok []
  | agent :: agents =>
    -- an empty key counts as none
    match (targetOverride <|> agent.target).filter (· ≠ "") with
    | none => .error (s!"agent \"{agent.id}\" has no deploy.target in fleet.yaml and " ++
        "no --target override was supplied")
    | some targetKey =>
      match targets.lookup targetKey with
      | none => .error (s!"deploy target \"{targetKey}\" referenced by agent " ++
          s!"\"{agent.id}\" is not declared in fleet.yaml → deploy.targets\x7b\x7d")
      | some targetConfig =>
        match planEntries targets targetOverride agents with
        | .error error => .error error
        | .ok entries => .ok (⟨agent, targetKey, targetConfig⟩ :: entries)

theorem planEntries_ids {targets : List (String × FleetDeployTargetConfig)}
    {targetOverride : Option String} :
    ∀ {agents : List LoadedAgentEntry} {entries : List PlanEntry},
      planEntries targets targetOverride agents = .ok entries →
        entries.map (·.agent.id) = agents.map (·.id)
  | [], entries, h => by
      cases h
      rfl
  | agent :: agents, entries, h => by
      unfold planEntries at h
      split at h
      · cases h
      · split at h
        · cases h
        · split at h
          · cases h
          · rename_i rest hrest
            cases h
            exact congrArg (agent.id :: ·) (planEntries_ids hrest)

def planDeploy (fleet : LoadedFleet) (opts : PlanDeployOptions) : Except String DeployPlan :=
  let targets := opts.extraTargets ++ fleet.deploy.targets
  let agents := fleet.agents.filter fun agent => opts.agents.isEmpty || agent.id ∈ opts.agents
  match h : planEntries targets opts.targetOverride agents with
  | .error error => .error error
  | .ok entries => .ok ⟨entries, planEntries_ids h ▸
      fleet.distinct.sublist (List.filter_sublist.map _)⟩

/-! ### Execution -/

/-- What `executeDeploy` does to the outside, with what the adapters' calls come to. -/
inductive DeployEvent where
  | deploy (agent : String) (outcome : Except String DeployOutcome)
  | healthCheck (agent : String) (probe : Except String HealthProbe)
  | rollback (agent : String) (previous : Json) (result : Except String Unit)
  | out (text : String)
  | err (text : String)

structure ExecuteDeployOptions where
  strategy : FleetDeployStrategy
  fleet : LoadedFleet
  fleetVersion : String
  previousRecord : Option Json := none
  canaryWaitMs : Nat := 60000
  sleep : Nat → Except String Unit := fun _ => .ok ()

/-- The variables of `executeDeploy`. -/
structure DeployRun where
  deployed : List String := []
  rolledBack : List String := []
  outcomes : List (String × FleetDeployAgentRecord) := []
  failed : Option String := none
  events : List DeployEvent := []
  /-- The errors that are thrown: the one of them that comes first is `executeDeploy`'s. -/
  thrown : List String := []

namespace DeployRun
variable (run : DeployRun)

def log (event : DeployEvent) : DeployRun := { run with events := run.events ++ [event] }

def throw (error : String) : DeployRun := { run with thrown := run.thrown ++ [error] }

/-- The outcome of an entry that was deployed. -/
def succeed (entry : PlanEntry) (artifact : String) : DeployRun :=
  { run with
    deployed := run.deployed ++ [entry.agent.id]
    outcomes := put entry.agent.id
      { target := entry.targetKey, ok := true, artifact := some artifact } run.outcomes }

/-- The outcome of an entry that was not, or that is not healthy. -/
def reject (entry : PlanEntry) (error : String) : DeployRun :=
  { run with
    outcomes := put entry.agent.id
      { target := entry.targetKey, ok := false, error := some error } run.outcomes }

/-- The first failure is the one that is named. -/
def fail (entry : PlanEntry) (error : String) : DeployRun :=
  { run.reject entry error with failed := run.failed <|> some entry.agent.id }

/-- Whether a loop over the plan is left. -/
def stopped : Bool := run.failed.isSome || !run.thrown.isEmpty

def ok : Bool := run.failed.isNone && run.outcomes.all (·.2.ok)

end DeployRun

section
variable (targets : List (String × FleetDeployTarget)) (opts : ExecuteDeployOptions)

def pickTarget (entry : PlanEntry) : Except String FleetDeployTarget :=
  match targets.lookup entry.targetKey <|> targets.lookup entry.targetConfig.kind with
  | some adapter => .ok adapter
  | none => .error (s!"no adapter registered for target \"{entry.targetKey}\" " ++
      s!"(kind={entry.targetConfig.kind})")

def contextFor (entry : PlanEntry) : DeployContext where
  fleet := opts.fleet
  fleetVersion := opts.fleetVersion
  targetConfig := entry.targetConfig
  injectedEnv := [("DECLARAGENT_FLEET_VERSION", opts.fleetVersion)]

/-- The health probe of an entry that was deployed. -/
def probeHealth (gate : String) (adapter : FleetDeployTarget) (entry : PlanEntry)
    (run : DeployRun) : DeployRun :=
  match adapter.healthCheck with
  | none => run
  | some healthCheck =>
    let probe := healthCheck entry.agent (contextFor opts entry)
    let run := run.log (.healthCheck entry.agent.id probe)
    match probe with
    | .error error => run.throw error
    | .ok ⟨true, _⟩ => run
    | .ok ⟨false, message⟩ => run.fail entry (gate ++ ": " ++ message.getD "failed")

/-- The canary's soak, and the probe after it. -/
def soak (adapter : FleetDeployTarget) (entry : PlanEntry) (run : DeployRun) : DeployRun :=
  let run := run.log (.out (s!"  canary \"{entry.agent.id}\" deployed. " ++
    s!"Soaking {opts.canaryWaitMs}ms before full rollout…\n"))
  match opts.sleep opts.canaryWaitMs with
  | .error error => run.throw error
  | .ok () =>
    let run := probeHealth opts "canary-soak-health" adapter entry run
    if adapter.healthCheck.isSome ∧ run.stopped = false then
      run.log (.out s!"  canary \"{entry.agent.id}\" healthy post-soak. Rolling out rest.\n")
    else run

/-- Deploy an entry, and go on with `check` if it was deployed. -/
def deployThen (check : FleetDeployTarget → PlanEntry → DeployRun → DeployRun) (entry : PlanEntry)
    (run : DeployRun) : DeployRun :=
  match pickTarget targets entry with
  | .error error => run.throw error
  | .ok adapter =>
    let outcome := adapter.deploy entry.agent (contextFor opts entry)
    let run := run.log (.deploy entry.agent.id outcome)
    match outcome with
    | .error error => run.throw error
    | .ok (.failed error) => run.fail entry error
    | .ok (.deployed artifact) => check adapter entry (run.succeed entry artifact)

/-- Deploy one entry after the other, until one fails or throws. -/
def rollOut : List PlanEntry → DeployRun → DeployRun
  | [], run => run
  | entry :: entries, run =>
    let run := deployThen targets opts (probeHealth opts "health-probe") entry run
    if run.stopped then run else rollOut entries run

/-- What the promise of an entry settles to where all are deployed at once. -/
def settle (entry : PlanEntry) : Except String DeployOutcome :=
  match pickTarget targets entry with
  | .error error => .error error
  | .ok adapter => adapter.deploy entry.agent (contextFor opts entry)

/-- The calls of a deploy of all entries at once. -/
def deployCall (entry : PlanEntry) : Option DeployEvent :=
  match pickTarget targets entry with
  | .error _ => none
  | .ok adapter =>
    some (.deploy entry.agent.id (adapter.deploy entry.agent (contextFor opts entry)))

/-- The outcomes of a deploy of all entries, of which none has thrown. -/
def collect : List PlanEntry → DeployRun → DeployRun
  | [], run => run
  | entry :: entries, run =>
    match settle targets opts entry with
    | .error _ => collect entries run
    | .ok (.failed error) => collect entries (run.fail entry error)
    | .ok (.deployed artifact) => collect entries (run.succeed entry artifact)

/-- `Promise.all`, and the outcomes in the order of the plan. -/
def deployAll (entries : List PlanEntry) : DeployRun :=
  let errors := entries.filterMap fun entry =>
    match settle targets opts entry with
    | .error error => some error
    | .ok _ => none
  let run : DeployRun := { events := entries.filterMap (deployCall targets opts), thrown := errors }
  if errors.isEmpty then collect targets opts entries run else run

/-- What an entry of a `per-agent` deploy leaves. -/
def deployAlone (run : DeployRun) (entry : PlanEntry) : DeployRun :=
  match pickTarget targets entry with
  | .error error => run.throw error
  | .ok adapter =>
    match adapter.deploy entry.agent (contextFor opts entry) with
    | .error error => run.reject entry error
    | .ok (.failed error) => run.reject entry error
    | .ok (.deployed artifact) => run.succeed entry artifact

def rollbackAgent (entries : List PlanEntry) (id : String) (run : DeployRun) : DeployRun :=
  match entries.find? (·.agent.id = id) with
  | none => run
  | some entry =>
    match pickTarget targets entry with
    | .error error => run.throw error
    | .ok adapter =>
      match adapter.rollback with
      | none => run
      | some rollback =>
        let previous :=
          opts.previousRecord.getD (emptyPreviousRecord opts.fleetVersion).toJson
        let result := rollback entry.agent previous (contextFor opts entry)
        let run := run.log (.rollback id previous result)
        match result with
        | .ok () => { run with rolledBack := run.rolledBack ++ [id] }
        | .error message => run.log (.err s!"rollback failed for {id}: {message}\n")

def rollbackEach (entries : List PlanEntry) : List String → DeployRun → DeployRun
  | [], run => run
  | id :: ids, run =>
    let run := rollbackAgent targets opts entries id run
    if run.thrown.isEmpty then rollbackEach entries ids run else run

/-- The rollback of what was deployed, the last first. -/
def rollbackCascade (entries : List PlanEntry) (run : DeployRun) : DeployRun :=
  if run.failed.isSome ∧ run.thrown.isEmpty then
    rollbackEach targets opts entries run.deployed.reverse run
  else run

/-- `order` is the order in which the entries of a `per-agent` deploy settle. -/
def executeDeploy (plan : DeployPlan) (order : List PlanEntry → List PlanEntry) : DeployRun :=
  match opts.strategy, plan.entries with
  | .rolling, entries => rollbackCascade targets opts entries (rollOut targets opts entries {})
  | .canary, [] => {}
  | .canary, canary :: entries =>
    let run := deployThen targets opts (soak opts) canary {}
    rollbackCascade targets opts (canary :: entries)
      (if run.stopped then run else rollOut targets opts entries run)
  | .allOrNothing, entries => rollbackCascade targets opts entries (deployAll targets opts entries)
  | .perAgent, entries => (order entries).foldl (deployAlone targets opts)
      { events := entries.filterMap (deployCall targets opts) }

/-! ### What throws -/

/-- What the health probe of an entry comes to. -/
def probe (entry : PlanEntry) : Except String HealthProbe :=
  match pickTarget targets entry with
  | .error error => .error error
  | .ok adapter =>
    match adapter.healthCheck with
    | none => .ok { ok := true }
    | some healthCheck => healthCheck entry.agent (contextFor opts entry)

def deploys (entry : PlanEntry) : Bool :=
  match settle targets opts entry with
  | .ok (.deployed _) => true
  | _ => false

/-- Whether a loop over the plan goes on after the entry. -/
def passes (entry : PlanEntry) : Bool :=
  deploys targets opts entry && (probe targets opts entry).toOption.any (·.ok)

/-- Neither its deploy throws nor, once it is deployed, its probe. -/
def answers (entry : PlanEntry) : Bool :=
  (settle targets opts entry).isOk &&
    (!deploys targets opts entry || (probe targets opts entry).isOk)

/-- Every entry answers that comes after entries that pass only. -/
def answersInTurn : List PlanEntry → Bool
  | [] => true
  | entry :: entries =>
    answers targets opts entry && (!passes targets opts entry || answersInTurn entries)

/-- No call throws that is reached. -/
def Answered (plan : DeployPlan) : Prop :=
  match opts.strategy, plan.entries with
  | .rolling, entries => answersInTurn targets opts entries = true
  | .canary, [] => True
  | .canary, canary :: entries =>
    (deploys targets opts canary = true → opts.sleep opts.canaryWaitMs = .ok ()) ∧
      answersInTurn targets opts (canary :: entries) = true
  | .allOrNothing, entries => ∀ entry ∈ entries, (settle targets opts entry).isOk = true
  | .perAgent, entries => ∀ entry ∈ entries, (pickTarget targets entry).isOk = true

end

/-! ### The loop -/

/-- The agents whose deploy took effect, in their order. -/
def tookEffect (events : List DeployEvent) : List String :=
  events.filterMap fun
    | .deploy agent (.ok (.deployed _)) => some agent
    | _ => none

/-- The agents on which `rollback` was called, in their order. -/
def rollbackCalls (events : List DeployEvent) : List String :=
  events.filterMap fun
    | .rollback agent _ _ => some agent
    | _ => none

variable {targets : List (String × FleetDeployTarget)} {opts : ExecuteDeployOptions}
  {run run' : DeployRun} {entry : PlanEntry} {entries : List PlanEntry}

theorem DeployRun.stopped_eq_false : run.stopped = false ↔ run.failed = none ∧ run.thrown = [] := by
  simp [DeployRun.stopped, Bool.or_eq_false_iff]

/-- Where an entry comes from that was deployed, and what the calls say before any rollback. -/
structure Kept (targets : List (String × FleetDeployTarget)) (entries : List PlanEntry)
    (run : DeployRun) : Prop where
  deployed : run.deployed.Sublist (entries.map (·.agent.id))
  found : ∀ id ∈ run.deployed, ∃ entry ∈ entries, entry.agent.id = id ∧
    ∃ adapter, pickTarget targets entry = .ok adapter
  took : tookEffect run.events = run.deployed
  calm : rollbackCalls run.events = []
  outcomes : run.failed = none → run.outcomes.all (·.2.ok) = true

theorem all_put {key : String} {record : FleetDeployAgentRecord} (hrecord : record.ok = true) :
    ∀ {outcomes : List (String × FleetDeployAgentRecord)}, outcomes.all (·.2.ok) = true →
      (put key record outcomes).all (·.2.ok) = true
  | [], _ => by simp [put, hrecord]
  | (id, outcome) :: outcomes, h => by
      obtain ⟨hone, hall⟩ := (Bool.and_eq_true _ _).mp (List.all_cons ▸ h)
      unfold put
      split
      · simp [hrecord, hall]
      · rw [List.all_cons, all_put hrecord hall, hone]
        rfl

theorem Kept.append (h : Kept targets entries run) (more : List PlanEntry) :
    Kept targets (entries ++ more) run := by
  refine ⟨?_, fun id hid => ?_, h.took, h.calm, h.outcomes⟩
  · rw [List.map_append]
    exact h.deployed.trans (List.sublist_append_left _ _)
  · obtain ⟨entry, hmem, hfound⟩ := h.found id hid
    exact ⟨entry, List.mem_append_left _ hmem, hfound⟩

theorem Kept.throw (h : Kept targets entries run) (error : String) :
    Kept targets entries (run.throw error) :=
  ⟨h.deployed, h.found, h.took, h.calm, h.outcomes⟩

theorem Kept.fail (h : Kept targets entries run) (error : String) :
    Kept targets entries (run.fail entry error) := by
  refine ⟨h.deployed, h.found, h.took, h.calm, fun hnone => ?_⟩
  cases hfailed : run.failed <;> simp [DeployRun.fail, hfailed] at hnone

/-- An event that is neither a deploy that took effect nor a rollback. -/
theorem Kept.log (h : Kept targets entries run) {event : DeployEvent}
    (htook : tookEffect [event] = []) (hcalm : rollbackCalls [event] = []) :
    Kept targets entries (run.log event) := by
  refine ⟨h.deployed, h.found, ?_, ?_, h.outcomes⟩
  · rw [DeployRun.log, tookEffect, List.filterMap_append]
    exact (congrArg (_ ++ ·) htook).trans ((List.append_nil _).trans h.took)
  · rw [DeployRun.log, rollbackCalls, List.filterMap_append]
    exact (congrArg (_ ++ ·) hcalm).trans ((List.append_nil _).trans h.calm)

theorem Kept.succeed (h : Kept targets entries run) {adapter : FleetDeployTarget}
    (hadapter : pickTarget targets entry = .ok adapter) (artifact : String) :
    Kept targets (entries ++ [entry])
      ((run.log (.deploy entry.agent.id (.ok (.deployed artifact)))).succeed entry artifact) := by
  refine ⟨?_, fun id hid => ?_, ?_, ?_, fun hnone => all_put rfl (h.outcomes hnone)⟩
  · rw [List.map_append]
    exact h.deployed.append (List.Sublist.refl _)
  · rcases List.mem_append.mp hid with hid | hid
    · obtain ⟨other, hmem, hfound⟩ := h.found id hid
      exact ⟨other, List.mem_append_left _ hmem, hfound⟩
    · exact ⟨entry, List.mem_append_right _ (List.mem_singleton_self _),
        (List.mem_singleton.mp hid).symm, adapter, hadapter⟩
  · show tookEffect (run.events ++ [_]) = run.deployed ++ [entry.agent.id]
    rw [tookEffect, List.filterMap_append]
    exact congrArg (· ++ _) h.took
  · show rollbackCalls (run.events ++ [_]) = []
    rw [rollbackCalls, List.filterMap_append]
    exact (List.append_nil _).trans h.calm

theorem Kept.probeHealth (h : Kept targets entries run) (gate : String)
    (adapter : FleetDeployTarget) :
    Kept targets entries (probeHealth opts gate adapter entry run) := by
  unfold Fleet.probeHealth
  split
  · exact h
  · dsimp only
    split
    · exact (h.log rfl rfl).throw _
    · exact h.log rfl rfl
    · exact (h.log rfl rfl).fail _

theorem Kept.soak (h : Kept targets entries run) (adapter : FleetDeployTarget) :
    Kept targets entries (soak opts adapter entry run) := by
  unfold Fleet.soak
  dsimp only
  split
  · exact (h.log rfl rfl).throw _
  · split
    · exact ((h.log rfl rfl).probeHealth _ _).log rfl rfl
    · exact (h.log rfl rfl).probeHealth _ _

theorem Kept.deployThen (h : Kept targets entries run)
    {check : FleetDeployTarget → PlanEntry → DeployRun → DeployRun}
    (hcheck : ∀ adapter run, Kept targets (entries ++ [entry]) run →
      Kept targets (entries ++ [entry]) (check adapter entry run)) :
    Kept targets (entries ++ [entry]) (deployThen targets opts check entry run) := by
  unfold Fleet.deployThen
  split
  · exact (h.append _).throw _
  · rename_i adapter hadapter
    dsimp only
    cases adapter.deploy entry.agent (contextFor opts entry) with
    | error error => exact ((h.append _).log rfl rfl).throw _
    | ok outcome =>
      cases outcome with
      | failed error => exact ((h.append _).log rfl rfl).fail _
      | deployed artifact => exact hcheck adapter _ (h.succeed hadapter artifact)

theorem Kept.rollOut : ∀ {entries : List PlanEntry} {run : DeployRun} (rest : List PlanEntry),
    Kept targets entries run → Kept targets (entries ++ rest) (rollOut targets opts rest run)
  | entries, run, [], h => h.append []
  | entries, run, entry :: rest, h => by
      have hstep : Kept targets (entries ++ [entry]) (Fleet.deployThen targets opts
          (Fleet.probeHealth opts "health-probe") entry run) :=
        h.deployThen fun adapter _ hrun => hrun.probeHealth _ adapter
      rw [Fleet.rollOut, List.append_cons]
      split
      · exact hstep.append rest
      · exact Kept.rollOut rest hstep

/-! ### Whether it throws -/

variable (opts) in
theorem probeHealth_stopped {adapter : FleetDeployTarget} (gate : String)
    (hadapter : pickTarget targets entry = .ok adapter) (hgo : run.stopped = false) :
    ((probeHealth opts gate adapter entry run).thrown = [] ↔
        (probe targets opts entry).isOk = true) ∧
      ((probeHealth opts gate adapter entry run).stopped = false ↔
        (probe targets opts entry).toOption.any (·.ok) = true) := by
  obtain ⟨hfailed, hthrown⟩ := DeployRun.stopped_eq_false.mp hgo
  unfold probeHealth probe
  rw [hadapter]
  dsimp only
  cases adapter.healthCheck with
  | none => simp [hgo, hthrown, Except.isOk, Except.toBool, Except.toOption]
  | some healthCheck =>
    dsimp only
    cases healthCheck entry.agent (contextFor opts entry) with
    | error error =>
      simp [DeployRun.throw, DeployRun.stopped, Except.isOk, Except.toBool, Except.toOption]
    | ok probe =>
      obtain ⟨ok, message⟩ := probe
      cases ok with
      | true =>
        simp [DeployRun.log, DeployRun.stopped, hfailed, hthrown, Except.isOk, Except.toBool,
          Except.toOption]
      | false =>
        simp [DeployRun.log, DeployRun.fail, DeployRun.reject, DeployRun.stopped, hfailed,
          hthrown, Except.isOk, Except.toBool, Except.toOption]

variable (opts) in
theorem soak_stopped {adapter : FleetDeployTarget}
    (hadapter : pickTarget targets entry = .ok adapter) (hgo : run.stopped = false) :
    ((soak opts adapter entry run).thrown = [] ↔
        opts.sleep opts.canaryWaitMs = .ok () ∧ (probe targets opts entry).isOk = true) ∧
      ((soak opts adapter entry run).stopped = false ↔ opts.sleep opts.canaryWaitMs = .ok () ∧
        (probe targets opts entry).toOption.any (·.ok) = true) := by
  unfold soak
  dsimp only
  cases opts.sleep opts.canaryWaitMs with
  | error error => simp [DeployRun.throw, DeployRun.stopped]
  | ok slept =>
    have hlogged : (run.log (.out (s!"  canary \"{entry.agent.id}\" deployed. " ++
        s!"Soaking {opts.canaryWaitMs}ms before full rollout…\n"))).stopped = false := hgo
    obtain ⟨hthrown, hstopped⟩ := probeHealth_stopped opts "canary-soak-health" hadapter hlogged
    dsimp only
    split
    · simp only [true_and]
      exact ⟨hthrown, hstopped⟩
    · simp only [true_and]
      exact ⟨hthrown, hstopped⟩

/-- The deploy of an entry throws, or the loop stops, as what comes after the deploy does. -/
theorem deployThen_stopped (targets : List (String × FleetDeployTarget))
    (opts : ExecuteDeployOptions) (entry : PlanEntry) (run : DeployRun)
    {check : FleetDeployTarget → PlanEntry → DeployRun → DeployRun}
    {calm go : Prop} (hgo : run.stopped = false)
    (hcheck : ∀ adapter run, pickTarget targets entry = .ok adapter → run.stopped = false →
      ((check adapter entry run).thrown = [] ↔ calm) ∧
        ((check adapter entry run).stopped = false ↔ go)) :
    ((deployThen targets opts check entry run).thrown = [] ↔
        (settle targets opts entry).isOk = true ∧ (deploys targets opts entry = true → calm)) ∧
      ((deployThen targets opts check entry run).stopped = false ↔
        deploys targets opts entry = true ∧ go) := by
  obtain ⟨hfailed, hthrown⟩ := DeployRun.stopped_eq_false.mp hgo
  unfold deployThen deploys settle
  cases hadapter : pickTarget targets entry with
  | error error => simp [DeployRun.throw, DeployRun.stopped, Except.isOk, Except.toBool]
  | ok adapter =>
    dsimp only
    cases adapter.deploy entry.agent (contextFor opts entry) with
    | error error => simp [DeployRun.throw, DeployRun.stopped, Except.isOk, Except.toBool]
    | ok outcome =>
      cases outcome with
      | failed error =>
        simp [DeployRun.log, DeployRun.fail, DeployRun.reject, DeployRun.stopped, hfailed,
          hthrown, Except.isOk, Except.toBool]
      | deployed artifact =>
        obtain ⟨hcalm, hstopped⟩ := hcheck adapter
          ((run.log (.deploy entry.agent.id (.ok (.deployed artifact)))).succeed entry
            artifact) hadapter hgo
        simp [hcalm, hstopped, Except.isOk, Except.toBool]

variable (targets opts entry) in
theorem deployThen_probe_stopped (gate : String) (hgo : run.stopped = false) :
    ((deployThen targets opts (probeHealth opts gate) entry run).thrown = [] ↔
        answers targets opts entry = true) ∧
      ((deployThen targets opts (probeHealth opts gate) entry run).stopped = false ↔
        passes targets opts entry = true) := by
  obtain ⟨hthrown, hstopped⟩ := deployThen_stopped targets opts entry run hgo
    fun adapter run hadapter hrun => probeHealth_stopped opts gate hadapter hrun
  refine ⟨hthrown.trans ?_, hstopped.trans ?_⟩
  · cases hdeploys : deploys targets opts entry <;> simp [answers, hdeploys]
  · simp [passes]

theorem rollOut_thrown : ∀ (entries : List PlanEntry) {run : DeployRun}, run.stopped = false →
    ((rollOut targets opts entries run).thrown = [] ↔ answersInTurn targets opts entries = true)
  | [], run, hgo => by
      simp [rollOut, answersInTurn, (DeployRun.stopped_eq_false.mp hgo).2]
  | entry :: entries, run, hgo => by
      obtain ⟨hthrown, hstopped⟩ :=
        deployThen_probe_stopped targets opts entry "health-probe" hgo
      rw [rollOut, answersInTurn]
      split
      · rename_i hstop
        have hpasses : passes targets opts entry = false := by
          rw [← Bool.not_eq_true, ← hstopped, hstop]
          exact nofun
        rw [hthrown, hpasses]
        simp
      · rename_i hstop
        have hcalm := (DeployRun.stopped_eq_false.mp (Bool.eq_false_iff.mpr hstop)).2
        have hanswers := hthrown.mp hcalm
        have hpasses := hstopped.mp (Bool.eq_false_iff.mpr hstop)
        rw [rollOut_thrown entries (Bool.eq_false_iff.mpr hstop), hanswers, hpasses]
        simp

/-! ### The rollback -/

/-- Whether the adapter of an agent offers rollback. -/
def offersRollback (targets : List (String × FleetDeployTarget)) (entries : List PlanEntry)
    (id : String) : Bool :=
  match entries.find? (·.agent.id = id) with
  | none => false
  | some entry => (pickTarget targets entry).toOption.any (·.rollback.isSome)

theorem find_of_mem (hdistinct : (entries.map (·.agent.id)).Nodup) (hmem : entry ∈ entries) :
    entries.find? (·.agent.id = entry.agent.id) = some entry := by
  cases hfind : entries.find? (·.agent.id = entry.agent.id) with
  | none =>
    have hnone := List.find?_eq_none.mp hfind entry hmem
    exact absurd (decide_eq_true rfl) hnone
  | some other =>
    have hid : other.agent.id = entry.agent.id := by
      simpa using List.find?_some hfind
    exact congrArg some (List.inj_on_of_nodup_map hdistinct (List.mem_of_find?_eq_some hfind)
      hmem hid)

/-- What a rollback of an agent changes, whose adapter is there. -/
theorem rollbackAgent_events (opts : ExecuteDeployOptions) (run : DeployRun) {id : String}
    (hfind : entries.find? (·.agent.id = id) = some entry) {adapter : FleetDeployTarget}
    (hadapter : pickTarget targets entry = .ok adapter) :
    let next := rollbackAgent targets opts entries id run
    next.thrown = run.thrown ∧ next.failed = run.failed ∧ next.outcomes = run.outcomes ∧
      tookEffect next.events = tookEffect run.events ∧
      rollbackCalls next.events = rollbackCalls run.events ++
        [id].filter (offersRollback targets entries) := by
  have hoffers : offersRollback targets entries id = adapter.rollback.isSome := by
    simp [offersRollback, hfind, hadapter, Except.toOption]
  unfold rollbackAgent
  rw [hfind]
  dsimp only
  rw [hadapter]
  dsimp only
  cases hrollback : adapter.rollback with
  | none =>
    rw [hrollback] at hoffers
    simp [hoffers]
  | some rollback =>
    rw [hrollback] at hoffers
    dsimp only
    cases rollback entry.agent (opts.previousRecord.getD
        (emptyPreviousRecord opts.fleetVersion).toJson) (contextFor opts entry) with
    | error message => simp [DeployRun.log, tookEffect, rollbackCalls, hoffers]
    | ok done => simp [DeployRun.log, tookEffect, rollbackCalls, hoffers]

theorem rollbackEach_events (opts : ExecuteDeployOptions) :
    ∀ (ids : List String) {run : DeployRun}, run.thrown = [] →
    (∀ id ∈ ids, ∃ entry, entries.find? (·.agent.id = id) = some entry ∧
      ∃ adapter, pickTarget targets entry = .ok adapter) →
    let last := rollbackEach targets opts entries ids run
    last.thrown = [] ∧ last.failed = run.failed ∧ last.outcomes = run.outcomes ∧
      tookEffect last.events = tookEffect run.events ∧
      rollbackCalls last.events = rollbackCalls run.events ++
        ids.filter (offersRollback targets entries)
  | [], run, hcalm, _ => ⟨hcalm, rfl, rfl, rfl, (List.append_nil _).symm⟩
  | id :: ids, run, hcalm, hfound => by
      obtain ⟨entry, hfind, adapter, hadapter⟩ := hfound id List.mem_cons_self
      obtain ⟨hthrown, hfailed, houtcomes, htook, hcalls⟩ :=
        rollbackAgent_events opts run hfind hadapter
      have hnext := hthrown.trans hcalm
      obtain ⟨hthrown', hfailed', houtcomes', htook', hcalls'⟩ :=
        rollbackEach_events opts ids hnext fun id hid => hfound id (List.mem_cons_of_mem _ hid)
      have hgo : ([] : List String).isEmpty = true := rfl
      rw [rollbackEach]
      dsimp only
      rw [hnext, if_pos hgo]
      refine ⟨hthrown', hfailed'.trans hfailed, houtcomes'.trans houtcomes, htook'.trans htook, ?_⟩
      rw [hcalls', hcalls, List.append_assoc, ← List.filter_append]
      rfl

/-- What has to be true of a run that ends without success: every agent that was deployed and
whose adapter offers it was rolled back once, the last one first, and no other was. -/
def RolledBack (targets : List (String × FleetDeployTarget)) (entries : List PlanEntry)
    (run : DeployRun) : Prop :=
  rollbackCalls run.events =
      ((tookEffect run.events).filter (offersRollback targets entries)).reverse ∧
    (rollbackCalls run.events).Nodup

/-- The rollback throws nothing, and undoes what was deployed. -/
theorem rollbackCascade_rolledBack (opts : ExecuteDeployOptions) (plan : DeployPlan)
    (h : Kept targets plan.entries run) (hcalm : run.thrown = []) :
    let last := rollbackCascade targets opts plan.entries run
    last.thrown = [] ∧
      (last.ok = false → last.failed ≠ none ∧ RolledBack targets plan.entries last) := by
  cases hfailed : run.failed with
  | none =>
    have hsame : rollbackCascade targets opts plan.entries run = run := by
      simp [rollbackCascade, hfailed]
    dsimp only
    rw [hsame]
    refine ⟨hcalm, fun hok => ?_⟩
    rw [DeployRun.ok, hfailed, h.outcomes hfailed] at hok
    cases hok
  | some id =>
    have hfound : ∀ id ∈ run.deployed.reverse,
        ∃ entry, plan.entries.find? (·.agent.id = id) = some entry ∧
          ∃ adapter, pickTarget targets entry = .ok adapter := by
      intro id hid
      obtain ⟨entry, hmem, rfl, hadapter⟩ := h.found id (List.mem_reverse.mp hid)
      exact ⟨entry, find_of_mem plan.distinct hmem, hadapter⟩
    obtain ⟨hthrown, hstays, -, htook, hcalls⟩ := rollbackEach_events opts
      run.deployed.reverse hcalm hfound
    have hlast : rollbackCascade targets opts plan.entries run =
        rollbackEach targets opts plan.entries run.deployed.reverse run := by
      simp [rollbackCascade, hfailed, hcalm]
    dsimp only
    rw [hlast]
    refine ⟨hthrown, fun _ => ⟨?_, ?_, ?_⟩⟩
    · rw [hstays, hfailed]
      exact nofun
    · rw [hcalls, htook, h.calm, h.took, List.nil_append, List.filter_reverse]
    · rw [hcalls, h.calm, List.nil_append]
      have hdistinct : run.deployed.Nodup := plan.distinct.sublist h.deployed
      exact (List.nodup_reverse.mpr hdistinct).filter _

/-! ### All at once -/

theorem collect_spec (targets : List (String × FleetDeployTarget)) (opts : ExecuteDeployOptions) :
    ∀ (entries : List PlanEntry) (run : DeployRun),
    let last := collect targets opts entries run
    last.events = run.events ∧ last.thrown = run.thrown ∧
      last.deployed = run.deployed ++
        (entries.filter (deploys targets opts)).map (·.agent.id) ∧
      ((run.failed = none → run.outcomes.all (·.2.ok) = true) →
        last.failed = none → last.outcomes.all (·.2.ok) = true)
  | [], run => ⟨rfl, rfl, (List.append_nil _).symm, fun h => h⟩
  | entry :: entries, run => by
      rw [collect]
      cases hsettle : settle targets opts entry with
      | error error =>
        have hdeploys : deploys targets opts entry = false := by rw [deploys, hsettle]
        dsimp only
        rw [List.filter_cons_of_neg (by rw [hdeploys]; exact nofun)]
        exact collect_spec targets opts entries run
      | ok outcome =>
        cases outcome with
        | failed error =>
          have hdeploys : deploys targets opts entry = false := by rw [deploys, hsettle]
          obtain ⟨hevents, hthrown, hdeployed, houtcomes⟩ :=
            collect_spec targets opts entries (run.fail entry error)
          dsimp only
          rw [List.filter_cons_of_neg (by rw [hdeploys]; exact nofun)]
          refine ⟨hevents, hthrown, hdeployed, fun _ => houtcomes fun hnone => ?_⟩
          cases hfailed : run.failed <;> simp [DeployRun.fail, hfailed] at hnone
        | deployed artifact =>
          have hdeploys : deploys targets opts entry = true := by rw [deploys, hsettle]
          obtain ⟨hevents, hthrown, hdeployed, houtcomes⟩ :=
            collect_spec targets opts entries (run.succeed entry artifact)
          dsimp only
          rw [List.filter_cons_of_pos hdeploys]
          refine ⟨hevents, hthrown, ?_, fun h => houtcomes fun hnone => all_put rfl (h hnone)⟩
          rw [hdeployed, DeployRun.succeed, List.append_assoc]
          rfl

theorem deployCalls_events (targets : List (String × FleetDeployTarget))
    (opts : ExecuteDeployOptions) : ∀ entries : List PlanEntry,
    tookEffect (entries.filterMap (deployCall targets opts)) =
        (entries.filter (deploys targets opts)).map (·.agent.id) ∧
      rollbackCalls (entries.filterMap (deployCall targets opts)) = []
  | [] => ⟨rfl, rfl⟩
  | entry :: entries => by
      obtain ⟨htook, hcalls⟩ := deployCalls_events targets opts entries
      rw [List.filterMap_cons]
      cases hadapter : pickTarget targets entry with
      | error error =>
        have hdeploys : deploys targets opts entry = false := by rw [deploys, settle, hadapter]
        have hcall : deployCall targets opts entry = none := by rw [deployCall, hadapter]
        rw [hcall, List.filter_cons_of_neg (by rw [hdeploys]; exact nofun)]
        exact ⟨htook, hcalls⟩
      | ok adapter =>
        have hcall : deployCall targets opts entry = some (.deploy entry.agent.id
            (adapter.deploy entry.agent (contextFor opts entry))) := by
          rw [deployCall, hadapter]
        have hsettle : settle targets opts entry =
            adapter.deploy entry.agent (contextFor opts entry) := by rw [settle, hadapter]
        rw [hcall]
        refine ⟨?_, hcalls⟩
        cases houtcome : adapter.deploy entry.agent (contextFor opts entry) with
        | error error =>
          have hdeploys : deploys targets opts entry = false := by
            rw [deploys, hsettle, houtcome]
          rw [List.filter_cons_of_neg (by rw [hdeploys]; exact nofun)]
          exact htook
        | ok outcome =>
          cases outcome with
          | failed error =>
            have hdeploys : deploys targets opts entry = false := by
              rw [deploys, hsettle, houtcome]
            rw [List.filter_cons_of_neg (by rw [hdeploys]; exact nofun)]
            exact htook
          | deployed artifact =>
            have hdeploys : deploys targets opts entry = true := by
              rw [deploys, hsettle, houtcome]
            rw [List.filter_cons_of_pos hdeploys]
            exact congrArg (entry.agent.id :: ·) htook

/-- The errors of a deploy of all entries at once. -/
theorem deployAll_thrown (targets : List (String × FleetDeployTarget))
    (opts : ExecuteDeployOptions) (entries : List PlanEntry) :
    (deployAll targets opts entries).thrown = [] ↔
      ∀ entry ∈ entries, (settle targets opts entry).isOk = true := by
  have hthrown : (deployAll targets opts entries).thrown = entries.filterMap fun entry =>
      match settle targets opts entry with
      | .error error => some error
      | .ok _ => none := by
    unfold deployAll
    dsimp only
    split
    · exact (collect_spec targets opts entries _).2.1
    · rfl
  rw [hthrown, List.filterMap_eq_nil_iff]
  refine forall_congr' fun entry => imp_congr_right fun _ => ?_
  cases settle targets opts entry <;> simp [Except.isOk, Except.toBool]

theorem deployAll_kept (hcalm : (deployAll targets opts entries).thrown = []) :
    Kept targets entries (deployAll targets opts entries) := by
  obtain ⟨htook, hcalls⟩ := deployCalls_events targets opts entries
  have hanswers := (deployAll_thrown targets opts entries).mp hcalm
  have hnone : (entries.filterMap fun entry => match settle targets opts entry with
      | .error error => some error
      | .ok _ => none) = [] := by
    rw [List.filterMap_eq_nil_iff]
    intro entry hmem
    have hok := hanswers entry hmem
    cases hsettle : settle targets opts entry with
    | error error => rw [hsettle] at hok; cases hok
    | ok outcome => rfl
  have hrun : deployAll targets opts entries = collect targets opts entries
      { events := entries.filterMap (deployCall targets opts) } := by
    rw [deployAll, hnone]
    rfl
  obtain ⟨hevents, -, hdeployed, houtcomes⟩ := collect_spec targets opts entries
    { events := entries.filterMap (deployCall targets opts) }
  rw [hrun]
  refine ⟨?_, fun id hid => ?_, ?_, ?_, houtcomes fun _ => rfl⟩
  · rw [hdeployed]
    exact List.filter_sublist.map _
  · rw [hdeployed, List.nil_append] at hid
    obtain ⟨entry, hmem, rfl⟩ := List.mem_map.mp hid
    obtain ⟨hentry, hdeploys⟩ := List.mem_filter.mp hmem
    refine ⟨entry, hentry, rfl, ?_⟩
    cases hadapter : pickTarget targets entry with
    | error error => rw [deploys, settle, hadapter] at hdeploys; cases hdeploys
    | ok adapter => exact ⟨adapter, rfl⟩
  · rw [hevents, hdeployed, htook]
    rfl
  · rw [hevents, hcalls]

/-! ### Every strategy with a rollback -/

/-- The canary and, once it has passed its soak, the rest. -/
theorem canary_thrown (targets : List (String × FleetDeployTarget)) (opts : ExecuteDeployOptions)
    (canary : PlanEntry) (entries : List PlanEntry) :
    let run := deployThen targets opts (soak opts) canary {}
    (if run.stopped then run else rollOut targets opts entries run).thrown = [] ↔
      (deploys targets opts canary = true → opts.sleep opts.canaryWaitMs = .ok ()) ∧
        answersInTurn targets opts (canary :: entries) = true := by
  obtain ⟨hthrown, hstopped⟩ := deployThen_stopped targets opts canary {} rfl
    fun adapter run hadapter hgo => soak_stopped opts hadapter hgo
  intro run
  rw [answersInTurn, answers, passes]
  cases hgo : run.stopped with
  | true =>
    rw [if_pos rfl, hthrown]
    have hstop : ¬ (deploys targets opts canary = true ∧ opts.sleep opts.canaryWaitMs = .ok () ∧
        (probe targets opts canary).toOption.any (·.ok) = true) := by
      rw [← hstopped]
      exact fun hgo' => absurd (hgo.symm.trans hgo') nofun
    cases hdeploys : deploys targets opts canary with
    | false => simp
    | true =>
      have hfails : opts.sleep opts.canaryWaitMs = .ok () →
          (probe targets opts canary).toOption.any (·.ok) = false := fun hsleep =>
        Bool.eq_false_iff.mpr fun hany => hstop ⟨hdeploys, hsleep, hany⟩
      constructor
      · rintro ⟨hsettle, hrest⟩
        obtain ⟨hsleep, hprobe⟩ := hrest rfl
        refine ⟨fun _ => hsleep, ?_⟩
        rw [hsettle, hprobe, hfails hsleep]
        rfl
      · rintro ⟨hsleep, hanswers⟩
        have hfail := hfails (hsleep rfl)
        rw [hfail] at hanswers
        simp only [Bool.and_eq_true, Bool.not_true, Bool.false_or] at hanswers
        exact ⟨hanswers.1.1, fun _ => ⟨hsleep rfl, hanswers.1.2⟩⟩
  | false =>
    have hpass := hstopped.mp hgo
    have hanswer := hthrown.mp (DeployRun.stopped_eq_false.mp hgo).2
    obtain ⟨hdeploys, hsleep, hprobe⟩ := hpass
    rw [if_neg Bool.false_ne_true, rollOut_thrown entries hgo, hdeploys, hprobe, hanswer.1,
      (hanswer.2 hdeploys).2]
    simp [hsleep]

/-- Before the rollback: what was deployed, and whether anything was thrown. -/
theorem executeDeploy_eq (targets : List (String × FleetDeployTarget))
    (opts : ExecuteDeployOptions) (plan : DeployPlan) (order : List PlanEntry → List PlanEntry)
    (hstrategy : opts.strategy ≠ .perAgent) :
    ∃ run, executeDeploy targets opts plan order =
        rollbackCascade targets opts plan.entries run ∧
      (run.thrown = [] ↔ Answered targets opts plan) ∧
      (run.thrown = [] → Kept targets plan.entries run) := by
  have hempty : Kept targets [] {} := ⟨List.Sublist.refl _, nofun, rfl, rfl, fun _ => rfl⟩
  unfold executeDeploy Answered
  cases hs : opts.strategy with
  | rolling =>
    exact ⟨_, rfl, rollOut_thrown plan.entries rfl, fun _ => hempty.rollOut plan.entries⟩
  | canary =>
    cases hentries : plan.entries with
    | nil => exact ⟨{}, rfl, by simp, fun _ => hempty⟩
    | cons canary entries =>
      refine ⟨_, rfl, ?_, fun _ => ?_⟩
      · exact canary_thrown targets opts canary entries
      · have hcanary : Kept targets [canary] (deployThen targets opts (soak opts) canary {}) :=
          hempty.deployThen fun adapter _ hrun => hrun.soak adapter
        split
        · exact hcanary.append entries
        · exact hcanary.rollOut entries
  | allOrNothing =>
    exact ⟨_, rfl, deployAll_thrown targets opts plan.entries, deployAll_kept⟩
  | perAgent => exact absurd hs hstrategy

/-- It throws if and only if a call throws that is reached. -/
theorem executeDeploy_thrown (targets : List (String × FleetDeployTarget))
    (order : List PlanEntry → List PlanEntry) (plan : DeployPlan)
    (hstrategy : opts.strategy ≠ .perAgent) :
    (executeDeploy targets opts plan order).thrown = [] ↔ Answered targets opts plan := by
  obtain ⟨run, hrun, hthrown, hkept⟩ := executeDeploy_eq targets opts plan order hstrategy
  rw [hrun, ← hthrown]
  constructor
  · intro hlast
    by_contra hne
    have hsame : rollbackCascade targets opts plan.entries run = run := by
      simp [rollbackCascade, hne]
    rw [hsame] at hlast
    exact hne hlast
  · intro hcalm
    exact (rollbackCascade_rolledBack opts plan (hkept hcalm) hcalm).1

/-- A run that throws nothing and fails has rolled back what it deployed. -/
theorem executeDeploy_rolledBack (order : List PlanEntry → List PlanEntry) (plan : DeployPlan)
    (hstrategy : opts.strategy ≠ .perAgent) (hanswered : Answered targets opts plan)
    (hok : (executeDeploy targets opts plan order).ok = false) :
    (executeDeploy targets opts plan order).failed ≠ none ∧
      RolledBack targets plan.entries (executeDeploy targets opts plan order) := by
  obtain ⟨run, hrun, hthrown, hkept⟩ := executeDeploy_eq targets opts plan order hstrategy
  rw [hrun] at hok ⊢
  have hcalm := hthrown.mpr hanswered
  exact (rollbackCascade_rolledBack opts plan (hkept hcalm) hcalm).2 hok

end Declaragent.Fleet
