import Declaragent.Events.Dispatcher
import Declaragent.Library.Async
import Mathlib.Algebra.Order.Group.Unbundled.Int

/-!
# Events — the duplicate check under concurrency

Any number of events are handled at once by one dispatcher.  Each handling gives the processor
away at its awaits: after the duplicate check has read the cache and the store, after the record
of the event, at each ancestor the loop check looks up, and while its target runs.  The check
and the record are two steps, so two deliveries of one event may both pass the check before
either is recorded (`executed_twice`).

A run by itself does what `dispatch` does (`solo_dispatch`).

`Stage` is what the other tasks need to know of a control point.  `Apart` is the condition on a
duplicate check under which nothing goes wrong: no task with the same delivery is between its
check and its record, and a key that was seen within the span is still to be found.  The proof
outline is

* of the store: the targets started so far belong to different deliveries;
* of a task between check and record: its id is not in the store; of one past the record: its
  event is;
* of two tasks past the check: they handle different deliveries,

and it is kept by every such step (`executed_at_most_once`).
-/

namespace Declaragent.Events
open Async Transition

/-- The control point of a `handle()` run, with the time its duplicate check was made. -/
inductive Phase where
  | arrived
  | checked (arrival : Int) (prior : Option EventStoreRecord)
  | walking (arrival : Int) (fuel : Nat) (ancestorId : Option String) (visited : List String)
  | cleared (arrival : Int)
  | executing (arrival : Int)
  | settled (arrival : Int) (outcome : DispatchOutcome)
  | ended (outcome : DispatchOutcome)

inductive HandleAct where
  /-- The duplicate check, up to the await of the store's answer. -/
  | check
  /-- The answer of the store, up to the await of the record. -/
  | record
  /-- One ancestor of the loop check. -/
  | walk
  /-- The rate limiter's decision, and the start of the target where it admits the event. -/
  | start (denied : Option String)
  | finish (outcome : DispatchOutcome)

/-- What else happens: the clock moves, and events pass over the bus. -/
inductive HandleEnv where
  | clock (now : Int)
  | published (event : AgentEvent)

structure Start (ι : Type) where
  task : ι
  arrival : Int

/-- The dispatcher, the clock, and the log of the starts of `executeTarget`. -/
structure Handling (ι : Type) where
  dispatcher : Dispatcher
  now : Int
  starts : List (Start ι)

/-- One turn of the loop check. -/
inductive Walk where
  | found
  | clear
  | next (fuel : Nat) (ancestorId : Option String) (visited : List String)

def walkStep (lookup : String → Option AgentEvent) (event : AgentEvent) (fuel : Nat)
    (ancestorId : Option String) (visited : List String) : Walk :=
  match getTriggerId event.source, fuel, ancestorId with
  | some currentTrigger, fuel + 1, some ancestorId =>
    if currentTrigger = "" then .clear
    else if ancestorId = "" then .clear
    else if ancestorId ∈ visited then .found
    else
      match lookup ancestorId with
      | none => .clear
      | some ancestor =>
        if getTriggerId ancestor.source = some currentTrigger then .found
        else .next fuel ancestor.causedBy (ancestorId :: visited)
  | _, _, _ => .clear

section
variable {ι : Type}

def Handling.put (sh : Handling ι) (d : Dispatcher) : Handling ι := { sh with dispatcher := d }

/-- One step of the handling of `event` by task `i`. -/
def handleStep (config : DispatcherConfig) (event : AgentEvent) (i : ι) (sh : Handling ι) :
    Phase → HandleAct → Option (Handling ι × Phase)
  | .arrived, .check =>
    match sh.dispatcher.cache.lookup event sh.now with
    | (some at_, cache) =>
      some (sh.put { sh.dispatcher with cache := cache }, .ended (.duplicate at_ event.id))
    | (none, cache) => some (sh.put { sh.dispatcher with cache := cache },
        .checked sh.now (sh.dispatcher.store.findDuplicate event config.dedupWindowMs sh.now))
  -- the answer is that of the time of the check
  | .checked _ (some prior), .record =>
    some (sh.put { sh.dispatcher with
        cache := sh.dispatcher.cache.remember event prior.event.timestamp },
      .ended (.duplicate prior.event.timestamp event.id))
  | .checked arrival none, .record =>
    some (sh.put (sh.dispatcher.remember event sh.now),
      .walking arrival config.causedByDepthLimit.toNat event.causedBy [])
  | .walking arrival fuel ancestorId visited, .walk =>
    match walkStep (lookupAncestor config sh.dispatcher) event fuel ancestorId visited with
    | .found =>
      some (sh.put (sh.dispatcher.reject event .loop (some (loopDetails event)) sh.now),
        .ended (.rejected .loop (some (loopDetails event))))
    | .clear => some (sh, .cleared arrival)
    | .next fuel ancestorId visited => some (sh, .walking arrival fuel ancestorId visited)
  | .cleared _, .start (some details) =>
    some (sh.put (sh.dispatcher.reject event .rateLimit (some details) sh.now),
      .ended (.rejected .rateLimit (some details)))
  -- no await stands between the limiter and the target
  | .cleared arrival, .start none =>
    some ({ sh.put { sh.dispatcher with executed := sh.dispatcher.executed ++ [event] } with
        starts := sh.starts ++ [⟨i, arrival⟩] }, .executing arrival)
  | .executing arrival, .finish outcome =>
    some (sh.put (sh.dispatcher.settle event outcome sh.now), .settled arrival outcome)
  | _, _ => none

def handleEnvStep (config : DispatcherConfig) (sh : Handling ι) :
    HandleEnv → Option (Handling ι)
  | .clock now => some { sh with now := now }
  | .published event => some (sh.put { sh.dispatcher with
      recent := pushRecent config.recentBufferSize sh.dispatcher.recent event })

/-- The dispatcher with one `handle()` run for each member of `ι`; `events` is the event of
each as its `event.before` hook left it. -/
def handleSystem (config : DispatcherConfig) (events : ι → AgentEvent) :
    System ι (Handling ι) Phase HandleAct HandleEnv where
  task i := handleStep config (events i) i
  env := handleEnvStep config

abbrev HandleState (ι : Type) := State ι (Handling ι) Phase
abbrev HandleLabel (ι : Type) := Label ι HandleAct HandleEnv

/-- No event was handled yet, by a dispatcher that may have handled others before. -/
def handleInit (ι : Type) (d : Dispatcher) (now : Int) : HandleState ι :=
  ⟨⟨d, now, []⟩, fun _ => .arrived⟩

end

/-! ### One event alone

With nobody else about, the steps of a `handle()` run do what `dispatch` does. -/

/-- The outcome of a run that is over. -/
def Phase.outcome : Phase → Option DispatchOutcome
  | .settled _ outcome | .ended outcome => some outcome
  | _ => none

/-- The steps of one task by itself. -/
def soloStep {ι : Type} (config : DispatcherConfig) (event : AgentEvent) (i : ι)
    (p : Handling ι × Phase) (a : HandleAct) : Option (Handling ι × Phase) :=
  handleStep config event i p.1 p.2 a

/-- The loop check from some ancestor on. -/
def walks (lookup : String → Option AgentEvent) (event : AgentEvent) (fuel : Nat)
    (ancestorId : Option String) (visited : List String) : Bool :=
  match getTriggerId event.source with
  | none => false
  | some currentTrigger =>
    if currentTrigger = "" then false
    else walkAncestors lookup currentTrigger fuel ancestorId visited

theorem walks_step (lookup : String → Option AgentEvent) (event : AgentEvent) (fuel : Nat)
    (ancestorId : Option String) (visited : List String) :
    walks lookup event fuel ancestorId visited =
      match walkStep lookup event fuel ancestorId visited with
      | .found => true
      | .clear => false
      | .next fuel ancestorId visited => walks lookup event fuel ancestorId visited := by
  unfold walks walkStep
  cases getTriggerId event.source with
  | none => rfl
  | some currentTrigger =>
    by_cases ht : currentTrigger = ""
    · cases fuel <;> cases ancestorId <;> simp [ht]
    · cases fuel with
      | zero => simp [ht, walkAncestors]
      | succ fuel =>
        cases ancestorId with
        | none => simp [ht, walkAncestors]
        | some ancestorId =>
          simp only [ht, if_false, walkAncestors]
          by_cases he : ancestorId = ""
          · simp [he]
          · by_cases hv : ancestorId ∈ visited
            · simp [he, hv]
            · simp only [he, hv, if_false]
              cases lookup ancestorId with
              | none => rfl
              | some ancestor =>
                by_cases hs : getTriggerId ancestor.source = some currentTrigger
                · simp [hs]
                · simp [hs]

theorem walkStep_next {lookup : String → Option AgentEvent} {event : AgentEvent}
    {fuel fuel' : Nat} {ancestorId ancestorId' : Option String} {visited visited' : List String}
    (h : walkStep lookup event fuel ancestorId visited = .next fuel' ancestorId' visited') :
    fuel = fuel' + 1 := by
  unfold walkStep at h
  split at h
  · repeat' split at h
    all_goals cases h
    rfl
  · cases h

/-- The loop check ends, by induction on its fuel. -/
theorem solo_walk {ι : Type} (config : DispatcherConfig) (event : AgentEvent) (i : ι)
    (sh : Handling ι) (arrival : Int) : ∀ (fuel : Nat) (ancestorId : Option String)
    (visited : List String),
    ∃ acts, Run (soloStep config event i) Any (sh, .walking arrival fuel ancestorId visited) acts
      (if walks (lookupAncestor config sh.dispatcher) event fuel ancestorId visited then
        (sh.put (sh.dispatcher.reject event .loop (some (loopDetails event)) sh.now),
          .ended (.rejected .loop (some (loopDetails event))))
      else (sh, .cleared arrival)) := by
  intro fuel
  induction fuel with
  | zero =>
    intro ancestorId visited
    have hclear : walkStep (lookupAncestor config sh.dispatcher) event 0 ancestorId visited =
        .clear := by
      unfold walkStep
      cases getTriggerId event.source <;> rfl
    rw [walks_step, hclear]
    exact ⟨[.walk], .cons trivial (by simp [soloStep, handleStep, hclear]) .nil⟩
  | succ fuel ih =>
    intro ancestorId visited
    rw [walks_step]
    cases hw : walkStep (lookupAncestor config sh.dispatcher) event (fuel + 1) ancestorId
        visited with
    | found => exact ⟨[.walk], .cons trivial (by simp [soloStep, handleStep, hw]) .nil⟩
    | clear => exact ⟨[.walk], .cons trivial (by simp [soloStep, handleStep, hw]) .nil⟩
    | next fuel' ancestorId' visited' =>
      obtain rfl : fuel = fuel' := Nat.succ.inj (walkStep_next hw)
      obtain ⟨acts, hrun⟩ := ih ancestorId' visited'
      exact ⟨.walk :: acts, .cons trivial (by simp [soloStep, handleStep, hw]) hrun⟩

/-- From the record of the event on. -/
theorem solo_new {ι : Type} (config : DispatcherConfig) (event : AgentEvent) (i : ι)
    (d : Dispatcher) (now : Int) (starts : List (Start ι)) (arrival : Int) :
    ∃ acts sh l, Run (soloStep config event i) Any
      (⟨d, now, starts⟩, .checked arrival none) acts (sh, l) ∧
      sh.dispatcher = (dispatchNew config d event now).2 ∧
      l.outcome = some (dispatchNew config d event now).1 := by
  let d₁ := d.remember event now
  obtain ⟨acts, hwalk⟩ := solo_walk config event i ⟨d₁, now, starts⟩ arrival
    config.causedByDepthLimit.toNat event.causedBy []
  have hrecord : soloStep config event i (⟨d, now, starts⟩, .checked arrival none) .record =
      some (⟨d₁, now, starts⟩,
        .walking arrival config.causedByDepthLimit.toNat event.causedBy []) := rfl
  have hloop : walks (lookupAncestor config d₁) event config.causedByDepthLimit.toNat
      event.causedBy [] = detectLoop config d₁ event := rfl
  dsimp only at hwalk
  rw [hloop] at hwalk
  cases hdetect : detectLoop config d₁ event with
  | true =>
    rw [hdetect] at hwalk
    rw [dispatchNew, if_pos hdetect]
    exact ⟨_, _, _, .cons trivial hrecord hwalk, rfl, rfl⟩
  | false =>
    rw [hdetect] at hwalk
    rw [dispatchNew, if_neg (Bool.eq_false_iff.mp hdetect)]
    have hcleared := Run.cons (C := Any) trivial hrecord hwalk
    cases hlimit : config.rateLimiter event.target with
    | some details =>
      exact ⟨_, _, _, hcleared.snoc trivial (a := .start (some details)) rfl, rfl, rfl⟩
    | none =>
      have hstarted := hcleared.snoc trivial (a := .start none) rfl
      exact ⟨_, _, _, hstarted.snoc trivial
        (a := .finish (targetOutcome config event)) rfl, rfl, rfl⟩

/-- The events share their idempotency key and source type. -/
def SharesKey (event event' : AgentEvent) : Prop :=
  event.idempotencyKey.isSome ∧ event.idempotencyKey = event'.idempotencyKey ∧
    event.source.type = event'.source.type

/-- Two arrivals of one delivery: of one id, or of one key within the span. -/
def SameDelivery (span : Int) (event : AgentEvent) (arrival : Int) (event' : AgentEvent)
    (arrival' : Int) : Prop :=
  event.id = event'.id ∨ (SharesKey event event' ∧ |arrival - arrival'| ≤ span)

instance (event event' : AgentEvent) : Decidable (SharesKey event event') := by
  unfold SharesKey; infer_instance

instance (span : Int) (event : AgentEvent) (arrival : Int) (event' : AgentEvent)
    (arrival' : Int) : Decidable (SameDelivery span event arrival event' arrival') := by
  unfold SameDelivery; infer_instance

theorem SameDelivery.symm {span : Int} {event event' : AgentEvent} {arrival arrival' : Int}
    (h : SameDelivery span event arrival event' arrival') :
    SameDelivery span event' arrival' event arrival := by
  rcases h with hid | ⟨⟨hsome, hkey, htype⟩, hspan⟩
  · exact Or.inl hid.symm
  · exact Or.inr ⟨⟨hkey ▸ hsome, hkey.symm, htype.symm⟩, by rwa [abs_sub_comm]⟩

/-! ### The outline -/

/-- Where a task stands: outside, between its check and its record, past its record, or with its
target started. -/
inductive Stage where
  | out
  | gap (arrival : Int)
  | recorded (arrival : Int)
  | started (arrival : Int)

def Phase.stage : Phase → Stage
  | .checked arrival none => .gap arrival
  | .walking arrival .. | .cleared arrival => .recorded arrival
  | .executing arrival | .settled arrival _ => .started arrival
  | _ => .out

/-- When a task past its check arrived. -/
def Stage.arrival : Stage → Option Int
  | .out => none
  | .gap arrival | .recorded arrival | .started arrival => some arrival

/-- A key seen at `arrival` is still to be found at `now`, in the cache or in the store. -/
def StillSeen (config : DispatcherConfig) (d : Dispatcher) (now : Int) (prior event : AgentEvent) :
    Prop :=
  event.idempotencyKey ≠ some "" ∧
    (now - config.dedupWindowMs ≤ prior.timestamp ∨ d.cache.Remembers event now)

instance (config : DispatcherConfig) (d : Dispatcher) (now : Int) (prior event : AgentEvent) :
    Decidable (StillSeen config d now prior event) := by
  unfold StillSeen; infer_instance

section
variable {ι : Type}

/-- The check of `event` is apart from the handling of `prior`: that one is not between its
check and its record with the same delivery, and if it is past its record with the same key
within the span, the key is still to be found. -/
def ApartFrom (config : DispatcherConfig) (span : Int) (sh : Handling ι) (event : AgentEvent)
    (prior : AgentEvent) : Stage → Prop
  | .out => True
  | .gap arrival => ¬ SameDelivery span prior arrival event sh.now
  | .recorded arrival | .started arrival =>
    SharesKey prior event → |arrival - sh.now| ≤ span →
      StillSeen config sh.dispatcher sh.now prior event

instance (config : DispatcherConfig) (span : Int) (sh : Handling ι) (event prior : AgentEvent)
    (stage : Stage) : Decidable (ApartFrom config span sh event prior stage) := by
  unfold ApartFrom
  split <;> infer_instance

/-- Each duplicate check is apart from all other tasks. -/
def Apart (config : DispatcherConfig) (events : ι → AgentEvent) (span : Int)
    (s : HandleState ι) : HandleLabel ι → Prop
  | .task i .check =>
    ∀ j, j ≠ i → ApartFrom config span s.shared (events i) (events j) (s.loc j).stage
  | _ => True

/-- What a task knows of the store and of the log. -/
structure Knows (event : AgentEvent) (i : ι) (sh : Handling ι) (stage : Stage) : Prop where
  unseen : ∀ arrival, stage = .gap arrival →
    ∀ prior ∈ sh.dispatcher.store.logged, prior.id ≠ event.id
  logged : ∀ arrival, stage = .recorded arrival ∨ stage = .started arrival →
    event ∈ sh.dispatcher.store.logged
  starts : ∀ start ∈ sh.starts, start.task = i → stage = .started start.arrival

/-- Two tasks past their checks handle different deliveries. -/
def Differ (span : Int) (event : AgentEvent) (stage : Stage) (event' : AgentEvent)
    (stage' : Stage) : Prop :=
  ∀ arrival arrival', stage.arrival = some arrival → stage'.arrival = some arrival' →
    ¬ SameDelivery span event arrival event' arrival'

/-- The starts belong to different deliveries. -/
def AtMostOnce (events : ι → AgentEvent) (span : Int) (starts : List (Start ι)) : Prop :=
  starts.Pairwise fun start start' =>
    ¬ SameDelivery span (events start.task) start.arrival (events start'.task) start'.arrival

def handleOutline (events : ι → AgentEvent) (span : Int) : Outline ι (Handling ι) Phase where
  shared sh := AtMostOnce events span sh.starts
  own i sh l := Knows (events i) i sh l.stage
  pair i _ l j l' := Differ span (events i) l.stage (events j) l'.stage

theorem Differ.symm {span : Int} {event event' : AgentEvent} {stage stage' : Stage}
    (h : Differ span event stage event' stage') : Differ span event' stage' event stage :=
  fun _ _ ha ha' hsame => h _ _ ha' ha hsame.symm

theorem Differ.of_out {span : Int} {event event' : AgentEvent} {stage : Stage} :
    Differ span event .out event' stage := fun _ _ ha _ => by cases ha

/-- How one step of a task looks to the others. -/
inductive StepView (config : DispatcherConfig) (event : AgentEvent) (i : ι) (sh : Handling ι)
    (l : Phase) (a : HandleAct) (sh' : Handling ι) (l' : Phase) : Prop where
  /-- The check finds no duplicate. -/
  | check (ha : a = .check) (hl : l.stage = .out) (hl' : l'.stage = .gap sh.now)
      (hcache : (sh.dispatcher.cache.lookup event sh.now).1 = none)
      (hstore : sh.dispatcher.store.findDuplicate event config.dedupWindowMs sh.now = none)
      (hlogged : sh'.dispatcher.store.logged = sh.dispatcher.store.logged)
      (hstarts : sh'.starts = sh.starts)
  /-- The event is recorded. -/
  | record (arrival : Int) (hl : l.stage = .gap arrival) (hl' : l'.stage = .recorded arrival)
      (hstore : sh'.dispatcher.store = recordEvent sh.dispatcher.store event sh.now)
      (hstarts : sh'.starts = sh.starts)
  /-- The target is started. -/
  | start (arrival : Int) (hl : l.stage = .recorded arrival) (hl' : l'.stage = .started arrival)
      (hlogged : sh'.dispatcher.store.logged = sh.dispatcher.store.logged)
      (hstarts : sh'.starts = sh.starts ++ [⟨i, arrival⟩])
  /-- The task stays where it was, or leaves without a start. -/
  | quiet (hl' : l'.stage = l.stage ∨ (l'.stage = .out ∧ ∀ arrival, l.stage ≠ .started arrival))
      (hlogged : sh'.dispatcher.store.logged = sh.dispatcher.store.logged)
      (hstarts : sh'.starts = sh.starts)

theorem handleStep_view {config : DispatcherConfig} {event : AgentEvent} {i : ι}
    {sh sh' : Handling ι} {l l' : Phase} {a : HandleAct}
    (h : handleStep config event i sh l a = some (sh', l')) :
    StepView config event i sh l a sh' l' := by
  cases l with
  | arrived =>
    cases a with
    | check =>
      simp only [handleStep] at h
      split at h
      · cases h
        exact .quiet (Or.inl rfl) rfl rfl
      · rename_i cache hcache
        cases h
        cases hdup : sh.dispatcher.store.findDuplicate event config.dedupWindowMs sh.now with
        | some prior => exact .quiet (Or.inl rfl) rfl rfl
        | none => exact .check rfl rfl rfl (by rw [hcache]) hdup rfl rfl
    | record | walk | start _ | finish _ => cases h
  | checked arrival prior =>
    cases a with
    | record =>
      cases prior with
      | some prior => cases h; exact .quiet (Or.inl rfl) rfl rfl
      | none => cases h; exact .record arrival rfl rfl rfl rfl
    | check | walk | start _ | finish _ => cases prior <;> cases h
  | walking arrival fuel ancestorId visited =>
    cases a with
    | walk =>
      simp only [handleStep] at h
      split at h
      · cases h
        exact .quiet (Or.inr ⟨rfl, fun _ e => by cases e⟩) (logged_reject ..) rfl
      · cases h; exact .quiet (Or.inl rfl) rfl rfl
      · cases h; exact .quiet (Or.inl rfl) rfl rfl
    | check | record | start _ | finish _ => cases h
  | cleared arrival =>
    cases a with
    | start denied =>
      cases denied with
      | some details =>
        cases h
        exact .quiet (Or.inr ⟨rfl, fun _ e => by cases e⟩) (logged_reject ..) rfl
      | none => cases h; exact .start arrival rfl rfl rfl rfl
    | check | record | walk | finish _ => cases h
  | executing arrival =>
    cases a with
    | finish outcome => cases h; exact .quiet (Or.inl rfl) (logged_settle ..) rfl
    | check | record | walk | start _ => cases h
  | settled _ _ | ended _ => cases a <;> cases h

variable {config : DispatcherConfig} {events : ι → AgentEvent} {span : Int} {i : ι}

/-- Only the store and the log matter to a task that does not move. -/
theorem Knows.of_same {event : AgentEvent} {sh sh' : Handling ι} {stage : Stage}
    (h : Knows event i sh stage)
    (hlogged : sh'.dispatcher.store.logged = sh.dispatcher.store.logged)
    (hstarts : sh'.starts = sh.starts) : Knows event i sh' stage where
  unseen arrival hs := by rw [hlogged]; exact h.unseen arrival hs
  logged arrival hs := by rw [hlogged]; exact h.logged arrival hs
  starts := by rw [hstarts]; exact h.starts

/-- A task that is outside and was never started knows nothing. -/
theorem Knows.out {event : AgentEvent} {sh : Handling ι}
    (h : ∀ start ∈ sh.starts, start.task ≠ i) : Knows event i sh .out where
  unseen _ hs := by cases hs
  logged _ hs := by rcases hs with hs | hs <;> cases hs
  starts start hmem hi := absurd hi (h start hmem)

theorem Knows.not_started {event : AgentEvent} {sh : Handling ι} {stage : Stage}
    (h : Knows event i sh stage) (hs : ∀ arrival, stage ≠ .started arrival) :
    ∀ start ∈ sh.starts, start.task ≠ i :=
  fun start hmem hi => hs _ (h.starts start hmem hi)

/-- **A check that finds nothing**, and is apart, is the only one of its delivery. -/
theorem differ_of_check {s : HandleState ι} {a : HandleAct}
    (h : (handleOutline events span).Holds s) (hC : Apart config events span s (.task i a))
    (ha : a = .check)
    (hcache : (s.shared.dispatcher.cache.lookup (events i) s.shared.now).1 = none)
    (hstore : s.shared.dispatcher.store.findDuplicate (events i) config.dedupWindowMs
      s.shared.now = none) {j : ι} (hj : j ≠ i) :
    Differ span (events j) (s.loc j).stage (events i) (.gap s.shared.now) := by
  subst ha
  obtain ⟨hid, hkey⟩ := EventStore.findDuplicate_eq_none.mp hstore
  have hC := hC j hj
  have hown : Knows (events j) j s.shared (s.loc j).stage := h.own j
  -- an event that was recorded is in the store, so its id and key differ
  have hrecorded : ∀ arrival, events j ∈ s.shared.dispatcher.store.logged →
      (SharesKey (events j) (events i) → |arrival - s.shared.now| ≤ span →
        StillSeen config s.shared.dispatcher s.shared.now (events j) (events i)) →
      ¬ SameDelivery span (events j) arrival (events i) s.shared.now := by
    rintro arrival hlogged hseen (hsame | ⟨hshare, hspan⟩)
    · exact hid _ hlogged hsame
    · obtain ⟨hne, hfound⟩ := hseen hshare hspan
      obtain ⟨hsome, hsamekey, htype⟩ := hshare
      obtain ⟨key, hk⟩ := Option.isSome_iff_exists.mp hsome
      rcases hfound with hwindow | hlive
      · have hk' : (events i).idempotencyKey = some key := hsamekey ▸ hk
        have hbefore := hkey key hk' (fun e => hne (by rw [hk', e])) _ hlogged hk htype
        omega
      · have hhit := IdempotencyCache.lookup_of_remembers hlive
        rw [hcache] at hhit
        cases hhit
  rintro arrival arrival' harr ⟨⟩
  cases hstage : (s.loc j).stage with
  | out => rw [hstage] at harr; cases harr
  | gap t =>
    -- neither cache nor store knows of it yet, so only the condition keeps it apart
    rw [hstage] at hC harr
    cases harr
    exact hC
  | recorded t =>
    rw [hstage] at hC harr
    cases harr
    exact hrecorded _ (hown.logged _ (Or.inl hstage)) hC
  | started t =>
    rw [hstage] at hC harr
    cases harr
    exact hrecorded _ (hown.logged _ (Or.inr hstage)) hC

/-- **The record of an event** whose id nobody has seen: the store takes it, and it stays unseen
what was. -/
theorem Knows.of_record {event event' : AgentEvent} {sh sh' : Handling ι} {stage : Stage}
    {arrival : Int} (h : Knows event i sh stage)
    (hunseen : ∀ prior ∈ sh.dispatcher.store.logged, prior.id ≠ event'.id)
    (hstore : sh'.dispatcher.store = recordEvent sh.dispatcher.store event' sh.now)
    (hstarts : sh'.starts = sh.starts)
    (hdiffer : Differ span event stage event' (.gap arrival)) : Knows event i sh' stage := by
  have hlogged : sh'.dispatcher.store.logged = sh.dispatcher.store.logged ++ [event'] := by
    rw [hstore]
    exact logged_recordEvent hunseen
  refine ⟨fun t hs prior hprior => ?_, fun t hs => ?_, by rw [hstarts]; exact h.starts⟩
  · rw [hlogged, List.mem_append, List.mem_singleton] at hprior
    rcases hprior with hprior | rfl
    · exact h.unseen t hs prior hprior
    · -- both are between check and record, and the pair assertion says they differ
      subst hs
      exact fun hid => hdiffer t arrival rfl rfl (Or.inl hid.symm)
  · rw [hlogged]
    exact List.mem_append_left _ (h.logged t hs)

/-- Another task's start is none of this one. -/
theorem Knows.of_start {event : AgentEvent} {sh sh' : Handling ι} {stage : Stage} {j : ι}
    {arrival : Int} (h : Knows event i sh stage) (hij : i ≠ j)
    (hlogged : sh'.dispatcher.store.logged = sh.dispatcher.store.logged)
    (hstarts : sh'.starts = sh.starts ++ [⟨j, arrival⟩]) : Knows event i sh' stage where
  unseen t hs := by rw [hlogged]; exact h.unseen t hs
  logged t hs := by rw [hlogged]; exact h.logged t hs
  starts start hmem hi := by
    rw [hstarts, List.mem_append, List.mem_singleton] at hmem
    rcases hmem with hmem | rfl
    · exact h.starts start hmem hi
    · exact absurd hi.symm hij

/-- What is left to show of a step of task `i`. -/
structure Advanced (events : ι → AgentEvent) (span : Int) (s : HandleState ι) (i : ι)
    (sh : Handling ι) (stage : Stage) : Prop where
  starts : AtMostOnce events span sh.starts
  own : Knows (events i) i sh stage
  others : ∀ j, j ≠ i → Knows (events j) j sh (s.loc j).stage
  differ : ∀ j, j ≠ i → Differ span (events j) (s.loc j).stage (events i) stage

section
variable {s : HandleState ι} {sh : Handling ι} (h : (handleOutline events span).Holds s)
include h

theorem advanced_check {a : HandleAct} (hC : Apart config events span s (.task i a))
    (ha : a = .check) (hl : (s.loc i).stage = .out)
    (hcache : (s.shared.dispatcher.cache.lookup (events i) s.shared.now).1 = none)
    (hstore : s.shared.dispatcher.store.findDuplicate (events i) config.dedupWindowMs
      s.shared.now = none)
    (hlogged : sh.dispatcher.store.logged = s.shared.dispatcher.store.logged)
    (hstarts : sh.starts = s.shared.starts) : Advanced events span s i sh (.gap s.shared.now) where
  starts := by rw [hstarts]; exact h.shared
  own := by
    have hown : Knows (events i) i s.shared (s.loc i).stage := h.own i
    refine ⟨fun t _ prior hprior => ?_, fun t hs => ?_, fun start hmem hi => ?_⟩
    · rw [hlogged] at hprior
      exact (EventStore.findDuplicate_eq_none.mp hstore).1 prior hprior
    · rcases hs with hs | hs <;> cases hs
    · rw [hstarts] at hmem
      have hs := hown.starts start hmem hi
      rw [hl] at hs
      cases hs
  others j _ := (h.own j).of_same hlogged hstarts
  differ j hj := differ_of_check h hC ha hcache hstore hj

theorem advanced_record {arrival : Int} (hl : (s.loc i).stage = .gap arrival)
    (hstore : sh.dispatcher.store =
      recordEvent s.shared.dispatcher.store (events i) s.shared.now)
    (hstarts : sh.starts = s.shared.starts) :
    Advanced events span s i sh (.recorded arrival) := by
  have hown : Knows (events i) i s.shared (s.loc i).stage := h.own i
  have hunseen := hown.unseen arrival hl
  have hdiffer : ∀ j, j ≠ i →
      Differ span (events j) (s.loc j).stage (events i) (.gap arrival) := fun j hj =>
    hl ▸ h.pair j i hj
  refine ⟨by rw [hstarts]; exact h.shared, ⟨fun t hs => by (cases hs), fun t _ => ?_,
    fun start hmem hi => ?_⟩, fun j hj => (h.own j).of_record hunseen hstore hstarts
      (hdiffer j hj), fun j hj _ _ hj' ha => hdiffer j hj _ _ hj' ha⟩
  · rw [hstore, logged_recordEvent hunseen]
    exact List.mem_append_right _ (List.mem_singleton_self _)
  · rw [hstarts] at hmem
    have hs := hown.starts start hmem hi
    rw [hl] at hs
    cases hs

theorem advanced_start {arrival : Int} (hl : (s.loc i).stage = .recorded arrival)
    (hlogged : sh.dispatcher.store.logged = s.shared.dispatcher.store.logged)
    (hstarts : sh.starts = s.shared.starts ++ [⟨i, arrival⟩]) :
    Advanced events span s i sh (.started arrival) := by
  have hown : Knows (events i) i s.shared (s.loc i).stage := h.own i
  have hdiffer : ∀ j, j ≠ i →
      Differ span (events j) (s.loc j).stage (events i) (.started arrival) := fun j hj => by
    have hd : Differ span (events j) (s.loc j).stage (events i) (s.loc i).stage := h.pair j i hj
    rw [hl] at hd
    exact fun _ _ hj' ha => hd _ _ hj' ha
  have hnew : ∀ start ∈ s.shared.starts, start.task ≠ i :=
    hown.not_started fun _ e => by rw [hl] at e; cases e
  refine ⟨?_, ⟨fun t hs => by (cases hs), fun t _ => ?_, fun start hmem hi => ?_⟩,
    fun j hj => (h.own j).of_start hj hlogged hstarts, hdiffer⟩
  · -- the tasks in the log are past their checks, so they handle other deliveries
    unfold AtMostOnce
    rw [hstarts, List.pairwise_append]
    refine ⟨h.shared, List.pairwise_singleton _ _, fun start hmem start' hmem' => ?_⟩
    obtain rfl := List.mem_singleton.mp hmem'
    have hs : (s.loc start.task).stage = .started start.arrival :=
      (h.own start.task).starts start hmem rfl
    exact hdiffer _ (hnew start hmem) start.arrival arrival (by rw [hs]; rfl) rfl
  · rw [hlogged]
    exact hown.logged arrival (Or.inl hl)
  · rw [hstarts, List.mem_append, List.mem_singleton] at hmem
    rcases hmem with hmem | rfl
    · exact absurd hi (hnew start hmem)
    · rfl

theorem advanced_quiet {stage : Stage}
    (hl : stage = (s.loc i).stage ∨
      (stage = .out ∧ ∀ arrival, (s.loc i).stage ≠ .started arrival))
    (hlogged : sh.dispatcher.store.logged = s.shared.dispatcher.store.logged)
    (hstarts : sh.starts = s.shared.starts) : Advanced events span s i sh stage := by
  have hown : Knows (events i) i s.shared (s.loc i).stage := h.own i
  refine ⟨by rw [hstarts]; exact h.shared, ?_,
    fun j _ => (h.own j).of_same hlogged hstarts, fun j hj => ?_⟩
  · rcases hl with rfl | ⟨rfl, hout⟩
    · exact hown.of_same hlogged hstarts
    · refine .out fun start hmem => ?_
      rw [hstarts] at hmem
      exact hown.not_started hout start hmem
  · rcases hl with rfl | ⟨rfl, -⟩
    · exact h.pair j i hj
    · exact Differ.of_out.symm

end

/-- **One step** of a run whose checks are apart keeps the outline. -/
theorem handleOutline_kept (config : DispatcherConfig) (events : ι → AgentEvent) (span : Int) :
    (handleOutline events span).Kept (handleSystem config events) (Apart config events span) where
  env := by
    intro s e sh h _ he
    cases e with
    | clock now =>
      cases he
      exact ⟨h.shared, fun i => (h.own i).of_same rfl rfl, h.pair⟩
    | published event =>
      cases he
      exact ⟨h.shared, fun i => (h.own i).of_same rfl rfl, h.pair⟩
  task := by
    intro s i a sh l h hC hstep
    have hadv : Advanced events span s i sh l.stage := by
      cases handleStep_view hstep with
      | check ha hl hl' hcache hstore hlogged hstarts =>
        rw [hl']
        exact advanced_check h hC ha hl hcache hstore hlogged hstarts
      | record arrival hl hl' hstore hstarts =>
        rw [hl']
        exact advanced_record h hl hstore hstarts
      | start arrival hl hl' hlogged hstarts =>
        rw [hl']
        exact advanced_start h hl hlogged hstarts
      | quiet hl' hlogged hstarts => exact advanced_quiet h hl' hlogged hstarts
    exact ⟨hadv.starts, hadv.own,
      fun j hj => ⟨hadv.others j hj, (hadv.differ j hj).symm, hadv.differ j hj⟩,
      fun j k _ _ hjk => h.pair j k hjk⟩

/-- **Dispatch is at most once.**  For any number of events, any dispatcher, store and cache, and
any interleaving in which every duplicate check is apart: the starts of `executeTarget` belong
to different deliveries, for every span. -/
theorem executed_at_most_once [DecidableEq ι] (config : DispatcherConfig)
    (events : ι → AgentEvent) (span : Int) (d : Dispatcher) (now : Int)
    {labels : List (HandleLabel ι)} {s : HandleState ι}
    (r : Run (handleSystem config events).step (Apart config events span) (handleInit ι d now)
      labels s) : AtMostOnce events span s.shared.starts := by
  have h0 : (handleOutline events span).Holds (handleInit ι d now) :=
    ⟨List.Pairwise.nil, fun _ => .out fun _ hmem => by (cases hmem), fun _ _ _ => .of_out⟩
  exact ((handleOutline_kept config events span).holds_of_run h0 r).shared

end

/-! ### Two deliveries -/

instance (config : DispatcherConfig) (events : Bool → AgentEvent) (span : Int)
    (s : HandleState Bool) (label : HandleLabel Bool) :
    Decidable (Apart config events span s label) := by
  unfold Apart
  split <;> infer_instance

/-- A webhook that carries its delivery id as the idempotency key. -/
def webhookEvent (id : String) : AgentEvent where
  id := id
  source := .webhook "hooks" none
  target := .broadcast
  kind := .webhookReceived
  timestamp := 0
  payload := .null
  auth := .internal
  info := some { idempotencyKey := some "delivery-1" }

def webhookConfig : DispatcherConfig where
  executeTarget _ := .ok .broadcast

def emptyDispatcher : Dispatcher := ⟨.empty 10000 600000, .empty, [], []⟩

/-- A redelivery that comes after the record of the first is a duplicate. -/
theorem executed_at_most_once_redelivered :
    ∃ s, Run (handleSystem webhookConfig fun i => webhookEvent (if i then "e1" else "e2")).step
        (Apart webhookConfig (fun i => webhookEvent (if i then "e1" else "e2")) 600000)
        (handleInit Bool emptyDispatcher 0)
        [.task true .check, .task true .record, .env (.clock 5), .task false .check,
          .task true .walk, .task true (.start none), .task true (.finish .broadcast)] s ∧
      AtMostOnce (fun i => webhookEvent (if i then "e1" else "e2")) 600000 s.shared.starts ∧
      s.shared.starts.length = 1 := by
  obtain ⟨s, r, hlen⟩ := Run.of_replay
    (p := fun s : HandleState Bool => s.shared.starts.length == 1)
    (show (exec (guarded (handleSystem webhookConfig fun i =>
        webhookEvent (if i then "e1" else "e2")).step
        (Apart webhookConfig (fun i => webhookEvent (if i then "e1" else "e2")) 600000))
        (handleInit Bool emptyDispatcher 0)
        [.task true .check, .task true .record, .env (.clock 5), .task false .check,
          .task true .walk, .task true (.start none),
          .task true (.finish .broadcast)]).any _ = true by decide)
  exact ⟨s, r, executed_at_most_once _ _ _ _ _ r, by simpa using hlen⟩

/-- Two deliveries of one event that both pass the check before either is recorded. -/
theorem executed_twice : ¬ ∀ (ι : Type) (_ : DecidableEq ι) (config : DispatcherConfig)
    (events : ι → AgentEvent) (d : Dispatcher) (now : Int) (labels : List (HandleLabel ι))
    (s : HandleState ι),
      Run (handleSystem config events).step Any (handleInit ι d now) labels s →
        AtMostOnce events (max d.cache.ttlMs config.dedupWindowMs) s.shared.starts := by
  intro h
  obtain ⟨s, r, hstarts⟩ := Run.any_of_replay
    (p := fun s : HandleState Bool => decide (s.shared.starts.map (·.task) = [true, false]))
    (show (exec (handleSystem webhookConfig fun _ => webhookEvent "e1").step
      (handleInit Bool emptyDispatcher 0)
      [.task true .check, .task false .check, .task true .record, .task false .record,
        .task true .walk, .task false .walk, .task true (.start none),
        .task false (.start none)]).any _ = true by decide)
  have honce := h _ inferInstance _ _ _ _ _ s r
  rcases hs : s.shared.starts with _ | ⟨start, _ | ⟨start', rest⟩⟩
  · rw [hs] at hstarts
    cases hstarts
  · rw [hs] at hstarts
    simp at hstarts
  · rw [hs] at honce
    exact (List.pairwise_cons.mp honce).1 start' (List.mem_cons_self ..) (Or.inl rfl)

end Declaragent.Events
