import Declaragent.Events.Requeue
import Declaragent.Library.Transition

/-!
# Events — startup recovery, step by step

`recoverPendingEvents` runs at a boot: it fetches the pending rows and takes them one by one.  The
original is marked terminal first and its clone is published then.  Either may throw, which ends
with that row, and the process may stop between any two steps.  The dispatcher is live meanwhile:
it takes on what is on the bus in its own time, and a stop leaves pending what it is running.

* `Fate.step`: where an event that was pending can be.
* `Once.step`: an original whose clone was published is settled for good.
* `recovery_accounts` puts the two together.
-/

namespace Declaragent.Events
open Transition

/-! ### The recovery of a process that may stop -/

/-- Where the recovery is. -/
inductive RecoveryPhase where
  | idle
  /-- The rows not yet taken. -/
  | next (pending : List EventStoreRecord)
  /-- The original is marked, and its clone not yet published. -/
  | marked (original clone : AgentEvent) (pending : List EventStoreRecord)
  /-- The clone is on the bus. -/
  | publishing (original clone : AgentEvent) (pending : List EventStoreRecord)

/-- The dispatcher with its store, the events on the bus that it has yet to take on, those whose
targets run, and the recovery with the entries it returns.  `clones` logs each clone given to the
bus with its original, `cut` the originals between whose mark and publish the process stopped,
`refused` those whose publish threw, and `stops` counts the stops. -/
structure RecoveryState where
  d : Dispatcher
  onBus : List AgentEvent := []
  running : List AgentEvent := []
  phase : RecoveryPhase := .idle
  entries : List (String × String) := []
  clones : List (AgentEvent × AgentEvent) := []
  cut : List String := []
  refused : List String := []
  stops : Nat := 0

inductive RecoveryLabel where
  /-- `list` throws where a row does not parse. -/
  | fetch (limit : Nat) (parses : Bool)
  | mark (cloneId : String) (throws : Bool) (now : Int)
  | publish (throws : Bool)
  /-- `bus.publish` returns; the dispatcher it handed the clone to is not waited for. -/
  | published
  /-- The process stops, and starts again. -/
  | stop
  /-- A source publishes. -/
  | arrive (event : AgentEvent)
  /-- The dispatcher takes on an event from the bus. -/
  | takes (place : Nat) (now : Int)
  /-- The target of a running event is through. -/
  | settles (place : Nat) (now : Int)

def recoveredDetails (cloneId : String) : String :=
  "interrupted mid-dispatch; recovered at boot as " ++ cloneId

section
variable (config : DispatcherConfig) (tenantScope : Option String)

def RecoveryState.emit (s : RecoveryState) (event : AgentEvent) : RecoveryState :=
  { s with d := s.d.push config event, onBus := s.onBus ++ [event] }

/-- The dispatcher takes on an event. -/
def RecoveryState.take (s : RecoveryState) (event : AgentEvent) (now : Int) : RecoveryState :=
  match beginHandle config s.d event now with
  | (some (current, none), d) => { s with d := d, running := s.running ++ [current] }
  | (_, d) => { s with d := d }

def recoveryStep (s : RecoveryState) : RecoveryLabel → Option RecoveryState
  | .fetch limit parses =>
    match s.phase with
    | .idle =>
      some (if parses then
        { s with phase := .next (s.d.store.listPending limit), entries := [] }
      else s)
    | _ => none
  | .mark cloneId throws now =>
    match s.phase with
    | .next [] => some { s with phase := .idle }
    | .next (row :: pending) =>
      some (if throws then { s with phase := .next pending }
      else
        let store := s.d.store.markOutcome row.event.id
          (.rejected .interrupted (some (recoveredDetails cloneId))) now
        { s with
          d := { s.d with store := store }
          phase := .marked row.event (cloneEvent row.event cloneId now) pending })
    | _ => none
  | .publish throws =>
    match s.phase with
    | .marked original clone pending =>
      some (match throws, enforceTenantScope tenantScope clone with
        | false, .ok event =>
          let s := s.emit config event
          { s with
            phase := .publishing original clone pending
            clones := s.clones ++ [(original, clone)] }
        | _, _ => { s with phase := .next pending, refused := s.refused ++ [original.id] })
    | _ => none
  | .published =>
    match s.phase with
    | .publishing original clone pending =>
      some
        { s with phase := .next pending, entries := s.entries ++ [(original.id, clone.id)] }
    | _ => none
  | .stop =>
    some { s with
      d := { s.d with cache := .empty s.d.cache.max s.d.cache.ttlMs, recent := [] }
      onBus := []
      running := []
      phase := .idle
      entries := []
      cut := match s.phase with
        | .marked original .. => s.cut ++ [original.id]
        | _ => s.cut
      stops := s.stops + 1 }
  | .arrive event => some (s.emit config event)
  | .takes place now =>
    s.onBus[place]?.map fun event =>
      { s with onBus := s.onBus.eraseIdx place }.take config event now
  | .settles place now =>
    s.running[place]?.map fun event =>
      { s with
        d := s.d.settle event (targetOutcome config event) now
        running := s.running.eraseIdx place }

end

/-- A clone of the event was given to the bus. -/
def RecoveryState.Cloned (s : RecoveryState) (id : String) : Prop :=
  id ∈ s.clones.map fun p => p.1.id

/-- The event is in the dead letter queue. -/
def RecoveryState.InDlq (s : RecoveryState) (id : String) : Prop :=
  (s.d.store.getRejection id).isSome

/-- The original the recovery has marked and whose clone it has not published. -/
def RecoveryPhase.original : RecoveryPhase → Option AgentEvent
  | .marked original .. => some original
  | _ => none

/-- The originals the recovery has before it. -/
def RecoveryPhase.queued : RecoveryPhase → List AgentEvent
  | .idle => []
  | .next pending | .marked _ _ pending | .publishing _ _ pending => pending.map (·.event)

section
variable {config : DispatcherConfig} {tenantScope : Option String} {s s' : RecoveryState}

/-! ### What a step of the recovery can be -/

theorem recoveryStep_fetch_inv {limit : Nat} {parses : Bool}
    (h : recoveryStep config tenantScope s (.fetch limit parses) = some s') :
    s.phase = .idle ∧
      (s' = s ∨ s' = { s with phase := .next (s.d.store.listPending limit), entries := [] }) := by
  simp only [recoveryStep] at h
  split at h
  · rename_i hphase
    cases parses with
    | false => exact ⟨hphase, .inl (Option.some.inj h).symm⟩
    | true => exact ⟨hphase, .inr (Option.some.inj h).symm⟩
  · cases h

/-- No row is left, or the first one is skipped or marked. -/
theorem recoveryStep_mark_inv {cloneId : String} {throws : Bool} {now : Int}
    (h : recoveryStep config tenantScope s (.mark cloneId throws now) = some s') :
    s.phase = .next [] ∧ s' = { s with phase := .idle } ∨
      ∃ row pending, s.phase = .next (row :: pending) ∧
        (s' = { s with phase := .next pending } ∨
          s' = { s with
            d := { s.d with
              store := s.d.store.markOutcome row.event.id
                (.rejected .interrupted (some (recoveredDetails cloneId))) now }
            phase := .marked row.event (cloneEvent row.event cloneId now) pending }) := by
  simp only [recoveryStep] at h
  split at h
  · rename_i hphase
    exact .inl ⟨hphase, (Option.some.inj h).symm⟩
  · rename_i row pending hphase
    cases throws with
    | false => exact .inr ⟨row, pending, hphase, .inr (Option.some.inj h).symm⟩
    | true => exact .inr ⟨row, pending, hphase, .inl (Option.some.inj h).symm⟩
  · cases h

/-- The clone goes to the bus, or its publish throws. -/
theorem recoveryStep_publish_inv {throws : Bool}
    (h : recoveryStep config tenantScope s (.publish throws) = some s') :
    ∃ original clone pending, s.phase = .marked original clone pending ∧
      ((∃ event, enforceTenantScope tenantScope clone = .ok event ∧
          s' = { s.emit config event with
            phase := .publishing original clone pending
            clones := s.clones ++ [(original, clone)] }) ∨
        s' = { s with phase := .next pending, refused := s.refused ++ [original.id] }) := by
  simp only [recoveryStep] at h
  split at h
  · rename_i original clone pending hphase
    cases h
    refine ⟨original, clone, pending, hphase, ?_⟩
    split
    · rename_i event hscope
      exact .inl ⟨event, hscope, rfl⟩
    · exact .inr rfl
  · cases h

theorem recoveryStep_published_inv
    (h : recoveryStep config tenantScope s .published = some s') :
    ∃ original clone pending, s.phase = .publishing original clone pending ∧
      s' = { s with
        phase := .next pending
        entries := s.entries ++ [(original.id, clone.id)] } := by
  simp only [recoveryStep] at h
  split at h
  · rename_i original clone pending hphase
    exact ⟨original, clone, pending, hphase, (Option.some.inj h).symm⟩
  · cases h

/-! ### What a step does to the rows -/

theorem get_beginHandle {d : Dispatcher} {event : AgentEvent} {now : Int} {id : String}
    {row : EventStoreRecord} (h : d.store.get id = some row) :
    (beginHandle config d event now).2.store.get id = some row := by
  unfold beginHandle
  dsimp only
  split
  · exact h
  · exact h
  · exact get_beginDispatch h
  · exact get_beginDispatch h

/-- What gets to its target was new to the store. -/
theorem beginHandle_started {d d' : Dispatcher} {event current : AgentEvent} {now : Int}
    (h : beginHandle config d event now = (some (current, none), d')) :
    d.store.get current.id = none := by
  unfold beginHandle at h
  dsimp only at h
  split at h
  · cases h
  · cases h
  · simp only [Prod.mk.injEq, Option.some.injEq] at h
    obtain ⟨⟨rfl, hnone⟩, -⟩ := h
    exact beginDispatch_started hnone
  · simp only [Prod.mk.injEq, Option.some.injEq] at h
    obtain ⟨⟨rfl, hnone⟩, -⟩ := h
    exact beginDispatch_started hnone

variable (config) in
/-- **Taking on an event** changes the dispatcher and what it runs: every row stays, and what is
run besides had no row. -/
theorem take_spec (s : RecoveryState) (event : AgentEvent) (now : Int) :
    ∃ d running, s.take config event now = { s with d := d, running := running } ∧
      (∀ id row, s.d.store.get id = some row → d.store.get id = some row) ∧
      ∀ current ∈ running, current ∈ s.running ∨ s.d.store.get current.id = none := by
  have hget : ∀ id row, s.d.store.get id = some row →
      (beginHandle config s.d event now).2.store.get id = some row :=
    fun id row h => get_beginHandle h
  unfold RecoveryState.take
  rcases hb : beginHandle config s.d event now with ⟨_ | ⟨current, _ | outcome⟩, d⟩
  · rw [hb] at hget
    exact ⟨d, s.running, rfl, hget, fun _ h => Or.inl h⟩
  · rw [hb] at hget
    refine ⟨d, s.running ++ [current], rfl, hget, fun e he => ?_⟩
    rcases List.mem_append.mp he with he | he
    · exact Or.inl he
    · obtain rfl := List.mem_singleton.mp he
      exact Or.inr (beginHandle_started hb)
  · rw [hb] at hget
    exact ⟨d, s.running, rfl, hget, fun _ h => Or.inl h⟩

/-- The outcome of an event leaves the other rows. -/
theorem get_settle_of_ne {d : Dispatcher} {event : AgentEvent} {outcome : DispatchOutcome}
    {now : Int} {id : String} (h : id ≠ event.id) :
    (d.settle event outcome now).store.get id = d.store.get id := by
  rw [get_settle, EventStore.get_markOutcome]
  simp [h]

/-- The mark leaves the other rows. -/
theorem get_markOutcome_of_ne {store : EventStore} {outcome : DispatchOutcome} {now : Int}
    {id id' : String} (h : id ≠ id') :
    (store.markOutcome id' outcome now).get id = store.get id := by
  rw [EventStore.get_markOutcome]
  simp [h]

/-! ### No event is lost but at a publish -/

/-- Where an event that was pending at the start is. -/
inductive Fate (s : RecoveryState) (id : String) : Prop where
  | pending (row : s.d.store.Pending id) (running : ∀ event ∈ s.running, event.id ≠ id)
  | inHand (original : AgentEvent) (marked : s.phase.original = some original)
      (same : original.id = id)
  | cloned (h : s.Cloned id)
  | cut (h : id ∈ s.cut)
  | refused (h : id ∈ s.refused)

/-- The logs only grow, so a step has to answer for the event in the store and for that in
hand. -/
theorem Fate.kept {id : String} (h : Fate s id)
    (hpending : s.d.store.Pending id → (∀ event ∈ s.running, event.id ≠ id) → Fate s' id)
    (hinHand : ∀ original, s.phase.original = some original → original.id = id → Fate s' id)
    (hclones : s.clones ⊆ s'.clones) (hcut : s.cut ⊆ s'.cut) (hrefused : s.refused ⊆ s'.refused) :
    Fate s' id := by
  cases h with
  | pending row hne => exact hpending row hne
  | inHand original marked same => exact hinHand original marked same
  | cloned h => exact .cloned (List.map_subset _ hclones h)
  | cut h => exact .cut (hcut h)
  | refused h => exact .refused (hrefused h)

/-- Taking on an event loses none. -/
theorem Fate.take {id : String} (h : Fate s id) (event : AgentEvent) (now : Int) :
    Fate (s.take config event now) id := by
  obtain ⟨d, running, he, hget, hrunning⟩ := take_spec config s event now
  rw [he]
  refine h.kept ?_ (fun original marked same => .inHand original marked same)
    (List.Subset.refl _) (List.Subset.refl _) (List.Subset.refl _)
  rintro ⟨row, hrow, hnone⟩ hne
  refine .pending ⟨row, hget id row hrow, hnone⟩ fun e hmem hid => ?_
  rcases hrunning e hmem with hmem | hnew
  · exact hne e hmem hid
  · rw [hid, hrow] at hnew
    cases hnew

/-- **No step loses an event**: a pending one stays in the store until it is marked, and a marked
one is in hand until its publish or a stop. -/
theorem Fate.step {id : String} {a : RecoveryLabel} (h : Fate s id)
    (hstep : recoveryStep config tenantScope s a = some s') : Fate s' id := by
  have hrefl {α : Type} (l : List α) : l ⊆ l := List.Subset.refl l
  cases a with
  | fetch limit parses =>
    obtain ⟨hphase, rfl | rfl⟩ := recoveryStep_fetch_inv hstep
    · exact h
    · refine h.kept (fun hrow hne => .pending hrow hne) (fun original marked _ => ?_) (hrefl _)
        (hrefl _) (hrefl _)
      rw [hphase] at marked
      cases marked
  | mark cloneId throws now =>
    obtain ⟨hphase, rfl⟩ | ⟨row, pending, hphase, rfl | rfl⟩ := recoveryStep_mark_inv hstep
    · refine h.kept (fun hrow hne => .pending hrow hne) (fun original marked _ => ?_) (hrefl _)
        (hrefl _) (hrefl _)
      rw [hphase] at marked
      cases marked
    · refine h.kept (fun hrow hne => .pending hrow hne) (fun original marked _ => ?_) (hrefl _)
        (hrefl _) (hrefl _)
      rw [hphase] at marked
      cases marked
    · refine h.kept ?_ (fun original marked _ => ?_) (hrefl _) (hrefl _) (hrefl _)
      · rintro ⟨row', hrow', hnone⟩ hne
        by_cases hid : id = row.event.id
        · exact .inHand row.event rfl hid.symm
        · exact .pending ⟨row', (get_markOutcome_of_ne hid).trans hrow', hnone⟩ hne
      · rw [hphase] at marked
        cases marked
  | publish throws =>
    obtain ⟨original, clone, pending, hphase, ⟨event, -, rfl⟩ | rfl⟩ :=
      recoveryStep_publish_inv hstep
    · refine h.kept (fun hrow hne => .pending hrow hne) (fun o marked same => ?_)
        (List.subset_append_left _ _) (hrefl _) (hrefl _)
      rw [hphase] at marked
      cases marked
      exact .cloned (by simp [RecoveryState.Cloned, same])
    · refine h.kept (fun hrow hne => .pending hrow hne) (fun o marked same => ?_) (hrefl _)
        (hrefl _) (List.subset_append_left _ _)
      rw [hphase] at marked
      cases marked
      exact .refused (by simp [same])
  | published =>
    obtain ⟨original, clone, pending, hphase, rfl⟩ := recoveryStep_published_inv hstep
    refine h.kept (fun hrow hne => .pending hrow hne) (fun o marked _ => ?_) (hrefl _) (hrefl _)
      (hrefl _)
    rw [hphase] at marked
    cases marked
  | stop =>
    cases hstep
    refine h.kept (fun hrow _ => .pending hrow (by simp)) (fun o marked same => ?_) (hrefl _) ?_
      (hrefl _)
    · -- the process stopped between the mark and the publish
      refine .cut ?_
      cases hphase : s.phase <;> rw [hphase] at marked <;> cases marked
      simp [same]
    · dsimp only
      split
      · exact List.subset_append_left _ _
      · exact hrefl _
  | arrive event =>
    cases hstep
    exact h.kept (fun hrow hne => .pending hrow hne)
      (fun o marked same => .inHand o marked same) (hrefl _) (hrefl _) (hrefl _)
  | takes place now =>
    obtain ⟨event, -, rfl⟩ := Option.map_eq_some_iff.mp hstep
    have hbus : Fate { s with onBus := s.onBus.eraseIdx place } id :=
      h.kept (fun hrow hne => .pending hrow hne) (fun o marked same => .inHand o marked same)
        (hrefl _) (hrefl _) (hrefl _)
    exact hbus.take event now
  | settles place now =>
    obtain ⟨event, hget, rfl⟩ := Option.map_eq_some_iff.mp hstep
    refine h.kept ?_ (fun o marked same => .inHand o marked same) (hrefl _) (hrefl _) (hrefl _)
    rintro ⟨row, hrow, hnone⟩ hne
    have hother : id ≠ event.id := fun e => hne event (List.mem_of_getElem? hget) e.symm
    exact .pending ⟨row, (get_settle_of_ne hother).trans hrow, hnone⟩ fun e he =>
      hne e ((List.eraseIdx_sublist _ _).subset he)

/-! ### No original is cloned twice -/

/-- Every row stays with its event, and one with an outcome keeps one. -/
def Grows (store store' : EventStore) : Prop :=
  ∀ id row, store.get id = some row →
    ∃ row', store'.get id = some row' ∧ row'.event = row.event ∧
      (row.outcome ≠ none → row'.outcome ≠ none)

theorem Grows.refl (store : EventStore) : Grows store store :=
  fun _ row hrow => ⟨row, hrow, rfl, fun h => h⟩

theorem Grows.settled {store store' : EventStore} (h : Grows store store') {id : String}
    (hs : store.Settled id) : store'.Settled id := by
  obtain ⟨row, hrow, hsome⟩ := hs
  obtain ⟨row', hrow', -, hkept⟩ := h id row hrow
  exact ⟨row', hrow', hkept hsome⟩

theorem Grows.logged {store store' : EventStore} (h : Grows store store') {event : AgentEvent}
    (he : event ∈ store.logged) : event ∈ store'.logged := by
  obtain ⟨row, hrow, rfl⟩ := EventStore.get_of_logged he
  obtain ⟨row', hrow', hevent, -⟩ := h _ row hrow
  exact hevent ▸ EventStore.get_event_mem hrow'

theorem grows_markOutcome (store : EventStore) (id : String) (outcome : DispatchOutcome)
    (now : Int) : Grows store (store.markOutcome id outcome now) := by
  intro id' row hrow
  refine ⟨_, by rw [EventStore.get_markOutcome, hrow]; rfl, ?_, ?_⟩
  · dsimp only
    split <;> rfl
  · intro hsome
    dsimp only
    split
    · simp
    · exact hsome

theorem grows_settle (d : Dispatcher) (event : AgentEvent) (outcome : DispatchOutcome)
    (now : Int) : Grows d.store (d.settle event outcome now).store := by
  intro id row hrow
  obtain ⟨row', hrow', h⟩ := grows_markOutcome d.store event.id outcome now id row hrow
  exact ⟨row', get_settle.trans hrow', h⟩

variable (config) in
theorem grows_take (s : RecoveryState) (event : AgentEvent) (now : Int) :
    Grows s.d.store (s.take config event now).d.store := by
  obtain ⟨d, running, he, hget, -⟩ := take_spec config s event now
  rw [he]
  exact fun id row hrow => ⟨row, hget id row hrow, rfl, fun h => h⟩

/-- The originals cloned so far, the one in hand and those in the queue are apart, and the first
two have their outcome. -/
structure Once (s : RecoveryState) : Prop where
  settled : ∀ id, s.Cloned id → s.d.store.Settled id
  nodup : (s.clones.map fun p => p.1.id).Nodup
  genuine : ∀ p ∈ s.clones, p.1 ∈ s.d.store.logged ∧ ∃ id ts, p.2 = cloneEvent p.1 id ts
  stored : ∀ original ∈ s.phase.queued, original ∈ s.d.store.logged
  queued : ∀ original ∈ s.phase.queued, ¬ s.Cloned original.id
  distinct : (s.phase.queued.map (·.id)).Nodup
  inHand : ∀ original clone pending, s.phase = .marked original clone pending →
    s.d.store.Settled original.id ∧ original ∈ s.d.store.logged ∧ ¬ s.Cloned original.id ∧
      original.id ∉ s.phase.queued.map (·.id) ∧ ∃ id ts, clone = cloneEvent original id ts

/-- What the dispatcher writes leaves the rows the recovery is about. -/
theorem Once.grows (h : Once s) {d : Dispatcher} (hg : Grows s.d.store d.store)
    (onBus running : List AgentEvent) :
    Once { s with d := d, onBus := onBus, running := running } where
  settled id hid := hg.settled (h.settled id hid)
  nodup := h.nodup
  genuine p hp := ⟨hg.logged (h.genuine p hp).1, (h.genuine p hp).2⟩
  stored original ho := hg.logged (h.stored original ho)
  queued := h.queued
  distinct := h.distinct
  inHand original clone pending hp := by
    obtain ⟨hs, hl, hrest⟩ := h.inHand original clone pending hp
    exact ⟨hg.settled hs, hg.logged hl, hrest⟩

variable (config) in
theorem Once.emit (h : Once s) (event : AgentEvent) : Once (s.emit config event) := by
  have hg : Grows s.d.store (s.d.push config event).store := .refl _
  exact h.grows hg (s.onBus ++ [event]) s.running

variable (config) in
theorem Once.take (h : Once s) (event : AgentEvent) (now : Int) :
    Once (s.take config event now) := by
  have hg := grows_take config s event now
  obtain ⟨d, running, he, -, -⟩ := take_spec config s event now
  rw [he] at hg ⊢
  exact h.grows hg s.onBus running

/-- The recovery goes on with fewer rows and none in hand. -/
theorem Once.shrink (h : Once s) {phase : RecoveryPhase}
    (hsub : phase.queued.Sublist s.phase.queued) (hnone : phase.original = none)
    (entries : List (String × String)) (cut refused : List String) (stops : Nat) :
    Once { s with
      phase := phase, entries := entries, cut := cut, refused := refused, stops := stops } where
  settled := h.settled
  nodup := h.nodup
  genuine := h.genuine
  stored original ho := h.stored original (hsub.subset ho)
  queued original ho := h.queued original (hsub.subset ho)
  distinct := h.distinct.sublist (hsub.map _)
  inHand original clone pending hp := by
    dsimp only at hp
    rw [hp] at hnone
    cases hnone

/-- The rows that are fetched are pending, and so none of them was cloned. -/
theorem Once.fetch (h : Once s) (limit : Nat) :
    Once { s with phase := .next (s.d.store.listPending limit), entries := [] } where
  settled := h.settled
  nodup := h.nodup
  genuine := h.genuine
  stored original ho := by
    obtain ⟨row, hrow, rfl⟩ := List.mem_map.mp ho
    exact EventStore.get_event_mem (EventStore.listPending_pending hrow).1
  queued original ho hcloned := by
    obtain ⟨row, hrow, rfl⟩ := List.mem_map.mp ho
    obtain ⟨hget, hnone⟩ := EventStore.listPending_pending hrow
    exact (h.settled _ hcloned).not_pending ⟨row, hget, hnone⟩
  distinct := by
    have hnodup := s.d.store.listPending_nodup limit
    simpa [RecoveryPhase.queued, Function.comp_def] using hnodup
  inHand original clone pending hp := by cases hp

/-- The first row of the queue is marked. -/
theorem Once.mark (h : Once s) {row : EventStoreRecord} {pending : List EventStoreRecord}
    (hphase : s.phase = .next (row :: pending)) (cloneId : String) (outcome : DispatchOutcome)
    (now : Int) :
    Once { s with
      d := { s.d with store := s.d.store.markOutcome row.event.id outcome now }
      phase := .marked row.event (cloneEvent row.event cloneId now) pending } := by
  have hg := grows_markOutcome s.d.store row.event.id outcome now
  have hqueued : s.phase.queued = row.event :: pending.map (·.event) := by
    rw [hphase]
    rfl
  have hrow : row.event ∈ s.d.store.logged := h.stored _ (by simp [hqueued])
  have hdistinct := h.distinct
  rw [hqueued, List.map_cons, List.nodup_cons] at hdistinct
  refine ⟨fun id hid => hg.settled (h.settled id hid), h.nodup,
    fun p hp => ⟨hg.logged (h.genuine p hp).1, (h.genuine p hp).2⟩,
    fun original ho => hg.logged (h.stored original ?_), fun original ho => h.queued original ?_,
    hdistinct.2, ?_⟩
  · rw [hqueued]
    exact List.mem_cons_of_mem _ ho
  · rw [hqueued]
    exact List.mem_cons_of_mem _ ho
  · rintro original clone rest ⟨⟩
    refine ⟨?_, hg.logged hrow, h.queued _ (by simp [hqueued]), hdistinct.1, cloneId, now, rfl⟩
    obtain ⟨stored, hstored, -⟩ := EventStore.get_of_logged hrow
    exact ⟨_, by rw [EventStore.get_markOutcome, hstored]; rfl, by simp⟩

/-- The clone of the marked original is published. -/
theorem Once.publish (h : Once s) {original clone : AgentEvent} {pending : List EventStoreRecord}
    (hphase : s.phase = .marked original clone pending) :
    Once { s with
      phase := .publishing original clone pending
      clones := s.clones ++ [(original, clone)] } := by
  obtain ⟨hsettled, hlogged, hnew, hapart, hclone⟩ := h.inHand original clone pending hphase
  have hqueued : s.phase.queued = pending.map (·.event) := by
    rw [hphase]
    rfl
  have hcloned : ∀ id, id ∈ ((s.clones ++ [(original, clone)]).map fun p => p.1.id) ↔
      s.Cloned id ∨ id = original.id := by simp [RecoveryState.Cloned]
  refine ⟨fun id hid => ?_, ?_, fun p hp => ?_, fun o ho => h.stored o (by rwa [hqueued]),
    fun o ho hid => ?_, ?_, fun _ _ _ hp => (by cases hp)⟩
  · rcases (hcloned id).mp hid with hid | rfl
    · exact h.settled id hid
    · exact hsettled
  · rw [List.map_append]
    refine h.nodup.append (List.nodup_singleton _) ?_
    simpa [RecoveryState.Cloned] using hnew
  · rcases List.mem_append.mp hp with hp | hp
    · exact h.genuine p hp
    · obtain rfl := List.mem_singleton.mp hp
      exact ⟨hlogged, hclone⟩
  · rcases (hcloned o.id).mp hid with hid | hid
    · exact h.queued o (by rwa [hqueued]) hid
    · refine hapart (hid ▸ List.mem_map_of_mem ?_)
      rwa [hqueued]
  · have hdistinct := h.distinct
    rwa [hqueued] at hdistinct

/-- **No step clones an original again.** -/
theorem Once.step {a : RecoveryLabel} (h : Once s)
    (hstep : recoveryStep config tenantScope s a = some s') : Once s' := by
  cases a with
  | fetch limit parses =>
    obtain ⟨-, rfl | rfl⟩ := recoveryStep_fetch_inv hstep
    · exact h
    · exact h.fetch limit
  | mark cloneId throws now =>
    obtain ⟨-, rfl⟩ | ⟨row, pending, hphase, rfl | rfl⟩ := recoveryStep_mark_inv hstep
    · refine h.shrink ?_ rfl ..
      exact List.nil_sublist _
    · refine h.shrink ?_ rfl ..
      rw [hphase]
      exact List.sublist_cons_self _ _
    · exact h.mark hphase cloneId _ now
  | publish throws =>
    obtain ⟨original, clone, pending, hphase, ⟨event, -, rfl⟩ | rfl⟩ :=
      recoveryStep_publish_inv hstep
    · exact (h.emit config event).publish hphase
    · refine h.shrink ?_ rfl ..
      rw [hphase]
      exact List.Sublist.refl _
  | published =>
    obtain ⟨original, clone, pending, hphase, rfl⟩ := recoveryStep_published_inv hstep
    refine h.shrink ?_ rfl ..
    rw [hphase]
    exact List.Sublist.refl _
  | stop =>
    cases hstep
    let d : Dispatcher :=
      { s.d with cache := .empty s.d.cache.max s.d.cache.ttlMs, recent := [] }
    have hg : Grows s.d.store d.store := .refl _
    refine (h.grows hg [] []).shrink ?_ rfl ..
    exact List.nil_sublist _
  | arrive event =>
    cases hstep
    exact h.emit config event
  | takes place now =>
    obtain ⟨event, -, rfl⟩ := Option.map_eq_some_iff.mp hstep
    exact (h.grows (.refl _) (s.onBus.eraseIdx place) s.running).take config event now
  | settles place now =>
    obtain ⟨event, -, rfl⟩ := Option.map_eq_some_iff.mp hstep
    exact h.grows (grows_settle s.d event _ now) _ _

/-! ### What recovery comes to -/

/-- A stop cuts off at most one publish. -/
theorem cut_le_stops_step {a : RecoveryLabel} (h : s.cut.length ≤ s.stops)
    (hstep : recoveryStep config tenantScope s a = some s') : s'.cut.length ≤ s'.stops := by
  cases a with
  | fetch limit parses =>
    obtain ⟨-, rfl | rfl⟩ := recoveryStep_fetch_inv hstep
    · exact h
    · exact h
  | mark cloneId throws now =>
    obtain ⟨-, rfl⟩ | ⟨row, pending, -, rfl | rfl⟩ := recoveryStep_mark_inv hstep
    · exact h
    · exact h
    · exact h
  | publish throws =>
    obtain ⟨original, clone, pending, -, ⟨event, -, rfl⟩ | rfl⟩ := recoveryStep_publish_inv hstep
    · exact h
    · exact h
  | published =>
    obtain ⟨original, clone, pending, -, rfl⟩ := recoveryStep_published_inv hstep
    exact h
  | stop =>
    cases hstep
    dsimp only
    split
    · simpa using h
    · exact Nat.le_succ_of_le h
  | arrive event =>
    cases hstep
    exact h
  | takes place now =>
    obtain ⟨event, -, rfl⟩ := Option.map_eq_some_iff.mp hstep
    obtain ⟨d, running, he, -, -⟩ :=
      take_spec config { s with onBus := s.onBus.eraseIdx place } event now
    rw [he]
    exact h
  | settles place now =>
    obtain ⟨event, -, rfl⟩ := Option.map_eq_some_iff.mp hstep
    exact h

end

/-! ### One interrupted event -/

/-- The store holds one event, interrupted before it had an outcome. -/
def interruptedDispatcher : Dispatcher :=
  createEventDispatcher
    ⟨[⟨rejectedEvent (.self "wakeup"), 0, none, none⟩], [], by simp, List.nodup_nil⟩

theorem interrupted_pending : interruptedDispatcher.store.Pending "e1" := ⟨_, rfl, rfl⟩

end Declaragent.Events
