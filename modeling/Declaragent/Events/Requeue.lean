import Declaragent.Events.Dispatcher

/-!
# Events — requeue and recovery

An operator requeues a rejected event, and the daemon recovers at boot the events whose dispatch
was interrupted.  Both publish a clone under a fresh id, without the idempotency key, and with
`causedBy` set to the original, so that the clone is no duplicate of it.  But the clone has its
source's trigger still, and the loop check finds the original with that same trigger among its
causes.

* `publish_clone` is what publishing a clone does: its target is started exactly when the clone
  is in no loop with its original (`Unlooped`) and the rate limiter admits it.
* `clone_executed_iff` is that for `requeue`, and for every event `recoverPendingEvents` recovers.
-/

namespace Declaragent.Events

/-- The clone that both publish. -/
def cloneEvent (original : AgentEvent) (id : String) (now : Int) : AgentEvent :=
  { original with
    id := id
    timestamp := now
    info := some { original.info.getD {} with
      idempotencyKey := none
      causedBy := some original.id
      correlationId := some ((original.info.bind (·.correlationId)).getD original.id) } }

inductive RequeueResult where
  | ok (eventId newEventId : String) (attemptsBeforeRequeue : Nat)
      (outcome : Option DispatchOutcome)
  | dlqMiss (eventId message : String)
  | eventMiss (eventId message : String)

/-- Requeue one rejected event: by `dispatch`, the dispatcher's `handle`, where it is given, and
else by `bus.publish`. -/
def requeue (config : DispatcherConfig) (d : Dispatcher) (eventId newEventId : String)
    (dispatch : Bool) (now : Int) : Except String RequeueResult × Dispatcher :=
  match d.store.getRejection eventId with
  | none => (.ok (.dlqMiss eventId ("no dispatch DLQ entry for \"" ++ eventId ++
      "\" — already requeued or never rejected")), d)
  | some rejection =>
    match d.store.get eventId with
    | none => (.ok (.eventMiss eventId ("event \"" ++ eventId ++
        "\" is in the DLQ but its body is no longer in the events table (vacuumed?)")), d)
    | some row =>
      let requeued := cloneEvent row.event newEventId now
      let acknowledged := fun d : Dispatcher =>
        { d with store := d.store.deleteRejection eventId }
      if dispatch then
        match handleInternal config d requeued now with
        | (.ok outcome, d) => (.ok (.ok eventId newEventId rejection.attemptCount
            (some outcome)), acknowledged d)
        | (.error err, d) => (.error err, d)
      else (.ok (.ok eventId newEventId rejection.attemptCount none),
        acknowledged (publish config d requeued now))

/-- One turn of the recovery loop: the original is terminal before the clone is published. -/
def recoverEvent (config : DispatcherConfig) (d : Dispatcher) (row : EventStoreRecord)
    (cloneId : String) (now : Int) : Dispatcher :=
  let outcome := DispatchOutcome.rejected .interrupted
    (some ("interrupted mid-dispatch; recovered at boot as " ++ cloneId))
  publish config { d with store := d.store.markOutcome row.event.id outcome now }
    (cloneEvent row.event cloneId now) now

/-- The recovery loop; `newId` is the supply of fresh ids. -/
def recoverEvents (config : DispatcherConfig) (newId : Nat → String) (now : Int) :
    Nat → List EventStoreRecord → Dispatcher → Dispatcher
  | _, [], d => d
  | k, row :: pending, d =>
    recoverEvents config newId now (k + 1) pending (recoverEvent config d row (newId k) now)

/-- Recover the given rows, by default the pending ones of the store. -/
def recoverPendingEvents (config : DispatcherConfig) (d : Dispatcher)
    (events : Option (List EventStoreRecord)) (newId : Nat → String) (limit : Nat) (now : Int) :
    Dispatcher :=
  recoverEvents config newId now 0 (events.getD (d.store.listPending limit)) d

/-! ### Publishing a clone -/

/-- The target of the event with the id was started. -/
def Dispatcher.Ran (d : Dispatcher) (id : String) : Prop := ∃ event ∈ d.executed, event.id = id

/-- Nobody has seen the id. -/
structure Dispatcher.Unused (d : Dispatcher) (id : String) : Prop where
  cache : ¬ d.cache.Knows id
  store : ∀ event ∈ d.store.logged, event.id ≠ id
  ran : ¬ d.Ran id

/-- The event is stored, and whatever the dispatcher can look up under its id has its source. -/
structure Dispatcher.Holds (config : DispatcherConfig) (d : Dispatcher) (original : AgentEvent) :
    Prop where
  stored : original ∈ d.store.logged
  lookup : ∀ lookupEvent, config.lookupEvent = some lookupEvent → ∀ event,
    lookupEvent original.id = some event → event.source = original.source
  recent : ∀ event ∈ d.recent, event.id = original.id → event.source = original.source

/-- The loop check does not find the original of a clone to be a cause with its own trigger. -/
def Unlooped (config : DispatcherConfig) (original : AgentEvent) : Prop :=
  (∀ trigger, ¬ Triggered original trigger) ∨ config.causedByDepthLimit ≤ 0 ∨ original.id = ""

/-- The clone of the event is let through to its target. -/
def Admitted (config : DispatcherConfig) (original : AgentEvent) : Prop :=
  Unlooped config original ∧ config.rateLimiter original.target = none

/-- What publishing an event adds to what the dispatcher knows. -/
structure Published (event : AgentEvent) (d d' : Dispatcher) : Prop where
  cache : ∀ key, d'.cache.Knows key → key = event.id ∨ d.cache.Knows key
  logged : d'.store.logged = d.store.logged ++ [event]
  recent : ∀ prior ∈ d'.recent, prior = event ∨ prior ∈ d.recent
  ran : ∀ id, id ≠ event.id → (d'.Ran id ↔ d.Ran id)

variable {config : DispatcherConfig} {d d' : Dispatcher} {original clone : AgentEvent}
  {id : String} {now : Int}

@[simp] theorem cloneEvent_id (original : AgentEvent) (id : String) (now : Int) :
    (cloneEvent original id now).id = id := rfl

theorem cloneEvent_idempotencyKey (original : AgentEvent) (id : String) (now : Int) :
    (cloneEvent original id now).idempotencyKey = none := rfl

theorem cloneEvent_causedBy (original : AgentEvent) (id : String) (now : Int) :
    (cloneEvent original id now).causedBy = some original.id := rfl

/-- Two hits of one buffer under the original's id have its source. -/
theorem Dispatcher.Holds.recentLookup_source (h : d.Holds config original) {event : AgentEvent}
    (hit : recentLookup d.recent original.id = some event) : event.source = original.source :=
  h.recent event (List.mem_of_find?_eq_some hit) (by simpa using List.find?_some hit)

/-- The original is found among the causes of its clone, with its own source. -/
theorem Dispatcher.Holds.lookupAncestor (h : d.Holds config original) :
    ∃ ancestor, lookupAncestor config d original.id = some ancestor ∧
      ancestor.source = original.source := by
  unfold Events.lookupAncestor
  split
  · rename_i hit hhit
    refine ⟨hit, rfl, ?_⟩
    cases hl : config.lookupEvent with
    | none =>
      rw [hl] at hhit
      exact h.recentLookup_source hhit
    | some lookupEvent =>
      rw [hl] at hhit
      exact h.lookup lookupEvent hl hit hhit
  · obtain ⟨row, hrow, rfl⟩ := EventStore.get_of_logged h.stored
    exact ⟨row.event, by rw [hrow], rfl⟩

/-- **The loop check of a clone** looks no further than its original. -/
theorem detectLoop_clone (h : d.Holds config original) (id : String) (now : Int) :
    detectLoop config d (cloneEvent original id now) = false ↔ Unlooped config original := by
  constructor
  · intro hloop
    unfold Unlooped
    by_contra hnot
    simp only [not_or, not_forall, not_not, not_le] at hnot
    obtain ⟨⟨trigger, ht⟩, hlimit, hid⟩ := hnot
    obtain ⟨ancestor, hlookup, hsource⟩ := h.lookupAncestor
    have hfound : detectLoop config d (cloneEvent original id now) = true :=
      detectLoop_of_trigger ht hlimit (cloneEvent_causedBy original id now) hid hlookup
        (by rw [hsource]; exact ht.1)
    rw [hfound] at hloop
    cases hloop
  · rintro (ht | hlimit | hid)
    · exact detectLoop_of_untriggered config d ht
    · exact detectLoop_of_unwalked (Or.inl hlimit)
    · exact detectLoop_of_unwalked (Or.inr (by rw [cloneEvent_causedBy, hid]))

/-- **From the record of a clone on**: the loop check and the rate limiter decide. -/
theorem dispatchNew_clone (h : d.Holds config original) (hnew : d.Unused id) :
    let d' := (dispatchNew config d (cloneEvent original id now) now).2
    Published (cloneEvent original id now) d d' ∧ (d'.Ran id ↔ Admitted config original) := by
  intro d'
  obtain ⟨hcache, hrecent, hstore, hran⟩ :=
    dispatchNew_spec config d (cloneEvent original id now) now
  have hlogged : (d.remember (cloneEvent original id now) now).store.logged =
      d.store.logged ++ [cloneEvent original id now] := logged_recordEvent hnew.store
  have hholds : (d.remember (cloneEvent original id now) now).Holds config original :=
    ⟨by rw [hlogged]; exact List.mem_append_left _ h.stored, h.lookup, h.recent⟩
  have hcond : (detectLoop config (d.remember (cloneEvent original id now) now)
      (cloneEvent original id now) = false ∧
      config.rateLimiter (cloneEvent original id now).target = none) ↔
      Admitted config original := and_congr (detectLoop_clone hholds id now) Iff.rfl
  have hrun : d'.Ran id ↔ Admitted config original := by
    unfold Dispatcher.Ran
    rw [hran]
    split
    · rename_i hadmitted
      exact iff_of_true ⟨_, List.mem_append_right _ (List.mem_singleton_self _), rfl⟩
        (hcond.mp hadmitted)
    · rename_i hadmitted
      exact iff_of_false hnew.ran fun ha => hadmitted (hcond.mpr ha)
  refine ⟨⟨fun key hk => ?_, hstore.trans hlogged, fun prior hp => Or.inr ?_, fun k hk => ?_⟩,
    hrun⟩
  · rw [hcache] at hk
    exact IdempotencyCache.knows_remember rfl hk
  · rwa [hrecent] at hp
  · unfold Dispatcher.Ran
    rw [hran]
    split
    · have hne : ¬ id = k := fun e => hk e.symm
      simp [or_and_right, exists_or, hne]
    · exact Iff.rfl

/-- The host's hook leaves the clones of the event as they are. -/
def Passes (config : DispatcherConfig) (original : AgentEvent) : Prop :=
  ∀ id now, config.before (cloneEvent original id now) = .passes

variable (now) in
/-- **Handling a clone**: it is no duplicate. -/
theorem handleInternal_clone (h : d.Holds config original) (hnew : d.Unused id)
    (hbefore : Passes config original) :
    ∃ outcome d', handleInternal config d (cloneEvent original id now) now = (.ok outcome, d') ∧
      Published (cloneEvent original id now) d d' ∧ (d'.Ran id ↔ Admitted config original) := by
  have hfirst : firstSeen config d.cache d.store (cloneEvent original id now) now =
      (none, d.cache) := firstSeen_of_unknown config hnew.cache hnew.store
      (cloneEvent_idempotencyKey original id now)
  refine ⟨(dispatchNew config d (cloneEvent original id now) now).1, _, ?_,
    dispatchNew_clone h hnew⟩
  unfold handleInternal
  rw [hbefore]
  simp only [dispatch, hfirst]

variable (now) in
/-- Publishing a clone on the bus. -/
theorem publish_clone (h : d.Holds config original) (hnew : d.Unused id)
    (hbefore : Passes config original) :
    let d' := publish config d (cloneEvent original id now) now
    Published (cloneEvent original id now) d d' ∧ (d'.Ran id ↔ Admitted config original) := by
  intro d'
  let clone := cloneEvent original id now
  let d₁ := { d with recent := pushRecent config.recentBufferSize d.recent clone }
  have hholds : d₁.Holds config original := by
    refine ⟨h.stored, h.lookup, fun event hevent hid => ?_⟩
    rcases mem_pushRecent hevent with rfl | hrecent
    · exact absurd hid.symm (hnew.store original h.stored)
    · exact h.recent event hrecent hid
  have hnew₁ : d₁.Unused id := ⟨hnew.cache, hnew.store, hnew.ran⟩
  obtain ⟨outcome, d₂, heq, hpub, hrun⟩ :=
    handleInternal_clone now hholds hnew₁ hbefore
  have hd' : d' = d₂ := by
    simp only [d', publish]
    rw [heq]
  rw [hd']
  refine ⟨⟨hpub.cache, hpub.logged, fun prior hp => ?_, hpub.ran⟩, hrun⟩
  rcases hpub.recent prior hp with rfl | hprior
  · exact Or.inl rfl
  · exact mem_pushRecent hprior

/-! ### Requeue -/

/-- **A requeued event runs exactly when it is admitted.** -/
theorem requeue_ran_iff {eventId newEventId : String} {rejection : EventRejectionRecord}
    {row : EventStoreRecord} (dispatch : Bool) (now : Int)
    (hrejection : d.store.getRejection eventId = some rejection)
    (hrow : d.store.get eventId = some row) (h : d.Holds config row.event)
    (hnew : d.Unused newEventId) (hbefore : Passes config row.event) :
    (requeue config d eventId newEventId dispatch now).2.Ran newEventId ↔
      Admitted config row.event := by
  unfold requeue
  rw [hrejection, hrow]
  cases dispatch with
  | false => exact (publish_clone now h hnew hbefore).2
  | true =>
    obtain ⟨outcome, d', heq, -, hrun⟩ := handleInternal_clone now h hnew hbefore
    simp only [heq, if_true]
    exact hrun

/-! ### Recovery -/

theorem Published.holds (h : Published clone d d') (ho : d.Holds config original)
    (hid : clone.id ≠ original.id) : d'.Holds config original := by
  refine ⟨by rw [h.logged]; exact List.mem_append_left _ ho.stored, ho.lookup,
    fun event hevent he => ?_⟩
  rcases h.recent event hevent with rfl | hrecent
  · exact absurd he hid
  · exact ho.recent event hrecent he

theorem Published.unused (h : Published clone d d') (hu : d.Unused id) (hid : clone.id ≠ id) :
    d'.Unused id where
  cache hk := (h.cache id hk).elim (fun e => hid e.symm) hu.cache
  store event hevent := by
    rw [h.logged, List.mem_append, List.mem_singleton] at hevent
    rcases hevent with hevent | rfl
    · exact hu.store event hevent
    · exact hid
  ran hran := hu.ran ((h.ran id hid.symm).mp hran)

variable (now) in
/-- One turn of the loop. -/
theorem recoverEvent_clone {row : EventStoreRecord} (h : d.Holds config row.event)
    (hnew : d.Unused id) (hbefore : Passes config row.event) :
    let d' := recoverEvent config d row id now
    Published (cloneEvent row.event id now) d d' ∧ (d'.Ran id ↔ Admitted config row.event) := by
  intro d'
  let outcome := DispatchOutcome.rejected .interrupted
    (some ("interrupted mid-dispatch; recovered at boot as " ++ id))
  let d₁ := { d with store := d.store.markOutcome row.event.id outcome now }
  have hlogged : d₁.store.logged = d.store.logged := EventStore.logged_markOutcome _ _ _
  -- the mark changes an outcome, not the events of the table
  have hholds : d₁.Holds config row.event := ⟨by rw [hlogged]; exact h.stored, h.lookup, h.recent⟩
  have hnew₁ : d₁.Unused id := ⟨hnew.cache, by rw [hlogged]; exact hnew.store, hnew.ran⟩
  obtain ⟨hpub, hrun⟩ := publish_clone now hholds hnew₁ hbefore
  exact ⟨⟨hpub.cache, hpub.logged.trans (by rw [hlogged]), hpub.recent, hpub.ran⟩, hrun⟩

/-- **Every recovered event runs exactly when it is admitted**, and no other id is run.  By
induction on the rows: the clones published before are no original and no later clone. -/
theorem recoverEvents_ran_iff (newId : Nat → String) (hinj : Function.Injective newId)
    (now : Int) : ∀ (pending : List EventStoreRecord) (k : Nat) (d : Dispatcher),
    (∀ row ∈ pending, d.Holds config row.event ∧ Passes config row.event) →
    (∀ j, k ≤ j → d.Unused (newId j)) →
    (∀ j (hj : j < pending.length),
      (recoverEvents config newId now k pending d).Ran (newId (k + j)) ↔
        Admitted config pending[j].event) ∧
    ∀ id, (∀ j, k ≤ j → id ≠ newId j) →
      ((recoverEvents config newId now k pending d).Ran id ↔ d.Ran id)
  | [], k, d, _, _ => ⟨fun j hj => absurd hj (by simp), fun _ _ => Iff.rfl⟩
  | row :: pending, k, d, hrows, hnew => by
      obtain ⟨hholds, hbefore⟩ := hrows row (List.mem_cons_self ..)
      obtain ⟨hpub, hrun⟩ := recoverEvent_clone now hholds (hnew k le_rfl) hbefore
      obtain ⟨hrest, hother⟩ := recoverEvents_ran_iff newId hinj now pending (k + 1)
        (recoverEvent config d row (newId k) now)
        (fun row' hrow' => by
          obtain ⟨hh, hb⟩ := hrows row' (List.mem_cons_of_mem _ hrow')
          exact ⟨hpub.holds hh fun e => (hnew k le_rfl).store _ hh.stored e.symm, hb⟩)
        (fun j hj => hpub.unused (hnew j (by omega)) fun e => by
          have := hinj (e : newId k = newId j)
          omega)
      refine ⟨fun j hj => ?_, fun id hid => ?_⟩
      · cases j with
        | zero =>
          -- the later clones have other ids, so they do not run this one
          have hk : ∀ j, k + 1 ≤ j → newId (k + 0) ≠ newId j := fun j hj e => by
            have := hinj e
            omega
          exact (hother _ hk).trans hrun
        | succ j =>
          have := hrest j (by simpa using hj)
          rwa [show k + 1 + j = k + (j + 1) by omega] at this
      · exact (hother id fun j hj => hid j (by omega)).trans
          (hpub.ran id (hid k le_rfl))

/-- **Requeued and recovered events run exactly when they are admitted.**  For every dispatcher,
store and source: the clone of a rejected event that is requeued, and the clone of each row that
is recovered, reaches its target if and only if its source carries no trigger, or no causes are
looked up, or the original's id is empty, and the rate limiter admits it. -/
theorem clone_executed_iff (config : DispatcherConfig) (d : Dispatcher) :
    (∀ (eventId newEventId : String) (rejection : EventRejectionRecord) (row : EventStoreRecord)
      (dispatch : Bool) (now : Int), d.store.getRejection eventId = some rejection →
      d.store.get eventId = some row → d.Holds config row.event → d.Unused newEventId →
      Passes config row.event →
        ((requeue config d eventId newEventId dispatch now).2.Ran newEventId ↔
          Admitted config row.event)) ∧
    (∀ (events : Option (List EventStoreRecord)) (newId : Nat → String) (limit : Nat)
      (now : Int) (pending : List EventStoreRecord),
      pending = events.getD (d.store.listPending limit) →
      (∀ row ∈ pending, d.Holds config row.event ∧ Passes config row.event) →
      Function.Injective newId → (∀ j, d.Unused (newId j)) →
        ∀ j (hj : j < pending.length),
          (recoverPendingEvents config d events newId limit now).Ran (newId j) ↔
            Admitted config pending[j].event) := by
  refine ⟨fun eventId newEventId rejection row dispatch now hrejection hrow h hnew hbefore =>
    requeue_ran_iff dispatch now hrejection hrow h hnew hbefore,
    fun events newId limit now pending hpending hrows hinj hnew j hj => ?_⟩
  unfold recoverPendingEvents
  rw [← hpending]
  have h := (recoverEvents_ran_iff newId hinj now pending 0 d hrows fun j _ => hnew j).1 j hj
  rwa [Nat.zero_add] at h

/-! ### One rejected event -/

def rejectedEvent (source : EventSourceTag) : AgentEvent where
  id := "e1"
  source := source
  target := .broadcast
  kind := .triggerFire
  timestamp := 0
  payload := .null
  auth := .internal

/-- The store holds the event, rejected by a failure of its target. -/
def rejectedDispatcher (source : EventSourceTag) : Dispatcher where
  cache := .empty 10000 600000
  store := ⟨[⟨rejectedEvent source, 0, some (.rejected .invalid none), some 0⟩],
    [⟨"e1", .invalid, none, 1, 0, 0⟩], by simp, by simp⟩
  recent := []
  executed := []

def broadcastConfig : DispatcherConfig where
  executeTarget _ := .ok .broadcast

theorem rejectedDispatcher_holds (source : EventSourceTag) :
    (rejectedDispatcher source).Holds broadcastConfig (rejectedEvent source) :=
  ⟨List.mem_singleton_self _, fun _ h => (by cases h), fun _ h => (by cases h)⟩

theorem rejectedDispatcher_unused (source : EventSourceTag) {id : String} (h : id ≠ "e1") :
    (rejectedDispatcher source).Unused id := by
  refine ⟨by simp [rejectedDispatcher, IdempotencyCache.empty, IdempotencyCache.Knows],
    fun event hevent => ?_, by simp [rejectedDispatcher, Dispatcher.Ran]⟩
  obtain rfl := List.mem_singleton.mp hevent
  exact h.symm

/-- The clone of a cron event is rejected as a loop with its original. -/
theorem requeued_cron_loops : ¬ ∀ (config : DispatcherConfig) (d : Dispatcher)
    (eventId newEventId : String) (rejection : EventRejectionRecord) (row : EventStoreRecord)
    (dispatch : Bool) (now : Int), d.store.getRejection eventId = some rejection →
    d.store.get eventId = some row → d.Holds config row.event → d.Unused newEventId →
    Passes config row.event → config.rateLimiter row.event.target = none →
      (requeue config d eventId newEventId dispatch now).2.Ran newEventId := by
  intro h
  have hran := h broadcastConfig (rejectedDispatcher (.cron "nightly" "0 0 * * *")) "e1" "e2"
    _ _ false 0 rfl rfl (rejectedDispatcher_holds _)
    (rejectedDispatcher_unused _ (by decide)) (fun _ _ => rfl) rfl
  have hnone : (requeue broadcastConfig (rejectedDispatcher (.cron "nightly" "0 0 * * *"))
      "e1" "e2" false 0).2.executed = [] := by rfl
  obtain ⟨event, hevent, -⟩ := hran
  rw [hnone] at hevent
  cases hevent

/-- An event without a trigger runs, requeued or recovered. -/
theorem clone_executed_iff_self :
    (requeue broadcastConfig (rejectedDispatcher (.self "wakeup")) "e1" "e2" true 0).2.Ran "e2" ∧
    (recoverPendingEvents broadcastConfig (rejectedDispatcher (.self "wakeup"))
      (some [⟨rejectedEvent (.self "wakeup"), 0, none, none⟩])
      (fun j => String.ofList (List.replicate (j + 3) 'x')) 1000 0).Ran "xxx" := by
  obtain ⟨hrequeue, hrecover⟩ :=
    clone_executed_iff broadcastConfig (rejectedDispatcher (.self "wakeup"))
  have hadmitted : Admitted broadcastConfig (rejectedEvent (.self "wakeup")) :=
    ⟨Or.inl fun _ h => (by cases h.1), rfl⟩
  constructor
  · exact (hrequeue "e1" "e2" _ _ true 0 rfl rfl (rejectedDispatcher_holds _)
      (rejectedDispatcher_unused _ (by decide)) fun _ _ => rfl).mpr hadmitted
  · refine (hrecover _ _ 1000 0 _ rfl ?_ ?_ ?_ 0 (by simp)).mpr hadmitted
    · intro row hrow
      obtain rfl := List.mem_singleton.mp hrow
      exact ⟨rejectedDispatcher_holds _, fun _ _ => rfl⟩
    · intro j k h
      have hlength := congrArg String.length h
      simpa using hlength
    · intro j
      refine rejectedDispatcher_unused _ fun h => ?_
      have hlength := congrArg String.length h
      have hshort : ("e1" : String).length = 2 := rfl
      rw [hshort] at hlength
      simp at hlength

end Declaragent.Events
