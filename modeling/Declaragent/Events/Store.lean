import Declaragent.Events.Types

/-!
# Events — the event store

The table of events with the outcome each reached, and over it the table of rejections, the
dead letter queue of the dispatcher.  Both are lists in insertion order; each carries that its
primary key is one (`primaryKey`, `rejectionKey`), so that no operation can break it.

* `record_spec`: an insert appends the row, and throws exactly when the id is taken.
* `findDuplicate_eq_none`: when the store sees no duplicate of an event.
-/

namespace Declaragent.Events

structure EventStoreRecord where
  event : AgentEvent
  recordedAt : Int
  outcome : Option DispatchOutcome := none
  outcomeAt : Option Int := none

structure EventRejectionRecord where
  eventId : String
  rejectionReason : RejectReason
  details : Option String
  attemptCount : Nat
  firstSeenMs : Int
  lastSeenMs : Int

structure EventStore where
  events : List EventStoreRecord
  rejections : List EventRejectionRecord
  primaryKey : (events.map fun row => row.event.id).Nodup
  rejectionKey : (rejections.map fun row => row.eventId).Nodup

namespace EventStore

def empty : EventStore := ⟨[], [], List.nodup_nil, List.nodup_nil⟩

/-- The events of the table, without their outcomes. -/
def logged (store : EventStore) : List AgentEvent := store.events.map (·.event)

/-! ### The events table -/

/-- `SELECT * FROM events WHERE id = ?`. -/
def get (store : EventStore) (id : String) : Option EventStoreRecord :=
  store.events.find? fun row => row.event.id == id

/-- `INSERT INTO events`: the primary key refuses a second row with the id. -/
def record (store : EventStore) (event : AgentEvent) (now : Int) : Except String EventStore :=
  if h : event.id ∈ store.events.map fun row => row.event.id then
    .error "UNIQUE constraint failed: events.id"
  else
    .ok { store with
      events := store.events ++ [⟨event, now, none, none⟩]
      primaryKey := by
        rw [List.map_append]
        exact store.primaryKey.append (List.nodup_singleton _) (by simpa using h) }

/-- `UPDATE events SET outcome = ?, outcome_at = ? WHERE id = ?`. -/
def markOutcome (store : EventStore) (id : String) (outcome : DispatchOutcome) (now : Int) :
    EventStore :=
  { store with
    events := store.events.map fun row =>
      if row.event.id = id then { row with outcome := some outcome, outcomeAt := some now }
      else row
    primaryKey := by
      rw [List.map_map]
      convert store.primaryKey using 2
      funext row
      simp only [Function.comp_apply]
      split <;> rfl }

/-- The rows of a key and a source type with a timestamp not before `since`, oldest first. -/
def findByKey (store : EventStore) (key sourceType : String) (since : Int) :
    Option EventStoreRecord :=
  ((store.events.filter fun row => row.event.idempotencyKey == some key &&
    row.event.source.type == sourceType && decide (since ≤ row.event.timestamp)).insertionSort
      fun r r' => r.event.timestamp ≤ r'.event.timestamp).head?

/-- The row an event repeats: by id, and by key within the window. -/
def findDuplicate (store : EventStore) (event : AgentEvent) (withinMs now : Int) :
    Option EventStoreRecord :=
  match store.get event.id with
  | some byId => some byId
  | none =>
    match event.idempotencyKey with
    | none => none
    | some key =>
      if key = "" then none
      else store.findByKey key event.source.type (now - withinMs)

/-- `list({ outcomeKind: 'pending', limit })`: newest first. -/
def listPending (store : EventStore) (limit : Nat) : List EventStoreRecord :=
  ((store.events.filter fun row => row.outcome.isNone).insertionSort
    fun r r' => r'.event.timestamp ≤ r.event.timestamp).take limit

/-! ### The rejections table -/

def getRejection (store : EventStore) (eventId : String) : Option EventRejectionRecord :=
  store.rejections.find? fun row => row.eventId == eventId

/-- `INSERT … ON CONFLICT(event_id) DO UPDATE`: the first rejection of an event opens its row, a
later one counts an attempt. -/
def upsertRejection (store : EventStore) (eventId : String) (reason : RejectReason)
    (details : Option String) (now : Int) : EventStore :=
  if h : eventId ∈ store.rejections.map fun row => row.eventId then
    { store with
      rejections := store.rejections.map fun row =>
        if row.eventId = eventId then
          { row with
            rejectionReason := reason
            details := details
            attemptCount := row.attemptCount + 1
            lastSeenMs := now }
        else row
      rejectionKey := by
        rw [List.map_map]
        convert store.rejectionKey using 2
        funext row
        simp only [Function.comp_apply]
        split <;> rfl }
  else
    { store with
      rejections := store.rejections ++ [⟨eventId, reason, details, 1, now, now⟩]
      rejectionKey := by
        rw [List.map_append]
        exact store.rejectionKey.append (List.nodup_singleton _) (by simpa using h) }

def deleteRejection (store : EventStore) (eventId : String) : EventStore :=
  { store with
    rejections := store.rejections.filter fun row => row.eventId != eventId
    rejectionKey := store.rejectionKey.sublist (List.filter_sublist.map _) }

/-! ### What the operations do to the events -/

variable {store : EventStore}

@[simp] theorem logged_markOutcome (id : String) (outcome : DispatchOutcome) (now : Int) :
    (store.markOutcome id outcome now).logged = store.logged := by
  unfold logged markOutcome
  rw [List.map_map]
  congr 1
  funext row
  simp only [Function.comp_apply]
  split <;> rfl

@[simp] theorem logged_upsertRejection (eventId : String) (reason : RejectReason)
    (details : Option String) (now : Int) :
    (store.upsertRejection eventId reason details now).logged = store.logged := by
  unfold upsertRejection
  split <;> rfl

@[simp] theorem logged_deleteRejection (eventId : String) :
    (store.deleteRejection eventId).logged = store.logged := rfl

/-- **An insert** appends the event, and throws exactly when its id is taken. -/
theorem record_spec (store : EventStore) (event : AgentEvent) (now : Int) :
    (∃ e, store.record event now = .error e ∧ ∃ prior ∈ store.logged, prior.id = event.id) ∨
    (∃ store', store.record event now = .ok store' ∧ store'.logged = store.logged ++ [event] ∧
      ∀ prior ∈ store.logged, prior.id ≠ event.id) := by
  unfold record
  split
  · rename_i h
    left
    obtain ⟨row, hrow, hid⟩ := List.mem_map.mp h
    exact ⟨_, rfl, row.event, List.mem_map_of_mem hrow, hid⟩
  · rename_i h
    right
    refine ⟨_, rfl, by simp [logged], fun prior hprior hid => h ?_⟩
    obtain ⟨row, hrow, rfl⟩ := List.mem_map.mp hprior
    exact List.mem_map.mpr ⟨row, hrow, hid⟩

theorem get_mem {id : String} {row : EventStoreRecord} (h : store.get id = some row) :
    row ∈ store.events ∧ row.event.id = id := by
  unfold get at h
  exact ⟨List.mem_of_find?_eq_some h, by simpa using List.find?_some h⟩

theorem get_event_mem {id : String} {row : EventStoreRecord} (h : store.get id = some row) :
    row.event ∈ store.logged :=
  List.mem_map_of_mem (get_mem h).1

theorem get_eq_none {id : String} :
    store.get id = none ↔ ∀ event ∈ store.logged, event.id ≠ id := by
  unfold get logged
  simp

/-- Two events of the table with one id are one event. -/
theorem logged_inj {event event' : AgentEvent} (h : event ∈ store.logged)
    (h' : event' ∈ store.logged) (hid : event.id = event'.id) : event = event' := by
  obtain ⟨row, hrow, rfl⟩ := List.mem_map.mp h
  obtain ⟨row', hrow', rfl⟩ := List.mem_map.mp h'
  rw [List.inj_on_of_nodup_map store.primaryKey hrow hrow' hid]

theorem get_of_logged {event : AgentEvent} (h : event ∈ store.logged) :
    ∃ row, store.get event.id = some row ∧ row.event = event := by
  cases hg : store.get event.id with
  | none => exact absurd rfl (get_eq_none.mp hg event h)
  | some row => exact ⟨row, rfl, logged_inj (get_event_mem hg) h (get_mem hg).2⟩

theorem findByKey_eq_none {key sourceType : String} {since : Int} :
    store.findByKey key sourceType since = none ↔ ∀ event ∈ store.logged,
      event.idempotencyKey = some key → event.source.type = sourceType →
        event.timestamp < since := by
  unfold findByKey logged
  rw [List.head?_eq_none_iff, ← List.length_eq_zero_iff, List.length_insertionSort,
    List.length_eq_zero_iff, List.filter_eq_nil_iff]
  simp

/-- **When the store sees no duplicate**: no event of the table has the id, and, for an event
with a key, none with the key and source type is within the window. -/
theorem findDuplicate_eq_none {event : AgentEvent} {withinMs now : Int} :
    store.findDuplicate event withinMs now = none ↔
      (∀ prior ∈ store.logged, prior.id ≠ event.id) ∧
      ∀ key, event.idempotencyKey = some key → key ≠ "" → ∀ prior ∈ store.logged,
        prior.idempotencyKey = some key → prior.source.type = event.source.type →
          prior.timestamp < now - withinMs := by
  rw [← get_eq_none]
  unfold findDuplicate
  cases hg : store.get event.id with
  | some row => simp
  | none =>
    cases hk : event.idempotencyKey with
    | none => simp
    | some key =>
      by_cases he : key = ""
      · simp [he]
      · simp only [he, if_false, findByKey_eq_none, true_and]
        constructor
        · rintro h k ⟨⟩ - prior hp hkey htype
          exact h prior hp hkey htype
        · intro h prior hp hkey htype
          exact h key rfl he prior hp hkey htype

/-! ### What the operations do to the row of an id -/

/-- An outcome is written to the row of its id only. -/
theorem get_markOutcome (id id' : String) (outcome : DispatchOutcome) (now : Int) :
    (store.markOutcome id' outcome now).get id = (store.get id).map fun row =>
      if id = id' then { row with outcome := some outcome, outcomeAt := some now } else row := by
  unfold get markOutcome
  dsimp only
  rw [List.find?_map]
  have hkey : ((fun row : EventStoreRecord => row.event.id == id) ∘ fun row =>
      if row.event.id = id' then { row with outcome := some outcome, outcomeAt := some now }
      else row) = fun row => row.event.id == id := by
    funext row
    simp only [Function.comp_apply]
    split <;> rfl
  rw [hkey]
  cases hf : store.events.find? fun row => row.event.id == id with
  | none => rfl
  | some row =>
    have hid : row.event.id = id := by simpa using List.find?_some hf
    simp [hid]

@[simp] theorem get_upsertRejection (id eventId : String) (reason : RejectReason)
    (details : Option String) (now : Int) :
    (store.upsertRejection eventId reason details now).get id = store.get id := by
  unfold upsertRejection
  split <;> rfl

@[simp] theorem get_deleteRejection (id eventId : String) :
    (store.deleteRejection eventId).get id = store.get id := rfl

/-- The event has no outcome yet. -/
def Pending (store : EventStore) (id : String) : Prop :=
  ∃ row, store.get id = some row ∧ row.outcome = none

/-- The event has an outcome. -/
def Settled (store : EventStore) (id : String) : Prop :=
  ∃ row, store.get id = some row ∧ row.outcome ≠ none

theorem Settled.not_pending {id : String} (h : store.Settled id) : ¬ store.Pending id := by
  rintro ⟨row, hrow, hnone⟩
  obtain ⟨row', hrow', hsome⟩ := h
  rw [hrow] at hrow'
  cases hrow'
  exact hsome hnone

theorem get_of_mem {row : EventStoreRecord} (h : row ∈ store.events) :
    store.get row.event.id = some row := by
  cases hg : store.get row.event.id with
  | none => exact absurd rfl (get_eq_none.mp hg row.event (List.mem_map_of_mem h))
  | some row' =>
    obtain ⟨hmem, hid⟩ := get_mem hg
    rw [List.inj_on_of_nodup_map store.primaryKey hmem h hid]

/-- The rows listed as pending are. -/
theorem listPending_pending {limit : Nat} {row : EventStoreRecord}
    (h : row ∈ store.listPending limit) :
    store.get row.event.id = some row ∧ row.outcome = none := by
  unfold listPending at h
  have hmem := (List.perm_insertionSort _ _).mem_iff.mp (List.mem_of_mem_take h)
  rw [List.mem_filter] at hmem
  exact ⟨get_of_mem hmem.1, by simpa using hmem.2⟩

/-- No event is listed twice. -/
theorem listPending_nodup (store : EventStore) (limit : Nat) :
    ((store.listPending limit).map fun row => row.event.id).Nodup := by
  unfold listPending
  refine List.Nodup.sublist ((List.take_sublist _ _).map _) ?_
  refine (((List.perm_insertionSort _ _).map _).nodup_iff).mpr ?_
  exact store.primaryKey.sublist (List.filter_sublist.map _)

/-! ### What the operations do to the attempts -/

/-- `attemptCount` of the row of an id. -/
def attempts (store : EventStore) (id : String) : Option Nat :=
  (store.getRejection id).map (·.attemptCount)

theorem getRejection_mem {id : String} {row : EventRejectionRecord}
    (h : store.getRejection id = some row) : row ∈ store.rejections ∧ row.eventId = id := by
  unfold getRejection at h
  exact ⟨List.mem_of_find?_eq_some h, by simpa using List.find?_some h⟩

theorem getRejection_eq_none {id : String} :
    store.getRejection id = none ↔ ∀ row ∈ store.rejections, row.eventId ≠ id := by
  unfold getRejection
  simp

theorem getRejection_of_mem {row : EventRejectionRecord} (h : row ∈ store.rejections) :
    store.getRejection row.eventId = some row := by
  cases hg : store.getRejection row.eventId with
  | none => exact absurd rfl (getRejection_eq_none.mp hg row h)
  | some row' =>
    obtain ⟨hmem, hid⟩ := getRejection_mem hg
    rw [List.inj_on_of_nodup_map store.rejectionKey hmem h hid]

/-- A row that is deleted is gone, and no other. -/
theorem getRejection_deleteRejection (id eventId : String) :
    (store.deleteRejection eventId).getRejection id =
      if id = eventId then none else store.getRejection id := by
  split
  · rename_i h
    rw [getRejection_eq_none]
    intro row hrow
    have hne := (List.mem_filter.mp hrow).2
    simpa [h] using hne
  · rename_i h
    unfold getRejection deleteRejection
    rw [List.find?_filter]
    congr 1
    funext row
    by_cases he : row.eventId = id
    · simp [he, h]
    · simp [he]

theorem attempts_deleteRejection (id eventId : String) :
    (store.deleteRejection eventId).attempts id =
      if id = eventId then none else store.attempts id := by
  unfold attempts
  rw [getRejection_deleteRejection]
  split <;> rfl

/-- **A rejection** counts one attempt more under its event's id, the first one from none. -/
theorem attempts_upsertRejection (id eventId : String) (reason : RejectReason)
    (details : Option String) (now : Int) :
    (store.upsertRejection eventId reason details now).attempts id =
      if id = eventId then some ((store.attempts id).getD 0 + 1) else store.attempts id := by
  unfold upsertRejection
  split
  · rename_i h
    let bump (row : EventRejectionRecord) : EventRejectionRecord :=
      if row.eventId = eventId then
        { row with
          rejectionReason := reason
          details := details
          attemptCount := row.attemptCount + 1
          lastSeenMs := now }
      else row
    have hkey : ((fun row => row.eventId == id) ∘ bump) = fun row => row.eventId == id := by
      funext row
      simp only [Function.comp_apply, bump]
      split <;> rfl
    have hfind : (store.rejections.map bump).find? (fun row => row.eventId == id) =
        (store.getRejection id).map bump := by
      rw [List.find?_map, hkey]
      rfl
    change ((store.rejections.map bump).find? fun row => row.eventId == id).map _ = _
    rw [hfind]
    obtain ⟨row, hrow, rfl⟩ := List.mem_map.mp h
    split
    · rename_i he
      rw [he, attempts, getRejection_of_mem hrow]
      simp [bump]
    · rename_i hne
      unfold attempts
      cases hg : store.getRejection id with
      | none => rfl
      | some r => simp [bump, (getRejection_mem hg).2, hne]
  · rename_i h
    unfold attempts getRejection
    dsimp only
    rw [List.find?_append]
    split
    · rename_i he
      subst he
      have hnone : store.rejections.find? (fun row => row.eventId == id) = none :=
        getRejection_eq_none.mpr fun row hrow hid => h (List.mem_map.mpr ⟨row, hrow, hid⟩)
      simp [hnone]
    · rename_i hne
      have hno : ¬ eventId = id := fun e => hne e.symm
      simp [hno]

theorem isSome_attempts (id : String) :
    (store.attempts id).isSome = (store.getRejection id).isSome :=
  Option.isSome_map

@[simp] theorem attempts_markOutcome (id id' : String) (outcome : DispatchOutcome) (now : Int) :
    (store.markOutcome id' outcome now).attempts id = store.attempts id := rfl

end EventStore

end Declaragent.Events
