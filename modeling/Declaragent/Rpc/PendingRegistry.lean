import Mathlib.Data.List.AList
import Mathlib.Algebra.Order.Group.Int
import Declaragent.Library.Transition

/-!
# Rpc — the pending registry

Every synchronous call registers under its correlation id and waits for the promise it gets;
a response settles what is registered under the correlation id it names.  The registry is a map
in insertion order, the newest entry first here, and each entry has its timer.

`registryStep` is any sequence of registrations, settlements, timers and shutdowns.  The promises
are named by `π`, one name for each promise handed out, and each keeps the calls made on it.

* `Balanced` holds on every run: a promise is settled once, at the moment its entry leaves.
* `ownExits_iff`: entries leave for a cause of their own exactly in the runs that register no new
  correlation while the registry is full (`NoOverflow`); a registration that does evicts the
  oldest entry (`register_overflow`).
-/

namespace Declaragent.Rpc
open Transition

/-- What a response settles a call with; the error is what the response carries for one. -/
inductive PendingSettleValue (α : Type) where
  | ok (data : α)
  | error (error : α)
  deriving DecidableEq

/-- The errors a pending promise is rejected with. -/
inductive PendingError where
  | timeout (correlationId : String) (timeoutMs : Int)
  | abandoned (correlationId : String)
  | busy (capacity : Int)
  | alreadyRegistered (correlationId : String)
  deriving DecidableEq

def PendingError.message : PendingError → String
  | .timeout correlationId timeoutMs =>
    s!"agent-rpc timed out after {timeoutMs}ms (correlationId={correlationId})"
  | .abandoned correlationId => s!"agent-rpc abandoned (correlationId={correlationId})"
  | .busy capacity => s!"agent-rpc pending-registry at capacity ({capacity})"
  | .alreadyRegistered correlationId =>
    s!"pending-registry: correlationId {correlationId} already registered"

def PendingError.code : PendingError → Option String
  | .timeout .. => some "EAGENTRPC_TIMEOUT"
  | .abandoned _ => some "EAGENTRPC_ABANDONED"
  | .busy _ => some "EAGENTRPC_BUSY"
  | .alreadyRegistered _ => none

/-- A call of `resolve` or `reject`. -/
inductive Settled (α : Type) where
  | resolve (value : PendingSettleValue α)
  | reject (err : PendingError)
  deriving DecidableEq

/-- The timer of an entry; its callback closes over the correlation id and the delay. -/
inductive Timer where
  | unset
  | armed (correlationId : String) (delay : Int)
  | cleared
  | fired
  deriving DecidableEq

/-- A promise the registry made: its timer, and the calls of `resolve` and `reject` on it. -/
structure PendingPromise (α : Type) where
  timer : Timer := .unset
  settlements : List (Settled α) := []
  handedOut : Bool := false

structure InternalEntry (π : Type) where
  deadlineMs : Int
  registeredAtMs : Int
  promise : π
  deriving DecidableEq

structure PendingRegistry (π α : Type) where
  capacity : Int
  positive : 0 < capacity
  entries : AList fun _ : String => InternalEntry π
  promise : π → PendingPromise α

def defaultPendingCapacity : Int := 10000

def createPendingRegistry (π α : Type) (capacity : Option Int) :
    Except String (PendingRegistry π α) :=
  let capacity := capacity.getD defaultPendingCapacity
  if h : 0 < capacity then .ok ⟨capacity, h, ∅, fun _ => {}⟩
  else .error "PendingRegistry capacity must be > 0"

namespace PendingRegistry

section
variable {π α : Type} [DecidableEq π]

def size (s : PendingRegistry π α) : Nat := s.entries.keys.length

def modify (s : PendingRegistry π α) (p : π) (f : PendingPromise α → PendingPromise α) :
    PendingRegistry π α :=
  { s with promise := Function.update s.promise p (f (s.promise p)) }

/-- `resolve` or `reject`, with whether the timer is cleared before. -/
def conclude (s : PendingRegistry π α) (p : π) (timer : Timer) (x : Settled α) :
    PendingRegistry π α :=
  s.modify p fun q => { q with timer := timer, settlements := q.settlements ++ [x] }

/-- `entries.delete`, `clearTimer`, and then `resolve` or `reject`. -/
def removeEntry (s : PendingRegistry π α) (correlationId : String) (entry : InternalEntry π)
    (x : Settled α) : PendingRegistry π α :=
  { s with entries := s.entries.erase correlationId }.conclude entry.promise .cleared x

/-- The first key of the map in insertion order, with its entry. -/
def oldest (s : PendingRegistry π α) : Option (String × InternalEntry π) :=
  s.entries.entries.getLast?.map fun e => (e.1, e.2)

def evictOldestIfAtCapacity (s : PendingRegistry π α) : PendingRegistry π α :=
  if (s.size : Int) < s.capacity then s
  else
    match s.oldest with
    | none => s
    | some (correlationId, entry) =>
      s.removeEntry correlationId entry (.reject (.busy s.capacity))

/-- `register`, with the promise `p` it hands out. -/
def register (s : PendingRegistry π α) (p : π) (correlationId : String) (deadlineMs now : Int) :
    PendingRegistry π α :=
  if correlationId ∈ s.entries then
    s.modify p fun _ =>
      { handedOut := true, settlements := [.reject (.alreadyRegistered correlationId)] }
  else
    let s := if s.capacity ≤ (s.size : Int) then s.evictOldestIfAtCapacity else s
    { s with entries := s.entries.insert correlationId ⟨deadlineMs, now, p⟩ }.modify p fun _ =>
      { handedOut := true, timer := .armed correlationId (max 0 (deadlineMs - now)) }

/-- `settle`, with whether the correlation was registered. -/
def settle (s : PendingRegistry π α) (correlationId : String) (value : PendingSettleValue α) :
    Bool × PendingRegistry π α :=
  match s.entries.lookup correlationId with
  | none => (false, s)
  | some entry => (true, s.removeEntry correlationId entry (.resolve value))

/-- The timer of the promise runs out: its callback rejects what is registered under the
correlation id by then. -/
def onTimer (s : PendingRegistry π α) (p : π) : Option (PendingRegistry π α) :=
  match (s.promise p).timer with
  | .armed correlationId delay =>
    some <|
      let s := s.modify p fun q => { q with timer := .fired }
      match s.entries.lookup correlationId with
      | none => s
      | some entry =>
        { s with entries := s.entries.erase correlationId }.conclude entry.promise
          (s.promise entry.promise).timer (.reject (.timeout correlationId delay))
  | _ => none

/-- Clear the timer of each entry and reject its promise, the oldest first. -/
def abandon (s : PendingRegistry π α) : PendingRegistry π α :=
  { s.entries.entries.foldr (fun e s => s.conclude e.2.promise .cleared (.reject (.abandoned e.1)))
      s with entries := ∅ }

inductive Label (π α : Type) where
  | register (p : π) (correlationId : String) (deadlineMs now : Int)
  | settle (correlationId : String) (value : PendingSettleValue α)
  | timeout (p : π)
  | abandon

/-- One operation; a promise is handed out once. -/
def registryStep (s : PendingRegistry π α) : Label π α → Option (PendingRegistry π α)
  | .register p correlationId deadlineMs now =>
    if (s.promise p).handedOut then none else some (s.register p correlationId deadlineMs now)
  | .settle correlationId value => some (s.settle correlationId value).2
  | .timeout p => s.onTimer p
  | .abandon => some s.abandon

/-! ### What holds on every run -/

/-- The promise waits under the correlation id. -/
def Waiting (q : PendingPromise α) (correlationId : String) : Prop :=
  ∃ delay, q = ⟨.armed correlationId delay, [], true⟩

/-- The promise was settled, once, and no timer runs for it. -/
structure Concluded (q : PendingPromise α) : Prop where
  once : q.settlements.length = 1
  handedOut : q.handedOut = true
  disarmed : ∀ correlationId delay, q.timer ≠ .armed correlationId delay

/-- What is in the map waits, and what is not is settled once or was never handed out. -/
structure Balanced (s : PendingRegistry π α) : Prop where
  bounded : (s.size : Int) ≤ s.capacity
  entry : ∀ correlationId entry, s.entries.lookup correlationId = some entry →
    Waiting (s.promise entry.promise) correlationId
  promise : ∀ p, s.promise p = {} ∨ Concluded (s.promise p) ∨
    ∃ correlationId entry, s.entries.lookup correlationId = some entry ∧ entry.promise = p

@[simp] theorem modify_promise_self (s : PendingRegistry π α) (p : π)
    (f : PendingPromise α → PendingPromise α) : (s.modify p f).promise p = f (s.promise p) := by
  simp [modify]

theorem modify_promise_of_ne (s : PendingRegistry π α) {p p' : π} (h : p' ≠ p)
    (f : PendingPromise α → PendingPromise α) : (s.modify p f).promise p' = s.promise p' := by
  simp [modify, h]

@[simp] theorem modify_entries (s : PendingRegistry π α) (p : π)
    (f : PendingPromise α → PendingPromise α) : (s.modify p f).entries = s.entries := rfl

@[simp] theorem modify_capacity (s : PendingRegistry π α) (p : π)
    (f : PendingPromise α → PendingPromise α) : (s.modify p f).capacity = s.capacity := rfl

variable {s t : PendingRegistry π α} {p : π} {correlationId : String} {entry : InternalEntry π}

theorem Waiting.handedOut {q : PendingPromise α} (h : Waiting q correlationId) :
    q.handedOut = true := by
  obtain ⟨delay, rfl⟩ := h
  rfl

omit [DecidableEq π] in
/-- Two entries of one promise are one entry. -/
theorem Balanced.entry_inj (h : s.Balanced) {correlationId' : String} {entry' : InternalEntry π}
    (he : s.entries.lookup correlationId = some entry)
    (he' : s.entries.lookup correlationId' = some entry') (hp : entry.promise = entry'.promise) :
    correlationId = correlationId' := by
  obtain ⟨delay, hq⟩ := h.entry _ _ he
  obtain ⟨delay', hq'⟩ := h.entry _ _ he'
  rw [hp, hq'] at hq
  cases hq
  rfl

omit [DecidableEq π] in
/-- A promise that was not handed out has no entry. -/
theorem Balanced.promise_ne (h : s.Balanced) (he : s.entries.lookup correlationId = some entry)
    (hp : s.promise p = {}) : entry.promise ≠ p := by
  rintro rfl
  have hout := (h.entry _ _ he).handedOut
  rw [hp] at hout
  cases hout

/-- **An entry leaves**, and its promise is settled. -/
theorem Balanced.leave (h : s.Balanced) (he : s.entries.lookup correlationId = some entry)
    (timer : Timer) (htimer : ∀ correlationId delay, timer ≠ .armed correlationId delay)
    (x : Settled α) :
    ({ s with entries := s.entries.erase correlationId }.conclude entry.promise timer
      x).Balanced := by
  obtain ⟨delay, hq⟩ := h.entry _ _ he
  refine ⟨?_, fun c e hc => ?_, fun p => ?_⟩
  · have hlen := (List.erase_sublist : (s.entries.keys.erase correlationId).Sublist _).length_le
    have hb := h.bounded
    simp only [conclude, size, modify_entries, modify_capacity, AList.keys_erase] at hb ⊢
    omega
  · -- what is still there is another entry, of another promise
    have hne : c ≠ correlationId := by
      rintro rfl
      simp [conclude] at hc
    have hc' : s.entries.lookup c = some e := by simpa [conclude, hne] using hc
    have hp : e.promise ≠ entry.promise := fun hp => hne (h.entry_inj hc' he hp)
    rw [conclude, modify_promise_of_ne _ hp]
    exact h.entry c e hc'
  · by_cases hp : p = entry.promise
    · subst hp
      refine Or.inr (Or.inl ?_)
      rw [conclude, modify_promise_self]
      exact ⟨by simp [hq], by simp [hq], htimer⟩
    · rw [conclude, modify_promise_of_ne _ hp]
      refine (h.promise p).imp_right (Or.imp_right ?_)
      rintro ⟨c, e, hc, rfl⟩
      have hne : c ≠ correlationId := by
        rintro rfl
        rw [he] at hc
        cases hc
        exact hp rfl
      exact ⟨c, e, by simpa [hne] using hc, rfl⟩

/-- A promise is handed out for a correlation that is not registered. -/
theorem Balanced.enter (h : s.Balanced) (hroom : (s.size : Int) < s.capacity)
    (hc : correlationId ∉ s.entries) (hp : s.promise p = {}) (deadlineMs now delay : Int) :
    ({ s with entries := s.entries.insert correlationId ⟨deadlineMs, now, p⟩ }.modify p fun _ =>
      { handedOut := true, timer := .armed correlationId delay }).Balanced := by
  refine ⟨?_, fun c e he => ?_, fun p' => ?_⟩
  · have hmem : correlationId ∉ s.entries.keys := hc
    simp only [size, modify_entries, modify_capacity, AList.keys_insert,
      List.erase_of_not_mem hmem, List.length_cons] at hroom ⊢
    omega
  · by_cases hne : c = correlationId
    · subst hne
      obtain rfl : ⟨deadlineMs, now, p⟩ = e := by simpa using he
      exact ⟨delay, by simp⟩
    · have he' : s.entries.lookup c = some e := by simpa [hne] using he
      rw [modify_promise_of_ne _ (h.promise_ne he' hp)]
      exact h.entry c e he'
  · by_cases hpp : p' = p
    · subst hpp
      exact Or.inr (Or.inr ⟨correlationId, _, AList.lookup_insert _, rfl⟩)
    · rw [modify_promise_of_ne _ hpp]
      refine (h.promise p').imp_right (Or.imp_right ?_)
      rintro ⟨c, e, he, rfl⟩
      have hne : c ≠ correlationId := by
        rintro rfl
        rw [AList.lookup_eq_none.mpr hc] at he
        cases he
      exact ⟨c, e, by simpa [hne] using he, rfl⟩

/-- A duplicate: the promise is rejected at once. -/
theorem Balanced.refuse (h : s.Balanced) (hp : s.promise p = {}) (err : PendingError) :
    (s.modify p fun _ => { handedOut := true, settlements := [.reject err] }).Balanced := by
  refine ⟨h.bounded, fun c e he => ?_, fun p' => ?_⟩
  · rw [modify_promise_of_ne _ (h.promise_ne he hp)]
    exact h.entry c e he
  · by_cases hpp : p' = p
    · subst hpp
      refine Or.inr (Or.inl ?_)
      rw [modify_promise_self]
      exact ⟨rfl, rfl, fun _ _ hd => by cases hd⟩
    · rw [modify_promise_of_ne _ hpp]
      exact h.promise p'

omit [DecidableEq π] in
theorem oldest_lookup (h : s.oldest = some (correlationId, entry)) :
    s.entries.lookup correlationId = some entry := by
  simp only [oldest, Option.map_eq_some_iff, Prod.mk.injEq] at h
  obtain ⟨e, he, rfl, rfl⟩ := h
  exact AList.mem_lookup_iff.mpr (List.mem_of_getLast? he)

omit [DecidableEq π] in
theorem oldest_of_full (hfull : s.capacity ≤ (s.size : Int)) :
    ∃ correlationId entry, s.oldest = some (correlationId, entry) := by
  have hpos := s.positive
  have hne : s.entries.entries ≠ [] := by
    intro hnil
    have hzero : s.size = 0 := by simp [size, AList.keys, hnil, List.keys]
    omega
  obtain ⟨e, he⟩ := Option.ne_none_iff_exists'.mp (mt List.getLast?_eq_none_iff.mp hne)
  exact ⟨e.1, e.2, by simp [oldest, he]⟩

theorem register_duplicate (hc : correlationId ∈ s.entries) (p : π) (deadlineMs now : Int) :
    s.register p correlationId deadlineMs now = s.modify p fun _ =>
      { handedOut := true, settlements := [.reject (.alreadyRegistered correlationId)] } := by
  simp only [PendingRegistry.register, hc, if_true]

theorem register_room (hc : correlationId ∉ s.entries) (hroom : (s.size : Int) < s.capacity)
    (p : π) (deadlineMs now : Int) :
    s.register p correlationId deadlineMs now =
      { s with entries := s.entries.insert correlationId ⟨deadlineMs, now, p⟩ }.modify p fun _ =>
        { handedOut := true,
          timer := .armed correlationId (max 0 (deadlineMs - now)) } := by
  simp only [PendingRegistry.register, hc, if_false, not_le.mpr hroom]

/-- **A registration that finds the registry full** evicts the oldest entry, which is rejected
as busy. -/
theorem register_overflow (hc : correlationId ∉ s.entries)
    (hfull : s.capacity ≤ (s.size : Int)) (p : π) (deadlineMs now : Int) :
    ∃ victim entry, s.entries.lookup victim = some entry ∧ victim ≠ correlationId ∧
      s.register p correlationId deadlineMs now =
        { s.removeEntry victim entry (.reject (.busy s.capacity)) with
          entries := (s.entries.erase victim).insert correlationId ⟨deadlineMs, now, p⟩ }.modify p
          fun _ => { handedOut := true,
                     timer := .armed correlationId (max 0 (deadlineMs - now)) } := by
  obtain ⟨victim, entry, hold⟩ := oldest_of_full hfull
  have hlookup := oldest_lookup hold
  refine ⟨victim, entry, hlookup, ?_, ?_⟩
  · rintro rfl
    rw [AList.lookup_eq_none.mpr hc] at hlookup
    cases hlookup
  · simp only [register, hc, if_false, hfull, if_true, evictOldestIfAtCapacity, not_lt.mpr hfull,
      hold]
    rfl

theorem Balanced.register (h : s.Balanced) (hp : s.promise p = {}) (deadlineMs now : Int) :
    (s.register p correlationId deadlineMs now).Balanced := by
  by_cases hc : correlationId ∈ s.entries
  · rw [register_duplicate hc]
    exact h.refuse hp _
  · by_cases hfull : s.capacity ≤ (s.size : Int)
    · obtain ⟨victim, entry, hlookup, hne, heq⟩ := register_overflow hc hfull p deadlineMs now
      rw [heq]
      have hleft := h.leave hlookup .cleared (fun _ _ hd => by cases hd)
        (.reject (.busy s.capacity))
      refine hleft.enter ?_ (fun hmem => hc (AList.mem_erase.mp hmem).2) ?_ deadlineMs now _
      · -- the eviction made room for one
        have hmem : victim ∈ s.entries.keys :=
          AList.lookup_isSome.mp (by rw [hlookup]; rfl)
        have hb := h.bounded
        have hpos := List.length_pos_of_mem hmem
        simp only [conclude, size, modify_entries, modify_capacity, AList.keys_erase,
          List.length_erase_of_mem hmem] at hb ⊢
        omega
      · rw [conclude, modify_promise_of_ne _ (h.promise_ne hlookup hp).symm]
        exact hp
    · rw [register_room hc (not_le.mp hfull)]
      exact h.enter (not_le.mp hfull) hc hp deadlineMs now _

theorem Balanced.settle (h : s.Balanced) (correlationId : String) (value : PendingSettleValue α) :
    (s.settle correlationId value).2.Balanced := by
  unfold PendingRegistry.settle
  split
  · exact h
  · rename_i entry he
    exact h.leave he _ (fun _ _ hd => by cases hd) _

theorem settle_promise_self (value : PendingSettleValue α)
    (he : s.entries.lookup correlationId = some entry) :
    ((s.settle correlationId value).2.promise entry.promise).settlements =
      (s.promise entry.promise).settlements ++ [.resolve value] := by
  simp [PendingRegistry.settle, he, removeEntry, conclude]

/-- Settling a correlation leaves the promises it is not registered for. -/
theorem settle_promise_of_ne (value : PendingSettleValue α)
    (h : ∀ entry, s.entries.lookup correlationId = some entry → p ≠ entry.promise) :
    (s.settle correlationId value).2.promise p = s.promise p := by
  unfold PendingRegistry.settle
  split
  · rfl
  · rename_i entry he
    rw [removeEntry, conclude, modify_promise_of_ne _ (h entry he)]

theorem onTimer_eq (h : s.Balanced) (ht : s.onTimer p = some t) :
    ∃ correlationId entry delay, s.entries.lookup correlationId = some entry ∧
      entry.promise = p ∧ t = { s with entries := s.entries.erase correlationId }.conclude p .fired
        (.reject (.timeout correlationId delay)) := by
  unfold onTimer at ht
  split at ht
  · rename_i c delay htimer
    rcases h.promise p with hnew | hdone | ⟨c', entry, he, rfl⟩
    · rw [hnew] at htimer
      cases htimer
    · exact absurd htimer (hdone.disarmed c delay)
    · obtain ⟨delay', hq⟩ := h.entry _ _ he
      rw [hq] at htimer
      cases htimer
      refine ⟨c, entry, delay, he, rfl, ?_⟩
      cases ht
      simp [he, conclude, modify]
  · cases ht

/-- Rejecting the promises of a list of entries: each once, and no other. -/
theorem foldr_conclude (s : PendingRegistry π α) :
    ∀ es : List (Σ _ : String, InternalEntry π), (es.map fun e => e.2.promise).Nodup →
      let t := es.foldr (fun e s => s.conclude e.2.promise .cleared (.reject (.abandoned e.1))) s
      (∀ p, p ∉ es.map (fun e => e.2.promise) → t.promise p = s.promise p) ∧
      ∀ e ∈ es, t.promise e.2.promise =
        { s.promise e.2.promise with
          timer := .cleared
          settlements := (s.promise e.2.promise).settlements ++ [.reject (.abandoned e.1)] }
  | [], _ => ⟨fun _ _ => rfl, fun _ he => nomatch he⟩
  | e :: es, hnodup => by
      rw [List.map_cons, List.nodup_cons] at hnodup
      obtain ⟨hother, hself⟩ := foldr_conclude s es hnodup.2
      refine ⟨fun p hp => ?_, fun e' he' => ?_⟩
      · rw [List.map_cons, List.mem_cons, not_or] at hp
        rw [List.foldr_cons, conclude, modify_promise_of_ne _ hp.1]
        exact hother p hp.2
      · rcases List.mem_cons.mp he' with rfl | he'
        · rw [List.foldr_cons, conclude, modify_promise_self, hother _ hnodup.1]
        · have hne : e'.2.promise ≠ e.2.promise := fun heq =>
            hnodup.1 (heq ▸ List.mem_map_of_mem he')
          rw [List.foldr_cons, conclude, modify_promise_of_ne _ hne]
          exact hself e' he'

omit [DecidableEq π] in
/-- The entries are of different promises. -/
theorem Balanced.nodup_promises (h : s.Balanced) :
    (s.entries.entries.map fun e => e.2.promise).Nodup := by
  refine List.Nodup.map_on (fun e he e' he' hp => ?_) s.entries.nodupKeys.nodup
  have hl := AList.mem_lookup_iff.mpr he
  have hl' := AList.mem_lookup_iff.mpr he'
  have hc := h.entry_inj hl hl' hp
  obtain ⟨c, entry⟩ := e
  obtain ⟨c', entry'⟩ := e'
  obtain rfl : c = c' := hc
  rw [Option.mem_def.mp hl] at hl'
  cases hl'
  rfl

theorem Balanced.abandon (h : s.Balanced) : s.abandon.Balanced := by
  obtain ⟨hother, hself⟩ := foldr_conclude s s.entries.entries h.nodup_promises
  refine ⟨le_of_lt s.abandon.positive, fun c e he => (by cases he), fun p => ?_⟩
  by_cases hp : p ∈ s.entries.entries.map fun e => e.2.promise
  · obtain ⟨e, he, rfl⟩ := List.mem_map.mp hp
    obtain ⟨delay, hq⟩ := h.entry _ _ (AList.mem_lookup_iff.mpr he)
    refine Or.inr (Or.inl ?_)
    rw [PendingRegistry.abandon, hself e he, hq]
    exact ⟨rfl, rfl, fun _ _ hd => by cases hd⟩
  · rw [PendingRegistry.abandon, hother p hp]
    refine (h.promise p).imp_right (Or.imp_right ?_)
    rintro ⟨c, e, he, rfl⟩
    exact absurd (List.mem_map_of_mem (AList.mem_lookup_iff.mp he)) hp

theorem capacity_abandon : s.abandon.capacity = s.capacity := by
  unfold PendingRegistry.abandon
  induction s.entries.entries with
  | nil => rfl
  | cons e es ih => exact ih

/-- A promise is registered once. -/
theorem register_enabled {deadlineMs now : Int} (h : s.Balanced)
    (hstep : registryStep s (.register p correlationId deadlineMs now) = some t) :
    s.promise p = {} ∧ s.register p correlationId deadlineMs now = t := by
  simp only [registryStep] at hstep
  split at hstep
  · cases hstep
  · rename_i hout
    refine ⟨?_, Option.some.inj hstep⟩
    rcases h.promise p with hnew | hdone | ⟨c, e, he, rfl⟩
    · exact hnew
    · exact absurd hdone.handedOut hout
    · exact absurd (h.entry _ _ he).handedOut hout

/-- **One step** keeps the balance, and the capacity. -/
theorem Balanced.step {a : Label π α} (h : s.Balanced) (hstep : registryStep s a = some t) :
    t.Balanced ∧ t.capacity = s.capacity := by
  cases a with
  | register p correlationId deadlineMs now =>
    obtain ⟨hp, rfl⟩ := register_enabled h hstep
    refine ⟨h.register hp deadlineMs now, ?_⟩
    unfold PendingRegistry.register evictOldestIfAtCapacity
    split
    · rfl
    · split
      · split
        · rfl
        · split <;> rfl
      · rfl
  | settle correlationId value =>
    cases hstep
    refine ⟨h.settle correlationId value, ?_⟩
    unfold PendingRegistry.settle
    split <;> rfl
  | timeout p =>
    obtain ⟨c, entry, delay, he, rfl, rfl⟩ := onTimer_eq h hstep
    exact ⟨h.leave he _ (fun _ _ hd => by cases hd) _, rfl⟩
  | abandon =>
    cases hstep
    exact ⟨h.abandon, capacity_abandon⟩

/-- What one step adds to a registry: an entry for the promise that is registered, and for each
promise rejections, or the value that is settled under the correlation of its entry. -/
structure Adds (s : PendingRegistry π α) (a : Label π α) (t : PendingRegistry π α) : Prop where
  entry : ∀ correlationId entry, t.entries.lookup correlationId = some entry →
    s.entries.lookup correlationId = some entry ∨
      ∃ deadlineMs now, a = .register entry.promise correlationId deadlineMs now
  new : ∀ p, s.promise p = {} → t.promise p = {} ∨
    ∃ correlationId deadlineMs now, a = .register p correlationId deadlineMs now
  settlements : ∀ p, ∃ added, (t.promise p).settlements = (s.promise p).settlements ++ added ∧
    ∀ x ∈ added, (∃ err, x = .reject err) ∨ ∃ correlationId value entry,
      a = .settle correlationId value ∧ s.entries.lookup correlationId = some entry ∧
        entry.promise = p ∧ x = .resolve value

omit [DecidableEq π] in
theorem Adds.refl (s : PendingRegistry π α) (a : Label π α) : s.Adds a s where
  entry _ _ he := Or.inl he
  new _ hp := Or.inl hp
  settlements _ := ⟨[], (List.append_nil _).symm, fun _ hx => nomatch hx⟩

/-- An entry leaves. -/
theorem Adds.leave (h : s.Balanced) {a : Label π α} (timer : Timer)
    (he : s.entries.lookup correlationId = some entry) {x : Settled α}
    (hx : (∃ err, x = .reject err) ∨ ∃ correlationId value entry', a = .settle correlationId value ∧
      s.entries.lookup correlationId = some entry' ∧ entry'.promise = entry.promise ∧
        x = .resolve value) :
    s.Adds a ({ s with entries := s.entries.erase correlationId }.conclude entry.promise timer x)
    where
  entry c e hc := by
    have hne : c ≠ correlationId := by
      rintro rfl
      simp [conclude] at hc
    exact Or.inl (by simpa [conclude, hne] using hc)
  new p hp := by
    rw [conclude, modify_promise_of_ne _ (h.promise_ne he hp).symm]
    exact Or.inl hp
  settlements p := by
    by_cases hp : p = entry.promise
    · subst hp
      exact ⟨[x], by simp [conclude], fun y hy => by rw [List.mem_singleton.mp hy]; exact hx⟩
    · exact ⟨[], by simp [conclude, modify_promise_of_ne _ hp], fun _ hy => nomatch hy⟩

/-- The promise that is registered gets its entry. -/
theorem Adds.enter {u : PendingRegistry π α} {deadlineMs now delay : Int}
    (h : s.Adds (.register p correlationId deadlineMs now) u) (hp : s.promise p = {}) :
    s.Adds (.register p correlationId deadlineMs now)
      ({ u with entries := u.entries.insert correlationId ⟨deadlineMs, now, p⟩ }.modify p fun _ =>
        { handedOut := true, timer := .armed correlationId delay }) where
  entry c e he := by
    by_cases hc : c = correlationId
    · subst hc
      obtain rfl : ⟨deadlineMs, now, p⟩ = e := by simpa using he
      exact Or.inr ⟨_, _, rfl⟩
    · exact h.entry c e (by simpa [hc] using he)
  new p' hp' := by
    by_cases he : p' = p
    · subst he
      exact Or.inr ⟨_, _, _, rfl⟩
    · rw [modify_promise_of_ne _ he]
      exact h.new p' hp'
  settlements p' := by
    by_cases he : p' = p
    · subst he
      exact ⟨[], by simp [hp], fun _ hx => nomatch hx⟩
    · rw [modify_promise_of_ne _ he]
      exact h.settlements p'

/-- **What one step adds.** -/
theorem Balanced.adds {a : Label π α} (h : s.Balanced) (hstep : registryStep s a = some t) :
    s.Adds a t := by
  cases a with
  | settle correlationId value =>
    cases hstep
    unfold PendingRegistry.settle
    split
    · exact .refl s _
    · rename_i entry he
      exact .leave h _ he (Or.inr ⟨_, _, entry, rfl, he, rfl, rfl⟩)
  | timeout p =>
    obtain ⟨c, entry, delay, he, rfl, rfl⟩ := onTimer_eq h hstep
    exact .leave h _ he (Or.inl ⟨_, rfl⟩)
  | abandon =>
    cases hstep
    obtain ⟨hother, hself⟩ := foldr_conclude s s.entries.entries h.nodup_promises
    refine ⟨fun c e he => (by cases he), fun p hp => Or.inl ?_, fun p => ?_⟩
    · rw [PendingRegistry.abandon, hother p, hp]
      intro hmem
      obtain ⟨e, he, rfl⟩ := List.mem_map.mp hmem
      exact h.promise_ne (AList.mem_lookup_iff.mpr he) hp rfl
    · by_cases hmem : p ∈ s.entries.entries.map fun e => e.2.promise
      · obtain ⟨e, he, rfl⟩ := List.mem_map.mp hmem
        refine ⟨[.reject (.abandoned e.1)], by rw [PendingRegistry.abandon, hself e he], ?_⟩
        intro x hx
        exact Or.inl ⟨_, List.mem_singleton.mp hx⟩
      · exact ⟨[], by rw [PendingRegistry.abandon, hother p hmem, List.append_nil],
          fun _ hx => nomatch hx⟩
  | register p correlationId deadlineMs now =>
    obtain ⟨hp, rfl⟩ := register_enabled h hstep
    by_cases hc : correlationId ∈ s.entries
    · rw [register_duplicate hc]
      refine ⟨fun c e he => Or.inl he, fun p' hp' => ?_, fun p' => ?_⟩
      · by_cases he : p' = p
        · subst he
          exact Or.inr ⟨_, _, _, rfl⟩
        · exact Or.inl (by rw [modify_promise_of_ne _ he, hp'])
      · by_cases he : p' = p
        · subst he
          exact ⟨[.reject (.alreadyRegistered correlationId)], by simp [hp],
            fun x hx => Or.inl ⟨_, List.mem_singleton.mp hx⟩⟩
        · exact ⟨[], by rw [modify_promise_of_ne _ he, List.append_nil], fun _ hx => nomatch hx⟩
    · by_cases hfull : s.capacity ≤ (s.size : Int)
      · obtain ⟨victim, entry, hlookup, -, heq⟩ := register_overflow hc hfull p deadlineMs now
        rw [heq]
        exact (Adds.leave h _ hlookup (Or.inl ⟨_, rfl⟩)).enter hp
      · rw [register_room hc (not_le.mp hfull)]
        exact (Adds.refl s _).enter hp

omit [DecidableEq π] in
theorem create_spec {capacity : Option Int} (h : createPendingRegistry π α capacity = .ok s) :
    s.capacity = capacity.getD defaultPendingCapacity ∧ s.Balanced := by
  unfold createPendingRegistry at h
  dsimp only at h
  split at h
  · rename_i hpos
    cases h
    exact ⟨rfl, le_of_lt hpos, fun c e he => (by cases he), fun p => Or.inl rfl⟩
  · cases h

omit [DecidableEq π] in
theorem create_empty {capacity : Option Int} (h : createPendingRegistry π α capacity = .ok s) :
    s.entries = ∅ ∧ ∀ p, s.promise p = {} := by
  unfold createPendingRegistry at h
  dsimp only at h
  split at h
  · cases h
    exact ⟨rfl, fun _ => rfl⟩
  · cases h

/-! ### Why an entry leaves -/

/-- A response or a rejection of its own correlation, its own timer, or the shutdown. -/
def OwnCause (correlationId : String) (p : π) : Label π α → Prop
  | .settle correlationId' _ => correlationId' = correlationId
  | .timeout p' => p' = p
  | .abandon => True
  | .register .. => False

/-- Every entry that leaves along the label leaves for a cause of its own. -/
def OwnExits (s : PendingRegistry π α) (a : Label π α) : Prop :=
  ∀ t, registryStep s a = some t → ∀ correlationId entry,
    s.entries.lookup correlationId = some entry →
      t.entries.lookup correlationId = some entry ∨ OwnCause correlationId entry.promise a

/-- No new correlation is registered while the registry is full. -/
def NoOverflow (s : PendingRegistry π α) : Label π α → Prop
  | .register _ correlationId _ _ => correlationId ∈ s.entries ∨ (s.size : Int) < s.capacity
  | _ => True

/-- **One step**: its exits are all for a cause of their own unless it overflows. -/
theorem ownExits_iff {a : Label π α} (h : s.Balanced) (hstep : registryStep s a = some t) :
    OwnExits s a ↔ NoOverflow s a := by
  cases a with
  | abandon => exact iff_of_true (fun _ _ _ _ _ => Or.inr trivial) trivial
  | settle correlationId value =>
    refine iff_of_true (fun t' ht' c e he => ?_) trivial
    by_cases hne : c = correlationId
    · exact Or.inr hne.symm
    · left
      cases ht'
      unfold PendingRegistry.settle
      split
      · exact he
      · simpa [removeEntry, conclude, hne] using he
  | timeout p =>
    refine iff_of_true (fun t' ht' c e he => ?_) trivial
    obtain ⟨c', entry, delay, he', rfl, rfl⟩ := onTimer_eq h ht'
    by_cases hne : c = c'
    · subst hne
      rw [he'] at he
      cases he
      exact Or.inr rfl
    · exact Or.inl (by simpa [conclude, hne] using he)
  | register p correlationId deadlineMs now =>
    simp only [registryStep] at hstep
    split at hstep
    · cases hstep
    · rename_i hout
      cases hstep
      constructor
      · intro hown
        by_contra hover
        simp only [NoOverflow, not_or, not_lt] at hover
        obtain ⟨victim, entry, hlookup, hne, heq⟩ :=
          register_overflow hover.1 hover.2 p deadlineMs now
        have ht : registryStep s (.register p correlationId deadlineMs now) =
            some (s.register p correlationId deadlineMs now) := by simp [registryStep, hout]
        rcases hown _ ht victim entry hlookup with hstay | hcause
        · rw [heq] at hstay
          simp [hne] at hstay
        · exact hcause
      · rintro hroom t' ht' c e he
        left
        simp only [registryStep, hout] at ht'
        cases ht'
        unfold PendingRegistry.register
        split
        · exact he
        · rename_i hc
          have hlt : (s.size : Int) < s.capacity := hroom.resolve_left hc
          have hne : c ≠ correlationId := by
            rintro rfl
            rw [AList.lookup_eq_none.mpr hc] at he
            cases he
          simpa [not_le.mpr hlt, hne] using he

/-- **A shutdown is final.**  After any run it leaves each promise that was handed out settled once,
and neither a late response nor a timer reaches one. -/
theorem abandon_final {capacity : Option Int} {s₀ : PendingRegistry π α} {as : List (Label π α)}
    (h₀ : createPendingRegistry π α capacity = .ok s₀) (r : Run registryStep Any s₀ as s) :
    (∀ p, (s.abandon.promise p).handedOut → (s.abandon.promise p).settlements.length = 1) ∧
      (∀ correlationId value, s.abandon.settle correlationId value = (false, s.abandon)) ∧
      ∀ p, s.abandon.onTimer p = none := by
  have hb : s.Balanced := Run.invariant (P := Balanced) (create_spec h₀).2
    (fun t a t' ht _ hstep => (ht.step hstep).1) r
  have hpromise (p : π) : s.abandon.promise p = {} ∨ Concluded (s.abandon.promise p) := by
    rcases hb.abandon.promise p with hnew | hdone | ⟨c, e, he, -⟩
    · exact .inl hnew
    · exact .inr hdone
    · cases he
  refine ⟨fun p hout => ?_, fun correlationId value => rfl, fun p => ?_⟩
  · rcases hpromise p with hnew | hdone
    · rw [hnew] at hout
      cases hout
    · exact hdone.once
  · unfold onTimer
    rcases hpromise p with hnew | hdone
    · rw [hnew]
    · split
      · rename_i c delay harmed
        exact absurd harmed (hdone.disarmed c delay)
      · rfl

end

/-- A registry for one call. -/
def singleRegistry : PendingRegistry Nat Unit := ⟨1, by decide, ∅, fun _ => {}⟩

theorem abandon_final_pending :
    ((singleRegistry.register 0 "c1" 30000 0).abandon.promise 0).settlements.length = 1 := by
  have h₀ : createPendingRegistry Nat Unit (some 1) = .ok singleRegistry := rfl
  have r : Run registryStep Any singleRegistry [.register 0 "c1" 30000 0]
      (singleRegistry.register 0 "c1" 30000 0) := .cons trivial rfl .nil
  exact (abandon_final h₀ r).1 0 (by decide)

end PendingRegistry

end Declaragent.Rpc
