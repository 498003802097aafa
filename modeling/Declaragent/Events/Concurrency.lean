import Declaragent.Library.Transition
import Mathlib.Data.List.Nodup

/-!
# Events — the concurrency limiter

At most `max` callers hold a slot.  Who finds none free waits, and a slot that is released goes to
the first who waits.  The releaser that a caller gets works once.

The `acquire` calls are numbered from 0 on.

* `slots_shared`: what holds between the holders, the waiters and the calls, in every run.
-/

namespace Declaragent.Events
open Transition

/-- The limiter, and of its callers: how many there were, who was granted a slot, in this order, and
whose releaser was called. -/
structure ConcurrencyLimiter where
  max : { n : Nat // 0 < n }
  inflight : Int := 0
  waiters : List Nat := []
  acquired : Nat := 0
  granted : List Nat := []
  released : List Nat := []

inductive LimiterAct where
  | acquire
  /-- The releaser of the `n`-th caller is called. -/
  | release (n : Nat)

namespace ConcurrencyLimiter

/-- The constructor. -/
def create (max : Int) : Except String ConcurrencyLimiter :=
  match max with
  | .ofNat (n + 1) => .ok { max := ⟨n + 1, Nat.succ_pos n⟩ }
  | max => .error s!"ConcurrencyLimiter max must be a positive integer, got {max}"

variable (s : ConcurrencyLimiter)

/-- The slot is the caller's. -/
def grant (n : Nat) : ConcurrencyLimiter :=
  { s with inflight := s.inflight + 1, granted := s.granted ++ [n] }

def acquire : ConcurrencyLimiter :=
  let n := s.acquired
  let s := { s with acquired := n + 1 }
  if s.inflight < s.max.1 then s.grant n
  else { s with waiters := s.waiters ++ [n] }

/-- A slot is free again, for the first who waits. -/
def release : ConcurrencyLimiter :=
  let s := { s with inflight := s.inflight - 1 }
  match s.waiters with
  | [] => s
  | next :: waiters => { s with waiters }.grant next

/-- The `n`-th caller's releaser, which it has once it was granted a slot. -/
def releaser (n : Nat) : Option ConcurrencyLimiter :=
  if n ∈ s.granted then
    if n ∈ s.released then some s
    else some { s with released := s.released ++ [n] }.release
  else none

def step : LimiterAct → Option ConcurrencyLimiter
  | .acquire => some s.acquire
  | .release n => s.releaser n

/-- Who has a slot and has not released it. -/
def holders : List Nat := s.granted.filter (· ∉ s.released)

/-- The callers hold, wait or are gone, and wait only where no slot is free. -/
structure Shared (s : ConcurrencyLimiter) : Prop where
  fifo : s.granted ++ s.waiters = List.range s.acquired
  inflight : s.inflight = s.holders.length
  bound : s.holders.length ≤ s.max.1
  busy : s.waiters ≠ [] → s.holders.length = s.max.1
  once : s.released.Nodup
  granted : ∀ n ∈ s.released, n ∈ s.granted

variable {s}

/-- Those that are gone, and the others. -/
theorem length_filter_notMem {l gone : List Nat} (hl : l.Nodup) (hgone : gone.Nodup)
    (hsub : ∀ n ∈ gone, n ∈ l) : (l.filter (· ∉ gone)).length + gone.length = l.length := by
  have hperm : (l.filter (· ∈ gone)).Perm gone := by
    refine (List.perm_ext_iff_of_nodup (hl.filter _) hgone).mpr fun n => ?_
    rw [List.mem_filter, decide_eq_true_eq]
    exact ⟨And.right, fun hn => ⟨hsub n hn, hn⟩⟩
  have hsplit := l.length_eq_length_filter_add (· ∈ gone)
  rw [hperm.length_eq] at hsplit
  simp only [decide_not]
  omega

theorem nodup_granted (hfifo : s.granted ++ s.waiters = List.range s.acquired) :
    s.granted.Nodup := by
  have hnodup : (s.granted ++ s.waiters).Nodup := hfifo ▸ List.nodup_range
  exact hnodup.of_append_left

theorem Shared.length_granted (h : s.Shared) :
    s.holders.length + s.released.length = s.granted.length :=
  length_filter_notMem (nodup_granted h.fifo) h.once h.granted

theorem Shared.length_acquired (h : s.Shared) :
    s.granted.length + s.waiters.length = s.acquired := by
  rw [← List.length_append, h.fifo, List.length_range]

/-- The holders need not be counted: they are those who were granted a slot less those who
released it. -/
theorem Shared.of_lengths (hfifo : s.granted ++ s.waiters = List.range s.acquired)
    (honce : s.released.Nodup) (hgranted : ∀ n ∈ s.released, n ∈ s.granted)
    (hinflight : s.inflight + s.released.length = s.granted.length)
    (hbound : s.granted.length ≤ s.max.1 + s.released.length)
    (hbusy : s.waiters ≠ [] → s.granted.length = s.max.1 + s.released.length) : s.Shared := by
  have hlength : s.holders.length + s.released.length = s.granted.length :=
    length_filter_notMem (nodup_granted hfifo) honce hgranted
  refine ⟨hfifo, by omega, by omega, fun hne => ?_, honce, hgranted⟩
  have hfull := hbusy hne
  omega

theorem Shared.acquire (h : s.Shared) : s.acquire.Shared := by
  have hinflight := h.inflight
  have hbound := h.bound
  have hlength := h.length_granted
  unfold ConcurrencyLimiter.acquire
  dsimp only
  split
  · rename_i hfree
    have hnone : s.waiters = [] := by
      by_contra hne
      have hbusy := h.busy hne
      omega
    have hall : s.granted = List.range s.acquired := by
      rw [← h.fifo, hnone, List.append_nil]
    refine Shared.of_lengths ?_ h.once (fun n hn => List.mem_append_left _ (h.granted n hn)) ?_ ?_
      fun hne => absurd hnone hne
    · simp only [grant, hnone, List.append_nil, hall, List.range_succ]
    · simp only [grant, List.length_append, List.length_singleton]
      omega
    · simp only [grant, List.length_append, List.length_singleton]
      omega
  · rename_i hfull
    refine Shared.of_lengths ?_ h.once h.granted ?_ ?_ fun _ => ?_
    · simp only [← List.append_assoc, h.fifo, List.range_succ]
    · dsimp only
      omega
    · dsimp only
      omega
    · dsimp only
      omega

/-- A holder's slot is released, and goes to the first who waits. -/
theorem Shared.release (h : s.Shared) {n : Nat} (hgranted : n ∈ s.granted)
    (hheld : n ∉ s.released) :
    ({ s with released := s.released ++ [n] } : ConcurrencyLimiter).release.Shared := by
  have hinflight := h.inflight
  have hbound := h.bound
  have hlength := h.length_granted
  have honce : (s.released ++ [n]).Nodup :=
    List.nodup_append.mpr ⟨h.once, List.nodup_singleton n, fun m hm m' hm' => by
      rw [List.mem_singleton.mp hm']
      exact fun heq => hheld (heq ▸ hm)⟩
  have hgone : ∀ m ∈ s.released ++ [n], m ∈ s.granted := by
    intro m hm
    rcases List.mem_append.mp hm with hm | hm
    · exact h.granted m hm
    · rwa [List.mem_singleton.mp hm]
  unfold ConcurrencyLimiter.release
  dsimp only
  split
  · rename_i hwaiters
    refine Shared.of_lengths h.fifo honce hgone ?_ ?_ fun hne => absurd hwaiters hne
    · simp only [List.length_append, List.length_singleton]
      omega
    · simp only [List.length_append, List.length_singleton]
      omega
  · rename_i next waiters hwaiters
    have hbusy : s.holders.length = s.max.1 :=
      h.busy (by rw [hwaiters]; exact List.cons_ne_nil _ _)
    refine Shared.of_lengths ?_ honce (fun m hm => List.mem_append_left _ (hgone m hm)) ?_ ?_
      fun _ => ?_
    · simp only [grant, List.append_assoc, List.singleton_append]
      rw [← hwaiters, h.fifo]
    · simp only [grant, List.length_append, List.length_singleton]
      omega
    · simp only [grant, List.length_append, List.length_singleton]
      omega
    · simp only [grant, List.length_append, List.length_singleton]
      omega

theorem Shared.step {t : ConcurrencyLimiter} (h : s.Shared) {a : LimiterAct}
    (hstep : s.step a = some t) : t.Shared := by
  cases a with
  | acquire =>
    rw [← Option.some.inj hstep]
    exact h.acquire
  | release n =>
    simp only [ConcurrencyLimiter.step, releaser] at hstep
    split at hstep
    · rename_i hgranted
      split at hstep
      · rw [← Option.some.inj hstep]
        exact h
      · rename_i hheld
        rw [← Option.some.inj hstep]
        exact h.release hgranted hheld
    · cases hstep

theorem max_step {t : ConcurrencyLimiter} {a : LimiterAct} (hstep : s.step a = some t) :
    t.max = s.max := by
  cases a with
  | acquire =>
    rw [← Option.some.inj hstep]
    unfold ConcurrencyLimiter.acquire
    dsimp only
    split <;> rfl
  | release n =>
    simp only [ConcurrencyLimiter.step, releaser] at hstep
    split at hstep
    · split at hstep
      · rw [← Option.some.inj hstep]
      · rw [← Option.some.inj hstep]
        unfold ConcurrencyLimiter.release
        dsimp only
        split <;> rfl
    · cases hstep

theorem shared_create {max : Int} (hcreate : create max = .ok s) : s.Shared ∧ s.max.1 = max := by
  unfold create at hcreate
  split at hcreate
  · rename_i n
    rw [← Except.ok.inj hcreate]
    exact ⟨⟨rfl, rfl, Nat.zero_le _, fun hne => absurd rfl hne, List.nodup_nil,
      fun m hm => (by cases hm)⟩, rfl⟩
  · cases hcreate

/-- **Slots are shared in the order of the calls**: no more are held than there are, nobody waits
while one is free, and whoever called holds one, waits or has released it. -/
theorem slots_shared {max : Int} {s₀ : ConcurrencyLimiter} (hcreate : create max = .ok s₀)
    {acts : List LimiterAct} (r : Run step Any s₀ acts s) :
    s.holders.length ≤ max ∧
      s.granted ++ s.waiters = List.range s.acquired ∧
      (s.waiters ≠ [] → s.holders.length = max) ∧
      s.released.Nodup ∧
      s.holders.length + s.waiters.length = s.acquired - s.released.length := by
  obtain ⟨hnew, hmax⟩ := shared_create hcreate
  have hrun : s.Shared ∧ (s.max.1 : Int) = max :=
    r.invariant (P := fun t => t.Shared ∧ (t.max.1 : Int) = max) ⟨hnew, hmax⟩
      fun t a t' ht _ hstep => ⟨ht.1.step hstep, by rw [max_step hstep, ht.2]⟩
  obtain ⟨h, hmax⟩ := hrun
  have hbound := h.bound
  have hgranted := h.length_granted
  have hacquired := h.length_acquired
  refine ⟨by omega, h.fifo, fun hne => ?_, h.once, by omega⟩
  rw [h.busy hne, hmax]

/-- A slot that is released twice goes to one caller, the first who waits. -/
theorem slots_shared_released_twice : ∃ s : ConcurrencyLimiter,
    s.granted = [0, 1] ∧ s.waiters = [2] ∧ s.holders.length ≤ (1 : Int) := by
  have hreplay : exec step { max := ⟨1, Nat.one_pos⟩ }
      [.acquire, .acquire, .acquire, .release 0, .release 0] =
      some { max := ⟨1, Nat.one_pos⟩, inflight := 1, waiters := [2], acquired := 3,
             granted := [0, 1], released := [0] } := rfl
  have hcreate : create 1 = .ok { max := ⟨1, Nat.one_pos⟩ } := rfl
  exact ⟨_, rfl, rfl, (slots_shared hcreate (.any_of_exec hreplay)).1⟩

end ConcurrencyLimiter

end Declaragent.Events
