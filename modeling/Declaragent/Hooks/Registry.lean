import Declaragent.Library.Transition
import Mathlib.Data.List.Nodup

/-!
# Hooks — the registry

`fire` goes through the array of a point's subscribers and awaits each of them.  `on` appends to
the same array and `off` splices it, also while a `fire` is under way: the index of the iterator
stays, so that what stands behind a removed entry moves up by one.

* `Fire.Delivered` says what a fire of an after-point owes to those who are subscribed from its
  start on; of a running one, it says so of the calls that it will make if no one else subscribes
  or unsubscribes.
* `Fire.delivered_off`: an `off` keeps this exactly when it skips no one.
* `delivered_iff` says so of all the fires of a registry.
-/

namespace Declaragent.Hooks
open Transition

inductive HookPoint where
  | turnStart
  | turnEnd
  | toolBefore
  | toolAfter
  | skillBefore
  | skillAfter
  | compactBefore
  | eventBefore
  | eventAfter
  deriving DecidableEq

def isBeforeHookPoint : HookPoint → Bool
  | .toolBefore | .skillBefore | .compactBefore | .eventBefore => true
  | _ => false

universe u v
variable {σ : Type u} {β : Type v}

/-- An entry of a point's array; `serial` tells two entries of one function apart. -/
structure Registration (σ : Type u) where
  serial : Nat
  subscriber : σ
  deriving DecidableEq

inductive FireStatus where
  | running
  | resolved
  | rejected
  deriving DecidableEq

/-- A call of `fire`: `snapshot` is the array at its start, `remaining` the array at its end. -/
structure Fire (σ : Type u) (β : Type v) where
  point : HookPoint
  snapshot : List (Registration σ)
  called : List (Registration σ) := []
  /-- The iterator's index. -/
  next : Nat := 0
  result : Option β := none
  status : FireStatus := .running
  remaining : List (Registration σ) := []

/-- How a subscriber's promise settles; `none` is `undefined`. -/
inductive SubscriberOutcome (β : Type v) where
  | returns (r : Option β)
  | throws

namespace Fire

/-- The iterator's next step, at the array as it is now. -/
def advance (cur : List (Registration σ)) (f : Fire σ β) : Fire σ β :=
  match cur[f.next]? with
  | some sub => { f with called := f.called ++ [sub], next := f.next + 1 }
  | none => { f with status := .resolved, remaining := cur }

def settle (cur : List (Registration σ)) (f : Fire σ β) : SubscriberOutcome β → Fire σ β
  | .returns (some r) =>
    if f.result.isNone then
      if isBeforeHookPoint f.point then
        { f with result := some r, status := .resolved, remaining := cur }
      else { f with result := some r }.advance cur
    else f.advance cur
  | .returns none => f.advance cur
  | .throws =>
    if isBeforeHookPoint f.point then { f with status := .rejected, remaining := cur }
    else f.advance cur

end Fire

/-- `subs` has no list under a point that has no subscriber; `fires` logs the calls of `fire`. -/
structure HookRegistry (σ : Type u) (β : Type v) where
  subs : HookPoint → List (Registration σ) := fun _ => []
  nextSerial : Nat := 0
  fires : List (Fire σ β) := []

namespace HookRegistry

def on (s : HookRegistry σ β) (point : HookPoint) (subscriber : σ) : HookRegistry σ β :=
  { s with
    subs := Function.update s.subs point (s.subs point ++ [⟨s.nextSerial, subscriber⟩])
    nextSerial := s.nextSerial + 1 }

/-- `indexOf` finds the first entry of the function, whichever `on` it comes from. -/
def indexOf [DecidableEq σ] (s : HookRegistry σ β) (point : HookPoint) (subscriber : σ) : Nat :=
  (s.subs point).findIdx fun r => r.subscriber = subscriber

/-- What `on` returns. -/
def off [DecidableEq σ] (s : HookRegistry σ β) (point : HookPoint) (subscriber : σ) :
    HookRegistry σ β :=
  { s with
    subs := Function.update s.subs point
      ((s.subs point).eraseIdx (s.indexOf point subscriber)) }

def fire (s : HookRegistry σ β) (point : HookPoint) : HookRegistry σ β :=
  let f : Fire σ β := { point := point, snapshot := s.subs point }
  { s with fires := s.fires ++ [f.advance (s.subs point)] }

def count (s : HookRegistry σ β) (point : HookPoint) : Nat := (s.subs point).length

end HookRegistry

inductive HookLabel (σ : Type u) (β : Type v) where
  | on (point : HookPoint) (subscriber : σ)
  | off (point : HookPoint) (subscriber : σ)
  | fire (point : HookPoint)
  /-- What the `k`-th fire awaits settles. -/
  | settles (k : Nat) (outcome : SubscriberOutcome β)

/-- A step is what runs without an `await`; a subscriber's own calls of `on` and `off` are steps of
their own. -/
def hookStep [DecidableEq σ] (s : HookRegistry σ β) : HookLabel σ β → Option (HookRegistry σ β)
  | .on point subscriber => some (s.on point subscriber)
  | .off point subscriber => some (s.off point subscriber)
  | .fire point => some (s.fire point)
  | .settles k outcome =>
    match s.fires[k]? with
    | some f =>
      if f.status = .running then
        some { s with fires := s.fires.set k (f.settle (s.subs f.point) outcome) }
      else none
    | none => none

theorem settles_inv [DecidableEq σ] {s t : HookRegistry σ β} {k : Nat}
    {outcome : SubscriberOutcome β} (h : hookStep s (.settles k outcome) = some t) :
    ∃ f, s.fires[k]? = some f ∧ f.status = .running ∧
      t = { s with fires := s.fires.set k (f.settle (s.subs f.point) outcome) } := by
  simp only [hookStep] at h
  cases hf : s.fires[k]? with
  | none => rw [hf] at h; cases h
  | some f =>
    rw [hf] at h
    by_cases hrun : f.status = .running
    · simp only [if_pos hrun, Option.some.injEq] at h
      exact ⟨f, rfl, hrun, h.symm⟩
    · simp only [if_neg hrun] at h
      cases h

/-! ### What a fire owes -/

namespace Fire
variable {cur : List (Registration σ)} {f : Fire σ β}

/-- Who is subscribed when the fire ends, if the array stays as it is. -/
def registered (f : Fire σ β) (cur : List (Registration σ)) : List (Registration σ) :=
  if f.status = .running then cur else f.remaining

/-- Whom the fire calls until its end, if the array stays as it is. -/
def calls (f : Fire σ β) (cur : List (Registration σ)) : List (Registration σ) :=
  if f.status = .running then f.called ++ cur.drop f.next else f.called

/-- Who is subscribed from before the fire until after it is called exactly once, in the order of
the registrations. -/
structure Delivered [DecidableEq σ] (f : Fire σ β) (cur : List (Registration σ)) : Prop where
  once : ∀ r ∈ f.snapshot, r ∈ f.registered cur → (f.calls cur).count r = 1
  inOrder : ((f.calls cur).filter fun r => r ∈ f.snapshot ∧ r ∈ f.registered cur).Pairwise
    fun r r' => r.serial < r'.serial

/-- The `off` of the entry at `idx` moves an entry that the fire has to call to where its iterator
has been. -/
def Skips (f : Fire σ β) (cur : List (Registration σ)) (idx : Nat) : Prop :=
  f.status = .running ∧ idx < f.next ∧ ∃ r ∈ f.snapshot, cur[f.next]? = some r

end Fire

namespace HookRegistry

def Delivered [DecidableEq σ] (s : HookRegistry σ β) : Prop :=
  ∀ f ∈ s.fires, isBeforeHookPoint f.point = false → f.Delivered (s.subs f.point)

/-- No `off` skips a subscriber of a running fire of its point. -/
def NoSkip [DecidableEq σ] (s : HookRegistry σ β) : HookLabel σ β → Prop
  | .off point subscriber =>
    ∀ f ∈ s.fires, isBeforeHookPoint f.point = false → f.point = point →
      ¬ f.Skips (s.subs point) (s.indexOf point subscriber)
  | _ => True

end HookRegistry

/-! ### One fire -/

namespace Fire
variable {cur : List (Registration σ)} {f : Fire σ β}

@[simp] theorem registered_running (h : f.status = .running) : f.registered cur = cur := by
  simp [registered, h]

@[simp] theorem calls_running (h : f.status = .running) :
    f.calls cur = f.called ++ cur.drop f.next := by
  simp [calls, h]

/-- The iterator's step changes neither who is subscribed nor the calls in all. -/
theorem advance_calls (cur : List (Registration σ)) (h : f.status = .running) :
    (f.advance cur).registered cur = f.registered cur ∧
      (f.advance cur).calls cur = f.calls cur := by
  unfold advance
  cases hn : cur[f.next]? with
  | none =>
    have hle := List.getElem?_eq_none_iff.mp hn
    simp [registered, calls, h, List.drop_eq_nil_of_le hle]
  | some sub =>
    obtain ⟨hlt, rfl⟩ := List.getElem?_eq_some_iff.mp hn
    refine ⟨by simp [registered, h], ?_⟩
    rw [calls_running h, List.drop_eq_getElem_cons hlt]
    simp [calls, h]

theorem advance_same (f : Fire σ β) (cur : List (Registration σ)) :
    (f.advance cur).point = f.point ∧ (f.advance cur).snapshot = f.snapshot := by
  unfold advance
  split <;> exact ⟨rfl, rfl⟩

/-- Whatever settles, the fire stays one of its point, with its snapshot. -/
theorem settle_same (f : Fire σ β) (cur : List (Registration σ)) (outcome : SubscriberOutcome β) :
    (f.settle cur outcome).point = f.point ∧ (f.settle cur outcome).snapshot = f.snapshot := by
  unfold settle
  split
  · split
    · split
      · exact ⟨rfl, rfl⟩
      · exact advance_same _ cur
    · exact advance_same f cur
  · exact advance_same f cur
  · split
    · exact ⟨rfl, rfl⟩
    · exact advance_same f cur

theorem settle_calls (h : f.status = .running) (hp : isBeforeHookPoint f.point = false)
    (outcome : SubscriberOutcome β) :
    (f.settle cur outcome).registered cur = f.registered cur ∧
      (f.settle cur outcome).calls cur = f.calls cur := by
  cases outcome with
  | throws => simpa [settle, hp] using advance_calls cur h
  | returns r =>
    cases r with
    | none => simpa [settle] using advance_calls cur h
    | some r =>
      cases hr : f.result with
      | some _ => simpa [settle, hr] using advance_calls cur h
      | none =>
        have hadv := advance_calls (f := { f with result := some r }) cur h
        simp only [settle, hr, hp, Option.isNone_none, if_true]
        exact hadv

/-- The entry at `idx` goes. -/
theorem mem_eraseIdx {idx : Nat} (hcur : cur.Nodup) {r : Registration σ} :
    r ∈ cur.eraseIdx idx ↔ r ∈ cur ∧ cur[idx]? ≠ some r := by
  rw [List.mem_eraseIdx_iff_getElem?]
  constructor
  · rintro ⟨i, hi, hr⟩
    refine ⟨List.mem_of_getElem? hr, fun hx => hi ?_⟩
    obtain ⟨h₁, e₁⟩ := List.getElem?_eq_some_iff.mp hr
    obtain ⟨h₂, e₂⟩ := List.getElem?_eq_some_iff.mp hx
    exact (hcur.getElem_inj_iff).mp (e₁.trans e₂.symm)
  · rintro ⟨hr, hx⟩
    obtain ⟨i, hi⟩ := List.mem_iff_getElem?.mp hr
    exact ⟨i, fun e => hx (e ▸ hi), hi⟩

variable [DecidableEq σ]

/-- What a fire owes depends on its snapshot, on who is subscribed and on its calls in all. -/
theorem delivered_congr {g : Fire σ β} {cur' : List (Registration σ)}
    (hs : g.snapshot = f.snapshot) (hr : g.registered cur' = f.registered cur)
    (hc : g.calls cur' = f.calls cur) : g.Delivered cur' ↔ f.Delivered cur := by
  constructor
  · rintro ⟨h₁, h₂⟩
    exact ⟨by rwa [hs, hr, hc] at h₁, by rwa [hs, hr, hc] at h₂⟩
  · rintro ⟨h₁, h₂⟩
    exact ⟨by rwa [hs, hr, hc], by rwa [hs, hr, hc]⟩

/-- A fire that has ended does not depend on the array any more. -/
theorem delivered_ended (h : f.status ≠ .running) (cur' : List (Registration σ)) :
    f.Delivered cur' ↔ f.Delivered cur :=
  delivered_congr rfl (by simp [registered, h]) (by simp [calls, h])

/-- A fire that starts is to call the whole array. -/
theorem delivered_start (point : HookPoint)
    (hcur : cur.Pairwise fun r r' => r.serial < r'.serial) :
    ({ point := point, snapshot := cur } : Fire σ β).Delivered cur := by
  have hnodup : cur.Nodup := hcur.imp fun h e => by rw [e] at h; exact Nat.lt_irrefl _ h
  refine ⟨fun r hr _ => ?_, ?_⟩
  · simpa [calls] using List.count_eq_one_of_mem hnodup hr
  · simpa [calls] using hcur.filter _

/-- Who subscribes later is owed nothing, and takes no one's place. -/
theorem delivered_on {new : Registration σ} (hnew : new ∉ f.snapshot) (h : f.Delivered cur) :
    f.Delivered (cur ++ [new]) := by
  by_cases hrun : f.status = .running
  · -- `new` is called as well where the iterator has not gone past the end
    have hcalls : ∃ tail : List (Registration σ), f.calls (cur ++ [new]) = f.calls cur ++ tail ∧
        ∀ r ∈ tail, r = new := by
      refine ⟨[new].drop (f.next - cur.length), ?_, fun r hr => ?_⟩
      · simp [hrun, List.drop_append]
      · simpa using List.mem_of_mem_drop hr
    obtain ⟨tail, hcalls, htail⟩ := hcalls
    have hne : ∀ r ∈ f.snapshot, r ∉ tail := fun r hr ht => hnew (htail r ht ▸ hr)
    have hreg : ∀ r ∈ f.snapshot, r ∈ f.registered (cur ++ [new]) ↔ r ∈ f.registered cur := by
      intro r hr
      have hrn : r ≠ new := fun e => hnew (e ▸ hr)
      simp [hrun, hrn]
    refine ⟨fun r hr hr' => ?_, ?_⟩
    · rw [hcalls, List.count_append, List.count_eq_zero_of_not_mem (hne r hr)]
      exact h.once r hr ((hreg r hr).mp hr')
    · rw [hcalls, List.filter_append]
      have hnil : tail.filter (fun r => r ∈ f.snapshot ∧ r ∈ f.registered (cur ++ [new])) = [] := by
        refine List.filter_eq_nil_iff.mpr fun r hr => ?_
        simp [htail r hr, hnew]
      rw [hnil, List.append_nil]
      have hsame : (f.calls cur).filter (fun r => r ∈ f.snapshot ∧ r ∈ f.registered (cur ++ [new]))
          = (f.calls cur).filter fun r => r ∈ f.snapshot ∧ r ∈ f.registered cur := by
        refine List.filter_congr fun r _ => ?_
        by_cases hr : r ∈ f.snapshot
        · simp [hr, hreg r hr]
        · simp [hr]
      rw [hsame]
      exact h.inOrder
  · exact (delivered_ended hrun _).mpr h

/-- Calls that go on without some that no one is owed are as good. -/
theorem Delivered.of_sublist {cur' : List (Registration σ)} (h : f.Delivered cur)
    (hcalls : (f.calls cur').Sublist (f.calls cur))
    (hreg : ∀ r ∈ f.registered cur', r ∈ f.registered cur)
    (hcount : ∀ r ∈ f.snapshot, r ∈ f.registered cur' →
      (f.calls cur').count r = (f.calls cur).count r) : f.Delivered cur' := by
  refine ⟨fun r hr hr' => ?_, ?_⟩
  · rw [hcount r hr hr']
    exact h.once r hr (hreg r hr')
  · refine h.inOrder.sublist (List.Sublist.trans ?_ (hcalls.filter _))
    exact List.monotone_filter_right _ fun r hr => by
      simp only [decide_eq_true_eq] at hr ⊢
      exact ⟨hr.1, hreg r hr.2⟩

theorem count_eraseIdx {idx : Nat} {r : Registration σ} (h : cur[idx]? ≠ some r) :
    (cur.eraseIdx idx).count r = cur.count r := by
  rcases Nat.lt_or_ge idx cur.length with hlt | hge
  · have hne : cur[idx] ≠ r := fun e => h (List.getElem?_eq_some_iff.mpr ⟨hlt, e⟩)
    calc (cur.eraseIdx idx).count r
        = (cur.take idx).count r + (cur.drop (idx + 1)).count r := by
          rw [List.eraseIdx_eq_take_drop_succ, List.count_append]
      _ = (cur.take idx).count r + (cur.drop idx).count r := by
          rw [List.drop_eq_getElem_cons hlt, List.count_cons_of_ne hne]
      _ = cur.count r := by rw [← List.count_append, List.take_append_drop]
  · rw [List.eraseIdx_of_length_le hge]

/-- The fire has not come to the entry yet. -/
theorem delivered_off_ahead {idx : Nat} (hrun : f.status = .running) (hcur : cur.Nodup)
    (hidx : f.next ≤ idx) (h : f.Delivered cur) : f.Delivered (cur.eraseIdx idx) := by
  have hdrop : (cur.eraseIdx idx).drop f.next = (cur.drop f.next).eraseIdx (idx - f.next) := by
    rcases Nat.lt_or_ge idx cur.length with hlt | hge
    · have hlen : (cur.take f.next).length = f.next := by rw [List.length_take]; omega
      conv_lhs => rw [← List.take_append_drop f.next cur]
      rw [List.eraseIdx_append_of_length_le (by omega), List.drop_append, hlen, Nat.sub_self,
        List.drop_zero, List.drop_eq_nil_of_le (Nat.le_of_eq hlen), List.nil_append]
    · rw [List.eraseIdx_of_length_le hge, List.eraseIdx_of_length_le (by simp; omega)]
  refine h.of_sublist ?_ ?_ ?_
  · rw [calls_running hrun, calls_running hrun, hdrop]
    exact (List.Sublist.refl _).append (List.eraseIdx_sublist _ _)
  · simp only [registered_running hrun]
    exact fun r hr => ((mem_eraseIdx hcur).mp hr).1
  · intro r _ hr
    rw [registered_running hrun, mem_eraseIdx hcur] at hr
    have hne : (cur.drop f.next)[idx - f.next]? ≠ some r := by
      rw [List.getElem?_drop, Nat.add_sub_cancel' hidx]
      exact hr.2
    rw [calls_running hrun, calls_running hrun, hdrop, List.count_append, List.count_append,
      count_eraseIdx hne]

/-- The fire's iterator has gone past the entry: what stands at its index is not called. -/
theorem delivered_off_behind {idx : Nat} (hrun : f.status = .running) (hcur : cur.Nodup)
    (hlt : idx < cur.length) (hidx : idx < f.next) (h : f.Delivered cur) :
    f.Delivered (cur.eraseIdx idx) ↔ ∀ r ∈ f.snapshot, cur[f.next]? ≠ some r := by
  have hdrop : (cur.eraseIdx idx).drop f.next = cur.drop (f.next + 1) := by
    rw [List.eraseIdx_eq_take_drop_succ, List.drop_append, List.length_take,
      Nat.min_eq_left (Nat.le_of_lt hlt), List.drop_drop,
      List.drop_eq_nil_of_le (by rw [List.length_take]; omega), List.nil_append]
    congr 1
    omega
  have hcalls : f.calls (cur.eraseIdx idx) = f.called ++ cur.drop (f.next + 1) := by
    rw [calls_running hrun, hdrop]
  have hdrops : ∀ r, cur[f.next]? = some r → cur.drop f.next = r :: cur.drop (f.next + 1) := by
    intro r hr
    obtain ⟨hn, rfl⟩ := List.getElem?_eq_some_iff.mp hr
    exact List.drop_eq_getElem_cons hn
  constructor
  · intro h' r hr hnext
    have hreg : r ∈ f.registered (cur.eraseIdx idx) := by
      rw [registered_running hrun, mem_eraseIdx hcur]
      refine ⟨List.mem_of_getElem? hnext, fun hx => ?_⟩
      obtain ⟨h₁, e₁⟩ := List.getElem?_eq_some_iff.mp hnext
      obtain ⟨h₂, e₂⟩ := List.getElem?_eq_some_iff.mp hx
      exact absurd (hcur.getElem_inj_iff.mp (e₂.trans e₁.symm)) (by omega)
    -- it would be called once without the call that is still to come, and once with it
    have hwith := h.once r hr (by rw [registered_running hrun]; exact List.mem_of_getElem? hnext)
    have hwithout := h'.once r hr hreg
    rw [calls_running hrun, hdrops r hnext, List.count_append, List.count_cons_self] at hwith
    rw [hcalls, List.count_append] at hwithout
    omega
  · intro hskip
    refine h.of_sublist ?_ ?_ ?_
    · rw [hcalls, calls_running hrun, ← List.drop_drop]
      exact (List.Sublist.refl _).append (List.drop_sublist _ _)
    · simp only [registered_running hrun]
      exact fun r hr => ((mem_eraseIdx hcur).mp hr).1
    · intro r hr _
      rw [hcalls, calls_running hrun, List.count_append, List.count_append]
      cases hnext : cur[f.next]? with
      | none =>
        have hge := List.getElem?_eq_none_iff.mp hnext
        rw [List.drop_eq_nil_of_le hge, List.drop_eq_nil_of_le (Nat.le_succ_of_le hge)]
      | some x =>
        have hne : x ≠ r := fun e => hskip r hr (e ▸ hnext)
        rw [hdrops x hnext, List.count_cons_of_ne hne]

/-- **The one step that matters.** -/
theorem delivered_off {idx : Nat} (hcur : cur.Nodup) (h : f.Delivered cur) :
    f.Delivered (cur.eraseIdx idx) ↔ ¬ f.Skips cur idx := by
  by_cases hrun : f.status = .running
  · rcases Nat.lt_or_ge idx f.next with hidx | hidx
    · rcases Nat.lt_or_ge idx cur.length with hlt | hge
      · rw [delivered_off_behind hrun hcur hlt hidx h]
        simp [Skips, hrun, hidx]
      · rw [List.eraseIdx_of_length_le hge]
        have hnone : cur[f.next]? = none := List.getElem?_eq_none_iff.mpr (by omega)
        simp [Skips, hnone, h]
    · simp only [Skips, Nat.not_lt.mpr hidx, false_and, and_false, not_false_eq_true, iff_true]
      exact delivered_off_ahead hrun hcur hidx h
  · simp only [Skips, hrun, false_and, not_false_eq_true, iff_true]
    exact (delivered_ended hrun _).mpr h

end Fire

/-! ### All fires -/

namespace HookRegistry
variable {s t : HookRegistry σ β}

/-- What every state keeps: the entries stand in the order of their serials. -/
structure Sound (s : HookRegistry σ β) : Prop where
  sorted : ∀ point, (s.subs point).Pairwise fun r r' => r.serial < r'.serial
  below : ∀ point, ∀ r ∈ s.subs point, r.serial < s.nextSerial
  snapshots : ∀ f ∈ s.fires, ∀ r ∈ f.snapshot, r.serial < s.nextSerial

theorem Sound.nodup (h : s.Sound) (point : HookPoint) : (s.subs point).Nodup :=
  (h.sorted point).imp fun hlt e => by rw [e] at hlt; exact Nat.lt_irrefl _ hlt

theorem Sound.on (h : s.Sound) (point : HookPoint) (subscriber : σ) :
    (s.on point subscriber).Sound := by
  refine ⟨fun p => ?_, fun p r hr => ?_, fun f hf r hr => Nat.lt_succ_of_lt (h.snapshots f hf r hr)⟩
  · by_cases hp : p = point
    · subst hp
      simp only [HookRegistry.on, Function.update_self]
      refine List.pairwise_append.mpr
        ⟨h.sorted p, List.pairwise_singleton _ _, fun r hr r' hr' => ?_⟩
      rw [List.mem_singleton.mp hr']
      exact h.below p r hr
    · simpa [HookRegistry.on, Function.update_of_ne hp] using h.sorted p
  · by_cases hp : p = point
    · subst hp
      simp only [HookRegistry.on, Function.update_self, List.mem_append, List.mem_singleton] at hr
      rcases hr with hr | rfl
      · exact Nat.lt_succ_of_lt (h.below p r hr)
      · exact Nat.lt_succ_self _
    · simp only [HookRegistry.on, Function.update_of_ne hp] at hr
      exact Nat.lt_succ_of_lt (h.below p r hr)

theorem Sound.off [DecidableEq σ] (h : s.Sound) (point : HookPoint) (subscriber : σ) :
    (s.off point subscriber).Sound := by
  have hsub : ∀ p, ((s.off point subscriber).subs p).Sublist (s.subs p) := by
    intro p
    by_cases hp : p = point
    · subst hp
      simpa [HookRegistry.off] using List.eraseIdx_sublist _ _
    · simp [HookRegistry.off, Function.update_of_ne hp]
  exact ⟨fun p => (h.sorted p).sublist (hsub p), fun p r hr => h.below p r ((hsub p).mem hr),
    h.snapshots⟩

theorem Sound.step [DecidableEq σ] (h : s.Sound) {a : HookLabel σ β}
    (hstep : hookStep s a = some t) : t.Sound := by
  cases a with
  | on point subscriber => cases hstep; exact h.on point subscriber
  | off point subscriber => cases hstep; exact h.off point subscriber
  | fire point =>
    cases hstep
    refine ⟨h.sorted, h.below, fun f hf r hr => ?_⟩
    simp only [HookRegistry.fire, List.mem_append, List.mem_singleton] at hf
    rcases hf with hf | rfl
    · exact h.snapshots f hf r hr
    · rw [(Fire.advance_same _ _).2] at hr
      exact h.below point r hr
  | settles k outcome =>
    obtain ⟨f, hf, -, rfl⟩ := settles_inv hstep
    refine ⟨h.sorted, h.below, fun g hg r hr => ?_⟩
    rcases List.mem_or_eq_of_mem_set hg with hg | rfl
    · exact h.snapshots g hg r hr
    · rw [(Fire.settle_same f _ outcome).2] at hr
      exact h.snapshots f (List.mem_of_getElem? hf) r hr

/-- **What every step keeps, and the one that does not.** -/
theorem delivered_step [DecidableEq σ] (hs : s.Sound) (hd : s.Delivered) {a : HookLabel σ β}
    (hstep : hookStep s a = some t) : t.Delivered ↔ s.NoSkip a := by
  cases a with
  | on point subscriber =>
    cases hstep
    refine iff_of_true (fun f hf hp => ?_) trivial
    by_cases hpoint : f.point = point
    · subst hpoint
      simp only [HookRegistry.on, Function.update_self]
      refine Fire.delivered_on (fun hmem => ?_) (hd f hf hp)
      exact Nat.lt_irrefl _ (hs.snapshots f hf _ hmem)
    · simpa only [HookRegistry.on, Function.update_of_ne hpoint] using hd f hf hp
  | off point subscriber =>
    cases hstep
    have hoff : ∀ f ∈ s.fires, isBeforeHookPoint f.point = false →
        (f.Delivered ((s.off point subscriber).subs f.point) ↔
          (f.point = point → ¬ f.Skips (s.subs point) (s.indexOf point subscriber))) := by
      intro f hf hp
      by_cases hpoint : f.point = point
      · subst hpoint
        simp only [HookRegistry.off, Function.update_self, true_implies]
        exact Fire.delivered_off (hs.nodup f.point) (hd f hf hp)
      · simpa only [HookRegistry.off, Function.update_of_ne hpoint, hpoint, false_implies,
          iff_true] using hd f hf hp
    exact forall₃_congr hoff
  | fire point =>
    cases hstep
    refine iff_of_true (fun f hf hp => ?_) trivial
    simp only [HookRegistry.fire, List.mem_append, List.mem_singleton] at hf
    rcases hf with hf | rfl
    · exact hd f hf hp
    · let f : Fire σ β := { point := point, snapshot := s.subs point }
      obtain ⟨hpoint, hsnap⟩ := f.advance_same (s.subs point)
      obtain ⟨hreg, hcalls⟩ := Fire.advance_calls (f := f) (s.subs point) rfl
      change (f.advance (s.subs point)).Delivered (s.subs (f.advance (s.subs point)).point)
      rw [hpoint]
      exact (Fire.delivered_congr hsnap hreg hcalls).mpr
        (Fire.delivered_start point (hs.sorted point))
  | settles k outcome =>
    obtain ⟨f, hf, hrun, rfl⟩ := settles_inv hstep
    refine iff_of_true (fun g hg hp => ?_) trivial
    rcases List.mem_or_eq_of_mem_set hg with hg | rfl
    · exact hd g hg hp
    · rw [(Fire.settle_same f _ outcome).1] at hp ⊢
      obtain ⟨hreg, hcalls⟩ := Fire.settle_calls hrun hp outcome
      have hsnap := (f.settle_same (s.subs f.point) outcome).2
      exact (Fire.delivered_congr hsnap hreg hcalls).mpr (hd f (List.mem_of_getElem? hf) hp)

end HookRegistry

variable [DecidableEq σ]

/-- **Hook delivery.**  In exactly the runs in which no `off` skips a subscriber of a running fire,
each step leaves every fire of an after-point with what it owes: who is subscribed from before it
until after it is called exactly once, in the order of the registrations. -/
theorem delivered_iff (as : List (HookLabel σ β)) (t : HookRegistry σ β) :
    Run hookStep (Leads hookStep fun _ u => u.Delivered) {} as t ↔
      Run hookStep HookRegistry.NoSkip {} as t := by
  refine Run.leads_iff (P := fun u => u.Sound ∧ u.Delivered)
    ⟨⟨fun _ => .nil, fun _ _ h => (nomatch h), fun _ h => (nomatch h)⟩, fun _ h => (nomatch h)⟩ ?_
  rintro u a u' ⟨hs, hd⟩ hstep
  exact ⟨HookRegistry.delivered_step hs hd hstep, fun hd' => ⟨hs.step hstep, hd'⟩⟩

/-- Of two subscribers, the first unsubscribes while the fire awaits it: the second is subscribed
from before the fire until after it, and is not called. -/
theorem second_skipped : ∃ t : HookRegistry String Nat,
    Run hookStep Any {} [.on .eventAfter "a", .on .eventAfter "b", .fire .eventAfter,
      .off .eventAfter "a", .settles 0 (.returns none)] t ∧
    ∃ f ∈ t.fires, f.point = .eventAfter ∧ f.status = .resolved ∧
      ∃ r ∈ f.snapshot, r ∈ f.remaining ∧ r ∉ f.called := by
  refine ⟨_, .any_of_exec rfl, _, List.mem_singleton_self _, rfl, rfl, ⟨1, "b"⟩, ?_⟩
  decide

end Declaragent.Hooks
