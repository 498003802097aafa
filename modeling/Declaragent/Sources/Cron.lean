import Declaragent.Library.Transition
import Declaragent.Sources.CronSchedule

/-!
# Sources — the next time of a schedule

The next time of a cron expression is looked for minute by minute on the local clock, which is
ahead of the time by the offset of the zone; the minute that is found is taken back by the offset
at about that time.  A zone is any function from times to offsets, in minutes.

* `nextCronFire_eq`: which time is found, and `nextCronFire_least` in a zone of one offset.
* `progresses_iff`: it lies ahead, unless the clock jumps past the minute that is looked for.
* `ticks_increase`: the loop that waits for it, again and again, then fires no tick twice.
-/

namespace Declaragent.Sources.Cron
open Transition

def matchesDay (fields : CronFields) (dom dow : Int) : Bool :=
  if fields.hasDomRestriction && fields.hasDowRestriction then
    .number dom ∈ fields.dayOfMonth || .number dow ∈ fields.dayOfWeek
  else if fields.hasDomRestriction then .number dom ∈ fields.dayOfMonth
  else if fields.hasDowRestriction then .number dow ∈ fields.dayOfWeek
  else true

/-- The minute of the local clock matches; one that is too far away has no fields. -/
def matchesAt (fields : CronFields) (localMs : Int) : Bool :=
  match dateFields localMs with
  | none => false
  | some d =>
    .number d.minute ∈ fields.minute && .number d.hour ∈ fields.hour &&
      .number d.month ∈ fields.month && matchesDay fields d.dayOfMonth d.dayOfWeek

def MAX_ITER : Nat := 4 * 366 * 24 * 60

/-- The next whole minute, where the remainder has the sign of the time. -/
def firstMinute (localMs : Int) : Int := localMs - localMs.tmod 60000 + 60000

def search (fields : CronFields) : Nat → Int → Option Int
  | 0, _ => none
  | n + 1, localMs =>
    if matchesAt fields localMs then some localMs else search fields n (localMs + 60000)

section
variable (schedule : String) (offset : Int → Int)

def nextCronFire (fields : CronFields) (afterMs : Int) : Except CronError Int :=
  let startOffsetMin := offset afterMs
  match search fields MAX_ITER (firstMinute (afterMs + startOffsetMin * 60000)) with
  | some localMs => .ok (localMs - offset (localMs - startOffsetMin * 60000) * 60000)
  | none => .error (.thrown "cron: no next fire found within 4 years")

def computeNextFire (afterMs : Int) : Except CronError Int :=
  if isDuration schedule then
    match parseDuration schedule with
    | .ok ms => .ok (afterMs + ms)
    | .error err => .error err
  else
    match parseCron schedule with
    | .ok fields => nextCronFire offset fields afterMs
    | .error err => .error err

/-- The next time lies ahead. -/
def Progresses (t : Int) : Prop := ∀ next, computeNextFire schedule offset t = .ok next → t < next

end

/-- The first minute of the local clock that matches. -/
structure FirstMatch (fields : CronFields) (localMs m : Int) : Prop where
  start : firstMinute localMs ≤ m
  soon : m < firstMinute localMs + MAX_ITER * 60000
  whole : 60000 ∣ m
  matching : matchesAt fields m = true
  first : ∀ m', firstMinute localMs ≤ m' → m' < m → 60000 ∣ m' → matchesAt fields m' = false

/-- The clock does not jump past the minute that is looked for: by then the offset has not grown
by as much as there is to wait. -/
def InStep (schedule : String) (offset : Int → Int) (t : Int) : Prop :=
  isDuration schedule = true ∨
    ∀ fields m, parseCron schedule = .ok fields → FirstMatch fields (t + offset t * 60000) m →
      (offset (m - offset t * 60000) - offset t) * 60000 < m - (t + offset t * 60000)

/-! ### What is found -/

variable {schedule : String} {offset : Int → Int} {fields : CronFields} {t m localMs : Int}

theorem later (localMs : Int) (k : Nat) :
    localMs + ((k + 1 : Nat) : Int) * 60000 = localMs + 60000 + k * 60000 := by
  push_cast
  ring

theorem search_eq_some {n : Nat} :
    search fields n localMs = some m ↔
      ∃ k : Nat, k < n ∧ m = localMs + k * 60000 ∧ matchesAt fields m = true ∧
        ∀ j : Nat, j < k → matchesAt fields (localMs + j * 60000) = false := by
  induction n generalizing localMs with
  | zero =>
    constructor
    · intro h
      cases h
    · rintro ⟨k, hk, -⟩
      exact absurd hk (Nat.not_lt_zero k)
  | succ n ih =>
    rw [search]
    cases hmatch : matchesAt fields localMs with
    | true =>
      rw [if_pos rfl]
      constructor
      · intro h
        obtain rfl := Option.some.inj h
        exact ⟨0, Nat.zero_lt_succ n, by omega, hmatch,
          fun j hj => absurd hj (Nat.not_lt_zero j)⟩
      · rintro ⟨k, -, rfl, -, hfirst⟩
        cases k with
        | zero => simp
        | succ k =>
          have hzero := hfirst 0 (Nat.zero_lt_succ k)
          rw [Nat.cast_zero, zero_mul, add_zero, hmatch] at hzero
          cases hzero
    | false =>
      rw [if_neg Bool.false_ne_true, ih]
      constructor
      · rintro ⟨k, hk, rfl, hfound, hfirst⟩
        refine ⟨k + 1, by omega, (later localMs k).symm, hfound, fun j hj => ?_⟩
        cases j with
        | zero => simpa using hmatch
        | succ j =>
          have hj' := hfirst j (by omega)
          rwa [later]
      · rintro ⟨k, hk, rfl, hfound, hfirst⟩
        cases k with
        | zero =>
          rw [Nat.cast_zero, zero_mul, add_zero, hmatch] at hfound
          cases hfound
        | succ k =>
          refine ⟨k, by omega, later localMs k, hfound, fun j hj => ?_⟩
          have hj' := hfirst (j + 1) (by omega)
          rwa [later] at hj'

theorem firstMinute_spec (localMs : Int) :
    60000 ∣ firstMinute localMs ∧ localMs < firstMinute localMs := by
  have hdivides : (60000 : Int) ∣ localMs - localMs.tmod 60000 := Int.dvd_self_sub_tmod
  have hbelow : localMs.tmod 60000 < 60000 := Int.tmod_lt_of_pos localMs (by decide)
  exact ⟨Int.dvd_add hdivides (Int.dvd_refl _), by rw [firstMinute]; omega⟩

/-- The search finds the first minute that matches. -/
theorem search_firstMinute :
    search fields MAX_ITER (firstMinute localMs) = some m ↔ FirstMatch fields localMs m := by
  obtain ⟨hdivides, -⟩ := firstMinute_spec localMs
  rw [search_eq_some]
  constructor
  · rintro ⟨k, hk, rfl, hmatch, hfirst⟩
    refine ⟨by omega, by omega, by omega, hmatch, fun m' hstart hm' hwhole => ?_⟩
    obtain ⟨j, hj⟩ : ∃ j : Nat, m' = firstMinute localMs + j * 60000 :=
      ⟨((m' - firstMinute localMs) / 60000).toNat, by omega⟩
    rw [hj]
    exact hfirst j (by omega)
  · intro h
    have hstart := h.start
    have hsoon := h.soon
    have hwhole := h.whole
    obtain ⟨k, rfl⟩ : ∃ k : Nat, m = firstMinute localMs + k * 60000 :=
      ⟨((m - firstMinute localMs) / 60000).toNat, by omega⟩
    exact ⟨k, by omega, rfl, h.matching, fun j hj => h.first _ (by omega) (by omega) (by omega)⟩

theorem nextCronFire_eq {next : Int} :
    nextCronFire offset fields t = .ok next ↔
      ∃ m, FirstMatch fields (t + offset t * 60000) m ∧
        next = m - offset (m - offset t * 60000) * 60000 := by
  unfold nextCronFire
  dsimp only
  cases hsearch : search fields MAX_ITER (firstMinute (t + offset t * 60000)) with
  | none =>
    constructor
    · intro h
      cases h
    · rintro ⟨m, hm, -⟩
      rw [search_firstMinute.mpr hm] at hsearch
      cases hsearch
  | some found =>
    constructor
    · intro h
      exact ⟨found, search_firstMinute.mp hsearch, (Except.ok.inj h).symm⟩
    · rintro ⟨m, hm, rfl⟩
      rw [search_firstMinute.mpr hm] at hsearch
      rw [Option.some.inj hsearch]

/-! ### A zone of one offset -/

/-- The times ahead at which the clock shows a whole minute that matches. -/
def Fires (fields : CronFields) (o t : Int) : Set Int :=
  {u | t < u ∧ 60000 ∣ u ∧ matchesAt fields (u + o * 60000) = true}

/-- **The next time is the least one** of the four years ahead, and there is none only if no time
of theirs matches.  Before 1970 the first minute is passed over. -/
theorem nextCronFire_least (fields : CronFields) {o t : Int} (h : 0 ≤ t + o * 60000) :
    (∀ next, nextCronFire (fun _ => o) fields t = .ok next ↔
      IsLeast (Fires fields o t) next ∧ next ≤ t + MAX_ITER * 60000) ∧
    ((∃ err, nextCronFire (fun _ => o) fields t = .error err) ↔
      ∀ u ∈ Fires fields o t, t + MAX_ITER * 60000 < u) := by
  have hfirst : firstMinute (t + o * 60000) =
      t + o * 60000 - (t + o * 60000) % 60000 + 60000 := by
    rw [firstMinute, Int.tmod_eq_emod_of_nonneg h]
  have hok (next : Int) : nextCronFire (fun _ => o) fields t = .ok next ↔
      IsLeast (Fires fields o t) next ∧ next ≤ t + MAX_ITER * 60000 := by
    rw [nextCronFire_eq]
    constructor
    · rintro ⟨m, ⟨hstart, hsoon, hwhole, hmatch, hleast⟩, rfl⟩
      refine ⟨⟨⟨by omega, by omega, ?_⟩, fun u ⟨hlt, hdvd, hu⟩ => ?_⟩, by omega⟩
      · rwa [Int.sub_add_cancel]
      · by_contra hbefore
        rw [hleast _ (by omega) (by omega) (by omega)] at hu
        cases hu
    · rintro ⟨⟨⟨hlt, hdvd, hmatch⟩, hleast⟩, hsoon⟩
      refine ⟨next + o * 60000, ⟨by omega, by omega, by omega, hmatch,
        fun m' hstart hm' hwhole => Bool.eq_false_iff.mpr fun hmatch' => ?_⟩, by omega⟩
      have hle : next ≤ m' - o * 60000 :=
        hleast ⟨by omega, by omega, by rwa [Int.sub_add_cancel]⟩
      omega
  refine ⟨hok, fun ⟨err, herr⟩ u hu => ?_, fun hnone => ?_⟩
  · by_contra hsoon
    obtain ⟨next, hnext, hleast⟩ := Int.exists_least_of_bdd ⟨t, fun v hv => hv.1.le⟩ ⟨u, hu⟩
    have hfound := (hok next).mpr ⟨⟨hnext, fun v => hleast v⟩, (hleast u hu).trans (not_lt.mp hsoon)⟩
    rw [herr] at hfound
    cases hfound
  · cases hnext : nextCronFire (fun _ => o) fields t with
    | error err => exact ⟨err, rfl⟩
    | ok next =>
      obtain ⟨hleast, hsoon⟩ := (hok next).mp hnext
      exact absurd (hnone next hleast.1) (not_lt.mpr hsoon)

/-- At every full hour. -/
theorem nextCronFire_least_hourly :
    IsLeast (Fires ⟨[.number 0], stepsFrom 0 23 1, [], stepsFrom 1 12 1, [], false, false⟩ 60 1)
      3600000 :=
  (((nextCronFire_least _ (by decide)).1 _).mp (by decide +kernel)).1

/-! ### Progress -/

/-- A duration that is accepted is not empty. -/
theorem parseDuration_pos {ms : Int} (h : parseDuration schedule = .ok ms) : 0 < ms := by
  unfold parseDuration at h
  dsimp only at h
  split at h
  · cases h
  · split at h
    · cases h
    · rename_i hms
      rw [← Except.ok.inj h]
      omega

theorem progresses_iff : Progresses schedule offset t ↔ InStep schedule offset t := by
  unfold Progresses computeNextFire InStep
  cases hduration : isDuration schedule with
  | true =>
    refine iff_of_true (fun next hnext => ?_) (.inl rfl)
    rw [if_pos rfl] at hnext
    cases hms : parseDuration schedule with
    | error err =>
      rw [hms] at hnext
      cases hnext
    | ok ms =>
      rw [hms] at hnext
      have hpos := parseDuration_pos hms
      have hnext' := Except.ok.inj hnext
      omega
  | false =>
    simp only [Bool.false_eq_true, if_false, false_or]
    cases hparse : parseCron schedule with
    | error err =>
      refine iff_of_true (fun next hnext => ?_) (fun fields m hfields => ?_)
      · cases hnext
      · cases hfields
    | ok fields =>
      constructor
      · intro h fields' m hfields hm
        obtain rfl := Except.ok.inj hfields
        have hlt := h _ (nextCronFire_eq.mpr ⟨m, hm, rfl⟩)
        omega
      · intro h next hnext
        obtain ⟨m, hm, rfl⟩ := nextCronFire_eq.mp hnext
        have hlt := h fields m rfl hm
        omega

/-! ### The loop -/

/-- When the next time was computed, and that time; and the times that were waited for. -/
structure Loop where
  timer : Option (Int × Int) := none
  ticks : List Int := []

/-- `Math.max(0, nextMs - afterMs)` after the time was computed. -/
def due (timer : Int × Int) : Int := timer.1 + max 0 (timer.2 - timer.1)

def scheduleNext (schedule : String) (offset : Int → Int) (s : Loop) (now : Int) : Option Loop :=
  match computeNextFire schedule offset now with
  | .ok nextMs => some { s with timer := some (now, nextMs) }
  | .error _ => none

/-- The loop starts, or its timer has fired and the next time is computed; an error ends it. -/
def loopStep (schedule : String) (offset : Int → Int) (s : Loop) (now : Int) : Option Loop :=
  match s.timer with
  | none => scheduleNext schedule offset s now
  | some timer =>
    if due timer ≤ now then
      scheduleNext schedule offset { s with ticks := s.ticks ++ [timer.2] } now
    else none

/-- The ticks were in order, and the next one comes after them. -/
structure InOrder (s : Loop) : Prop where
  ticks : s.ticks.Pairwise (· < ·)
  idle : s.timer = none → s.ticks = []
  ahead : ∀ timer, s.timer = some timer → timer.1 < timer.2 ∧ ∀ tick ∈ s.ticks, tick < timer.2

theorem scheduleNext_inOrder {s s' : Loop} {now : Int} (hticks : s.ticks.Pairwise (· < ·))
    (hpast : ∀ tick ∈ s.ticks, tick ≤ now) (hstep : InStep schedule offset now)
    (h : scheduleNext schedule offset s now = some s') : InOrder s' := by
  rw [scheduleNext] at h
  cases hnext : computeNextFire schedule offset now with
  | error err =>
    rw [hnext] at h
    cases h
  | ok next =>
    rw [hnext] at h
    obtain rfl := Option.some.inj h
    have hlt := progresses_iff.mpr hstep next hnext
    refine ⟨hticks, fun idle => (by cases idle), fun timer htimer => ?_⟩
    obtain rfl := Option.some.inj htimer
    exact ⟨hlt, fun tick htick => lt_of_le_of_lt (hpast tick htick) hlt⟩

theorem InOrder.step {s s' : Loop} {now : Int} (hs : InOrder s)
    (hstep : InStep schedule offset now) (h : loopStep schedule offset s now = some s') :
    InOrder s' := by
  rw [loopStep] at h
  cases htimer : s.timer with
  | none =>
    rw [htimer] at h
    refine scheduleNext_inOrder hs.ticks ?_ hstep h
    rw [hs.idle htimer]
    intro tick htick
    cases htick
  | some timer =>
    rw [htimer] at h
    dsimp only at h
    obtain ⟨hahead, hbefore⟩ := hs.ahead timer htimer
    by_cases hdue : due timer ≤ now
    · rw [if_pos hdue] at h
      rw [due] at hdue
      refine scheduleNext_inOrder ?_ ?_ hstep h
      · refine List.pairwise_append.mpr ⟨hs.ticks, List.pairwise_singleton _ _, ?_⟩
        intro tick htick next hnext
        rw [List.mem_singleton.mp hnext]
        exact hbefore tick htick
      · intro tick htick
        rcases List.mem_append.mp htick with htick | htick
        · have hlt := hbefore tick htick
          omega
        · rw [List.mem_singleton.mp htick]
          omega
    · rw [if_neg hdue] at h
      cases h

/-- **No tick is fired twice** where the clock does not jump past the minutes looked for. -/
theorem ticks_increase {nows : List Int} {s : Loop}
    (r : Run (loopStep schedule offset) (fun _ now => InStep schedule offset now) {} nows s) :
    s.ticks.Pairwise (· < ·) := by
  have hinit : InOrder {} :=
    ⟨List.Pairwise.nil, fun _ => rfl, fun timer htimer => (by cases htimer)⟩
  exact (r.invariant hinit fun t now t' ht hstep h => ht.step hstep h).ticks

/-- **When the next time lies ahead**, and the loop that waits for it makes progress. -/
theorem cron_progress (schedule : String) (offset : Int → Int) :
    (∀ t, Progresses schedule offset t ↔ InStep schedule offset t) ∧
      ∀ nows s, Run (loopStep schedule offset) (fun _ now => InStep schedule offset now) {} nows s →
        s.ticks.Pairwise (· < ·) :=
  ⟨fun _ => progresses_iff, fun _ _ r => ticks_increase r⟩

/-! ### A clock that jumps -/

/-- The offset changes at some times only. -/
def PiecewiseConstant (offset : Int → Int) : Prop :=
  ∃ jumps : List Int, ∀ u v, (∀ j ∈ jumps, u < j ↔ v < j) → offset u = offset v

/-- At two in the morning the clock is put forward to three. -/
def springForward (utcMs : Int) : Int := if utcMs < 36000000 then -480 else -420

theorem piecewiseConstant_springForward : PiecewiseConstant springForward := by
  refine ⟨[36000000], fun u v h => ?_⟩
  have hjump := h 36000000 (List.mem_singleton_self _)
  unfold springForward
  by_cases hu : u < 36000000
  · rw [if_pos hu, if_pos (hjump.mp hu)]
  · rw [if_neg hu, if_neg fun hv => hu (hjump.mpr hv)]

/-- At a quarter to two, the next quarter of an hour is one that the clock does not show. -/
theorem spring_forward_repeats :
    ¬ ∀ schedule offset, PiecewiseConstant offset → ∀ t, Progresses schedule offset t := by
  intro h
  have hnext : computeNextFire "*/15 * * * *" springForward 35100000 = .ok 32400000 := by
    decide +kernel
  have hlt := h "*/15 * * * *" springForward piecewiseConstant_springForward 35100000 _ hnext
  omega

end Declaragent.Sources.Cron
