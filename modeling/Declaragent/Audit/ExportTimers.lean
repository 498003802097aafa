import Declaragent.Audit.ExportLoop
import Declaragent.Library.AtMostOne

/-!
# Audit — the timers of the export loop

A tick sets the next timer when it ends, whatever had started it: the last timer, `flushNow`, or a
`resume`.  The loop remembers only the timer that was set last.

* `LoopInv`: what holds of a loop while it has at most one timer.
* `ChainStep`: what a step has to meet for the exporter to be left with one chain of timers.
* `singleChain_iff`: in which runs an exporter never has two timers or two pushes.
-/

namespace Declaragent.Audit
open JsonText Transition

variable {κ : Type}

/-! ### What is asked of the timers -/

def Tick.isPushing : Tick → Bool
  | .pushing _ => true
  | .reading _ | .querying _ | .writing => false

def ExportLoop.pushing (l : ExportLoop) : Nat := l.ticks.countP Tick.isPushing

/-- Over all loops of an exporter there is at most one timer and at most one push, and a loop whose
`stop` has returned has no timer. -/
structure SingleChain (opts : κ → AuditExportLoopOptions) (s : ExportSystem κ) : Prop where
  timer : AtMostOne (fun k => (opts k).exporter) fun k => (s.loops k).timers.length
  push : AtMostOne (fun k => (opts k).exporter) fun k => (s.loops k).pushing
  released : ∀ k, (s.loops k).resolved = true → (s.loops k).timers = []

/-- The step leaves each exporter with a single chain. -/
def KeepsChain [DecidableEq κ] (opts : κ → AuditExportLoopOptions) (s : ExportSystem κ)
    (a : ExportLabel κ) : Prop :=
  ∀ t, exportStep opts s a = some t → SingleChain opts t

/-- No other loop of the exporter has a timer. -/
def Alone (opts : κ → AuditExportLoopOptions) (s : ExportSystem κ) (k : κ) : Prop :=
  ∀ k', k' ≠ k → (opts k').exporter = (opts k).exporter → (s.loops k').timers = []

/-- The loop may set a timer: it is stopped and will not, or the exporter has none. -/
def Free (opts : κ → AuditExportLoopOptions) (s : ExportSystem κ) (k : κ) : Prop :=
  (s.loops k).stopped = false → (s.loops k).timers = [] ∧ Alone opts s k

/-- No other loop of the exporter has a push in flight. -/
def PushesAlone (opts : κ → AuditExportLoopOptions) (s : ExportSystem κ) (k : κ) : Prop :=
  ∀ k', k' ≠ k → (opts k').exporter = (opts k).exporter → (s.loops k').pushing = 0

/-- A tick that ends finds no timer of its exporter; a loop that is resumed, none of another loop;
and a tick that has rows to push, no other push. -/
def Apart (opts : κ → AuditExportLoopOptions) (s : ExportSystem κ) (k : κ) : LoopLabel → Prop
  | .fires _ | .stops | .stopResolves | .queries _ | .crashes => True
  | .flushes => (s.loops k).ticking = false → (s.loops k).paused = true → Free opts s k
  | .resumes => (s.loops k).stopped = false → Alone opts s k
  | .pushes n =>
    match (s.loops k).ticks[n]? with
    | some (.querying []) => Free opts s k
    | _ => PushesAlone opts s k
  | .settles n outcome _ => ∀ entries, (s.loops k).ticks[n]? = some (.pushing entries) →
      (∀ acked, outcome = .ok acked → min acked entries.length ≤ 0) → Free opts s k
  | .writeThrows _ _ | .written _ | .sinkThrows _ => Free opts s k

/-- The same for every step, and no loop is started while another one of its exporter has a
timer. -/
def OneChain (opts : κ → AuditExportLoopOptions) (s : ExportSystem κ) : ExportLabel κ → Prop
  | .records _ | .scrubs _ _ _ => True
  | .starts k => Alone opts s k
  | .acts k a => Apart opts s k a

/-! ### What holds of one loop -/

/-- What holds of a loop while it has at most one timer. -/
structure LoopInv (l : ExportLoop) : Prop where
  tracked : ∀ t ∈ l.timers, l.timer = some t
  short : l.timers.length ≤ 1
  stopped : l.stopped = true → l.timers = []
  resolved : l.resolved = true → l.stopped = true
  ticks : l.ticks.length ≤ 1
  ticking : l.ticking = false → l.ticks = []

section
variable {l : ExportLoop} {n : Nat} {tick : Tick}

theorem LoopInv.start : LoopInv { life := .running } :=
  ⟨nofun, Nat.zero_le _, nofun, nofun, Nat.zero_le _, fun _ => rfl⟩

theorem LoopInv.gone : LoopInv { life := .gone } :=
  ⟨nofun, Nat.zero_le _, nofun, nofun, Nat.zero_le _, fun _ => rfl⟩

theorem LoopInv.scheduleNext (h : LoopInv l) (hfree : l.stopped = false → l.timers = []) :
    LoopInv l.scheduleNext := by
  unfold ExportLoop.scheduleNext
  split
  · exact h
  · rename_i hstopped
    have hnone := hfree (by simpa using hstopped)
    refine ⟨fun t ht => ?_, ?_, fun e => absurd e hstopped, h.resolved, h.ticks, h.ticking⟩
    · simp only [hnone, List.nil_append, List.mem_singleton] at ht
      rw [ht]
    · simp [hnone]

theorem LoopInv.clearTimer (h : LoopInv l) : l.clearTimer.timers = [] := by
  refine List.filter_eq_nil_iff.mpr fun t ht => ?_
  simp [h.tracked t ht]

theorem LoopInv.fired (h : LoopInv l) {t : Nat} (ht : t ∈ l.timers) :
    l.timers.erase t = [] := by
  have hlength := List.length_erase_of_mem ht
  have hshort := h.short
  exact List.length_eq_zero_iff.mp (by omega)

/-- There is one tick in progress at most. -/
theorem LoopInv.tick_eq (h : LoopInv l) (htick : l.ticks[n]? = some tick) :
    n = 0 ∧ l.ticks = [tick] := by
  obtain ⟨hlt, hget⟩ := List.getElem?_eq_some_iff.mp htick
  have hshort := h.ticks
  obtain ⟨first, hone⟩ := List.length_eq_one_iff.mp (by omega : l.ticks.length = 1)
  have hzero : n = 0 := by omega
  subst hzero
  rw [hone] at htick
  cases htick
  exact ⟨rfl, hone⟩

/-- The tick has ended. -/
theorem LoopInv.ended (h : LoopInv l) (htick : l.ticks[n]? = some tick) (failures : Nat)
    (paused : Bool) :
    LoopInv { l with
      consecutiveFailures := failures, paused := paused, ticking := false,
      ticks := l.ticks.eraseIdx n } := by
  obtain ⟨rfl, hone⟩ := h.tick_eq htick
  refine ⟨h.tracked, h.short, h.stopped, h.resolved, ?_, fun _ => ?_⟩
  · simp [hone]
  · simp [hone]

theorem LoopInv.setTick (h : LoopInv l) (htick : l.ticks[n]? = some tick) (tick' : Tick) :
    LoopInv (l.setTick n tick') ∧ (l.setTick n tick').pushing = [tick'].countP Tick.isPushing := by
  obtain ⟨rfl, hone⟩ := h.tick_eq htick
  have hset : (l.setTick 0 tick').ticks = [tick'] := by
    rw [ExportLoop.setTick, hone]
    rfl
  refine ⟨⟨h.tracked, h.short, h.stopped, h.resolved, ?_, fun hticking => ?_⟩, ?_⟩
  · rw [hset]
    exact le_rfl
  · rw [h.ticking hticking] at hone
    cases hone
  · rw [ExportLoop.pushing, hset]

end

/-! ### What a step has to meet -/

section
variable {opts : κ → AuditExportLoopOptions} {s t : ExportSystem κ} {k : κ} {l : ExportLoop}

structure ChainInv (opts : κ → AuditExportLoopOptions) (s : ExportSystem κ) : Prop where
  loop : ∀ k, LoopInv (s.loops k)
  single : SingleChain opts s

variable [DecidableEq κ]

/-- With `l` for the loop of `k`, a single chain is left exactly if `cond` holds. -/
structure ChainStep (opts : κ → AuditExportLoopOptions) (s : ExportSystem κ) (k : κ)
    (l : ExportLoop) (cond : Prop) : Prop where
  loop : cond → LoopInv l
  single : SingleChain opts (s.setLoop k l) ↔ cond

theorem ChainStep.imp {cond cond' : Prop} (h : ChainStep opts s k l cond) (e : cond ↔ cond') :
    ChainStep opts s k l cond' :=
  ⟨fun hc => h.loop (e.mpr hc), h.single.trans e⟩

theorem count_setLoop (count : ExportLoop → Nat) (s : ExportSystem κ) (k : κ) (l : ExportLoop) :
    (fun k' => count ((s.setLoop k l).loops k')) =
      Function.update (fun k' => count (s.loops k')) k (count l) :=
  Function.comp_update count s.loops k l

/-- A single chain, count by count. -/
theorem singleChain_setLoop_iff (h : ChainInv opts s)
    (hresolved : l.resolved = true → l.timers = []) :
    SingleChain opts (s.setLoop k l) ↔
      AtMostOne (fun k' => (opts k').exporter)
        (Function.update (fun k' => (s.loops k').timers.length) k l.timers.length) ∧
      AtMostOne (fun k' => (opts k').exporter)
        (Function.update (fun k' => (s.loops k').pushing) k l.pushing) := by
  constructor
  · rintro ⟨htimer, hpush, -⟩
    rw [count_setLoop (·.timers.length)] at htimer
    rw [count_setLoop ExportLoop.pushing] at hpush
    exact ⟨htimer, hpush⟩
  · rintro ⟨htimer, hpush⟩
    rw [← count_setLoop (·.timers.length)] at htimer
    rw [← count_setLoop ExportLoop.pushing] at hpush
    refine ⟨htimer, hpush, fun k' hres => ?_⟩
    by_cases e : k' = k
    · subst e
      simp only [ExportSystem.setLoop, Function.update_self] at hres ⊢
      exact hresolved hres
    · simp only [ExportSystem.setLoop, Function.update_of_ne e] at hres ⊢
      exact h.single.released k' hres

theorem LoopInv.released (h : LoopInv l) (hres : l.resolved = true) : l.timers = [] :=
  h.stopped (h.resolved hres)

/-- A step that sets no timer and starts no push. -/
theorem ChainInv.calm (h : ChainInv opts s) (hl : LoopInv l)
    (htimers : l.timers.length ≤ (s.loops k).timers.length)
    (hpushing : l.pushing ≤ (s.loops k).pushing) : ChainStep opts s k l True where
  loop _ := hl
  single := by
    refine iff_of_true ?_ trivial
    exact (singleChain_setLoop_iff h hl.released).mpr
      ⟨h.single.timer.update htimers, h.single.push.update hpushing⟩

/-- A step that sets a timer. -/
theorem ChainInv.arm (h : ChainInv opts s) (hl : LoopInv l)
    (hpushing : l.pushing ≤ (s.loops k).pushing) :
    ChainStep opts s k l.scheduleNext (l.stopped = false → l.timers = [] ∧ Alone opts s k) := by
  have hpush : l.scheduleNext.pushing = l.pushing := by
    rw [ExportLoop.pushing, ExportLoop.scheduleNext_ticks, ExportLoop.pushing]
  cases hstopped : l.stopped with
  | true =>
    have hsame : l.scheduleNext = l := by rw [ExportLoop.scheduleNext, if_pos hstopped]
    rw [hsame]
    refine (h.calm hl ?_ hpushing).imp ⟨fun _ => nofun, fun _ => trivial⟩
    rw [hl.stopped hstopped]
    exact Nat.zero_le _
  | false =>
    have hlength : l.scheduleNext.timers.length = l.timers.length + 1 := by
      rw [ExportLoop.scheduleNext, if_neg (by simp [hstopped]), List.length_append]
      rfl
    have hres : l.scheduleNext.resolved = true → l.scheduleNext.timers = [] := by
      rw [ExportLoop.scheduleNext, if_neg (by simp [hstopped])]
      intro hresolved
      exact absurd ((hl.resolved hresolved).symm.trans hstopped) (by decide)
    refine ⟨fun hfree => hl.scheduleNext fun _ => (hfree rfl).1, ?_⟩
    rw [singleChain_setLoop_iff h hres, hpush, hlength, h.single.timer.update_iff]
    constructor
    · rintro ⟨⟨hle, hothers⟩, -⟩ -
      refine ⟨List.length_eq_zero_iff.mp (by omega), fun k' hk' hsame => ?_⟩
      exact List.length_eq_zero_iff.mp (hothers (by omega) k' hk' hsame)
    · intro hfree
      obtain ⟨hnone, halone⟩ := hfree rfl
      refine ⟨⟨by simp [hnone], fun _ k' hk' hsame => ?_⟩, h.single.push.update hpushing⟩
      simp [halone k' hk' hsame]

/-- A step that starts a push. -/
theorem ChainInv.push (h : ChainInv opts s) (hl : LoopInv l)
    (htimers : l.timers = (s.loops k).timers) (hpushing : l.pushing = 1) :
    ChainStep opts s k l (PushesAlone opts s k) where
  loop _ := hl
  single := by
    rw [singleChain_setLoop_iff h hl.released, hpushing, h.single.push.update_iff]
    constructor
    · rintro ⟨-, -, hothers⟩
      exact hothers (by decide)
    · intro halone
      exact ⟨h.single.timer.update (by rw [htimers]), le_rfl, fun _ => halone⟩

/-- A tick ends. -/
theorem ChainInv.ends (h : ChainInv opts s) {n : Nat} {tick : Tick}
    (htick : (s.loops k).ticks[n]? = some tick) (failures : Nat) (paused : Bool) :
    ChainStep opts s k
      (ExportLoop.endTick { s.loops k with consecutiveFailures := failures, paused := paused } n)
      (Free opts s k) := by
  refine h.arm ((h.loop k).ended htick failures paused) ?_
  obtain ⟨rfl, hone⟩ := (h.loop k).tick_eq htick
  simp [ExportLoop.pushing, hone]

/-- `runTick` on a loop that differs from that of `k` in its timers at most. -/
theorem ChainInv.runTick (h : ChainInv opts s) (hl : LoopInv l)
    (htimers : l.timers.length ≤ (s.loops k).timers.length)
    (hticks : l.ticks = (s.loops k).ticks) (cursor : Option ExportCursor) :
    ChainStep opts s k (l.runTick cursor) (l.ticking = false → l.paused = true →
      l.stopped = false → l.timers = [] ∧ Alone opts s k) := by
  have hpushing : l.pushing ≤ (s.loops k).pushing := by
    rw [ExportLoop.pushing, hticks, ExportLoop.pushing]
  unfold ExportLoop.runTick
  split
  · rename_i hbusy
    refine (h.calm hl htimers hpushing).imp ⟨fun _ hticking _ hstopped => ?_, fun _ => trivial⟩
    simp [hticking, hstopped] at hbusy
  · rename_i hbusy
    simp only [Bool.or_eq_true, not_or, Bool.not_eq_true] at hbusy
    split
    · rename_i hpaused
      exact (h.arm hl hpushing).imp ⟨fun hfree _ _ => hfree, fun hfree => hfree hbusy.2 hpaused⟩
    · rename_i hpaused
      have hnone := hl.ticking hbusy.2
      have hl' : LoopInv { l with ticking := true, ticks := l.ticks ++ [.reading cursor] } :=
        ⟨hl.tracked, hl.short, hl.stopped, hl.resolved, by simp [hnone], nofun⟩
      refine (h.calm hl' htimers ?_).imp ⟨fun _ _ e => absurd e hpaused, fun _ => trivial⟩
      simp [ExportLoop.pushing, hnone, Tick.isPushing]

theorem ChainInv.settle (h : ChainInv opts s) {n : Nat} {entries : List AuditExportEntry}
    (htick : (s.loops k).ticks[n]? = some (.pushing entries)) (outcome : PushOutcome) (now : Int) :
    ∃ l, (s.settle (opts k) k n entries now outcome).loops = Function.update s.loops k l ∧
      ChainStep opts s k l (Apart opts s k (.settles n outcome now)) := by
  have hends (hcond : ∀ acked, outcome = .ok acked → min acked entries.length ≤ 0) :
      Free opts s k ↔ Apart opts s k (.settles n outcome now) := by
    refine ⟨fun hfree _ _ _ => hfree, fun hall => hall entries htick hcond⟩
  cases outcome with
  | ok acked =>
    simp only [ExportSystem.settle]
    split
    · rename_i hzero
      have hle : min acked entries.length ≤ 0 := Int.toNat_eq_zero.mp hzero
      exact ⟨_, rfl, (h.ends htick 0 _).imp (hends fun _ e => by cases e; exact hle)⟩
    · rename_i hpos
      have hlt : ((min acked entries.length).toNat - 1 : Nat) < entries.length := by omega
      rw [List.getElem?_eq_getElem hlt]
      obtain ⟨hset, hpushing⟩ := (h.loop k).setTick htick .writing
      refine ⟨_, rfl, (h.calm hset le_rfl ?_).imp ⟨fun _ entries' htick' hcond => ?_,
        fun _ => trivial⟩⟩
      · rw [hpushing]
        exact Nat.zero_le _
      · cases htick.symm.trans htick'
        exact absurd (Int.toNat_eq_zero.mpr (hcond acked rfl)) hpos
  | failed retryable => exact ⟨_, rfl, (h.ends htick _ _).imp (hends fun _ e => by cases e)⟩
  | threw => exact ⟨_, rfl, (h.ends htick _ _).imp (hends fun _ e => by cases e)⟩

theorem ChainInv.act (h : ChainInv opts s) {a : LoopLabel}
    (hact : s.act (opts k) k a = some t) : ∃ l, t.loops = Function.update s.loops k l ∧
      ChainStep opts s k l (Apart opts s k a) := by
  have hl := h.loop k
  cases a with
  | fires timer =>
    obtain ⟨hmem, rfl⟩ := ExportSystem.act_fires_inv hact
    have hnone := hl.fired hmem
    have hl' : LoopInv { s.loops k with
        timers := (s.loops k).timers.erase timer, timer := none } :=
      ⟨by simp [hnone], by simp [hnone], fun _ => hnone, hl.resolved, hl.ticks, hl.ticking⟩
    have halone : Alone opts s k := fun k' hk' hsame => List.length_eq_zero_iff.mp
      (h.single.timer.others k k' hk' hsame
        (fun e => List.ne_nil_of_mem hmem (List.length_eq_zero_iff.mp e)))
    exact ⟨_, rfl, (h.runTick hl' (by simp [hnone]) rfl _).imp
      ⟨fun _ => trivial, fun _ _ _ _ => ⟨hnone, halone⟩⟩⟩
  | flushes =>
    obtain rfl := Option.some.inj hact
    exact ⟨_, rfl, h.runTick hl le_rfl rfl _⟩
  | resumes =>
    obtain rfl := Option.some.inj hact
    have hcleared : (ExportLoop.clearTimer { s.loops k with
        consecutiveFailures := 0, paused := false }).timers = [] := hl.clearTimer
    have hl' : LoopInv (ExportLoop.clearTimer { s.loops k with
        consecutiveFailures := 0, paused := false }) :=
      ⟨by simp [hcleared], by simp [hcleared], fun _ => hcleared, hl.resolved, hl.ticks,
        hl.ticking⟩
    exact ⟨_, rfl, (h.arm hl' le_rfl).imp ⟨fun hfree hstopped => (hfree hstopped).2,
      fun halone hstopped => ⟨hcleared, halone hstopped⟩⟩⟩
  | stops =>
    obtain rfl := Option.some.inj hact
    have hcleared : (s.loops k).stop.timers = [] := hl.clearTimer
    have hl' : LoopInv (s.loops k).stop :=
      ⟨by simp [hcleared], by simp [hcleared], fun _ => hcleared, fun _ => rfl, hl.ticks,
        hl.ticking⟩
    exact ⟨_, rfl, h.calm hl' (by simp [hcleared]) le_rfl⟩
  | stopResolves =>
    obtain ⟨hstopped, rfl⟩ := ExportSystem.act_stopResolves_inv hact
    exact ⟨_, rfl, h.calm ⟨hl.tracked, hl.short, hl.stopped, fun _ => hstopped, hl.ticks,
      hl.ticking⟩ le_rfl le_rfl⟩
  | queries n =>
    obtain ⟨cursor, htick, rfl⟩ := ExportSystem.act_queries_inv hact
    obtain ⟨hset, hpushing⟩ := hl.setTick htick
      (.querying (query s.audit (sinceSeq cursor) (opts k).batchSize))
    refine ⟨_, rfl, h.calm hset le_rfl ?_⟩
    rw [hpushing]
    exact Nat.zero_le _
  | pushes n =>
    obtain ⟨stored, htick, ⟨rfl, rfl⟩ | ⟨hne, rfl⟩⟩ := ExportSystem.act_pushes_inv hact
    · refine ⟨_, rfl, (h.ends htick 0 _).imp ?_⟩
      rw [Apart, htick]
    · obtain ⟨hset, hpushing⟩ := hl.setTick htick (.pushing (stored.map toExportEntry))
      refine ⟨_, rfl, (h.push hset rfl hpushing).imp ?_⟩
      rw [Apart, htick]
      cases stored with
      | nil => exact absurd rfl hne
      | cons first rest => exact Iff.rfl
  | settles n outcome now =>
    obtain ⟨entries, htick, rfl⟩ := ExportSystem.act_settles_inv hact
    exact h.settle htick outcome now
  | writeThrows n acked =>
    obtain ⟨entries, htick, rfl⟩ := ExportSystem.act_writeThrows_inv hact
    exact ⟨_, rfl, h.ends htick _ _⟩
  | written n =>
    obtain ⟨htick, rfl⟩ := ExportSystem.act_written_inv hact
    exact ⟨_, rfl, h.ends htick _ _⟩
  | sinkThrows n =>
    obtain ⟨cursor, htick, rfl⟩ := ExportSystem.act_sinkThrows_inv hact
    exact ⟨_, rfl, h.ends htick _ _⟩
  | crashes =>
    obtain rfl := Option.some.inj hact
    exact ⟨_, rfl, h.calm .gone (Nat.zero_le _) (Nat.zero_le _)⟩

theorem singleChain_step (h : ChainInv opts s) {a : ExportLabel κ}
    (hstep : exportStep opts s a = some t) :
    (SingleChain opts t ↔ OneChain opts s a) ∧ (SingleChain opts t → ChainInv opts t) := by
  have hchain {k : κ} {l : ExportLoop} {cond : Prop} (ht : t.loops = Function.update s.loops k l)
      (hstep : ChainStep opts s k l cond) :
      (SingleChain opts t ↔ cond) ∧ (SingleChain opts t → ChainInv opts t) := by
    have hsame : SingleChain opts t ↔ SingleChain opts (s.setLoop k l) := by
      constructor
      · rintro ⟨htimer, hpush, hreleased⟩
        rw [ht] at htimer hpush hreleased
        exact ⟨htimer, hpush, hreleased⟩
      · rintro ⟨htimer, hpush, hreleased⟩
        refine ⟨?_, ?_, ?_⟩ <;> rw [ht]
        · exact htimer
        · exact hpush
        · exact hreleased
    refine ⟨hsame.trans hstep.single, fun hsingle => ⟨fun k' => ?_, hsingle⟩⟩
    rw [ht]
    by_cases e : k' = k
    · subst e
      rw [Function.update_self]
      exact hstep.loop (hstep.single.mp (hsame.mp hsingle))
    · rw [Function.update_of_ne e]
      exact h.loop k'
  cases a with
  | records p =>
    cases hstep
    have hsingle : SingleChain opts { s with audit := recordInsert s.audit p } :=
      ⟨h.single.timer, h.single.push, h.single.released⟩
    exact ⟨iff_of_true hsingle trivial, fun _ => ⟨h.loop, hsingle⟩⟩
  | scrubs select reason clock =>
    cases hstep
    have hsingle : SingleChain opts { s with audit := s.audit.scrub select reason clock } :=
      ⟨h.single.timer, h.single.push, h.single.released⟩
    exact ⟨iff_of_true hsingle trivial, fun _ => ⟨h.loop, hsingle⟩⟩
  | starts k =>
    simp only [exportStep, Option.ite_none_right_eq_some, Option.some.injEq] at hstep
    obtain ⟨-, rfl⟩ := hstep
    refine hchain rfl ((h.arm .start (Nat.zero_le _)).imp ?_)
    exact ⟨fun hfree => (hfree rfl).2, fun halone _ => ⟨rfl, halone⟩⟩
  | acts k a =>
    simp only [exportStep, Option.ite_none_right_eq_some] at hstep
    obtain ⟨l, ht, hl⟩ := h.act hstep.2
    exact hchain ht hl

/-- **An exporter has a single chain of timers** in exactly the runs in which no loop of it is
started or resumed while another one has a timer, each tick that ends on a loop that is not
stopped finds no timer left, and no push starts while another loop pushes. -/
theorem singleChain_iff (opts : κ → AuditExportLoopOptions) (audit : AuditDb)
    {as : List (ExportLabel κ)} :
    Run (exportStep opts) (KeepsChain opts) { audit := audit } as s ↔
      Run (exportStep opts) (OneChain opts) { audit := audit } as s := by
  have hstart : ChainInv opts { audit := audit } := by
    refine ⟨fun _ => ⟨nofun, Nat.zero_le _, nofun, nofun, Nat.zero_le _, fun _ => rfl⟩, ?_, ?_, ?_⟩
    · exact .zero _
    · exact .zero _
    · exact fun _ => nofun
  exact Run.leads_iff hstart fun s a t hs hstep => singleChain_step hs hstep

end

/-- `flushNow` ends while the first timer is still scheduled and sets a second one; `stop` clears
only that one. -/
theorem flush_doubles_timers : ∃ s t : ExportSystem Unit,
    Run (exportStep fun _ : Unit => { exporter := "siem" }) Any {}
      [.starts (), .acts () .flushes, .acts () (.queries 0), .acts () (.pushes 0)] s ∧
    (s.loops ()).timers = [0, 1] ∧ ¬ SingleChain (fun _ => { exporter := "siem" }) s ∧
    Run (exportStep fun _ : Unit => { exporter := "siem" }) Any s
      [.acts () .stops, .acts () .stopResolves] t ∧
    (t.loops ()).resolved = true ∧ (t.loops ()).timers = [0] := by
  have hreplay : (exec (exportStep fun _ : Unit => { exporter := "siem" }) {}
      [.starts (), .acts () .flushes, .acts () (.queries 0), .acts () (.pushes 0)]).any (fun s =>
        decide ((s.loops ()).timers = [0, 1]) &&
          (exec (exportStep fun _ : Unit => { exporter := "siem" }) s
            [.acts () .stops, .acts () .stopResolves]).any (fun t =>
              decide ((t.loops ()).resolved = true ∧ (t.loops ()).timers = [0]))) = true := by
    decide
  obtain ⟨s, r, hs⟩ := Run.any_of_replay hreplay
  obtain ⟨htimers, hs⟩ := Bool.and_eq_true_iff.mp hs
  have htimers := of_decide_eq_true htimers
  obtain ⟨t, r', ht⟩ := Run.any_of_replay hs
  obtain ⟨hresolved, hleft⟩ := of_decide_eq_true ht
  refine ⟨s, t, r, htimers, fun hsingle => ?_, r', hresolved, hleft⟩
  have hshort := hsingle.timer.own ()
  rw [htimers] at hshort
  exact absurd hshort (by decide)

end Declaragent.Audit
