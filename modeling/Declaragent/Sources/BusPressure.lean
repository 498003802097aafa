import Declaragent.Sources.Pausing

/-!
# Sources — back-pressure of the bus

The bus counts the publishes in flight.  A listener has two watermarks and hears of the crossings:
`onHigh` when the count reaches the high one, `onLow` when it is back at the low one.  The listener
of a source pauses and resumes it.

* `ListenerInv.publish`, `ListenerInv.settle`: what a change of the count does to a listener.
* `BusInv.step`: what holds while no source is started under pressure.
* `signals_iff`: in which runs the callbacks alternate and every source is paused under pressure.
-/

namespace Declaragent.Sources
open Transition Events

/-! ### The bus -/

/-- Whose listener it is: that of a source, which `stop` detaches while it is the last one that was
attached, or another one. -/
inductive PressureOwner (ι : Type) where
  | source (i : ι) (attached : Bool)
  | other (name : Nat)
  deriving DecidableEq

inductive Callback where
  | onHigh | onLow
  deriving DecidableEq

/-- A registered listener, and the callbacks it got, the last first. -/
structure PressureListener (ι : Type) where
  owner : PressureOwner ι
  highWatermark : Int
  lowWatermark : Int
  isOver : Bool
  callbacks : List Callback := []

structure Bus (ι : Type) where
  inFlight : Nat := 0
  listeners : List (PressureListener ι) := []
  sources : ι → Source

variable {ι : Type}

/-- The callback that the count calls for. -/
def PressureListener.crossing (l : PressureListener ι) (count : Nat) : Option Callback :=
  if l.isOver = false ∧ l.highWatermark ≤ count then some .onHigh
  else if l.isOver = true ∧ count ≤ l.lowWatermark then some .onLow
  else none

def PressureListener.called (l : PressureListener ι) : Option Callback → PressureListener ι
  | some .onHigh => { l with isOver := true, callbacks := .onHigh :: l.callbacks }
  | some .onLow => { l with isOver := false, callbacks := .onLow :: l.callbacks }
  | none => l

/-- The callbacks of a source's listener. -/
def Source.onPressure (s : Source) : Option Callback → Source
  | some .onHigh => s.pauseFor .busPressure
  | some .onLow => s.resumeFrom .busPressure
  | none => s

def callOwner [DecidableEq ι] (sources : ι → Source) (owner : PressureOwner ι)
    (callback : Option Callback) : ι → Source :=
  match owner with
  | .source i _ => Function.update sources i ((sources i).onPressure callback)
  | .other _ => sources

def emitPressureCrossings [DecidableEq ι] (count : Nat) :
    List (PressureListener ι) → (ι → Source) → List (PressureListener ι) × (ι → Source)
  | [], sources => ([], sources)
  | l :: rest, sources =>
    let callback := l.crossing count
    let r := emitPressureCrossings count rest (callOwner sources l.owner callback)
    (l.called callback :: r.1, r.2)

/-- The count has changed. -/
def Bus.emit [DecidableEq ι] (b : Bus ι) (count : Nat) : Bus ι :=
  let r := emitPressureCrossings count b.listeners b.sources
  ⟨count, r.1, r.2⟩

def registerPressureListener (b : Bus ι) (owner : PressureOwner ι)
    (highWatermark lowWatermark : Int) : Except String (Bus ι) :=
  if highWatermark < lowWatermark then
    .error ("bus.registerPressureListener: lowWatermark (" ++ toString lowWatermark ++
      ") must be <= highWatermark (" ++ toString highWatermark ++ ")")
  else if highWatermark < 1 then
    .error "bus.registerPressureListener: highWatermark must be >= 1"
  else
    .ok { b with
      listeners := b.listeners ++
        [⟨owner, highWatermark, lowWatermark, decide (highWatermark ≤ b.inFlight), []⟩] }

def Bus.remove [DecidableEq ι] (b : Bus ι) (owner : PressureOwner ι) : Bus ι :=
  { b with listeners := b.listeners.filter fun l => l.owner ≠ owner }

/-- What a source is built with. -/
structure SourceOptions where
  circuitBreaker : CircuitBreakerOptions := {}
  /-- The high and the low watermark. -/
  busPressure : Option (Int × Int) := none

def Bus.setSource [DecidableEq ι] (b : Bus ι) (i : ι) (s : Source) : Bus ι :=
  { b with sources := Function.update b.sources i s }

/-- The handle of the source's listener is written over: nothing can detach that one any more. -/
def PressureListener.forgotten [DecidableEq ι] (l : PressureListener ι) (i : ι) :
    PressureListener ι :=
  if l.owner = .source i true then { l with owner := .source i false } else l

def Bus.forget [DecidableEq ι] (b : Bus ι) (i : ι) : Bus ι :=
  { b with listeners := b.listeners.map fun l => l.forgotten i }

/-- A registration that throws changes nothing. -/
def Bus.wireBusPressureListener [DecidableEq ι] (b : Bus ι) (i : ι) :
    Option (Int × Int) → Bus ι
  | none => b
  | some (high, low) =>
    (registerPressureListener (b.forget i) (.source i true) high low).toOption.getD b

inductive BusLabel (ι : Type) where
  | publishes (handlers : Nat)
  | settles
  | registers (name : Nat) (highWatermark lowWatermark : Int)
  | removes (name : Nat)
  | started (i : ι)
  | stops (i : ι)
  | acts (i : ι) (a : SourceLabel)

/-- The steps of a source that leave its listener on the bus alone. -/
def SourceLabel.own : SourceLabel → Bool
  | .started | .stops | .busHigh | .busLow => false
  | .starts | .pauses | .resumes | .delivered | .settled _ _ => true

/-- A publish without handlers is not counted.  A name stands for one listener at a time. -/
def busStep [DecidableEq ι] (opts : ι → SourceOptions) (b : Bus ι) : BusLabel ι → Option (Bus ι)
  | .publishes handlers => some (if handlers = 0 then b else b.emit (b.inFlight + 1))
  | .settles => if b.inFlight = 0 then none else some (b.emit (b.inFlight - 1))
  | .registers name highWatermark lowWatermark =>
    if b.listeners.any fun l => l.owner = .other name then none
    else
      some ((registerPressureListener b (.other name) highWatermark lowWatermark).toOption.getD b)
  | .removes name => some (b.remove (.other name))
  | .started i =>
    (sourceStep (opts i).circuitBreaker (b.sources i) .started).map fun s =>
      (b.setSource i s).wireBusPressureListener i (opts i).busPressure
  | .stops i =>
    (sourceStep (opts i).circuitBreaker (b.sources i) .stops).map fun s =>
      (b.remove (.source i true)).setSource i s
  | .acts i a =>
    if a.own then
      (sourceStep (opts i).circuitBreaker (b.sources i) a).map fun s => b.setSource i s
    else none

/-! ### What is asked of the signals -/

/-- The callbacks alternate, the first of them `onHigh`. -/
def Alternate : List Callback → Prop
  | [] => True
  | .onHigh :: callbacks => callbacks.head? ≠ some .onHigh ∧ Alternate callbacks
  | .onLow :: callbacks => callbacks.head? = some .onHigh ∧ Alternate callbacks

structure Signalled (b : Bus ι) : Prop where
  alternate : ∀ l ∈ b.listeners, Alternate l.callbacks
  paused : ∀ l ∈ b.listeners, ∀ i, l.owner = .source i true → l.highWatermark ≤ b.inFlight →
    .busPressure ∈ (b.sources i).pauseReasons

/-- A registered source keeps the reason until the count is at its low watermark. -/
def Held (b b' : Bus ι) : Prop :=
  ∀ i, (∃ l ∈ b.listeners, l.owner = .source i true) →
    ∀ l ∈ b'.listeners, l.owner = .source i true →
      .busPressure ∈ (b.sources i).pauseReasons → l.lowWatermark < b'.inFlight →
        .busPressure ∈ (b'.sources i).pauseReasons

/-- The step leaves the bus as it should be. -/
def Signals [DecidableEq ι] (opts : ι → SourceOptions) (b : Bus ι) (a : BusLabel ι) : Prop :=
  ∀ b', busStep opts b a = some b' → Signalled b' ∧ Held b b'

/-- No source is started at or above its high watermark, unless it is paused for it already; the
count does not fall to the low watermark of a listener that was registered over the high one and
has heard nothing yet, nor to the mark of a source whose watermarks are the same. -/
def Unpressed (opts : ι → SourceOptions) (b : Bus ι) : BusLabel ι → Prop
  | .started i => ∀ high low, (opts i).busPressure = some (high, low) → low ≤ high → 1 ≤ high →
      high ≤ b.inFlight → .busPressure ∈ (b.sources i).pauseReasons
  | .settles => ∀ l ∈ b.listeners,
      (l.isOver = true → l.callbacks = [] → l.lowWatermark < (b.inFlight : Int) - 1) ∧
      ∀ i, l.owner = .source i true → l.lowWatermark = l.highWatermark →
        (b.inFlight : Int) - 1 ≠ l.highWatermark
  | _ => True

/-! ### What a change of the count does -/

/-- The callbacks of the listener are those of the source. -/
def PressureOwner.Drives (owner : PressureOwner ι) (i : ι) : Prop :=
  ∃ attached, owner = .source i attached

variable {opts : ι → SourceOptions} {b b' : Bus ι} {l : PressureListener ι} {count : Nat}

theorem crossing_cases (l : PressureListener ι) (count : Nat) :
    (l.crossing count = some .onHigh ∧ l.isOver = false ∧ l.highWatermark ≤ count) ∨
    (l.crossing count = some .onLow ∧ l.isOver = true ∧ (count : Int) ≤ l.lowWatermark) ∨
    (l.crossing count = none ∧ (l.isOver = false → (count : Int) < l.highWatermark) ∧
      (l.isOver = true → l.lowWatermark < count)) := by
  unfold PressureListener.crossing
  split
  · exact .inl ⟨rfl, ‹_›⟩
  · rename_i hhigh
    split
    · exact .inr (.inl ⟨rfl, ‹_›⟩)
    · rename_i hlow
      exact .inr (.inr ⟨rfl, fun hover => Int.not_le.mp fun hle => hhigh ⟨hover, hle⟩,
        fun hover => Int.not_le.mp fun hle => hlow ⟨hover, hle⟩⟩)

theorem called_fields (l : PressureListener ι) (callback : Option Callback) :
    (l.called callback).owner = l.owner ∧
      (l.called callback).highWatermark = l.highWatermark ∧
      (l.called callback).lowWatermark = l.lowWatermark := by
  rcases callback with _ | _ | _ <;> exact ⟨rfl, rfl, rfl⟩

/-- What holds of a registered listener while the count is `count`. -/
structure ListenerInv (count : Nat) (l : PressureListener ι) : Prop where
  valid : l.lowWatermark ≤ l.highWatermark
  whenOver : l.isOver = true →
    l.lowWatermark ≤ count ∧ (l.callbacks ≠ [] → l.callbacks.head? = some .onHigh)
  whenUnder : l.isOver = false → l.callbacks.head? ≠ some .onHigh ∧
    ((count : Int) < l.highWatermark ∨
      (count : Int) = l.highWatermark ∧ l.lowWatermark = l.highWatermark ∧
        ∀ i, l.owner ≠ .source i true)
  alternate : Alternate l.callbacks

theorem ListenerInv.crossing_publish (h : ListenerInv count l) :
    l.crossing (count + 1) = none ∨ l.crossing (count + 1) = some .onHigh := by
  rcases crossing_cases l (count + 1) with ⟨hc, -, -⟩ | ⟨-, hover, hle⟩ | ⟨hc, -, -⟩
  · exact .inr hc
  · have hlow := (h.whenOver hover).1
    omega
  · exact .inl hc

theorem ListenerInv.crossing_settle (h : ListenerInv (count + 1) l) :
    l.crossing count = none ∨ l.crossing count = some .onLow := by
  rcases crossing_cases l count with ⟨-, hover, hle⟩ | ⟨hc, -, -⟩ | ⟨hc, -, -⟩
  · obtain ⟨-, hunder⟩ := h.whenUnder hover
    omega
  · exact .inr hc
  · exact .inl hc

/-- One publish more. -/
theorem ListenerInv.publish (h : ListenerInv count l) :
    ListenerInv (count + 1) (l.called (l.crossing (count + 1))) := by
  have hvalid := h.valid
  rcases crossing_cases l (count + 1) with ⟨hc, hover, hle⟩ | ⟨-, hover, hle⟩ | ⟨hc, hunder, hover⟩
  · rw [hc]
    exact ⟨hvalid, fun _ => ⟨hvalid.trans hle, fun _ => rfl⟩, nofun,
      ⟨(h.whenUnder hover).1, h.alternate⟩⟩
  · have hlow := (h.whenOver hover).1
    omega
  · rw [hc]
    exact ⟨hvalid, fun hov => ⟨(hover hov).le, (h.whenOver hov).2⟩,
      fun hun => ⟨(h.whenUnder hun).1, .inl (hunder hun)⟩, h.alternate⟩

/-- One publish fewer. -/
theorem ListenerInv.settle (h : ListenerInv (count + 1) l)
    (hheard : l.isOver = true → l.callbacks = [] → l.lowWatermark < count)
    (hapart : ∀ i, l.owner = .source i true → l.lowWatermark = l.highWatermark →
      (count : Int) ≠ l.highWatermark) :
    ListenerInv count (l.called (l.crossing count)) := by
  have hvalid := h.valid
  rcases crossing_cases l count with ⟨-, hover, hle⟩ | ⟨hc, hover, hle⟩ | ⟨hc, hunder, hover⟩
  · obtain ⟨-, hunder⟩ := h.whenUnder hover
    omega
  · rw [hc]
    have hne : l.callbacks ≠ [] := fun e => absurd (hheard hover e) (Int.not_lt.mpr hle)
    refine ⟨hvalid, nofun, fun _ => ⟨nofun, ?_⟩, ⟨(h.whenOver hover).2 hne, h.alternate⟩⟩
    by_cases hlt : (count : Int) < l.highWatermark
    · exact .inl hlt
    · have hmark : (count : Int) = l.highWatermark := by omega
      have hsame : l.lowWatermark = l.highWatermark := by omega
      exact .inr ⟨hmark, hsame, fun i howner => hapart i howner hsame hmark⟩
  · rw [hc]
    exact ⟨hvalid, fun hov => ⟨(hover hov).le, (h.whenOver hov).2⟩,
      fun hun => ⟨(h.whenUnder hun).1, .inl (hunder hun)⟩, h.alternate⟩

variable [DecidableEq ι]

theorem callOwner_of_drives (sources : ι → Source) {owner : PressureOwner ι} {i : ι}
    (h : owner.Drives i) (callback : Option Callback) :
    callOwner sources owner callback i = (sources i).onPressure callback := by
  obtain ⟨attached, rfl⟩ := h
  exact Function.update_self _ _ _

theorem callOwner_of_not (sources : ι → Source) {owner : PressureOwner ι} {i : ι}
    (h : ¬ owner.Drives i) (callback : Option Callback) :
    callOwner sources owner callback i = sources i := by
  cases owner with
  | source j attached => exact Function.update_of_ne (fun e => h ⟨attached, by rw [e]⟩) _ _
  | other name => rfl

theorem mem_onPressure (s : Source) (c : Callback) :
    .busPressure ∈ (s.onPressure (some c)).pauseReasons ↔ c = .onHigh := by
  cases c with
  | onHigh => simp [Source.onPressure, Source.pauseFor]
  | onLow => simp [Source.onPressure, (resumeFrom_fields s .busPressure).1]

theorem emit_listeners (count : Nat) (listeners : List (PressureListener ι))
    (sources : ι → Source) : (emitPressureCrossings count listeners sources).1 =
      listeners.map fun l => l.called (l.crossing count) := by
  induction listeners generalizing sources with
  | nil => rfl
  | cons l rest ih => rw [emitPressureCrossings, List.map_cons, ih]

theorem mem_emit {b : Bus ι} {l' : PressureListener ι} : l' ∈ (b.emit count).listeners ↔
    ∃ l ∈ b.listeners, l.called (l.crossing count) = l' := by
  rw [Bus.emit, emit_listeners, List.mem_map]

/-- The callbacks of one change are all the same: a source hears that one from some listener, or
nothing. -/
theorem emit_sources {c : Callback} {listeners : List (PressureListener ι)}
    (hcalls : ∀ l ∈ listeners, l.crossing count = none ∨ l.crossing count = some c)
    (sources : ι → Source) (i : ι) :
    ((∃ l ∈ listeners, l.owner.Drives i ∧ l.crossing count = some c) ∧
      (.busPressure ∈ ((emitPressureCrossings count listeners sources).2 i).pauseReasons ↔
        c = .onHigh)) ∨
    ((∀ l ∈ listeners, l.owner.Drives i → l.crossing count = none) ∧
      (emitPressureCrossings count listeners sources).2 i = sources i) := by
  induction listeners generalizing sources with
  | nil => exact .inr ⟨nofun, rfl⟩
  | cons l rest ih =>
    obtain ⟨hl, hrest⟩ := List.forall_mem_cons.mp hcalls
    have hrest := ih hrest (callOwner sources l.owner (l.crossing count))
    rw [emitPressureCrossings]
    rcases hrest with ⟨⟨l', hl', hcalled⟩, hreason⟩ | ⟨hquiet, hsame⟩
    · exact .inl ⟨⟨l', List.mem_cons_of_mem _ hl', hcalled⟩, hreason⟩
    by_cases hdrives : l.owner.Drives i
    · rw [callOwner_of_drives sources hdrives] at hsame
      rcases hl with hnone | hsome
      · rw [hnone] at hsame
        exact .inr ⟨List.forall_mem_cons.mpr ⟨fun _ => hnone, hquiet⟩, by rw [hnone]; exact hsame⟩
      · rw [hsome] at hsame
        refine .inl ⟨⟨l, List.mem_cons_self, hdrives, hsome⟩, ?_⟩
        simp only [hsome, hsame]
        exact mem_onPressure _ _
    · rw [callOwner_of_not sources hdrives] at hsame
      exact .inr ⟨List.forall_mem_cons.mpr ⟨fun h => absurd h hdrives, hquiet⟩, hsame⟩

/-! ### What holds while no source is started under pressure -/

structure BusInv (opts : ι → SourceOptions) (b : Bus ι) : Prop where
  listener : ∀ l ∈ b.listeners, ListenerInv b.inFlight l
  marks : ∀ l ∈ b.listeners, ∀ i, l.owner.Drives i →
    (opts i).busPressure = some (l.highWatermark, l.lowWatermark)
  paused : ∀ l ∈ b.listeners, ∀ i, l.owner = .source i true → l.isOver = true →
    .busPressure ∈ (b.sources i).pauseReasons

omit [DecidableEq ι] in
theorem BusInv.signalled (h : BusInv opts b) : Signalled b where
  alternate l hl := (h.listener l hl).alternate
  paused l hl i howner hhigh := by
    refine h.paused l hl i howner ?_
    cases hover : l.isOver with
    | true => rfl
    | false =>
      obtain ⟨-, hlt | ⟨-, -, hnone⟩⟩ := (h.listener l hl).whenUnder hover
      · omega
      · exact absurd howner (hnone i)

theorem emit_marks (h : BusInv opts b) (count : Nat) :
    ∀ l ∈ (b.emit count).listeners, ∀ i, l.owner.Drives i →
      (opts i).busPressure = some (l.highWatermark, l.lowWatermark) := by
  intro l hl i hdrives
  rw [mem_emit] at hl
  obtain ⟨l, hl, rfl⟩ := hl
  obtain ⟨howner, hhigh, hlow⟩ := called_fields l (l.crossing count)
  rw [howner] at hdrives
  rw [hhigh, hlow]
  exact h.marks l hl i hdrives

/-- One publish more takes no reason away, and gives one to the sources that hear of it. -/
theorem BusInv.emit_publish (h : BusInv opts b) (i : ι) :
    (.busPressure ∈ (b.sources i).pauseReasons →
      .busPressure ∈ ((b.emit (b.inFlight + 1)).sources i).pauseReasons) ∧
    ∀ l ∈ b.listeners, l.owner.Drives i → l.crossing (b.inFlight + 1) = some .onHigh →
      .busPressure ∈ ((b.emit (b.inFlight + 1)).sources i).pauseReasons := by
  rcases emit_sources (fun l hl => (h.listener l hl).crossing_publish) b.sources i with
    ⟨-, hreason⟩ | ⟨hquiet, hsame⟩
  · exact ⟨fun _ => hreason.mpr rfl, fun _ _ _ _ => hreason.mpr rfl⟩
  · refine ⟨fun hbefore => ?_, fun l hl hdrives hcalled => ?_⟩
    · simpa only [Bus.emit, hsame] using hbefore
    · rw [hquiet l hl hdrives] at hcalled
      cases hcalled

theorem BusInv.publish (h : BusInv opts b) : BusInv opts (b.emit (b.inFlight + 1)) where
  listener l hl := by
    rw [mem_emit] at hl
    obtain ⟨l, hl, rfl⟩ := hl
    exact (h.listener l hl).publish
  marks := emit_marks h _
  paused l hl i howner hover := by
    rw [mem_emit] at hl
    obtain ⟨l, hl, rfl⟩ := hl
    rw [(called_fields l _).1] at howner
    obtain ⟨hkeeps, hcalls⟩ := h.emit_publish i
    rcases (h.listener l hl).crossing_publish with hc | hc
    · rw [hc] at hover
      exact hkeeps (h.paused l hl i howner hover)
    · exact hcalls l hl ⟨true, howner⟩ hc

/-- One publish fewer leaves a source its reason while the count is above the low mark. -/
theorem BusInv.emit_settle (h : BusInv opts b) (hcount : b.inFlight = count + 1)
    (hl : l ∈ b.listeners) {i : ι} (hdrives : l.owner.Drives i) (hlow : l.lowWatermark < count)
    (hreason : .busPressure ∈ (b.sources i).pauseReasons) :
    .busPressure ∈ ((b.emit count).sources i).pauseReasons := by
  rcases emit_sources (fun l hl => (hcount ▸ h.listener l hl).crossing_settle) b.sources i with
    ⟨⟨l', hl', hdrives', hcalled⟩, -⟩ | ⟨-, hsame⟩
  · -- both listeners have the marks of the source
    have hsame := (h.marks l hl i hdrives).symm.trans (h.marks l' hl' i hdrives')
    simp only [Option.some.injEq, Prod.mk.injEq] at hsame
    rcases crossing_cases l' count with ⟨hc, -, -⟩ | ⟨-, -, hle⟩ | ⟨hc, -, -⟩
    · exact absurd (hc.symm.trans hcalled) (by decide)
    · omega
    · exact absurd (hc.symm.trans hcalled) (by decide)
  · simpa only [Bus.emit, hsame] using hreason

theorem BusInv.settle (h : BusInv opts b) (hcount : b.inFlight = count + 1)
    (hunpressed : Unpressed opts b .settles) : BusInv opts (b.emit count) where
  listener l hl := by
    rw [mem_emit] at hl
    obtain ⟨l, hl, rfl⟩ := hl
    obtain ⟨hheard, hapart⟩ := hunpressed l hl
    have hpred : (b.inFlight : Int) - 1 = count := by omega
    rw [hpred] at hheard hapart
    exact (hcount ▸ h.listener l hl).settle hheard hapart
  marks := emit_marks h _
  paused l hl i howner hover := by
    rw [mem_emit] at hl
    obtain ⟨l, hl, rfl⟩ := hl
    rw [(called_fields l _).1] at howner
    have hinv := hcount ▸ h.listener l hl
    rcases crossing_cases l count with ⟨hc, -, -⟩ | ⟨hc, -, -⟩ | ⟨hc, -, hlow⟩
    · rcases hinv.crossing_settle with e | e <;> exact absurd (hc.symm.trans e) (by decide)
    · rw [hc] at hover
      cases hover
    · rw [hc] at hover
      exact h.emit_settle hcount hl ⟨true, howner⟩ (hlow hover) (h.paused l hl i howner hover)

/-- A source changes, and keeps its reason while its listener is attached. -/
theorem BusInv.setSource (h : BusInv opts b) {i : ι} {s : Source}
    (hs : ∀ l ∈ b.listeners, l.owner = .source i true →
      .busPressure ∈ (b.sources i).pauseReasons → .busPressure ∈ s.pauseReasons) :
    BusInv opts (b.setSource i s) where
  listener := h.listener
  marks := h.marks
  paused l hl j howner hover := by
    have hbefore := h.paused l hl j howner hover
    by_cases e : j = i
    · subst e
      simp only [Bus.setSource, Function.update_self]
      exact hs l hl howner hbefore
    · simp only [Bus.setSource, Function.update_of_ne e]
      exact hbefore

theorem BusInv.remove (h : BusInv opts b) (owner : PressureOwner ι) :
    BusInv opts (b.remove owner) where
  listener l hl := h.listener l (List.mem_of_mem_filter hl)
  marks l hl := h.marks l (List.mem_of_mem_filter hl)
  paused l hl := h.paused l (List.mem_of_mem_filter hl)

theorem forgotten_cases (l : PressureListener ι) (i : ι) :
    l.forgotten i = l ∨
      l.owner = .source i true ∧ l.forgotten i = { l with owner := .source i false } := by
  unfold PressureListener.forgotten
  split
  · exact .inr ⟨‹_›, rfl⟩
  · exact .inl rfl

theorem BusInv.forget (h : BusInv opts b) (i : ι) : BusInv opts (b.forget i) where
  listener l hl := by
    simp only [Bus.forget, List.mem_map] at hl
    obtain ⟨l, hl, rfl⟩ := hl
    have hinv := h.listener l hl
    rcases forgotten_cases l i with e | ⟨-, e⟩
    · rw [e]
      exact hinv
    · rw [e]
      refine ⟨hinv.valid, hinv.whenOver, fun hun => ?_, hinv.alternate⟩
      exact (hinv.whenUnder hun).imp_right (Or.imp_right fun hmark => ⟨hmark.1, hmark.2.1, nofun⟩)
  marks l hl j hdrives := by
    simp only [Bus.forget, List.mem_map] at hl
    obtain ⟨l, hl, rfl⟩ := hl
    rcases forgotten_cases l i with e | ⟨howner, e⟩
    · rw [e] at hdrives ⊢
      exact h.marks l hl j hdrives
    · rw [e] at hdrives ⊢
      obtain ⟨attached, hdrives⟩ := hdrives
      cases hdrives
      exact h.marks l hl i ⟨true, howner⟩
  paused l hl j howner hover := by
    simp only [Bus.forget, List.mem_map] at hl
    obtain ⟨l, hl, rfl⟩ := hl
    rcases forgotten_cases l i with e | ⟨-, e⟩
    · rw [e] at howner hover
      exact h.paused l hl j howner hover
    · rw [e] at howner
      cases howner

omit [DecidableEq ι] in
theorem register_ok_iff {owner : PressureOwner ι} {high low : Int} :
    registerPressureListener b owner high low = .ok b' ↔ low ≤ high ∧ 1 ≤ high ∧
      { b with listeners := b.listeners ++ [⟨owner, high, low, decide (high ≤ b.inFlight), []⟩] } =
        b' := by
  unfold registerPressureListener
  split
  · rename_i hlt
    exact ⟨nofun, fun h => absurd hlt (Int.not_lt.mpr h.1)⟩
  · rename_i hvalid
    split
    · rename_i hlt
      exact ⟨nofun, fun h => absurd hlt (Int.not_lt.mpr h.2.1)⟩
    · rename_i hone
      rw [Except.ok.injEq]
      exact ⟨fun e => ⟨Int.not_lt.mp hvalid, Int.not_lt.mp hone, e⟩, fun h => h.2.2⟩

omit [DecidableEq ι] in
theorem BusInv.register (h : BusInv opts b) {owner : PressureOwner ι} {high low : Int}
    (hmarks : ∀ i, owner.Drives i → (opts i).busPressure = some (high, low))
    (hpaused : ∀ i, owner = .source i true → low ≤ high → 1 ≤ high → high ≤ b.inFlight →
      .busPressure ∈ (b.sources i).pauseReasons)
    (hregister : registerPressureListener b owner high low = .ok b') : BusInv opts b' := by
  obtain ⟨hvalid, hone, rfl⟩ := register_ok_iff.mp hregister
  refine ⟨fun l hl => ?_, fun l hl i hdrives => ?_, fun l hl i howner hover => ?_⟩
  · rcases List.mem_append.mp hl with hl | hl
    · exact h.listener l hl
    · obtain rfl := List.mem_singleton.mp hl
      exact ⟨hvalid,
        fun hover => ⟨hvalid.trans (of_decide_eq_true hover), fun hne => absurd rfl hne⟩,
        fun hunder => ⟨nofun, .inl (Int.not_le.mp (of_decide_eq_false hunder))⟩, trivial⟩
  · rcases List.mem_append.mp hl with hl | hl
    · exact h.marks l hl i hdrives
    · obtain rfl := List.mem_singleton.mp hl
      exact hmarks i hdrives
  · rcases List.mem_append.mp hl with hl | hl
    · exact h.paused l hl i howner hover
    · obtain rfl := List.mem_singleton.mp hl
      exact hpaused i howner hvalid hone (of_decide_eq_true hover)

/-- A source's own steps have nothing to do with the pressure on the bus. -/
theorem mem_of_own {breaker : CircuitBreakerOptions} {s t : Source} {a : SourceLabel}
    (hown : a.own = true) (hstep : sourceStep breaker s a = some t) :
    .busPressure ∈ t.pauseReasons ↔ .busPressure ∈ s.pauseReasons := by
  have hpause (u : Source) (reason : PauseReason) (hne : PauseReason.busPressure ≠ reason) :
      .busPressure ∈ (u.pauseFor reason).pauseReasons ↔ .busPressure ∈ u.pauseReasons :=
    Finset.mem_insert.trans (or_iff_right hne)
  have hresume (u : Source) (reason : PauseReason) (hne : PauseReason.busPressure ≠ reason) :
      .busPressure ∈ (u.resumeFrom reason).pauseReasons ↔ .busPressure ∈ u.pauseReasons := by
    rw [(resumeFrom_fields u reason).1]
    exact Finset.mem_erase.trans (and_iff_right hne)
  cases a with
  | starts => cases hstep; exact Iff.rfl
  | started => cases hown
  | stops => cases hown
  | pauses => cases hstep; exact hpause s .manual (by decide)
  | resumes => cases hstep; exact hresume s .manual (by decide)
  | delivered =>
    simp only [sourceStep, Option.ite_none_right_eq_some, Option.some.injEq] at hstep
    obtain ⟨-, rfl⟩ := hstep
    exact Iff.rfl
  | settled outcome now =>
    simp only [sourceStep, Option.ite_none_left_eq_some, Option.some.injEq] at hstep
    obtain ⟨-, rfl⟩ := hstep
    have hmoved := moved_recordOutcome breaker s.breaker now outcome
    unfold Source.settle
    generalize recordOutcome breaker s.breaker now outcome = r at hmoved
    rcases notify_of_moved hmoved (s.record r.1) with
      ⟨-, e⟩ | ⟨-, -, e⟩ | ⟨-, -, e⟩ | ⟨-, e⟩ <;> rw [e]
    · exact Iff.rfl
    · exact hpause (s.record r.1) .breaker (by decide)
    · exact hresume (s.record r.1) .breaker (by decide)
    · exact Iff.rfl
  | busHigh => cases hown
  | busLow => cases hown

theorem started_reasons {breaker : CircuitBreakerOptions} {s t : Source}
    (hstep : sourceStep breaker s .started = some t) : t.pauseReasons = s.pauseReasons := by
  simp only [sourceStep, Option.ite_none_left_eq_some, Option.some.injEq] at hstep
  obtain ⟨-, rfl⟩ := hstep
  rfl

theorem wire_cases (b : Bus ι) (i : ι) (marks : Option (Int × Int)) :
    b.wireBusPressureListener i marks = b ∨
    ∃ high low, marks = some (high, low) ∧
      registerPressureListener (b.forget i) (.source i true) high low =
        .ok (b.wireBusPressureListener i marks) := by
  unfold Bus.wireBusPressureListener
  split
  · exact .inl rfl
  · rename_i high low
    cases hr : registerPressureListener (b.forget i) (.source i true) high low with
    | ok b' => exact .inr ⟨high, low, rfl, hr⟩
    | error e => exact .inl rfl

theorem wired_rest (b : Bus ι) (i : ι) (marks : Option (Int × Int)) :
    (b.wireBusPressureListener i marks).sources = b.sources ∧
      (b.wireBusPressureListener i marks).inFlight = b.inFlight := by
  rcases wire_cases b i marks with e | ⟨high, low, -, hr⟩
  · rw [e]
    exact ⟨rfl, rfl⟩
  · obtain ⟨-, -, e⟩ := register_ok_iff.mp hr
    rw [← e]
    exact ⟨rfl, rfl⟩

theorem mem_wired (b : Bus ι) (i : ι) {high low : Int} (hle : low ≤ high) (hone : 1 ≤ high) :
    ⟨.source i true, high, low, decide (high ≤ b.inFlight), []⟩ ∈
      (b.wireBusPressureListener i (some (high, low))).listeners := by
  unfold Bus.wireBusPressureListener
  simp only [register_ok_iff.mpr ⟨hle, hone, rfl⟩]
  exact List.mem_append_right _ (List.mem_singleton_self _)

/-- The steps of a bus, one case for each label. -/
inductive BusTaken (opts : ι → SourceOptions) (b : Bus ι) : BusLabel ι → Bus ι → Prop where
  | unhandled : BusTaken opts b (.publishes 0) b
  | publishes {handlers : Nat} (hsome : handlers ≠ 0) :
      BusTaken opts b (.publishes handlers) (b.emit (b.inFlight + 1))
  | settles (hpos : b.inFlight = b.inFlight - 1 + 1) :
      BusTaken opts b .settles (b.emit (b.inFlight - 1))
  | rejects (name : Nat) (high low : Int) : BusTaken opts b (.registers name high low) b
  | registers {name : Nat} {high low : Int} {t : Bus ι}
      (hr : registerPressureListener b (.other name) high low = .ok t) :
      BusTaken opts b (.registers name high low) t
  | removes (name : Nat) : BusTaken opts b (.removes name) (b.remove (.other name))
  | started {i : ι} {s : Source}
      (hs : sourceStep (opts i).circuitBreaker (b.sources i) .started = some s) :
      BusTaken opts b (.started i)
        ((b.setSource i s).wireBusPressureListener i (opts i).busPressure)
  | stops {i : ι} {s : Source}
      (hs : sourceStep (opts i).circuitBreaker (b.sources i) .stops = some s) :
      BusTaken opts b (.stops i) ((b.remove (.source i true)).setSource i s)
  | acts {i : ι} {a : SourceLabel} {s : Source} (hown : a.own = true)
      (hs : sourceStep (opts i).circuitBreaker (b.sources i) a = some s) :
      BusTaken opts b (.acts i a) (b.setSource i s)

theorem taken_of_busStep {a : BusLabel ι} (hstep : busStep opts b a = some b') :
    BusTaken opts b a b' := by
  cases a with
  | publishes handlers =>
    obtain rfl := Option.some.inj hstep
    split
    · rename_i hnone
      subst hnone
      exact .unhandled
    · rename_i hsome
      exact .publishes hsome
  | settles =>
    simp only [busStep, Option.ite_none_left_eq_some, Option.some.injEq] at hstep
    obtain ⟨hpos, rfl⟩ := hstep
    exact .settles (Nat.succ_pred_eq_of_ne_zero hpos).symm
  | registers name high low =>
    simp only [busStep, Option.ite_none_left_eq_some, Option.some.injEq] at hstep
    obtain ⟨-, rfl⟩ := hstep
    cases hr : registerPressureListener b (.other name) high low with
    | ok b' => exact .registers hr
    | error e => exact .rejects name high low
  | removes name =>
    obtain rfl := Option.some.inj hstep
    exact .removes name
  | started i =>
    simp only [busStep, Option.map_eq_some_iff] at hstep
    obtain ⟨s, hs, rfl⟩ := hstep
    exact .started hs
  | stops i =>
    simp only [busStep, Option.map_eq_some_iff] at hstep
    obtain ⟨s, hs, rfl⟩ := hstep
    exact .stops hs
  | acts i a =>
    simp only [busStep, Option.ite_none_right_eq_some, Option.map_eq_some_iff] at hstep
    obtain ⟨hown, s, hs, rfl⟩ := hstep
    exact .acts hown hs

theorem BusInv.step {a : BusLabel ι} (h : BusInv opts b) (hunpressed : Unpressed opts b a)
    (hstep : busStep opts b a = some b') : BusInv opts b' := by
  cases taken_of_busStep hstep with
  | unhandled => exact h
  | publishes => exact h.publish
  | settles hpos => exact h.settle hpos hunpressed
  | rejects name high low => exact h
  | registers hr => exact h.register (fun i ⟨_, e⟩ => by cases e) (fun i e => by cases e) hr
  | removes name => exact h.remove _
  | @started i s hs =>
    have hreasons := started_reasons hs
    have hset : BusInv opts (b.setSource i s) :=
      h.setSource fun _ _ _ hmem => by rw [hreasons]; exact hmem
    rcases wire_cases (b.setSource i s) i (opts i).busPressure with e | ⟨high, low, hmarks, hr⟩
    · rw [e]
      exact hset
    · have hpaused (hle : low ≤ high) (hone : 1 ≤ high) (hhigh : high ≤ b.inFlight) :
          .busPressure ∈ (((b.setSource i s).forget i).sources i).pauseReasons := by
        simp only [Bus.forget, Bus.setSource, Function.update_self, hreasons]
        exact hunpressed high low hmarks hle hone hhigh
      exact (hset.forget i).register (fun j ⟨_, e⟩ => by cases e; exact hmarks)
        (fun j e => by cases e; exact hpaused) hr
  | stops =>
    refine (h.remove _).setSource fun l hl howner => ?_
    simp [Bus.remove, howner] at hl
  | acts hown hs => exact h.setSource fun _ _ _ => (mem_of_own hown hs).mpr

/-- Whatever the step, a registered source keeps its reason above the low mark. -/
theorem BusInv.held {a : BusLabel ι} (h : BusInv opts b) (hstep : busStep opts b a = some b') :
    Held b b' := by
  intro i hbefore l hl howner hreason hlow
  cases taken_of_busStep hstep with
  | unhandled => exact hreason
  | publishes => exact (h.emit_publish i).1 hreason
  | settles hpos =>
    rw [mem_emit] at hl
    obtain ⟨l, hl, rfl⟩ := hl
    rw [(called_fields l _).1] at howner
    rw [(called_fields l _).2.2] at hlow
    exact h.emit_settle hpos hl ⟨true, howner⟩ hlow hreason
  | rejects name high low => exact hreason
  | registers hr =>
    obtain ⟨-, -, rfl⟩ := register_ok_iff.mp hr
    exact hreason
  | removes name => exact hreason
  | @started j s hs =>
    rw [(wired_rest _ _ _).1]
    by_cases e : i = j
    · subst e
      simpa only [Bus.setSource, Function.update_self, started_reasons hs] using hreason
    · simpa only [Bus.setSource, Function.update_of_ne e] using hreason
  | @stops j s hs =>
    by_cases e : i = j
    · subst e
      simp [Bus.remove, Bus.setSource, howner] at hl
    · simpa only [Bus.setSource, Bus.remove, Function.update_of_ne e] using hreason
  | @acts j a s hown hs =>
    by_cases e : i = j
    · subst e
      simpa only [Bus.setSource, Function.update_self, mem_of_own hown hs] using hreason
    · simpa only [Bus.setSource, Function.update_of_ne e] using hreason

/-! ### When the signals are right -/

theorem unpressed_of_signals {a : BusLabel ι} (h : BusInv opts b)
    (hstep : busStep opts b a = some b') (hsignals : Signalled b') : Unpressed opts b a := by
  cases taken_of_busStep hstep with
  | settles hcount =>
    intro l hl
    have hinv := h.listener l hl
    have hcalled :
        l.called (l.crossing (b.inFlight - 1)) ∈ (b.emit (b.inFlight - 1)).listeners :=
      mem_emit.mpr ⟨l, hl, rfl⟩
    refine ⟨fun hover hnone => ?_, fun i howner hsame hmark => ?_⟩
    · -- `onLow` would be the first callback
      refine Int.not_le.mp fun hle => ?_
      have halternate := hsignals.alternate _ hcalled
      rcases crossing_cases l (b.inFlight - 1) with ⟨-, hun, -⟩ | ⟨hc, -, -⟩ | ⟨-, -, hlow⟩
      · exact absurd (hover.symm.trans hun) (by decide)
      · rw [hc] at halternate
        simp [PressureListener.called, Alternate, hnone] at halternate
      · have hlt := hlow hover
        omega
    · -- the source is resumed at a count that is its high watermark, too
      have hhigh : l.highWatermark ≤ b.inFlight := by omega
      have hover : l.isOver = true := by
        cases hover : l.isOver with
        | true => rfl
        | false =>
          obtain ⟨-, hunder⟩ := hinv.whenUnder hover
          omega
      have hpaused := hsignals.paused _ hcalled i (by rw [(called_fields l _).1]; exact howner)
        (by rw [(called_fields l _).2.1]; simp only [Bus.emit]; omega)
      rcases emit_sources (fun l hl => (hcount ▸ h.listener l hl).crossing_settle) b.sources i
        with ⟨-, hreason⟩ | ⟨hquiet, -⟩
      · exact absurd (hreason.mp hpaused) (by decide)
      · rcases crossing_cases l (b.inFlight - 1) with ⟨-, hun, -⟩ | ⟨hc, -, -⟩ | ⟨-, -, hlow⟩
        · exact absurd (hover.symm.trans hun) (by decide)
        · exact absurd (hc.symm.trans (hquiet l hl ⟨true, howner⟩)) (by decide)
        · have hlt := hlow hover
          omega
  | @started i s hs =>
    intro high low hmarks hle hone hhigh
    have hadded := mem_wired (b.setSource i s) i hle hone
    rw [← hmarks] at hadded
    obtain ⟨hsources, hinFlight⟩ := wired_rest (b.setSource i s) i (opts i).busPressure
    have hpaused := hsignals.paused _ hadded i rfl (by rw [hinFlight]; exact hhigh)
    rw [hsources] at hpaused
    simpa only [Bus.setSource, Function.update_self, started_reasons hs] using hpaused
  | unhandled => trivial
  | publishes => trivial
  | rejects name high low => trivial
  | registers => trivial
  | removes name => trivial
  | stops => trivial
  | acts => trivial

theorem signals_step_iff {a : BusLabel ι} (h : BusInv opts b)
    (hstep : busStep opts b a = some b') :
    Signalled b' ∧ Held b b' ↔ Unpressed opts b a := by
  constructor
  · rintro ⟨hsignalled, -⟩
    exact unpressed_of_signals h hstep hsignalled
  · intro hunpressed
    exact ⟨(h.step hunpressed hstep).signalled, h.held hstep⟩

/-- **The bus signals its pressure** to every listener and source in exactly the runs in which
nothing is registered under pressure and left to hear of it: no source is started at its high
watermark, and the count does not fall to the low mark of a listener that was. -/
theorem signals_iff {as : List (BusLabel ι)} :
    Run (busStep opts) (Signals opts) { sources := fun _ => {} } as b ↔
      Run (busStep opts) (Unpressed opts) { sources := fun _ => {} } as b := by
  have hstart : BusInv opts { sources := fun _ => {} } := ⟨nofun, nofun, nofun⟩
  refine Run.leads_iff hstart fun b a b' hb hstep =>
    ⟨signals_step_iff hb hstep, fun hsignals => hb.step ?_ hstep⟩
  exact (signals_step_iff hb hstep).mp hsignals

/-- A source that pauses at two publishes and resumes at one. -/
def twoPublishes : Unit → SourceOptions :=
  fun _ => { circuitBreaker := oneFailure, busPressure := some (2, 1) }

/-- A source that is started while the bus is at its high watermark is not paused, and the first
thing its listener hears is `onLow`. -/
theorem started_under_pressure :
    ∃ b b', Run (busStep twoPublishes) Any { sources := fun _ => {} }
        [.acts () .starts, .publishes 1, .publishes 1, .started ()] b ∧
      ¬ Signalled b ∧ busStep twoPublishes b .settles = some b' ∧
      b'.listeners.map (·.callbacks) = [[.onLow]] ∧ ¬ Signalled b' := by
  have hreplay : (exec (busStep twoPublishes) { sources := fun _ => {} }
      [.acts () .starts, .publishes 1, .publishes 1, .started ()]).any (fun b =>
        decide ((b.sources ()).pauseReasons = ∅ ∧ b.inFlight = 2 ∧
          b.listeners.map (fun l =>
            (l.owner, l.highWatermark, l.isOver, l.lowWatermark, l.callbacks)) =
              [(.source () true, 2, true, 1, [])])) = true := by
    decide
  obtain ⟨b, r, h⟩ := Run.any_of_replay hreplay
  obtain ⟨hreasons, hin, hlisteners⟩ := of_decide_eq_true h
  obtain ⟨l, hl, hfields⟩ := List.map_eq_singleton_iff.mp hlisteners
  simp only [Prod.mk.injEq] at hfields
  obtain ⟨howner, hhigh, hover, hlow, hnone⟩ := hfields
  refine ⟨b, b.emit 1, r, fun hsignalled => ?_, by rw [busStep, if_neg (by omega), hin], ?_,
    fun hsignalled => ?_⟩
  · have hpaused := hsignalled.paused l (by rw [hl]; exact List.mem_singleton_self _) () howner
      (by omega)
    rw [hreasons] at hpaused
    exact absurd hpaused (Finset.notMem_empty _)
  · simp [Bus.emit, emit_listeners, hl, PressureListener.crossing, PressureListener.called, hover,
      hlow, hnone]
  · have halternate := hsignalled.alternate (l.called (some .onLow)) (by
      simp [Bus.emit, emit_listeners, hl, PressureListener.crossing, hover, hlow])
    simp [PressureListener.called, Alternate, hnone] at halternate

end Declaragent.Sources
