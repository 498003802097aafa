import Declaragent.Library.JsValue
import Declaragent.Library.Transition

/-!
# Observability — the log stream

`/logs` sends the lines of the tailer as frames.  Frames wait in a buffer while the consumer has no
room, and a buffer that is full is dropped: one frame with its length takes its place.  Lines of an
agent that come too fast wait for a timer before they are framed.

* `enqueueAll_lines`: what becomes of the lines that the buffer stands for.
* `Moves` is what a step does before anything is enqueued.
* `lines_accounted_iff`: when all lines are delivered, counted or still there.
-/

namespace Declaragent.Observability.LogsRoute
open JsonText Transition

/-! ### Frames -/

inductive Frame where
  | comment (text : String)
  | log (agentId line : String)
  | dropped (count : Nat)
  | tailerError (message : String)
  deriving DecidableEq

/-! ### The stream -/

structure LogsRouteOptions where
  maxBufferedFrames : Option Int := none
  coalescePerAgentMs : Option Int := none

def LogsRouteOptions.maxBuffered (opts : LogsRouteOptions) : Int :=
  opts.maxBufferedFrames.getD 1024

def LogsRouteOptions.coalesceMs (opts : LogsRouteOptions) : Int :=
  max 0 (opts.coalescePerAgentMs.getD 0)

structure Slot where
  nextAllowedAt : Int := 0
  timer : Bool := false
  queued : List String := []

/-- A stream that nobody has closed.  `demand` is how many frames it takes now, and `emitted` are
the lines that the tailer gave. -/
structure LogStream where
  demand : Nat := 1
  pending : List Frame := []
  delivered : List Frame := []
  coalesceState : List (String × Slot) := []
  tailing : Bool := true
  emitted : List (String × String) := []

/-- The loop, all at once. -/
def flush (s : LogStream) : LogStream :=
  { s with
    demand := s.demand - s.pending.length
    pending := s.pending.drop s.demand
    delivered := s.delivered ++ s.pending.take s.demand }

def enqueueRaw (maxBuffered : Int) (s : LogStream) (frame : Frame) : LogStream :=
  let pending :=
    if maxBuffered ≤ s.pending.length then [.dropped s.pending.length] else s.pending
  flush { s with pending := pending ++ [frame] }

section
variable (opts : LogsRouteOptions) (all : Bool)

def emitLogFrame (agentId : String) (s : LogStream) (line : String) : LogStream :=
  enqueueRaw opts.maxBuffered s (.log agentId line)

def flushCoalesced (s : LogStream) (agentId : String) (now : Int) : LogStream :=
  match s.coalesceState.lookup agentId with
  | none => s
  | some slot =>
    slot.queued.foldl (emitLogFrame opts agentId)
      { s with
        coalesceState := put agentId { nextAllowedAt := now + opts.coalesceMs } s.coalesceState }

def coalesceActive : Bool := all && 0 < opts.coalesceMs

/-- The slot of an agent, which is new if there is none. -/
def slotOf (s : LogStream) (agentId : String) : Slot := (s.coalesceState.lookup agentId).getD {}

def enqueueLogLine (s : LogStream) (agentId line : String) (now : Int) : LogStream :=
  if coalesceActive opts all then
    let slot := slotOf s agentId
    if slot.nextAllowedAt ≤ now ∧ slot.queued = [] then
      emitLogFrame opts agentId
        { s with
          coalesceState :=
            put agentId { slot with nextAllowedAt := now + opts.coalesceMs } s.coalesceState } line
    else
      { s with
        coalesceState :=
          put agentId { slot with timer := true, queued := slot.queued ++ [line] }
            s.coalesceState }
  else emitLogFrame opts agentId s line

/-- What happens to a stream. -/
inductive LogLabel where
  | line (agentId line : String) (now : Int)
  | timer (agentId : String) (now : Int)
  | heartbeat
  | tailerFails (message : String)
  | demands (frames : Nat)
  | pull

def logStep (s : LogStream) : LogLabel → Option LogStream
  | .line agentId line now =>
    if s.tailing then
      some (enqueueLogLine opts all { s with emitted := s.emitted ++ [(agentId, line)] } agentId
        line now)
    else none
  | .timer agentId now =>
    if (slotOf s agentId).timer then some (flushCoalesced opts s agentId now) else none
  | .heartbeat => some (enqueueRaw opts.maxBuffered s (.comment ": keep-alive"))
  | .tailerFails message =>
    if s.tailing then
      some (enqueueRaw opts.maxBuffered { s with tailing := false } (.tailerError message))
    else none
  | .demands frames => some { s with demand := s.demand + frames }
  | .pull => some (flush s)

/-- The stream once it is open. -/
def opened : LogStream := enqueueRaw opts.maxBuffered {} (.comment ": stream-open")

end

/-! ### What is promised -/

/-- How many lines a frame stands for. -/
def Frame.lines : Frame → Nat
  | .log _ _ => 1
  | .dropped count => count
  | .comment _ | .tailerError _ => 0

def linesIn (frames : List Frame) : Nat := (frames.map Frame.lines).sum

/-- The lines that wait for a timer. -/
def waiting (s : LogStream) : Nat := (s.coalesceState.map fun p => p.2.queued.length).sum

/-- **Accounting.**  The log frames that were delivered, with the counts of the notices that were,
are the lines that were emitted without those still buffered; a notice in the buffer stands for
the lines that it counts. -/
def Accounted (s : LogStream) : Prop :=
  linesIn s.delivered + (linesIn s.pending + waiting s) = s.emitted.length

def Frame.lineOf (agentId : String) : Frame → Option String
  | .log agent line => if agent = agentId then some line else none
  | _ => none

def linesOf (agentId : String) (frames : List Frame) : List String :=
  frames.filterMap (Frame.lineOf agentId)

def emittedOf (agentId : String) (s : LogStream) : List String :=
  s.emitted.filterMap fun p => if p.1 = agentId then some p.2 else none

/-- **Order.**  The delivered lines of each agent were emitted in this order, and those of the
buffer, and then those that wait, come after them. -/
def Ordered (s : LogStream) : Prop :=
  ∀ agentId, (linesOf agentId s.delivered ++ linesOf agentId s.pending ++
    (slotOf s agentId).queued).Sublist (emittedOf agentId s)

/-- The buffers that are dropped when frames are enqueued. -/
def droppedBuffers (maxBuffered : Int) : LogStream → List Frame → List (List Frame)
  | _, [] => []
  | s, frame :: frames =>
    (if maxBuffered ≤ s.pending.length then [s.pending] else []) ++
      droppedBuffers maxBuffered (enqueueRaw maxBuffered s frame) frames

section
variable (opts : LogsRouteOptions) (all : Bool)

/-- The frames that a step enqueues. -/
def framesOf (s : LogStream) : LogLabel → List Frame
  | .line agentId line now =>
    if coalesceActive opts all = true ∧
        ¬ ((slotOf s agentId).nextAllowedAt ≤ now ∧ (slotOf s agentId).queued = []) then []
    else [.log agentId line]
  | .timer agentId _ => (slotOf s agentId).queued.map (.log agentId)
  | .heartbeat => [.comment ": keep-alive"]
  | .tailerFails message => [.tailerError message]
  | .demands _ | .pull => []

/-- The buffers that the step drops stand for as many lines as they have frames. -/
def CountsLines (s : LogStream) (label : LogLabel) : Prop :=
  ((droppedBuffers opts.maxBuffered s (framesOf opts all s label)).map List.length).sum =
    ((droppedBuffers opts.maxBuffered s (framesOf opts all s label)).map linesIn).sum

end

/-! ### Enqueuing -/

variable {opts : LogsRouteOptions} {all : Bool} {s s' mid : LogStream} {maxBuffered : Int}
  {frame : Frame} {frames : List Frame} {agentId : String}

theorem linesIn_append (xs ys : List Frame) : linesIn (xs ++ ys) = linesIn xs + linesIn ys := by
  rw [linesIn, List.map_append, List.sum_append]
  rfl

theorem linesOf_append (xs ys : List Frame) :
    linesOf agentId (xs ++ ys) = linesOf agentId xs ++ linesOf agentId ys :=
  List.filterMap_append

/-- What is delivered comes from the front of the buffer. -/
theorem flush_all (s : LogStream) :
    (flush s).delivered ++ (flush s).pending = s.delivered ++ s.pending := by
  rw [flush, List.append_assoc, List.take_append_drop]

theorem enqueueRaw_all (maxBuffered : Int) (s : LogStream) (frame : Frame) :
    (enqueueRaw maxBuffered s frame).delivered ++ (enqueueRaw maxBuffered s frame).pending =
      s.delivered ++ ((if maxBuffered ≤ s.pending.length then [.dropped s.pending.length]
        else s.pending) ++ [frame]) :=
  flush_all _

/-- The lines that frames stand for, before and after frames are enqueued. -/
theorem enqueueAll_lines (maxBuffered : Int) (s : LogStream) (frames : List Frame) :
    linesIn ((frames.foldl (enqueueRaw maxBuffered) s).delivered ++
        (frames.foldl (enqueueRaw maxBuffered) s).pending) +
      ((droppedBuffers maxBuffered s frames).map linesIn).sum =
    linesIn (s.delivered ++ s.pending) + linesIn frames +
      ((droppedBuffers maxBuffered s frames).map List.length).sum := by
  induction frames generalizing s with
  | nil => rfl
  | cons frame frames ih =>
    have hrest := ih (enqueueRaw maxBuffered s frame)
    rw [enqueueRaw_all] at hrest
    have hcons : linesIn (frame :: frames) = frame.lines + linesIn frames := List.sum_cons
    have hframe : linesIn [frame] = frame.lines := List.sum_singleton
    rw [List.foldl_cons, droppedBuffers, hcons]
    split <;> rename_i hfull
    · have hnotice : linesIn [.dropped s.pending.length] = s.pending.length :=
        List.sum_singleton
      rw [if_pos hfull] at hrest
      simp only [linesIn_append, hframe, hnotice] at hrest ⊢
      rw [List.singleton_append, List.map_cons, List.map_cons, List.sum_cons, List.sum_cons]
      omega
    · rw [if_neg hfull] at hrest
      simp only [linesIn_append, hframe] at hrest ⊢
      rw [List.nil_append]
      omega

/-- Enqueuing loses lines, and changes the order of none. -/
theorem enqueueAll_order (maxBuffered : Int) (s : LogStream) (frames : List Frame)
    (agentId : String) :
    (linesOf agentId ((frames.foldl (enqueueRaw maxBuffered) s).delivered ++
        (frames.foldl (enqueueRaw maxBuffered) s).pending)).Sublist
      (linesOf agentId (s.delivered ++ s.pending) ++ linesOf agentId frames) := by
  induction frames generalizing s with
  | nil =>
    rw [List.foldl_nil]
    exact List.sublist_append_left _ _
  | cons frame frames ih =>
    rw [List.foldl_cons]
    refine (ih (enqueueRaw maxBuffered s frame)).trans ?_
    have hcons : linesOf agentId (frame :: frames) =
        linesOf agentId [frame] ++ linesOf agentId frames := linesOf_append [frame] frames
    rw [enqueueRaw_all, hcons, ← List.append_assoc (linesOf agentId (s.delivered ++ s.pending))]
    refine List.Sublist.append_right ?_ _
    rw [linesOf_append, linesOf_append, linesOf_append, List.append_assoc]
    refine List.Sublist.append_left (List.Sublist.append_right ?_ _) _
    split
    · exact List.nil_sublist _
    · exact List.Sublist.refl _

theorem enqueueAll_rest (maxBuffered : Int) (s : LogStream) (frames : List Frame) :
    (frames.foldl (enqueueRaw maxBuffered) s).coalesceState = s.coalesceState ∧
      (frames.foldl (enqueueRaw maxBuffered) s).emitted = s.emitted := by
  induction frames generalizing s with
  | nil => exact ⟨rfl, rfl⟩
  | cons frame frames ih => exact ih (enqueueRaw maxBuffered s frame)

/-- Which buffers are dropped depends on the buffer and the demand only. -/
theorem droppedBuffers_congr (hpending : mid.pending = s.pending) (hdemand : mid.demand = s.demand)
    (frames : List Frame) :
    droppedBuffers maxBuffered mid frames = droppedBuffers maxBuffered s frames := by
  induction frames generalizing s mid with
  | nil => rfl
  | cons frame frames ih =>
    have hnext : (enqueueRaw maxBuffered mid frame).pending =
        (enqueueRaw maxBuffered s frame).pending := by
      simp only [enqueueRaw, flush, hpending, hdemand]
    have hleft : (enqueueRaw maxBuffered mid frame).demand =
        (enqueueRaw maxBuffered s frame).demand := by
      simp only [enqueueRaw, flush, hpending, hdemand]
    rw [droppedBuffers, droppedBuffers, hpending, ih hnext hleft]

/-! ### Slots -/

theorem sum_put {V : Type} (f : V → Nat) (key : String) (v : V) (ps : List (String × V)) :
    ((put key v ps).map fun p => f p.2).sum + ((ps.lookup key).map f).getD 0 =
      (ps.map fun p => f p.2).sum + f v := by
  induction ps with
  | nil => simp [put]
  | cons p ps ih =>
    obtain ⟨k, w⟩ := p
    by_cases hk : k = key
    · subst hk
      rw [put, if_pos rfl, List.lookup_cons_self]
      simp only [List.map_cons, List.sum_cons, Option.map_some, Option.getD_some]
      omega
    · have hlookup : ((k, w) :: ps).lookup key = ps.lookup key := by
        rw [List.lookup_cons, beq_false_of_ne (Ne.symm hk)]
      rw [put, if_neg hk, hlookup]
      simp only [List.map_cons, List.sum_cons]
      omega

/-- The slot of an agent is set. -/
def setSlot (s : LogStream) (agentId : String) (slot : Slot) : LogStream :=
  { s with coalesceState := put agentId slot s.coalesceState }

theorem slotOf_setSlot (s : LogStream) (agentId other : String) (slot : Slot) :
    slotOf (setSlot s agentId slot) other = if other = agentId then slot else slotOf s other := by
  unfold slotOf setSlot
  by_cases h : other = agentId
  · rw [if_pos h, h, lookup_put_self]
    rfl
  · rw [if_neg h, lookup_put_of_ne h]

theorem waiting_setSlot (s : LogStream) (agentId : String) (slot : Slot) :
    waiting (setSlot s agentId slot) + (slotOf s agentId).queued.length =
      waiting s + slot.queued.length := by
  have hsum := sum_put (fun slot : Slot => slot.queued.length) agentId slot s.coalesceState
  have hqueued : ((s.coalesceState.lookup agentId).map fun slot => slot.queued.length).getD 0 =
      (slotOf s agentId).queued.length := by
    rw [slotOf]
    cases s.coalesceState.lookup agentId <;> rfl
  rw [hqueued] at hsum
  exact hsum

/-! ### A step -/

/-- A step before its frames are enqueued: each line that it takes from a queue, or from the
tailer, it frames or queues. -/
structure Moves (maxBuffered : Int) (s mid : LogStream) (frames : List Frame) : Prop where
  buffered : mid.delivered ++ mid.pending = s.delivered ++ s.pending
  dropped : droppedBuffers maxBuffered mid frames = droppedBuffers maxBuffered s frames
  lines : waiting mid + linesIn frames + s.emitted.length = waiting s + mid.emitted.length
  order : ∀ agentId, ∃ more, emittedOf agentId mid = emittedOf agentId s ++ more ∧
    (slotOf s agentId).queued ++ more = linesOf agentId frames ++ (slotOf mid agentId).queued

theorem linesIn_logs (agentId : String) (lines : List String) :
    linesIn (lines.map (.log agentId)) = lines.length := by
  induction lines with
  | nil => rfl
  | cons line lines ih =>
    have hcons : linesIn ((line :: lines).map (.log agentId)) =
        1 + linesIn (lines.map (.log agentId)) := List.sum_cons
    rw [hcons, ih, List.length_cons, Nat.add_comm]

theorem linesOf_logs (agentId other : String) (lines : List String) :
    linesOf other (lines.map (.log agentId)) = if agentId = other then lines else [] := by
  induction lines with
  | nil => exact (ite_self _).symm
  | cons line lines ih =>
    have hcons : linesOf other ((line :: lines).map (.log agentId)) =
        linesOf other [.log agentId line] ++ linesOf other (lines.map (.log agentId)) :=
      linesOf_append [_] _
    rw [hcons, ih]
    by_cases h : agentId = other
    · simp [linesOf, Frame.lineOf, h]
    · simp [linesOf, Frame.lineOf, h]

theorem Moves.accounted (h : Moves maxBuffered s mid frames) (hs : Accounted s) :
    Accounted (frames.foldl (enqueueRaw maxBuffered) mid) ↔
      ((droppedBuffers maxBuffered s frames).map List.length).sum =
        ((droppedBuffers maxBuffered s frames).map linesIn).sum := by
  have hlines := enqueueAll_lines maxBuffered mid frames
  obtain ⟨hslots, hemitted⟩ := enqueueAll_rest maxBuffered mid frames
  have hmoved := h.lines
  rw [h.buffered, h.dropped, linesIn_append, linesIn_append] at hlines
  rw [Accounted] at hs
  rw [Accounted, waiting, hslots, hemitted, ← waiting]
  omega

theorem Moves.ordered (h : Moves maxBuffered s mid frames) (hs : Ordered s) :
    Ordered (frames.foldl (enqueueRaw maxBuffered) mid) := by
  intro agentId
  obtain ⟨more, hemittedMid, hqueued⟩ := h.order agentId
  obtain ⟨hslots, hemitted⟩ := enqueueAll_rest maxBuffered mid frames
  have horder := enqueueAll_order maxBuffered mid frames agentId
  rw [h.buffered] at horder
  have hslot : slotOf (frames.foldl (enqueueRaw maxBuffered) mid) agentId = slotOf mid agentId := by
    rw [slotOf, hslots, ← slotOf]
  have hgiven : emittedOf agentId (frames.foldl (enqueueRaw maxBuffered) mid) =
      emittedOf agentId mid := by
    rw [emittedOf, hemitted, ← emittedOf]
  rw [hslot, hgiven, hemittedMid, ← linesOf_append]
  refine (horder.append_right (slotOf mid agentId).queued).trans ?_
  rw [List.append_assoc, ← hqueued, ← List.append_assoc, linesOf_append]
  exact (hs agentId).append_right more

/-- Slots are only there where they are used. -/
def Idle (opts : LogsRouteOptions) (all : Bool) (s : LogStream) : Prop :=
  coalesceActive opts all = false → s.coalesceState = []

/-- The tailer gives a line. -/
def given (s : LogStream) (agentId line : String) : LogStream :=
  { s with emitted := s.emitted ++ [(agentId, line)] }

theorem emittedOf_given (s : LogStream) (agentId other line : String) :
    emittedOf other (given s agentId line) =
      emittedOf other s ++ if agentId = other then [line] else [] := by
  unfold emittedOf given
  rw [List.filterMap_append]
  by_cases h : agentId = other
  · simp [h]
  · simp [h]

theorem linesOf_log (agentId other line : String) :
    linesOf other [.log agentId line] = if agentId = other then [line] else [] := by
  by_cases h : agentId = other
  · simp [linesOf, Frame.lineOf, h]
  · simp [linesOf, Frame.lineOf, h]

/-- A line is framed at once. -/
theorem moves_plain (hidle : s.coalesceState = []) (agentId line : String) :
    Moves maxBuffered s (given s agentId line) [.log agentId line] := by
  refine ⟨rfl, droppedBuffers_congr rfl rfl _, ?_, fun other => ?_⟩
  · have hemitted : (given s agentId line).emitted.length = s.emitted.length + 1 :=
      List.length_append
    have hwaiting : waiting (given s agentId line) = waiting s := rfl
    have hlog : linesIn [.log agentId line] = 1 := rfl
    omega
  · have hqueued (t : LogStream) (ht : t.coalesceState = []) : (slotOf t other).queued = [] := by
      rw [slotOf, ht]
      rfl
    refine ⟨_, emittedOf_given s agentId other line, ?_⟩
    rw [hqueued s hidle, hqueued (given s agentId line) hidle, linesOf_log, List.append_nil,
      List.nil_append]

/-- A line is framed at once where none waits. -/
theorem moves_allowed {slot : Slot} (hslot : slot.queued = [])
    (hnone : (slotOf s agentId).queued = []) (line : String) :
    Moves maxBuffered s (setSlot (given s agentId line) agentId slot) [.log agentId line] := by
  refine ⟨rfl, droppedBuffers_congr rfl rfl _, ?_, fun other => ?_⟩
  · have hset := waiting_setSlot (given s agentId line) agentId slot
    have hemitted : (given s agentId line).emitted.length = s.emitted.length + 1 :=
      List.length_append
    have hwaiting : waiting (given s agentId line) = waiting s := rfl
    have hqueued : (slotOf (given s agentId line) agentId).queued = [] := hnone
    have hlog : linesIn [.log agentId line] = 1 := rfl
    have hstays : (setSlot (given s agentId line) agentId slot).emitted =
        (given s agentId line).emitted := rfl
    rw [hslot, hqueued] at hset
    rw [hstays]
    omega
  · refine ⟨_, emittedOf_given s agentId other line, ?_⟩
    rw [slotOf_setSlot, linesOf_log]
    by_cases h : other = agentId
    · rw [if_pos h, if_pos h.symm, hslot, h, hnone]
      rfl
    · rw [if_neg h, if_neg (Ne.symm h)]
      exact List.append_nil _

/-- A line has to wait. -/
theorem moves_queued {slot : Slot} {line : String}
    (hslot : slot.queued = (slotOf s agentId).queued ++ [line]) :
    Moves maxBuffered s (setSlot (given s agentId line) agentId slot) [] := by
  refine ⟨rfl, rfl, ?_, fun other => ?_⟩
  · have hset := waiting_setSlot (given s agentId line) agentId slot
    have hemitted : (given s agentId line).emitted.length = s.emitted.length + 1 :=
      List.length_append
    have hwaiting : waiting (given s agentId line) = waiting s := rfl
    have hqueued : (slotOf (given s agentId line) agentId).queued = (slotOf s agentId).queued := rfl
    have hstays : (setSlot (given s agentId line) agentId slot).emitted =
        (given s agentId line).emitted := rfl
    rw [hslot, hqueued, List.length_append, List.length_singleton] at hset
    rw [hstays]
    change _ + 0 + _ = _
    omega
  · refine ⟨_, emittedOf_given s agentId other line, ?_⟩
    rw [slotOf_setSlot]
    change _ = [] ++ _
    rw [List.nil_append]
    by_cases h : other = agentId
    · rw [if_pos h, if_pos h.symm, hslot, h]
    · rw [if_neg h, if_neg (Ne.symm h)]
      exact List.append_nil _

/-- The lines that wait are framed. -/
theorem moves_timer {slot : Slot} (hslot : slot.queued = []) :
    Moves maxBuffered s (setSlot s agentId slot)
      ((slotOf s agentId).queued.map (.log agentId)) := by
  have hpending : (setSlot s agentId slot).pending = s.pending := rfl
  refine ⟨rfl, droppedBuffers_congr hpending rfl _, ?_, fun other => ⟨[], ?_, ?_⟩⟩
  · have hset := waiting_setSlot s agentId slot
    have hstays : (setSlot s agentId slot).emitted = s.emitted := rfl
    rw [hslot] at hset
    rw [linesIn_logs, hset, hstays]
    rfl
  · exact (List.append_nil _).symm
  · rw [slotOf_setSlot, linesOf_logs]
    by_cases h : other = agentId
    · rw [if_pos h, if_pos h.symm, hslot, h]
    · rw [if_neg h, if_neg (Ne.symm h)]
      exact List.append_nil _

theorem Idle.setSlot (h : coalesceActive opts all = true) (s : LogStream) (agentId : String)
    (slot : Slot) : Idle opts all (setSlot s agentId slot) := by
  intro hoff
  rw [h] at hoff
  cases hoff

theorem logStep_moves {label : LogLabel} (hidle : Idle opts all s)
    (h : logStep opts all s label = some s') :
    ∃ mid, Moves opts.maxBuffered s mid (framesOf opts all s label) ∧ Idle opts all mid ∧
      s' = (framesOf opts all s label).foldl (enqueueRaw opts.maxBuffered) mid := by
  have hnothing (other : LogStream) (hbuffered : other.delivered ++ other.pending =
      s.delivered ++ s.pending) (hslots : other.coalesceState = s.coalesceState)
      (hemitted : other.emitted = s.emitted) (frames : List Frame)
      (hdropped : droppedBuffers opts.maxBuffered other frames =
        droppedBuffers opts.maxBuffered s frames) (hframes : linesIn frames = 0)
      (hlogs : ∀ agentId, linesOf agentId frames = []) :
      Moves opts.maxBuffered s other frames ∧ Idle opts all other := by
    refine ⟨⟨hbuffered, hdropped, ?_, fun agentId => ⟨[], ?_, ?_⟩⟩, fun hoff => ?_⟩
    · rw [waiting, hslots, hemitted, hframes, ← waiting, Nat.add_zero]
    · rw [emittedOf, hemitted, List.append_nil, ← emittedOf]
    · rw [hlogs, slotOf, slotOf, hslots, List.append_nil, List.nil_append]
    · rw [hslots, hidle hoff]
  cases label with
  | line agentId line now =>
    rw [logStep] at h
    split at h
    · obtain rfl := Option.some.inj h
      rw [framesOf]
      change ∃ mid, _ ∧ _ ∧ enqueueLogLine opts all (given s agentId line) agentId line now = _
      rw [enqueueLogLine]
      cases hactive : coalesceActive opts all with
      | false =>
        rw [if_neg Bool.false_ne_true, if_neg (by simp)]
        exact ⟨_, moves_plain (hidle hactive) agentId line, fun _ => hidle hactive, rfl⟩
      | true =>
        have hslot : slotOf (given s agentId line) agentId = slotOf s agentId := rfl
        rw [if_pos rfl]
        dsimp only
        rw [hslot]
        by_cases hnow : (slotOf s agentId).nextAllowedAt ≤ now ∧
            (slotOf s agentId).queued = []
        · rw [if_pos hnow, if_neg (fun hwaits => hwaits.2 hnow)]
          have hmoves : Moves opts.maxBuffered s (setSlot (given s agentId line) agentId
              { slotOf s agentId with nextAllowedAt := now + opts.coalesceMs })
              [.log agentId line] := moves_allowed (by exact hnow.2) hnow.2 line
          exact ⟨_, hmoves, Idle.setSlot hactive _ _ _, rfl⟩
        · rw [if_neg hnow, if_pos ⟨rfl, hnow⟩]
          exact ⟨_, moves_queued rfl, Idle.setSlot hactive _ _ _, rfl⟩
    · cases h
  | timer agentId now =>
    rw [logStep] at h
    split at h
    · rename_i htimer
      obtain rfl := Option.some.inj h
      cases hlookup : s.coalesceState.lookup agentId with
      | none =>
        rw [slotOf, hlookup] at htimer
        cases htimer
      | some slot =>
        have hslot : slotOf s agentId = slot := by
          rw [slotOf, hlookup]
          rfl
        have hactive : coalesceActive opts all = true := by
          by_contra hoff
          rw [hidle (by simpa using hoff)] at hlookup
          cases hlookup
        refine ⟨setSlot s agentId { nextAllowedAt := now + opts.coalesceMs },
          moves_timer rfl, Idle.setSlot hactive _ _ _, ?_⟩
        rw [flushCoalesced, hlookup, framesOf, hslot, List.foldl_map]
        rfl
    · cases h
  | heartbeat =>
    obtain rfl := Option.some.inj h
    obtain ⟨hmoves, hstays⟩ := hnothing s rfl rfl rfl [.comment ": keep-alive"] rfl rfl
      fun _ => rfl
    exact ⟨s, hmoves, hstays, rfl⟩
  | tailerFails message =>
    rw [logStep] at h
    split at h
    · obtain rfl := Option.some.inj h
      obtain ⟨hmoves, hstays⟩ := hnothing { s with tailing := false } rfl rfl rfl
        [.tailerError message] (droppedBuffers_congr rfl rfl _) rfl fun _ => rfl
      exact ⟨_, hmoves, hstays, rfl⟩
    · cases h
  | demands n =>
    obtain rfl := Option.some.inj h
    obtain ⟨hmoves, hstays⟩ := hnothing { s with demand := s.demand + n } rfl rfl rfl [] rfl rfl
      fun _ => rfl
    exact ⟨_, hmoves, hstays, rfl⟩
  | pull =>
    obtain rfl := Option.some.inj h
    obtain ⟨hmoves, hstays⟩ := hnothing (flush s) (flush_all s) rfl rfl [] rfl rfl fun _ => rfl
    exact ⟨_, hmoves, hstays, rfl⟩

/-! ### Runs -/

theorem opened_spec (opts : LogsRouteOptions) (all : Bool) :
    Accounted (opened opts) ∧ Ordered (opened opts) ∧ Idle opts all (opened opts) := by
  have hmoves : Moves opts.maxBuffered {} {} [.comment ": stream-open"] :=
    ⟨rfl, rfl, rfl, fun _ => ⟨[], rfl, rfl⟩⟩
  have hordered : Ordered {} := fun _ => List.Sublist.refl _
  refine ⟨(hmoves.accounted rfl).mpr ?_, hmoves.ordered hordered, fun _ => rfl⟩
  rw [droppedBuffers]
  split <;> rfl

/-- **When the lines are accounted for.**  In every state that a run leads to, the lines are
accounted for and in order just if every buffer that is dropped has as many frames as the lines
that it stands for. -/
theorem lines_accounted_iff (opts : LogsRouteOptions) (all : Bool) (labels : List LogLabel)
    (s : LogStream) :
    Run (logStep opts all) (Leads (logStep opts all) fun _ t => Accounted t ∧ Ordered t)
        (opened opts) labels s ↔
      Run (logStep opts all) (CountsLines opts all) (opened opts) labels s := by
  obtain ⟨haccounted, hordered, hidle⟩ := opened_spec opts all
  refine Run.leads_iff (P := fun t => (Accounted t ∧ Ordered t) ∧ Idle opts all t)
    ⟨⟨haccounted, hordered⟩, hidle⟩ fun t label t' ht hstep => ?_
  obtain ⟨mid, hmoves, hmid, rfl⟩ := logStep_moves ht.2 hstep
  have hrest := enqueueAll_rest opts.maxBuffered mid (framesOf opts all t label)
  have hidle' : Idle opts all ((framesOf opts all t label).foldl (enqueueRaw opts.maxBuffered)
      mid) := by
    intro hoff
    rw [hrest.1, hmid hoff]
  refine ⟨?_, fun hkept => ⟨hkept, hidle'⟩⟩
  rw [and_iff_left (hmoves.ordered ht.1.2)]
  exact hmoves.accounted ht.1.1

/-- Two frames may wait: a keep-alive and a line do when the second line comes. -/
def twoFrames : LogsRouteOptions := { maxBufferedFrames := some 2 }

theorem keep_alive_counted :
    ¬ ∀ (opts : LogsRouteOptions) (all : Bool) (labels : List LogLabel) (s : LogStream),
      Run (logStep opts all) Any (opened opts) labels s → Accounted s := by
  intro h
  have hexec : exec (logStep twoFrames false) (opened twoFrames)
      [.heartbeat, .line "a" "one" 0, .line "a" "two" 0] = some
        { demand := 0, pending := [.dropped 2, .log "a" "two"],
          delivered := [.comment ": stream-open"],
          emitted := [("a", "one"), ("a", "two")] } := by
    rfl
  have haccounted := h twoFrames false _ _ (Run.any_of_exec hexec)
  rw [Accounted] at haccounted
  cases haccounted

end Declaragent.Observability.LogsRoute
