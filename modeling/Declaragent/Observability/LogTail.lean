import Declaragent.Library.Lines
import Declaragent.Library.Transition
import Declaragent.Library.Utf8

/-!
# Observability — tailing a log

`readIncremental` asks for the size of a file, opens it and reads what is new.  A callback of the
watcher and a tick of the poll each start one and do not wait for another, so several can be on
their way, all of them on the same offset.

* `logTailStep`: a piece of a read between two awaits, what the file system does meanwhile, and the
  consumer.
* `Alone`: no read starts beside another, and none ends inside of a character.
* `exact_of_run`: then the lines are those that were appended.
-/

namespace Declaragent.Observability
open Transition Utf8

structure LogTailLine where
  agentId : String
  path : String
  line : List Char
  deriving DecidableEq

/-- The options, with `agentId` or its default. -/
structure LogTailerOptions where
  path : String
  agentId : String
  fromStart : Bool := false

structure PathState where
  offset : Nat := 0
  inode : Option Nat := none
  partialLine : List Char := []
  sawMissing : Bool := false

structure LogFile where
  ino : Nat
  bytes : Bytes

/-- What `stat` gives. -/
inductive Stat where
  | missing
  | error
  | found (size ino : Nat)

/-- How far a read is. -/
inductive ReadPhase where
  | statting
  | statted (stat : Stat)
  | opening (size toRead : Nat)
  | reading (size toRead position : Nat)
  /-- The bytes are there, and the continuation has not run. -/
  | filled (size toRead : Nat) (bytes : Bytes)
  | ended

/-- A tailer of one file.  `start` and `covered` are history: where the tailer began, and the size
of the file that the last read has seen and read up to. -/
structure LogTailer where
  file : Option LogFile := none
  state : PathState := {}
  closed : Bool := false
  queue : List LogTailLine := []
  waiters : Nat := 0
  /-- What the promises of `next` were given. -/
  yielded : List LogTailLine := []
  reads : Nat → ReadPhase := fun _ => .ended
  nextRead : Nat := 0
  start : Nat := 0
  covered : Nat := 0

inductive LogTailLabel where
  | creates (ino : Nat)
  | appends (bytes : Bytes)
  /-- The watcher or the poll starts a read. -/
  | wakes
  | stats (read : Nat) (ok : Bool)
  | statContinues (read : Nat)
  | opens (read : Nat) (ok : Bool)
  /-- The file system reads so many bytes, or fails. -/
  | fills (read : Nat) (bytesRead : Option Nat)
  | readContinues (read : Nat)
  | next
  | destroy

namespace LogTailer
variable (opts : LogTailerOptions) (s : LogTailer)

def setRead (i : Nat) (phase : ReadPhase) : LogTailer :=
  { s with reads := Function.update s.reads i phase }

def push (line : LogTailLine) : LogTailer :=
  match s.waiters with
  | waiters + 1 => { s with waiters, yielded := s.yielded ++ [line] }
  | 0 => { s with queue := s.queue ++ [line] }

/-- `stat` as the file is now. -/
def stat : Stat :=
  match s.file with
  | none => .missing
  | some file => .found file.bytes.length file.ino

/-- `readIncremental` from the size that it is given to its next await. -/
def statContinues (i : Nat) : Stat → LogTailer
  | .missing =>
    { s.setRead i .ended with
      state := { offset := 0, inode := none, partialLine := [], sawMissing := true } }
  | .error => s.setRead i .ended
  | .found size ino =>
    let t :=
      if s.state.inode = none then
        let offset := if opts.fromStart || s.state.sawMissing then 0 else size
        { s with
          state := { s.state with inode := some ino, offset }
          start := offset }
      else s
    if s.state.inode = none ∧ t.state.offset = size then
      { t.setRead i .ended with covered := size }
    else
      let t :=
        if t.state.inode ≠ some ino ∨ size < t.state.offset then
          { t with state := { t.state with inode := some ino, offset := 0, partialLine := [] } }
        else t
      if size = t.state.offset then { t.setRead i .ended with covered := size }
      else t.setRead i (.opening size (size - t.state.offset))

/-- `readIncremental` with the bytes that it has read. -/
def readContinues (i size toRead : Nat) (bytes : Bytes) : LogTailer :=
  let lines := (s.state.partialLine ++ decode bytes).splitOn '\n'
  let t := { s.setRead i .ended with
    state := { s.state with
      offset := s.state.offset + bytes.length
      partialLine := lines.getLastD [] }
    covered := if bytes.length = toRead then size else s.covered }
  if t.closed then t
  else lines.dropLast.foldl (fun t line => t.push ⟨opts.agentId, opts.path, line⟩) t

def next : LogTailer :=
  match s.queue with
  | line :: queue => { s with queue, yielded := s.yielded ++ [line] }
  | [] => if s.closed then s else { s with waiters := s.waiters + 1 }

end LogTailer

def logTailStep (opts : LogTailerOptions) (s : LogTailer) : LogTailLabel → Option LogTailer
  | .creates ino => if s.file.isNone then some { s with file := some ⟨ino, []⟩ } else none
  | .appends bytes =>
    s.file.map fun file => { s with file := some { file with bytes := file.bytes ++ bytes } }
  | .wakes =>
    if s.closed then some s
    else some { s.setRead s.nextRead .statting with nextRead := s.nextRead + 1 }
  | .stats i ok =>
    match s.reads i with
    | .statting => some (s.setRead i (.statted (if ok then s.stat else .error)))
    | _ => none
  | .statContinues i =>
    match s.reads i with
    | .statted stat => some (s.statContinues opts i stat)
    | _ => none
  | .opens i ok =>
    match s.reads i with
    | .opening size toRead =>
      some (s.setRead i (if ok then .reading size toRead s.state.offset else .ended))
    | _ => none
  | .fills i bytesRead =>
    match s.reads i, s.file, bytesRead with
    | .reading _ _ _, _, none => some (s.setRead i .ended)
    | .reading size toRead position, some file, some n =>
      if n ≤ toRead ∧ position + n ≤ file.bytes.length then
        some (s.setRead i (.filled size toRead ((file.bytes.drop position).take n)))
      else none
    | _, _, _ => none
  | .readContinues i =>
    match s.reads i with
    | .filled size toRead bytes => some (s.readContinues opts i size toRead bytes)
    | _ => none
  | .next => some s.next
  | .destroy => if s.closed then some s else some { s with closed := true, waiters := 0 }

/-! ### Exactness -/

/-- The lines that have left the reads, in the order in which the consumer is given them. -/
def LogTailer.lines (s : LogTailer) : List LogTailLine := s.yielded ++ s.queue

/-- The bytes of the file. -/
def LogTailer.bytes (s : LogTailer) : Bytes := (s.file.map (·.bytes)).getD []

/-- The lines are the complete ones of the bytes; once the tailer is closed, the last of them may
be missing. -/
def LinesOf (opts : LogTailerOptions) (s : LogTailer) (bytes : Bytes) : Prop :=
  ∃ missing, s.lines ++ missing = (Lines.complete '\n' (decode bytes)).map
    (LogTailLine.mk opts.agentId opts.path) ∧ (s.closed = false → missing = [])

/-- The lines are those of the bytes from the start of the tailer to some offset, which is at least
the size that the last read has seen. -/
def Exact (opts : LogTailerOptions) (s : LogTailer) : Prop :=
  ∃ offset, s.covered ≤ offset ∧ offset ≤ s.bytes.length ∧
    LinesOf opts s ((s.bytes.take offset).drop s.start)

/-- The bytes do not end inside of a character. -/
def Whole (bytes : Bytes) : Prop := ∀ more, decode (bytes ++ more) = decode bytes ++ decode more

def Alone (s : LogTailer) : LogTailLabel → Prop
  | .wakes => ∀ i < s.nextRead, s.reads i = .ended
  | .fills i (some n) => ∀ size toRead position, s.reads i = .reading size toRead position →
      Whole ((s.bytes.drop position).take n)
  | _ => True

/-! ### What a run keeps -/

variable {opts : LogTailerOptions} {s t : LogTailer} {i : Nat}

theorem Whole.nil : Whole [] := fun more => by
  have hnil : decode [] = [] := decode_encode []
  rw [List.nil_append, hnil, List.nil_append]

theorem Whole.append {before after : Bytes} (hbefore : Whole before) (hafter : Whole after) :
    Whole (before ++ after) := fun more => by
  rw [List.append_assoc, hbefore, hafter, hbefore, List.append_assoc]

/-- Text that was encoded is whole. -/
theorem Whole.encode (text : List Char) : Whole (encode text) := fun more => by
  rw [decode_encode_append, decode_encode]

/-- Once a read has caught up with the file, nothing is missing. -/
theorem Exact.lines_eq (h : Exact opts s) (hopen : s.closed = false)
    (hcovered : s.covered = s.bytes.length) :
    s.lines = (Lines.complete '\n' (decode (s.bytes.drop s.start))).map
      (LogTailLine.mk opts.agentId opts.path) := by
  obtain ⟨offset, hle, hlength, missing, hlines, hmissing⟩ := h
  have hoffset : offset = s.bytes.length := Nat.le_antisymm hlength (hcovered ▸ hle)
  rwa [hmissing hopen, List.append_nil, hoffset, List.take_length] at hlines

/-- What has been read since the start. -/
def LogTailer.readBytes (s : LogTailer) : Bytes := (s.bytes.take s.state.offset).drop s.start

/-- What holds of a read while no other is on its way. -/
def ReadPhase.Kept (s : LogTailer) : ReadPhase → Prop
  | .statting | .ended | .statted .error => True
  | .statted .missing => s.state.inode = none
  | .statted (.found size ino) =>
    ∃ file, s.file = some file ∧ file.ino = ino ∧ s.state.offset ≤ size ∧
      size ≤ file.bytes.length
  | .opening size toRead =>
    s.state.inode ≠ none ∧ size ≤ s.bytes.length ∧ s.state.offset + toRead = size
  | .reading size toRead position =>
    s.state.inode ≠ none ∧ size ≤ s.bytes.length ∧ s.state.offset + toRead = size ∧
      position = s.state.offset
  | .filled size toRead bytes =>
    s.state.inode ≠ none ∧ size ≤ s.bytes.length ∧ s.state.offset + toRead = size ∧
      bytes.length ≤ toRead ∧ Whole bytes ∧
        bytes = (s.bytes.drop s.state.offset).take bytes.length

/-- One read at most is on its way. -/
structure ReadsKept (s : LogTailer) : Prop where
  fresh : ∀ i, s.nextRead ≤ i → s.reads i = .ended
  one : ∀ i j, s.reads i ≠ .ended → s.reads j ≠ .ended → i = j
  read : ∀ i, (s.reads i).Kept s

/-- The lines are those of what has been read. -/
structure LinesKept (opts : LogTailerOptions) (s : LogTailer) : Prop where
  waiters : 0 < s.waiters → s.queue = []
  lines : LinesOf opts s s.readBytes
  partialLine : s.state.partialLine = Lines.rest '\n' (decode s.readBytes)
  whole : Whole s.readBytes
  unseen : s.state.inode = none → s.state.offset = 0
  seen : ∀ ino, s.state.inode = some ino → ∃ file, s.file = some file ∧ file.ino = ino
  start : s.start ≤ s.state.offset
  offset : s.state.offset ≤ s.bytes.length
  covered : s.covered ≤ s.state.offset

theorem LinesKept.exact (h : LinesKept opts s) : Exact opts s :=
  ⟨s.state.offset, h.covered, h.offset, h.lines⟩

theorem ReadsKept.others (h : ReadsKept s) (hi : s.reads i ≠ .ended) (j : Nat) (hj : j ≠ i) :
    s.reads j = .ended := by
  by_contra hne
  exact hj (h.one j i hne hi)

theorem ReadsKept.lt_nextRead (h : ReadsKept s) (hi : s.reads i ≠ .ended) : i < s.nextRead := by
  by_contra hle
  exact hi (h.fresh i (Nat.le_of_not_lt hle))

/-- One read goes on, or begins while none does. -/
theorem ReadsKept.only {phase : ReadPhase} (hothers : ∀ j, j ≠ i → s.reads j = .ended)
    (hi : i < t.nextRead) (hreads : t.reads = Function.update s.reads i phase)
    (hphase : phase.Kept t) : ReadsKept t := by
  have hother : ∀ j, j ≠ i → t.reads j = .ended := by
    intro j hj
    rw [hreads, Function.update_of_ne hj]
    exact hothers j hj
  have honly : ∀ j, t.reads j ≠ .ended → j = i := by
    intro j hj
    by_contra hne
    exact hj (hother j hne)
  refine ⟨fun j hj => hother j fun he => Nat.lt_irrefl i (Nat.lt_of_lt_of_le hi (he ▸ hj)),
    fun j k hj hk => (honly j hj).trans (honly k hk).symm, fun j => ?_⟩
  by_cases hj : j = i
  · rw [hj, hreads, Function.update_self]
    exact hphase
  · rw [hother j hj]
    exact trivial

/-- The read that is on its way goes on. -/
theorem ReadsKept.setRead (h : ReadsKept s) {phase : ReadPhase} (hi : s.reads i ≠ .ended)
    (hnext : t.nextRead = s.nextRead) (hreads : t.reads = Function.update s.reads i phase)
    (hphase : phase.Kept t) : ReadsKept t :=
  .only (h.others hi) (hnext ▸ h.lt_nextRead hi) hreads hphase

/-! ### The file -/

theorem bytes_append (s : LogTailer) {file : LogFile} (hfile : s.file = some file)
    (bytes : Bytes) : LogTailer.bytes { s with
      file := some { file with bytes := file.bytes ++ bytes } } = s.bytes ++ bytes := by
  rw [LogTailer.bytes, LogTailer.bytes, hfile]
  rfl

theorem LinesKept.append (h : LinesKept opts s) {file : LogFile} (hfile : s.file = some file)
    (bytes : Bytes) :
    LinesKept opts { s with file := some { file with bytes := file.bytes ++ bytes } } := by
  have hbytes := bytes_append s hfile bytes
  have hread : LogTailer.readBytes { s with
      file := some { file with bytes := file.bytes ++ bytes } } = s.readBytes := by
    rw [LogTailer.readBytes, hbytes, List.take_append_of_le_length h.offset]
    rfl
  refine ⟨h.waiters, ?_, ?_, ?_, h.unseen, fun ino hino => ?_, h.start, ?_, h.covered⟩
  · rw [hread]
    exact h.lines
  · rw [hread]
    exact h.partialLine
  · rw [hread]
    exact h.whole
  · obtain ⟨file', hfile', hino'⟩ := h.seen ino hino
    obtain rfl := Option.some.inj (hfile.symm.trans hfile')
    exact ⟨_, rfl, hino'⟩
  · rw [hbytes, List.length_append]
    exact Nat.le_trans h.offset (Nat.le_add_right _ _)

/-- What a read knows of the file stays true as the file grows. -/
theorem ReadPhase.Kept.append {phase : ReadPhase} (h : phase.Kept s) {file : LogFile}
    (hfile : s.file = some file) (bytes : Bytes) :
    phase.Kept { s with file := some { file with bytes := file.bytes ++ bytes } } := by
  have hbytes := bytes_append s hfile bytes
  have hle : s.bytes.length ≤ (s.bytes ++ bytes).length := by
    rw [List.length_append]
    exact Nat.le_add_right _ _
  cases phase with
  | statting => exact trivial
  | ended => exact trivial
  | statted stat =>
    cases stat with
    | missing => exact h
    | error => exact trivial
    | found size ino =>
      obtain ⟨file', hfile', hino, hoffset, hsize⟩ := h
      obtain rfl := Option.some.inj (hfile.symm.trans hfile')
      refine ⟨_, rfl, hino, hoffset, Nat.le_trans hsize ?_⟩
      rw [List.length_append]
      exact Nat.le_add_right _ _
  | opening size toRead =>
    obtain ⟨hino, hsize, htoRead⟩ := h
    exact ⟨hino, by rw [hbytes]; exact Nat.le_trans hsize hle, htoRead⟩
  | reading size toRead position =>
    obtain ⟨hino, hsize, htoRead⟩ := h
    exact ⟨hino, by rw [hbytes]; exact Nat.le_trans hsize hle, htoRead⟩
  | filled size toRead chunk =>
    obtain ⟨hino, hsize, htoRead, hlength, hwhole, hchunk⟩ := h
    refine ⟨hino, by rw [hbytes]; exact Nat.le_trans hsize hle, htoRead, hlength, hwhole, ?_⟩
    have hoffset : s.state.offset ≤ s.bytes.length := by omega
    have hfits : chunk.length ≤ (s.bytes.drop s.state.offset).length := by
      rw [List.length_drop]
      omega
    rw [hbytes]
    show chunk = ((s.bytes ++ bytes).drop s.state.offset).take chunk.length
    rw [List.drop_append_of_le_length hoffset, List.take_append_of_le_length hfits]
    exact hchunk

theorem ReadsKept.append (h : ReadsKept s) {file : LogFile} (hfile : s.file = some file)
    (bytes : Bytes) :
    ReadsKept { s with file := some { file with bytes := file.bytes ++ bytes } } :=
  ⟨h.fresh, h.one, fun i => (h.read i).append hfile bytes⟩

/-- A file that appears was not read before. -/
theorem kept_create (hreads : ReadsKept s) (hlines : LinesKept opts s) (hfile : s.file = none)
    (ino : Nat) : ReadsKept { s with file := some ⟨ino, []⟩ } ∧
      LinesKept opts { s with file := some ⟨ino, []⟩ } := by
  have hnone : s.state.inode = none := by
    cases hino : s.state.inode with
    | none => rfl
    | some ino' =>
      obtain ⟨file, hsome, -⟩ := hlines.seen ino' hino
      cases hfile.symm.trans hsome
  have hbytes : s.bytes = [] := by
    rw [LogTailer.bytes, hfile]
    rfl
  have hread : LogTailer.readBytes { s with file := some ⟨ino, []⟩ } = s.readBytes := by
    rw [LogTailer.readBytes, LogTailer.readBytes, hbytes]
    rfl
  constructor
  · refine ⟨hreads.fresh, hreads.one, fun i => ?_⟩
    have hkept := hreads.read i
    cases hphase : s.reads i with
    | statting => exact trivial
    | ended => exact trivial
    | statted stat =>
      rw [hphase] at hkept
      cases stat with
      | missing => exact hnone
      | error => exact trivial
      | found size ino' =>
        obtain ⟨file, hsome, -⟩ := hkept
        cases hfile.symm.trans hsome
    | opening size toRead => rw [hphase] at hkept; exact absurd hnone hkept.1
    | reading size toRead position => rw [hphase] at hkept; exact absurd hnone hkept.1
    | filled size toRead chunk => rw [hphase] at hkept; exact absurd hnone hkept.1
  · refine ⟨hlines.waiters, ?_, ?_, ?_, hlines.unseen,
      fun ino' hino => absurd (hnone.symm.trans hino) nofun, hlines.start, ?_, hlines.covered⟩
    · rw [hread]
      exact hlines.lines
    · rw [hread]
      exact hlines.partialLine
    · rw [hread]
      exact hlines.whole
    · have hzero : s.state.offset = 0 := hlines.unseen hnone
      show s.state.offset ≤ _
      rw [hzero]
      exact Nat.zero_le _

/-! ### The consumer -/

/-- A step that only hands lines over. -/
theorem LinesKept.hand (h : LinesKept opts s) {queue : List LogTailLine} {waiters : Nat}
    {yielded : List LogTailLine} (hwaiters : 0 < waiters → queue = [])
    (hsame : yielded ++ queue = s.lines) :
    LinesKept opts { s with queue, waiters, yielded } := by
  obtain ⟨missing, hmissing, hopen⟩ := h.lines
  have hlines : LogTailer.lines { s with queue, waiters, yielded } = s.lines := hsame
  exact ⟨hwaiters, ⟨missing, hlines ▸ hmissing, hopen⟩, h.partialLine, h.whole, h.unseen, h.seen,
    h.start, h.offset, h.covered⟩

theorem LinesKept.next (h : LinesKept opts s) : LinesKept opts s.next := by
  unfold LogTailer.next
  split
  · rename_i line queue hqueue
    refine h.hand (fun hw => ?_) ?_
    · have hempty := h.waiters hw
      rw [hqueue] at hempty
      cases hempty
    · rw [LogTailer.lines, hqueue, List.append_assoc, List.singleton_append]
  · rename_i hqueue
    split
    · exact h
    · exact h.hand (fun _ => hqueue) rfl

/-- Lines that are pushed are handed over, or queued, in their order. -/
theorem foldl_push (make : List Char → LogTailLine) :
    ∀ (lines : List (List Char)) (s : LogTailer), (0 < s.waiters → s.queue = []) →
      ∃ queue waiters yielded, lines.foldl (fun t line => t.push (make line)) s =
          { s with queue, waiters, yielded } ∧
        (0 < waiters → queue = []) ∧ yielded ++ queue = s.lines ++ lines.map make
  | [], s, h => ⟨s.queue, s.waiters, s.yielded, rfl, h, (List.append_nil _).symm⟩
  | line :: lines, s, h => by
      have hpush : ∃ queue waiters yielded, s.push (make line) =
          { s with queue, waiters, yielded } ∧ (0 < waiters → queue = []) ∧
            yielded ++ queue = s.lines ++ [make line] := by
        unfold LogTailer.push
        cases hw : s.waiters with
        | zero =>
          refine ⟨s.queue ++ [make line], 0, s.yielded, rfl, fun hpos => ?_, ?_⟩
          · cases hpos
          · rw [LogTailer.lines, List.append_assoc]
        | succ waiters =>
          have hempty : s.queue = [] := h (hw ▸ Nat.succ_pos waiters)
          refine ⟨s.queue, waiters, s.yielded ++ [make line], rfl, fun _ => hempty, ?_⟩
          rw [LogTailer.lines, hempty, List.append_nil, List.append_nil]
      obtain ⟨queue, waiters, yielded, heq, hwaiters, hlines⟩ := hpush
      obtain ⟨queue', waiters', yielded', heq', hwaiters', hlines'⟩ :=
        foldl_push make lines { s with queue, waiters, yielded } hwaiters
      refine ⟨queue', waiters', yielded', ?_, hwaiters', ?_⟩
      · rw [List.foldl_cons, heq, heq']
      · have hsame : LogTailer.lines { s with queue, waiters, yielded } = s.lines ++ [make line] :=
          hlines
        rw [hlines', hsame, List.map_cons, List.append_assoc, List.singleton_append]

/-! ### Reads -/

/-- The first look at a file that is there. -/
theorem LinesKept.sight (h : LinesKept opts s) {file : LogFile} (hfile : s.file = some file)
    (hnone : s.state.inode = none) {offset covered : Nat} (hoffset : offset ≤ file.bytes.length)
    (hcovered : covered ≤ offset) :
    LinesKept opts { s with
      state := { s.state with inode := some file.ino, offset }
      start := offset
      covered } := by
  have hzero : s.state.offset = 0 := h.unseen hnone
  have hempty : s.readBytes = [] := by
    rw [LogTailer.readBytes, hzero, List.take_zero, List.drop_nil]
  have hread : LogTailer.readBytes { s with
      state := { s.state with inode := some file.ino, offset }
      start := offset
      covered } = s.readBytes := by
    rw [hempty]
    exact List.drop_eq_nil_of_le (List.length_take_le _ _)
  have hbytes : s.bytes = file.bytes := by
    rw [LogTailer.bytes, hfile]
    rfl
  refine ⟨h.waiters, ?_, ?_, ?_, nofun, fun ino hino => ?_, Nat.le_refl _, ?_,
    hcovered⟩
  · rw [hread]
    exact h.lines
  · rw [hread]
    exact h.partialLine
  · rw [hread]
    exact h.whole
  · exact ⟨file, hfile, Option.some.inj hino⟩
  · exact hbytes ▸ hoffset

theorem LinesKept.reads (h : LinesKept opts s) (reads : Nat → ReadPhase) (nextRead : Nat) :
    LinesKept opts { s with reads, nextRead } :=
  ⟨h.waiters, h.lines, h.partialLine, h.whole, h.unseen, h.seen, h.start, h.offset, h.covered⟩

theorem LinesKept.cover (h : LinesKept opts s) {covered : Nat}
    (hcovered : covered ≤ s.state.offset) : LinesKept opts { s with covered } :=
  ⟨h.waiters, h.lines, h.partialLine, h.whole, h.unseen, h.seen, h.start, h.offset, hcovered⟩

/-- A read that is alone finds the file as it was left, or longer. -/
theorem kept_statContinues (hreads : ReadsKept s) (hlines : LinesKept opts s) {stat : Stat}
    (hphase : s.reads i = .statted stat) :
    ReadsKept (s.statContinues opts i stat) ∧ LinesKept opts (s.statContinues opts i stat) := by
  have hi : s.reads i ≠ .ended := by rw [hphase]; exact nofun
  have hkept := hreads.read i
  rw [hphase] at hkept
  cases stat with
  | error =>
    exact ⟨hreads.setRead (t := s.setRead i .ended) hi rfl rfl trivial, hlines.reads _ _⟩
  | missing =>
    have hnone : s.state.inode = none := hkept
    have hzero : s.state.offset = 0 := hlines.unseen hnone
    have hempty : s.readBytes = [] := by
      rw [LogTailer.readBytes, hzero, List.take_zero, List.drop_nil]
    have hread : (s.statContinues opts i .missing).readBytes = s.readBytes := by
      rw [hempty, LogTailer.statContinues, LogTailer.readBytes, List.take_zero, List.drop_nil]
    refine ⟨hreads.setRead hi rfl rfl trivial, hlines.waiters, ?_, ?_, ?_,
      fun _ => rfl, nofun, ?_, Nat.zero_le _, ?_⟩
    · rw [hread]
      exact hlines.lines
    · rw [hread, hempty]
      have hnil : decode [] = [] := decode_encode []
      rw [hnil, (Lines.complete_of_notMem (List.not_mem_nil)).2]
      rfl
    · rw [hread]
      exact hlines.whole
    · have hstart := hlines.start
      rwa [hzero] at hstart
    · have hcovered := hlines.covered
      rwa [hzero] at hcovered
  | found size ino =>
    obtain ⟨file, hfile, rfl, hoffset, hsize⟩ := hkept
    have hbytes : s.bytes = file.bytes := by
      rw [LogTailer.bytes, hfile]
      rfl
    cases hinode : s.state.inode with
    | none =>
      have hsight : ∀ {offset covered : Nat}, offset ≤ file.bytes.length → covered ≤ offset →
          LinesKept opts { s with
            state := { s.state with inode := some file.ino, offset }
            start := offset
            covered } :=
        fun ho hc => hlines.sight hfile hinode ho hc
      by_cases hfrom : (opts.fromStart || s.state.sawMissing) = true
      · by_cases hempty : size = 0
        · have hstep : s.statContinues opts i (.found size file.ino) =
              { ({ s with
                state := { s.state with inode := some file.ino, offset := 0 }
                start := 0 } : LogTailer).setRead i .ended with covered := size } := by
            simp [LogTailer.statContinues, hinode, hfrom, hempty]
          rw [hstep]
          refine ⟨hreads.setRead hi rfl rfl trivial, ?_⟩
          exact (hsight (Nat.zero_le _) (Nat.le_of_eq hempty)).reads _ _
        · have hstep : s.statContinues opts i (.found size file.ino) =
              ({ s with
                state := { s.state with inode := some file.ino, offset := 0 }
                start := 0 } : LogTailer).setRead i (.opening size size) := by
            simp [LogTailer.statContinues, hinode, hfrom, hempty, Ne.symm hempty]
          have hcovered : s.covered ≤ 0 := by
            have hc := hlines.covered
            rwa [hlines.unseen hinode] at hc
          rw [hstep]
          refine ⟨hreads.setRead hi rfl rfl ⟨nofun, ?_, Nat.zero_add _⟩, ?_⟩
          · exact Nat.le_trans hsize (Nat.le_of_eq (congrArg List.length hbytes).symm)
          · exact (hsight (Nat.zero_le _) hcovered).reads _ _
      · have hstep : s.statContinues opts i (.found size file.ino) =
            { ({ s with
              state := { s.state with inode := some file.ino, offset := size }
              start := size } : LogTailer).setRead i .ended with covered := size } := by
          simp [LogTailer.statContinues, hinode, hfrom]
        rw [hstep]
        refine ⟨hreads.setRead hi rfl rfl trivial, ?_⟩
        exact (hsight hsize (Nat.le_refl _)).reads _ _
    | some ino =>
      obtain ⟨file', hfile', hino⟩ := hlines.seen ino hinode
      obtain rfl := Option.some.inj (hfile.symm.trans hfile')
      subst hino
      have hshrunk : ¬ size < s.state.offset := Nat.not_lt.mpr hoffset
      by_cases hend : size = s.state.offset
      · have hstep : s.statContinues opts i (.found size file.ino) =
            { s.setRead i .ended with covered := size } := by
          simp [LogTailer.statContinues, hinode, hend]
        rw [hstep]
        refine ⟨hreads.setRead hi rfl rfl trivial, ?_⟩
        exact (hlines.cover (Nat.le_of_eq hend)).reads _ _
      · have hstep : s.statContinues opts i (.found size file.ino) =
            s.setRead i (.opening size (size - s.state.offset)) := by
          simp [LogTailer.statContinues, hinode, hend, hshrunk]
        rw [hstep]
        refine ⟨hreads.setRead hi rfl rfl ⟨?_, ?_, Nat.add_sub_cancel' hoffset⟩,
          hlines.reads _ _⟩
        · show s.state.inode ≠ none
          rw [hinode]
          exact nofun
        · exact Nat.le_trans hsize (Nat.le_of_eq (congrArg List.length hbytes).symm)

/-- The bytes that were read are decoded, and their lines handed over. -/
theorem kept_readContinues (hreads : ReadsKept s) (hlines : LinesKept opts s) {size toRead : Nat}
    {bytes : Bytes} (hphase : s.reads i = .filled size toRead bytes) :
    ReadsKept (s.readContinues opts i size toRead bytes) ∧
      LinesKept opts (s.readContinues opts i size toRead bytes) := by
  have hi : s.reads i ≠ .ended := by rw [hphase]; exact nofun
  have hkept := hreads.read i
  rw [hphase] at hkept
  obtain ⟨hinode, hsize, htoRead, hlength, hwhole, hchunk⟩ := hkept
  -- the bytes since the start, with what was read
  have hread : (s.bytes.take (s.state.offset + bytes.length)).drop s.start =
      s.readBytes ++ bytes := by
    rw [List.take_add, ← hchunk, List.drop_append_of_le_length]
    · rfl
    · rw [List.length_take, Nat.min_eq_left hlines.offset]
      exact hlines.start
  have hdecode : decode (s.readBytes ++ bytes) = decode s.readBytes ++ decode bytes :=
    hlines.whole bytes
  have hcovered : (if bytes.length = toRead then size else s.covered) ≤
      s.state.offset + bytes.length := by
    have hcovered := hlines.covered
    split <;> omega
  have hdata : ∀ {queue : List LogTailLine} {waiters : Nat} {yielded : List LogTailLine},
      (0 < waiters → queue = []) → (∃ missing, yielded ++ queue ++ missing =
        (Lines.complete '\n' (decode s.readBytes) ++
          Lines.complete '\n' (s.state.partialLine ++ decode bytes)).map
            (LogTailLine.mk opts.agentId opts.path) ∧ (s.closed = false → missing = [])) →
      LinesKept opts { s.setRead i .ended with
        state := { s.state with
          offset := s.state.offset + bytes.length
          partialLine := ((s.state.partialLine ++ decode bytes).splitOn '\n').getLastD [] }
        covered := if bytes.length = toRead then size else s.covered
        queue
        waiters
        yielded } := by
    intro queue waiters yielded hwaiters hnew
    obtain ⟨missing, hmissing, hopen⟩ := hnew
    refine ⟨hwaiters, ⟨missing, hmissing.trans ?_, hopen⟩, ?_, ?_, fun hnone => absurd hnone hinode,
      hlines.seen, Nat.le_trans hlines.start (Nat.le_add_right _ _), ?_, hcovered⟩
    · rw [hlines.partialLine, ← Lines.complete_append, ← hdecode, ← hread]
      rfl
    · have hrest : Lines.rest '\n' (s.state.partialLine ++ decode bytes) =
          Lines.rest '\n' (decode (s.readBytes ++ bytes)) := by
        rw [hlines.partialLine, ← Lines.rest_append, hdecode]
      exact hrest.trans (congrArg (fun read => Lines.rest '\n' (decode read)) hread.symm)
    · have hboth := hlines.whole.append hwhole
      rw [← hread] at hboth
      exact hboth
    · show s.state.offset + bytes.length ≤ s.bytes.length
      omega
  obtain ⟨missing, hmissing, hopen⟩ := hlines.lines
  unfold LogTailer.readContinues
  dsimp only
  split
  · rename_i hclosed
    refine ⟨hreads.setRead hi rfl rfl trivial, hdata hlines.waiters
      ⟨missing ++ (Lines.complete '\n' (s.state.partialLine ++ decode bytes)).map
        (LogTailLine.mk opts.agentId opts.path), ?_, fun hopen => ?_⟩⟩
    · rw [List.map_append, ← hmissing]
      exact (List.append_assoc _ _ _).symm
    · exact absurd (hclosed.symm.trans hopen) nofun
  · rename_i hclosed
    have hnone : missing = [] := hopen (Bool.eq_false_iff.mpr hclosed)
    rw [hnone, List.append_nil] at hmissing
    obtain ⟨queue, waiters, yielded, heq, hwaiters, hnew⟩ :=
      foldl_push (LogTailLine.mk opts.agentId opts.path)
        (Lines.complete '\n' (s.state.partialLine ++ decode bytes))
        { s.setRead i .ended with
          state := { s.state with
            offset := s.state.offset + bytes.length
            partialLine := ((s.state.partialLine ++ decode bytes).splitOn '\n').getLastD [] }
          covered := if bytes.length = toRead then size else s.covered } hlines.waiters
    rw [Lines.complete] at heq
    rw [heq]
    refine ⟨hreads.setRead hi rfl rfl trivial, hdata hwaiters ⟨[], ?_, fun _ => rfl⟩⟩
    rw [List.append_nil, hnew, List.map_append, ← hmissing]
    rfl

/-! ### Every step -/

theorem kept_step {label : LogTailLabel} (hreads : ReadsKept s) (hlines : LinesKept opts s)
    (halone : Alone s label) (hstep : logTailStep opts s label = some t) :
    ReadsKept t ∧ LinesKept opts t := by
  cases label with
  | creates ino =>
    simp only [logTailStep] at hstep
    split at hstep
    · rename_i hnone
      obtain rfl := Option.some.inj hstep
      exact kept_create hreads hlines (Option.isNone_iff_eq_none.mp hnone) ino
    · cases hstep
  | appends bytes =>
    simp only [logTailStep, Option.map_eq_some_iff] at hstep
    obtain ⟨file, hfile, rfl⟩ := hstep
    exact ⟨hreads.append hfile bytes, hlines.append hfile bytes⟩
  | wakes =>
    simp only [logTailStep] at hstep
    split at hstep
    · obtain rfl := Option.some.inj hstep
      exact ⟨hreads, hlines⟩
    · obtain rfl := Option.some.inj hstep
      refine ⟨.only (fun j _ => ?_) (Nat.lt_succ_self _) rfl trivial, hlines.reads _ _⟩
      by_cases hj : j < s.nextRead
      · exact halone j hj
      · exact hreads.fresh j (Nat.le_of_not_lt hj)
  | stats i ok =>
    simp only [logTailStep] at hstep
    split at hstep
    · rename_i hphase
      have hi : s.reads i ≠ .ended := by rw [hphase]; exact nofun
      obtain rfl := Option.some.inj hstep
      refine ⟨hreads.setRead hi rfl rfl ?_, hlines.reads _ _⟩
      split
      · unfold LogTailer.stat
        split
        · rename_i hfile
          show s.state.inode = none
          by_contra hne
          obtain ⟨ino, hino⟩ := Option.ne_none_iff_exists'.mp hne
          obtain ⟨file, hsome, -⟩ := hlines.seen ino hino
          cases hfile.symm.trans hsome
        · rename_i file hfile
          refine ⟨file, hfile, rfl, ?_, Nat.le_refl _⟩
          have hoffset := hlines.offset
          rwa [LogTailer.bytes, hfile] at hoffset
      · exact trivial
    · cases hstep
  | statContinues i =>
    simp only [logTailStep] at hstep
    split at hstep
    · rename_i stat hphase
      obtain rfl := Option.some.inj hstep
      exact kept_statContinues hreads hlines hphase
    · cases hstep
  | opens i ok =>
    simp only [logTailStep] at hstep
    split at hstep
    · rename_i size toRead hphase
      have hi : s.reads i ≠ .ended := by rw [hphase]; exact nofun
      have hkept := hreads.read i
      rw [hphase] at hkept
      obtain rfl := Option.some.inj hstep
      refine ⟨hreads.setRead hi rfl rfl ?_, hlines.reads _ _⟩
      split
      · exact ⟨hkept.1, hkept.2.1, hkept.2.2, rfl⟩
      · exact trivial
    · cases hstep
  | fills i bytesRead =>
    simp only [logTailStep] at hstep
    split at hstep
    · rename_i hphase
      have hi : s.reads i ≠ .ended := by rw [hphase]; exact nofun
      obtain rfl := Option.some.inj hstep
      exact ⟨hreads.setRead hi rfl rfl trivial, hlines.reads _ _⟩
    · rename_i size toRead position file n hphase hfile
      split at hstep
      · rename_i hn
        have hi : s.reads i ≠ .ended := by rw [hphase]; exact nofun
        have hkept := hreads.read i
        rw [hphase] at hkept
        obtain ⟨hinode, hsize, htoRead, rfl⟩ := hkept
        have hbytes : s.bytes = file.bytes := by
          rw [LogTailer.bytes, hfile]
          rfl
        obtain rfl := Option.some.inj hstep
        have hlength : ((file.bytes.drop s.state.offset).take n).length = n := by
          rw [List.length_take, List.length_drop]
          omega
        refine ⟨hreads.setRead hi rfl rfl ⟨hinode, hsize, htoRead, ?_, ?_, ?_⟩, hlines.reads _ _⟩
        · rw [hlength]
          exact hn.1
        · exact hbytes ▸ halone size toRead _ hphase
        · rw [hlength]
          exact hbytes ▸ rfl
      · cases hstep
    · cases hstep
  | readContinues i =>
    simp only [logTailStep] at hstep
    split at hstep
    · rename_i size toRead bytes hphase
      obtain rfl := Option.some.inj hstep
      exact kept_readContinues hreads hlines hphase
    · cases hstep
  | next =>
    obtain rfl := Option.some.inj hstep
    refine ⟨?_, hlines.next⟩
    unfold LogTailer.next
    split
    · exact ⟨hreads.fresh, hreads.one, hreads.read⟩
    · split
      · exact hreads
      · exact ⟨hreads.fresh, hreads.one, hreads.read⟩
  | destroy =>
    simp only [logTailStep] at hstep
    split at hstep
    · obtain rfl := Option.some.inj hstep
      exact ⟨hreads, hlines⟩
    · obtain rfl := Option.some.inj hstep
      obtain ⟨missing, hmissing, -⟩ := hlines.lines
      exact ⟨⟨hreads.fresh, hreads.one, hreads.read⟩, fun hpos => absurd hpos (Nat.lt_irrefl 0),
        ⟨missing, hmissing, nofun⟩, hlines.partialLine, hlines.whole, hlines.unseen,
        hlines.seen, hlines.start, hlines.offset, hlines.covered⟩

/-- **Tailing is exact** in a run in which no read starts beside another and none ends inside of a
character: the lines are the complete ones of what was appended since the start. -/
theorem exact_of_run {labels : List LogTailLabel} (r : Run (logTailStep opts) Alone {} labels s) :
    Exact opts s := by
  have hreads : ReadsKept {} := ⟨fun _ _ => rfl, fun _ _ hi => absurd rfl hi, fun _ => trivial⟩
  have hnil : decode [] = [] := decode_encode []
  have hlines : LinesKept opts {} := by
    refine ⟨nofun, ⟨[], ?_, fun _ => rfl⟩, ?_, Whole.nil, fun _ => rfl, nofun, Nat.le_refl _,
      Nat.le_refl _, Nat.le_refl _⟩
    · show [] = (Lines.complete '\n' (decode [])).map _
      rw [hnil, (Lines.complete_of_notMem List.not_mem_nil).1, List.map_nil]
    · show [] = Lines.rest '\n' (decode [])
      rw [hnil, (Lines.complete_of_notMem List.not_mem_nil).2]
  have hkept : ReadsKept s ∧ LinesKept opts s :=
    Run.invariant (P := fun s => ReadsKept s ∧ LinesKept opts s) ⟨hreads, hlines⟩
      (fun _ _ _ hs halone hstep => kept_step hs.1 hs.2 halone hstep) r
  exact hkept.2.exact

theorem foldl_push_idle (make : List Char → LogTailLine) :
    ∀ (lines : List (List Char)) (s : LogTailer), s.waiters = 0 →
      lines.foldl (fun t line => t.push (make line)) s =
        { s with queue := s.queue ++ lines.map make }
  | [], s, _ => by rw [List.foldl_nil, List.map_nil, List.append_nil]
  | line :: lines, s, hwaiters => by
      have hpush : s.push (make line) = { s with queue := s.queue ++ [make line] } := by
        rw [LogTailer.push, hwaiters]
      rw [List.foldl_cons, hpush]
      refine (foldl_push_idle make lines { s with queue := s.queue ++ [make line] }
        hwaiters).trans ?_
      rw [List.map_cons, List.append_assoc, List.singleton_append]

/-- What a read comes to while the tailer is open and nobody waits. -/
theorem readContinues_eq (hopen : s.closed = false) (hwaiters : s.waiters = 0) {size toRead : Nat}
    {bytes : Bytes} {lines : List (List Char)} {partialLine : List Char}
    (hsplit : (s.state.partialLine ++ decode bytes).splitOn '\n' = lines ++ [partialLine])
    (hphase : s.reads i = .filled size toRead bytes) :
    logTailStep opts s (.readContinues i) = some { s.setRead i .ended with
      state := { s.state with offset := s.state.offset + bytes.length, partialLine }
      covered := if bytes.length = toRead then size else s.covered
      queue := s.queue ++ lines.map (LogTailLine.mk opts.agentId opts.path) } := by
  have hclosed : (s.setRead i .ended).closed ≠ true := by
    show s.closed ≠ true
    rw [hopen]
    exact Bool.false_ne_true
  rw [logTailStep, hphase]
  refine congrArg some ?_
  rw [LogTailer.readContinues, hsplit, List.dropLast_concat, List.getLastD_concat, if_neg hclosed]
  exact foldl_push_idle _ _ _ hwaiters

/-- A read that leaves the end of a line, and a character of two bytes, to the next one. -/
theorem exact_of_run_tailed :
    ∃ s : LogTailer, Run (logTailStep ⟨"scribe.log", "scribe", true⟩) Alone {}
        [.creates 1, .appends (encode ['a', '\n', 'é']), .wakes, .stats 0 true, .statContinues 0,
          .opens 0 true, .fills 0 (some 4), .readContinues 0] s ∧
      s.lines.map (·.line) = [['a']] ∧ Exact ⟨"scribe.log", "scribe", true⟩ s := by
  have hchunk : Whole [97, 10, 195, 169] := Whole.encode ['a', '\n', 'é']
  have hdecode : decode [97, 10, 195, 169] = ['a', '\n', 'é'] := decode_encode ['a', '\n', 'é']
  obtain ⟨s, r, hphase, hopen, hwaiters, hlines, hrest⟩ : ∃ s : LogTailer,
      Run (logTailStep ⟨"scribe.log", "scribe", true⟩) Alone {}
        [.creates 1, .appends (encode ['a', '\n', 'é']), .wakes, .stats 0 true, .statContinues 0,
          .opens 0 true, .fills 0 (some 4)] s ∧
      s.reads 0 = .filled 4 4 [97, 10, 195, 169] ∧ s.closed = false ∧ s.waiters = 0 ∧
        s.yielded ++ s.queue = [] ∧ s.state.partialLine = [] :=
    ⟨_, ((((((Run.nil.snoc trivial rfl).snoc trivial rfl).snoc (fun _ _ => rfl) rfl).snoc trivial
      rfl).snoc trivial rfl).snoc trivial rfl).snoc (fun size toRead position hphase => by
        cases hphase
        exact hchunk) rfl, rfl, rfl, rfl, rfl, rfl⟩
  have hsplit : (s.state.partialLine ++ decode [97, 10, 195, 169]).splitOn '\n' =
      [['a']] ++ [['é']] := by
    rw [hrest, hdecode]
    decide
  have hread := r.snoc (show Alone s (.readContinues 0) from trivial)
    (readContinues_eq hopen hwaiters hsplit hphase)
  refine ⟨_, hread, ?_, exact_of_run hread⟩
  rw [LogTailer.lines, ← List.append_assoc]
  show ((s.yielded ++ s.queue) ++ _).map LogTailLine.line = _
  rw [hlines]
  rfl

/-- Two reads of the same bytes hand their line over twice, and a character that two reads share is
lost. -/
theorem lines_repeated :
    (∃ s : LogTailer, Run (logTailStep ⟨"scribe.log", "scribe", false⟩) Any {}
        [.creates 1, .wakes, .stats 0 true, .statContinues 0, .appends (encode ['a', '\n']),
          .wakes, .wakes, .stats 1 true, .stats 2 true, .statContinues 1, .statContinues 2,
          .opens 1 true, .opens 2 true, .fills 1 (some 2), .fills 2 (some 2), .readContinues 1,
          .readContinues 2] s ∧
      s.lines.map (·.line) = [['a'], ['a']] ∧ ¬ Exact ⟨"scribe.log", "scribe", false⟩ s) ∧
    ∃ s : LogTailer, Run (logTailStep ⟨"scribe.log", "scribe", true⟩) Any {}
        [.creates 1, .appends [195], .wakes, .stats 0 true, .statContinues 0, .opens 0 true,
          .fills 0 (some 1), .readContinues 0, .appends [169, 10], .wakes, .stats 1 true,
          .statContinues 1, .opens 1 true, .fills 1 (some 2), .readContinues 1] s ∧
      s.bytes = encode ['é', '\n'] ∧ s.lines.map (·.line) = [['\uFFFD', '\uFFFD']] ∧
        ¬ Exact ⟨"scribe.log", "scribe", true⟩ s := by
  constructor
  · have hdecode : decode [97, 10] = ['a', '\n'] := decode_encode ['a', '\n']
    have hsplit : ([] ++ decode [97, 10]).splitOn '\n' = [['a']] ++ [[]] := by
      rw [hdecode]
      decide
    have hboth : Run (logTailStep ⟨"scribe.log", "scribe", false⟩) Any {}
        [.creates 1, .wakes, .stats 0 true, .statContinues 0, .appends (encode ['a', '\n']),
          .wakes, .wakes, .stats 1 true, .stats 2 true, .statContinues 1, .statContinues 2,
          .opens 1 true, .opens 2 true, .fills 1 (some 2), .fills 2 (some 2)] _ :=
      .any_of_exec rfl
    have hfirst := hboth.snoc trivial (readContinues_eq (i := 1) rfl rfl hsplit rfl)
    have hsecond := hfirst.snoc trivial (readContinues_eq (i := 2) rfl rfl hsplit rfl)
    refine ⟨_, hsecond, rfl, fun hexact => ?_⟩
    have hlines := hexact.lines_eq rfl rfl
    have hone : Lines.complete '\n' (decode [97, 10]) = [['a']] := by
      rw [hdecode]
      decide
    have hlength := congrArg List.length (hlines.trans (congrArg _ hone))
    cases hlength
  · have hhead : decode [195] = ['\uFFFD'] := by
      have hchar : char? [195] = none := by decide
      rw [decode, hchar]
      show '\uFFFD' :: decode [] = _
      rw [decode]
    have htail : decode [169, 10] = ['\uFFFD', '\n'] := by
      have hchar : char? [169, 10] = none := by decide
      rw [decode, hchar]
      exact congrArg _ (decode_encode ['\n'])
    have hstart : Run (logTailStep ⟨"scribe.log", "scribe", true⟩) Any {}
        [.creates 1, .appends [195], .wakes, .stats 0 true, .statContinues 0, .opens 0 true,
          .fills 0 (some 1)] _ := .any_of_exec rfl
    have hsplit : ([] ++ decode [195]).splitOn '\n' = [] ++ [['\uFFFD']] := by
      rw [hhead]
      decide
    have hsplit' : (['\uFFFD'] ++ decode [169, 10]).splitOn '\n' =
        [['\uFFFD', '\uFFFD']] ++ [[]] := by
      rw [htail]
      decide
    have hfirst := hstart.snoc trivial (readContinues_eq (i := 0) rfl rfl hsplit rfl)
    have hbetween : Run (logTailStep ⟨"scribe.log", "scribe", true⟩) Any {}
        ([.creates 1, .appends [195], .wakes, .stats 0 true, .statContinues 0, .opens 0 true,
          .fills 0 (some 1), .readContinues 0] ++ [.appends [169, 10], .wakes, .stats 1 true,
          .statContinues 1, .opens 1 true, .fills 1 (some 2)]) _ :=
      hfirst.trans (.any_of_exec rfl)
    have hsecond := hbetween.snoc trivial (readContinues_eq (i := 1) rfl rfl hsplit' rfl)
    refine ⟨_, hsecond, rfl, rfl, fun hexact => ?_⟩
    have hlines := hexact.lines_eq rfl rfl
    have hdecode : decode [195, 169, 10] = ['é', '\n'] := decode_encode ['é', '\n']
    have hone : Lines.complete '\n' (decode [195, 169, 10]) = [['é']] := by
      rw [hdecode]
      decide
    have hline := congrArg (List.map LogTailLine.line) (hlines.trans (congrArg _ hone))
    revert hline
    decide

end Declaragent.Observability
