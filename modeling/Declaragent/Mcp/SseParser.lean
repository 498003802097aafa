import Declaragent.Library.RegExp
import Mathlib.Data.List.DropRight

/-!
# Mcp — the parser of server-sent events

The parser takes the lines of a stream out of a buffer, which `push` adds chunks to, and returns a
frame at each blank line.  A line ends with a line feed, a carriage return, or both.

A buffer that ends with a carriage return ends with a line.  If the chunk after it begins with the
line feed that goes with the carriage return, this is read as another line, a blank one.

* `Scan` reads a stream by the character, and knows whether it is behind a carriage return.
* `drain_eq`: the parser reads what is in its buffer in the same way.
* `scanChunks_iff`: what the cuts do to the frames and to where they are returned.
* `push_chunks_iff`: when the chunks do not matter.
-/

namespace Declaragent.Mcp.SSE
open RegExp (CodeUnit unit)

abbrev Text := List CodeUnit

def LF : CodeUnit := 10

def CR : CodeUnit := 13

def isLineEnd (c : CodeUnit) : Bool := c = LF || c = CR

structure SSEFrame where
  event : Text
  data : Text
  id : Option Text
  deriving DecidableEq

/-- What the lines of a frame say. -/
structure Fields where
  currentEvent : Text := []
  currentData : List Text := []
  currentId : Option Text := none
  deriving DecidableEq

structure SSEFrameParser extends Fields where
  buffer : Text := []

/-! ### Lines -/

/-- The field that a line is about, and its value. -/
def fieldOf (line : Text) : Text × Text :=
  let field := line.takeWhile (· ≠ unit ':')
  let value := (line.dropWhile (· ≠ unit ':')).tail
  (field, if value.head? = some (unit ' ') then value.tail else value)

def eventField : Text := "event".toList.map unit

def dataField : Text := "data".toList.map unit

def idField : Text := "id".toList.map unit

def Fields.processLine (f : Fields) (line : Text) : Fields :=
  if line.head? = some (unit ':') then f
  else
    let (field, value) := fieldOf line
    if field = eventField then { f with currentEvent := value }
    else if field = dataField then { f with currentData := f.currentData ++ [value] }
    else if field = idField then
      if 0 ∈ value then f else { f with currentId := some value }
    else f

/-- There is something to dispatch. -/
def Fields.isOpen (f : Fields) : Bool :=
  0 < f.currentData.length || f.currentEvent ≠ [] || f.currentId.isSome

def Fields.frame (f : Fields) : SSEFrame :=
  { event := f.currentEvent, data := [LF].intercalate f.currentData, id := f.currentId }

/-- The identifier stays. -/
def Fields.reset (f : Fields) : Fields := { currentId := f.currentId }

/-- What a line does, and the frame that it dispatches. -/
def Fields.endLine (f : Fields) (rawLine : Text) : Fields × Option SSEFrame :=
  if rawLine = [] then (f.reset, if f.isOpen then some f.frame else none)
  else (f.processLine rawLine, none)

/-! ### The parser -/

def nextLineEnd (buffer : Text) : Option Nat := buffer.findIdx? isLineEnd

def skip (buffer : Text) (lineEnd : Nat) : Nat :=
  if buffer[lineEnd]? = some CR ∧ buffer[lineEnd + 1]? = some LF then 2 else 1

theorem drop_skip_length {buffer : Text} {lineEnd : Nat} (h : nextLineEnd buffer = some lineEnd) :
    (buffer.drop (lineEnd + skip buffer lineEnd)).length < buffer.length := by
  obtain ⟨hlt, -⟩ := List.findIdx?_eq_some_iff_getElem.mp h
  have hskip : 0 < skip buffer lineEnd := by
    unfold skip
    split <;> decide
  rw [List.length_drop]
  omega

/-- The loop of `push`.  A frame comes with the offset of the line that it is dispatched at, where
`start` is the one of the buffer. -/
def drain (f : Fields) (start : Nat) (buffer : Text) : SSEFrameParser × List (Nat × SSEFrame) :=
  match _h : nextLineEnd buffer with
  | none => ({ f with buffer }, [])
  | some lineEnd =>
    let (f, frame) := f.endLine (buffer.take lineEnd)
    let taken := lineEnd + skip buffer lineEnd
    let (parser, frames) := drain f (start + taken) (buffer.drop taken)
    (parser, (frame.map (start, ·)).toList ++ frames)
termination_by buffer.length
decreasing_by exact drop_skip_length _h

namespace SSEFrameParser

def push (parser : SSEFrameParser) (chunk : Text) : SSEFrameParser × List SSEFrame :=
  let (parser, frames) := drain parser.toFields 0 (parser.buffer ++ chunk)
  (parser, frames.map (·.2))

/-- The chunks one after the other. -/
def pushAll : SSEFrameParser → List Text → List SSEFrame
  | _, [] => []
  | parser, chunk :: chunks =>
    let (parser, frames) := parser.push chunk
    frames ++ pushAll parser chunks

/-- The same frames, with the offsets in the stream that they are dispatched at.  The buffer begins
at `start`. -/
def dispatched : SSEFrameParser → Nat → List Text → List (Nat × SSEFrame)
  | _, _, [] => []
  | parser, start, chunk :: chunks =>
    let buffer := parser.buffer ++ chunk
    let (parser, frames) := drain parser.toFields start buffer
    frames ++ dispatched parser (start + buffer.length - parser.buffer.length) chunks

end SSEFrameParser

/-! ### The stream -/

/-- The lines of a stream that have ended, where `line` is the one that has begun. -/
def endedFrom : Bool → Text → Text → List Text
  | _, _, [] => []
  | afterCR, line, c :: stream =>
    if c = LF ∧ afterCR = true then endedFrom false line stream
    else if isLineEnd c then line :: endedFrom (c = CR) [] stream
    else endedFrom false (line ++ [c]) stream

def endedLines (stream : Text) : List Text := endedFrom false [] stream

/-- The lines after the last blank one. -/
def sinceBlank (lines : List Text) : List Text := lines.rtakeWhile (· ≠ [])

/-- The values that lines give a field, in order. -/
def valuesOf (field : Text) (lines : List Text) : List Text :=
  lines.filterMap fun line =>
    if (fieldOf line).1 = field then some (fieldOf line).2 else none

/-- A blank line after the stream would end a frame: since the last one there are data or an event,
or there was an identifier. -/
def FrameOpen (stream : Text) : Prop :=
  valuesOf dataField (sinceBlank (endedLines stream)) ≠ [] ∨
    (∃ value, (valuesOf eventField (sinceBlank (endedLines stream))).getLast? = some value ∧
      value ≠ []) ∨
    ∃ value ∈ valuesOf idField (endedLines stream), 0 ∉ value

/-- At the offset there is a line that ends at once. -/
def BlankAt (stream : Text) (n : Nat) : Prop :=
  ∃ c, stream[n]? = some c ∧ isLineEnd c = true ∧
    ∀ before, (stream.take n).getLast? = some before →
      isLineEnd before = true ∧ ¬ (before = CR ∧ c = LF)

/-- The chunks give the frames of the stream, each at the blank line that ends it. -/
def ReadAsOne (chunks : List Text) : Prop :=
  ({} : SSEFrameParser).pushAll chunks = (({} : SSEFrameParser).push chunks.flatten).2 ∧
    ∀ n, (∃ frame, (n, frame) ∈ ({} : SSEFrameParser).dispatched 0 chunks) ↔
      BlankAt chunks.flatten n ∧ FrameOpen (chunks.flatten.take n)

/-! ### Reading by the character -/

structure Scan where
  fields : Fields := {}
  line : Text := []
  afterCR : Bool := false

/-- The character at offset `n`. -/
def Scan.step (s : Scan) (n : Nat) (c : CodeUnit) : Scan × List (Nat × SSEFrame) :=
  if c = LF ∧ s.afterCR = true then ({ s with afterCR := false }, [])
  else if isLineEnd c then
    (⟨(s.fields.endLine s.line).1, [], c = CR⟩,
      ((s.fields.endLine s.line).2.map (n, ·)).toList)
  else (⟨s.fields, s.line ++ [c], false⟩, [])

def scan : Scan → Nat → Text → Scan × List (Nat × SSEFrame)
  | s, _, [] => (s, [])
  | s, n, c :: text =>
    ((scan (s.step n c).1 (n + 1) text).1,
      (s.step n c).2 ++ (scan (s.step n c).1 (n + 1) text).2)

/-- Behind a carriage return, no line has begun. -/
structure Scan.Kept (s : Scan) : Prop where
  line : ∀ c ∈ s.line, isLineEnd c = false
  afterCR : s.afterCR = true → s.line = []

variable {s : Scan} {f : Fields} {line text : Text} {n start : Nat} {c : CodeUnit}

theorem Scan.Kept.step (h : s.Kept) (n : Nat) (c : CodeUnit) : (s.step n c).1.Kept := by
  unfold Scan.step
  split
  · exact ⟨h.line, fun hcr => absurd hcr Bool.false_ne_true⟩
  · split
    · exact ⟨fun c hc => absurd hc List.not_mem_nil, fun _ => rfl⟩
    · rename_i hend
      refine ⟨fun c' hc => ?_, fun hcr => absurd hcr Bool.false_ne_true⟩
      rcases List.mem_append.mp hc with hc | hc
      · exact h.line c' hc
      · obtain rfl := List.mem_singleton.mp hc
        exact Bool.eq_false_iff.mpr hend

theorem Scan.Kept.scan (h : s.Kept) (n : Nat) (text : Text) : (scan s n text).1.Kept := by
  induction text generalizing s n with
  | nil => exact h
  | cons c text ih => exact ih (h.step n c) (n + 1)

theorem scan_append (s : Scan) (n : Nat) (text more : Text) :
    scan s n (text ++ more) =
      ((scan (scan s n text).1 (n + text.length) more).1,
        (scan s n text).2 ++ (scan (scan s n text).1 (n + text.length) more).2) := by
  induction text generalizing s n with
  | nil => rfl
  | cons c text ih =>
    have hlength : n + 1 + text.length = n + (c :: text).length := by
      rw [List.length_cons]
      omega
    rw [List.cons_append, scan, scan, ih, hlength, List.append_assoc]

/-! ### The parser reads by the character -/

theorem nextLineEnd_eq_none (h : ∀ c ∈ line, isLineEnd c = false) : nextLineEnd line = none :=
  List.findIdx?_eq_none_iff.mpr h

theorem nextLineEnd_append (h : ∀ c ∈ line, isLineEnd c = false) (hc : isLineEnd c = true) :
    nextLineEnd (line ++ c :: text) = some line.length := by
  have hline := nextLineEnd_eq_none h
  unfold nextLineEnd at hline ⊢
  rw [List.findIdx?_append, hline, List.findIdx?_cons, if_pos hc]
  simp

theorem skip_append (line : Text) (c : CodeUnit) (text : Text) :
    skip (line ++ c :: text) line.length = if c = CR ∧ text.head? = some LF then 2 else 1 := by
  have hnext : (line ++ c :: text)[line.length + 1]? = text.head? := by
    rw [List.getElem?_append_right (Nat.le_add_right _ _), Nat.add_sub_cancel_left,
      List.getElem?_cons_succ, List.head?_eq_getElem?]
  have hend : (line ++ c :: text)[line.length]? = some c := by
    rw [List.getElem?_append_right (Nat.le_refl _), Nat.sub_self, List.getElem?_cons_zero]
  rw [skip, hnext, hend]
  simp only [Option.some.injEq]

theorem drain_rest (h : ∀ c ∈ line, isLineEnd c = false) :
    drain f start line = ({ f with buffer := line }, []) := by
  unfold drain
  split
  · rfl
  · rename_i hsome
    rw [nextLineEnd_eq_none h] at hsome
    cases hsome

theorem drain_line (h : ∀ c ∈ line, isLineEnd c = false) (hc : isLineEnd c = true) {k : Nat}
    (hskip : skip (line ++ c :: text) line.length = k) :
    drain f start (line ++ c :: text) =
      ((drain (f.endLine line).1 (start + (line.length + k)) ((c :: text).drop k)).1,
        ((f.endLine line).2.map (start, ·)).toList ++
          (drain (f.endLine line).1 (start + (line.length + k)) ((c :: text).drop k)).2) := by
  conv => lhs; unfold drain
  split
  · rename_i hnone
    rw [nextLineEnd_append h hc] at hnone
    cases hnone
  · rename_i lineEnd hsome
    rw [nextLineEnd_append h hc] at hsome
    obtain rfl := Option.some.inj hsome
    have htake : (line ++ c :: text).take line.length = line := by
      rw [List.take_append_of_le_length (Nat.le_refl _), List.take_length]
    have hdrop : (line ++ c :: text).drop (line.length + k) = (c :: text).drop k := by
      rw [List.drop_append, List.drop_eq_nil_of_le (Nat.le_add_right _ _), List.nil_append,
        Nat.add_sub_cancel_left]
    rw [hskip, htake]
    simp only [hdrop]

/-- The frame of a line is at its end only if the line is blank. -/
theorem endLine_map_start (f : Fields) (line : Text) (start : Nat) :
    (f.endLine line).2.map (start, ·) = (f.endLine line).2.map (start + line.length, ·) := by
  unfold Fields.endLine
  split
  · rename_i hline
    rw [hline, List.length_nil, Nat.add_zero]
  · rfl

/-- Where no line feed is read first, it does not matter that there was a carriage return. -/
theorem scan_afterCR (h : text.head? ≠ some LF) (b : Bool) :
    (scan ⟨f, line, b⟩ n text).1.fields = (scan ⟨f, line, false⟩ n text).1.fields ∧
      (scan ⟨f, line, b⟩ n text).1.line = (scan ⟨f, line, false⟩ n text).1.line ∧
      (scan ⟨f, line, b⟩ n text).2 = (scan ⟨f, line, false⟩ n text).2 := by
  cases text with
  | nil => exact ⟨rfl, rfl, rfl⟩
  | cons c text =>
    have hc : c ≠ LF := fun hc => h (by rw [List.head?_cons, hc])
    have hstep : Scan.step ⟨f, line, b⟩ n c = Scan.step ⟨f, line, false⟩ n c := by
      simp only [Scan.step, hc, false_and, if_false]
    rw [scan, scan, hstep]
    exact ⟨rfl, rfl, rfl⟩

theorem step_line (hc : isLineEnd c = true) :
    Scan.step ⟨f, line, false⟩ n c =
      (⟨(f.endLine line).1, [], c = CR⟩, ((f.endLine line).2.map (n, ·)).toList) := by
  rw [Scan.step, if_neg (by simp), if_pos hc]

/-- What is in the buffer is read by the character. -/
theorem drain_eq (f : Fields) (start : Nat) (line text : Text)
    (h : ∀ c ∈ line, isLineEnd c = false) :
    drain f start (line ++ text) =
      ({ (scan ⟨f, line, false⟩ (start + line.length) text).1.fields with
          buffer := (scan ⟨f, line, false⟩ (start + line.length) text).1.line },
        (scan ⟨f, line, false⟩ (start + line.length) text).2) := by
  induction hlength : text.length using Nat.strongRecOn generalizing f start line text with
  | ind length ih =>
  cases text with
  | nil =>
    rw [List.append_nil, drain_rest h]
    rfl
  | cons c text =>
    rw [List.length_cons] at hlength
    by_cases hc : isLineEnd c = true
    · rw [drain_line h hc (skip_append line c text), scan, step_line hc,
        endLine_map_start f line start]
      by_cases hcrlf : c = CR ∧ text.head? = some LF
      · -- both characters are behind the line
        obtain ⟨rfl, hhead⟩ := hcrlf
        obtain ⟨rest, rfl⟩ := List.head?_eq_some_iff.mp hhead
        have hrest := ih rest.length (by rw [← hlength, List.length_cons]; omega)
          (f.endLine line).1 (start + (line.length + 2)) [] rest (by simp) rfl
        have hfeed : Scan.step ⟨(f.endLine line).1, [], true⟩ (start + line.length + 1) LF =
            (⟨(f.endLine line).1, [], false⟩, []) := by
          rw [Scan.step, if_pos ⟨rfl, rfl⟩]
        rw [if_pos ⟨rfl, hhead⟩, scan]
        simp only [decide_true, hfeed]
        rw [List.nil_append] at hrest ⊢
        rw [List.drop_succ_cons, List.drop_succ_cons, List.drop_zero, hrest, List.length_nil]
        rfl
      · have hrest := ih text.length (by omega) (f.endLine line).1
          (start + (line.length + 1)) [] text (by simp) rfl
        have hflag : (scan ⟨(f.endLine line).1, [], decide (c = CR)⟩ (start + line.length + 1)
              text).1.fields =
              (scan ⟨(f.endLine line).1, [], false⟩ (start + line.length + 1) text).1.fields ∧
            (scan ⟨(f.endLine line).1, [], decide (c = CR)⟩ (start + line.length + 1)
              text).1.line =
              (scan ⟨(f.endLine line).1, [], false⟩ (start + line.length + 1) text).1.line ∧
            (scan ⟨(f.endLine line).1, [], decide (c = CR)⟩ (start + line.length + 1) text).2 =
              (scan ⟨(f.endLine line).1, [], false⟩ (start + line.length + 1) text).2 := by
          by_cases hcr : c = CR
          · exact scan_afterCR (fun hhead => hcrlf ⟨hcr, hhead⟩) _
          · rw [decide_eq_false hcr]
            exact ⟨rfl, rfl, rfl⟩
        rw [if_neg hcrlf]
        dsimp only
        rw [hflag.1, hflag.2.1, hflag.2.2]
        rw [List.nil_append, List.length_nil] at hrest
        rw [List.drop_succ_cons, List.drop_zero, hrest]
        rfl
    · have hstep : Scan.step ⟨f, line, false⟩ (start + line.length) c =
          (⟨f, line ++ [c], false⟩, []) := by
        rw [Scan.step, if_neg (by simp), if_neg hc]
      have hmore : ∀ c' ∈ line ++ [c], isLineEnd c' = false := by
        intro c' hmem
        rcases List.mem_append.mp hmem with hmem | hmem
        · exact h c' hmem
        · obtain rfl := List.mem_singleton.mp hmem
          exact Bool.eq_false_iff.mpr hc
      have hrest := ih text.length (by omega) f start (line ++ [c]) text hmore rfl
      rw [List.append_assoc, List.singleton_append, List.length_append, List.length_singleton,
        ← Nat.add_assoc] at hrest
      rw [hrest, scan, hstep]
      rfl

/-! ### Chunks -/

/-- The chunks one after the other: at a cut it is forgotten that there was a carriage return. -/
def scanChunks : Scan → Nat → List Text → List (Nat × SSEFrame)
  | _, _, [] => []
  | s, n, chunk :: chunks =>
    (scan { s with afterCR := false } n chunk).2 ++
      scanChunks (scan { s with afterCR := false } n chunk).1 (n + chunk.length) chunks

theorem scan_line_length (s : Scan) (n : Nat) (text : Text) :
    (scan s n text).1.line.length ≤ s.line.length + text.length := by
  induction text generalizing s n with
  | nil => exact Nat.le_refl _
  | cons c text ih =>
    have hstep : (s.step n c).1.line.length ≤ s.line.length + 1 := by
      unfold Scan.step
      split
      · exact Nat.le_succ _
      · split
        · exact Nat.zero_le _
        · rw [List.length_append, List.length_singleton]
    have hrest := ih (s.step n c).1 (n + 1)
    rw [scan, List.length_cons]
    dsimp only
    omega

theorem scan_start (s : Scan) (n m : Nat) (text : Text) :
    (scan s n text).1 = (scan s m text).1 ∧
      (scan s n text).2.map (·.2) = (scan s m text).2.map (·.2) := by
  induction text generalizing s n m with
  | nil => exact ⟨rfl, rfl⟩
  | cons c text ih =>
    have hstep : (s.step n c).1 = (s.step m c).1 ∧
        (s.step n c).2.map (·.2) = (s.step m c).2.map (·.2) := by
      unfold Scan.step
      split
      · exact ⟨rfl, rfl⟩
      · split
        · refine ⟨rfl, ?_⟩
          cases (s.fields.endLine s.line).2 <;> rfl
        · exact ⟨rfl, rfl⟩
    obtain ⟨hscan, hframes⟩ := ih (s.step n c).1 (n + 1) (m + 1)
    rw [scan, scan, ← hstep.1]
    dsimp only
    rw [List.map_append, List.map_append, ← hstep.2, hscan, hframes]
    exact ⟨rfl, rfl⟩

theorem drain_start (f : Fields) (n m : Nat) (buffer : Text) :
    (drain f n buffer).1 = (drain f m buffer).1 ∧
      (drain f n buffer).2.map (·.2) = (drain f m buffer).2.map (·.2) := by
  have hn := drain_eq f n [] buffer (by simp)
  have hm := drain_eq f m [] buffer (by simp)
  rw [List.nil_append] at hn hm
  obtain ⟨hscan, hframes⟩ := scan_start ⟨f, [], false⟩ (n + [].length) (m + [].length) buffer
  rw [hn, hm]
  dsimp only
  rw [hscan, hframes]
  exact ⟨rfl, rfl⟩

theorem dispatched_eq (f : Fields) (start : Nat) (line : Text) (b : Bool) (chunks : List Text)
    (h : ∀ c ∈ line, isLineEnd c = false) :
    SSEFrameParser.dispatched { f with buffer := line } start chunks =
      scanChunks ⟨f, line, b⟩ (start + line.length) chunks := by
  induction chunks generalizing f line start b with
  | nil => rfl
  | cons chunk chunks ih =>
    have hkept : (scan ⟨f, line, false⟩ (start + line.length) chunk).1.Kept :=
      Scan.Kept.scan ⟨h, fun hcr => absurd hcr Bool.false_ne_true⟩ _ _
    rw [SSEFrameParser.dispatched, scanChunks]
    dsimp only
    rw [drain_eq f start line chunk h]
    dsimp only
    have hlength : (scan ⟨f, line, false⟩ (start + line.length) chunk).1.line.length ≤
        line.length + chunk.length := scan_line_length _ _ chunk
    have hoffset : start + (line ++ chunk).length -
          (scan ⟨f, line, false⟩ (start + line.length) chunk).1.line.length +
          (scan ⟨f, line, false⟩ (start + line.length) chunk).1.line.length =
        start + line.length + chunk.length := by
      rw [List.length_append]
      omega
    rw [ih _ _ _ (scan ⟨f, line, false⟩ (start + line.length) chunk).1.afterCR hkept.line,
      hoffset]

theorem pushAll_eq (parser : SSEFrameParser) (start : Nat) (chunks : List Text) :
    parser.pushAll chunks = (parser.dispatched start chunks).map (·.2) := by
  induction chunks generalizing parser start with
  | nil => rfl
  | cons chunk chunks ih =>
    obtain ⟨hparser, hframes⟩ := drain_start parser.toFields 0 start (parser.buffer ++ chunk)
    rw [SSEFrameParser.pushAll, SSEFrameParser.dispatched, SSEFrameParser.push]
    dsimp only
    rw [List.map_append, hparser, hframes, ← ih]

/-! ### What has been read -/

def atStream (stream : Text) : Scan := (scan {} 0 stream).1

variable {stream : Text}

theorem atStream_append (stream more : Text) :
    atStream (stream ++ more) = (scan (atStream stream) stream.length more).1 := by
  rw [atStream, scan_append, Nat.zero_add]
  rfl

theorem atStream_kept (stream : Text) : (atStream stream).Kept :=
  Scan.Kept.scan ⟨by simp, fun hcr => absurd hcr Bool.false_ne_true⟩ 0 stream

theorem atStream_concat (stream : Text) (c : CodeUnit) :
    atStream (stream ++ [c]) = ((atStream stream).step stream.length c).1 := by
  rw [atStream_append]
  rfl

theorem afterCR_atStream (stream : Text) :
    (atStream stream).afterCR = true ↔ stream.getLast? = some CR := by
  induction stream using List.reverseRecOn with
  | nil => simp [atStream, scan]
  | append_singleton stream c ih =>
    rw [atStream_concat, List.getLast?_concat, Option.some.injEq, Scan.step]
    split
    · rename_i hfeed
      rw [hfeed.1]
      exact iff_of_false Bool.false_ne_true (by decide)
    · split
      · exact decide_eq_true_iff
      · rename_i hend
        refine iff_of_false Bool.false_ne_true ?_
        rintro rfl
        exact hend rfl

/-- No line has begun if the stream ends with the end of one. -/
theorem line_atStream (stream : Text) :
    (atStream stream).line = [] ↔
      ∀ before, stream.getLast? = some before → isLineEnd before = true := by
  induction stream using List.reverseRecOn with
  | nil => simp [atStream, scan]
  | append_singleton stream c ih =>
    have hlast : (∀ before, (stream ++ [c]).getLast? = some before → isLineEnd before = true) ↔
        isLineEnd c = true := by
      simp
    rw [atStream_concat, hlast, Scan.step]
    split
    · rename_i hfeed
      rw [hfeed.1]
      exact iff_of_true ((atStream_kept stream).afterCR hfeed.2) rfl
    · split
      · rename_i hend
        exact iff_of_true rfl hend
      · rename_i hend
        exact iff_of_false (by simp) hend

def fieldsAfter (f : Fields) (lines : List Text) : Fields :=
  lines.foldl (fun f line => (f.endLine line).1) f

/-- The lines that have ended make up what the parser keeps. -/
theorem fields_scan (s : Scan) (n : Nat) (text : Text) :
    (scan s n text).1.fields =
      fieldsAfter s.fields (endedFrom s.afterCR s.line text) := by
  induction text generalizing s n with
  | nil => rfl
  | cons c text ih =>
    rw [scan, endedFrom, ih, Scan.step]
    split
    · rfl
    · split <;> rfl

theorem fields_atStream (stream : Text) :
    (atStream stream).fields = fieldsAfter {} (endedLines stream) :=
  fields_scan {} 0 stream

/-! ### The fields of lines -/

theorem fieldOf_comment (h : line.head? = some (unit ':')) : (fieldOf line).1 = [] := by
  obtain ⟨rest, rfl⟩ := List.head?_eq_some_iff.mp h
  simp [fieldOf]

theorem valuesOf_concat (field : Text) (lines : List Text) (line : Text) :
    valuesOf field (lines ++ [line]) = valuesOf field lines ++
      if (fieldOf line).1 = field then [(fieldOf line).2] else [] := by
  unfold valuesOf
  rw [List.filterMap_append]
  split <;> simp [*]

/-- What lines leave behind. -/
structure Left (lines : List Text) (f : Fields) : Prop where
  data : f.currentData = valuesOf dataField (sinceBlank lines)
  event : f.currentEvent = ((valuesOf eventField (sinceBlank lines)).getLast?).getD []
  id : f.currentId.isSome = true ↔ ∃ value ∈ valuesOf idField lines, 0 ∉ value

theorem sinceBlank_concat (lines : List Text) (line : Text) :
    sinceBlank (lines ++ [line]) = if line = [] then [] else sinceBlank lines ++ [line] := by
  unfold sinceBlank
  rw [List.rtakeWhile_concat]
  split <;> simp_all

theorem fields_ne : eventField ≠ dataField ∧ eventField ≠ idField ∧ dataField ≠ idField ∧
    eventField ≠ [] ∧ dataField ≠ [] ∧ idField ≠ [] := by
  decide

theorem processLine_of_other (f : Fields)
    (h : (fieldOf line).1 ∉ [eventField, dataField, idField]) :
    f.processLine line = f := by
  simp only [List.mem_cons, List.not_mem_nil, or_false, not_or] at h
  unfold Fields.processLine
  split
  · rfl
  · simp only [h, if_false]

theorem processLine_of_field (f : Fields) (h : (fieldOf line).1 ≠ []) :
    f.processLine line =
      if (fieldOf line).1 = eventField then { f with currentEvent := (fieldOf line).2 }
      else if (fieldOf line).1 = dataField then
        { f with currentData := f.currentData ++ [(fieldOf line).2] }
      else if (fieldOf line).1 = idField then
        if 0 ∈ (fieldOf line).2 then f else { f with currentId := some (fieldOf line).2 }
      else f := by
  rw [Fields.processLine, if_neg (fun hcomment => h (fieldOf_comment hcomment))]

theorem Left.reset {lines : List Text} (h : Left lines f) : Left (lines ++ [[]]) f.reset := by
  have hid : valuesOf idField (lines ++ [[]]) = valuesOf idField lines := by
    rw [valuesOf_concat, if_neg (by decide), List.append_nil]
  refine ⟨?_, ?_, ?_⟩
  · rw [sinceBlank_concat, if_pos rfl]
    rfl
  · rw [sinceBlank_concat, if_pos rfl]
    rfl
  · rw [hid]
    exact h.id

theorem Left.processLine {lines : List Text} (h : Left lines f) (hline : line ≠ []) :
    Left (lines ++ [line]) (f.processLine line) := by
  obtain ⟨hed, hei, hdi, he, hd, hi⟩ := fields_ne
  have hsince : sinceBlank (lines ++ [line]) = sinceBlank lines ++ [line] := by
    rw [sinceBlank_concat, if_neg hline]
  have hnone {field : Text} (hfield : (fieldOf line).1 ≠ field) (lines : List Text) :
      valuesOf field (lines ++ [line]) = valuesOf field lines := by
    rw [valuesOf_concat, if_neg hfield, List.append_nil]
  have hsome {field : Text} (hfield : (fieldOf line).1 = field) (lines : List Text) :
      valuesOf field (lines ++ [line]) = valuesOf field lines ++ [(fieldOf line).2] := by
    rw [valuesOf_concat, if_pos hfield]
  by_cases hevent : (fieldOf line).1 = eventField
  · rw [processLine_of_field f (hevent ▸ he), if_pos hevent]
    refine ⟨?_, ?_, ?_⟩
    · rw [hsince, hnone (hevent ▸ hed)]
      exact h.data
    · rw [hsince, hsome hevent, List.getLast?_concat]
      rfl
    · rw [hnone (hevent ▸ hei)]
      exact h.id
  by_cases hdata : (fieldOf line).1 = dataField
  · rw [processLine_of_field f (hdata ▸ hd), if_neg hevent, if_pos hdata]
    refine ⟨?_, ?_, ?_⟩
    · rw [hsince, hsome hdata, ← h.data]
    · rw [hsince, hnone hevent]
      exact h.event
    · rw [hnone (hdata ▸ hdi)]
      exact h.id
  by_cases hid : (fieldOf line).1 = idField
  · rw [processLine_of_field f (hid ▸ hi), if_neg hevent, if_neg hdata, if_pos hid]
    have hvalues : (∃ value ∈ valuesOf idField (lines ++ [line]), 0 ∉ value) ↔
        (∃ value ∈ valuesOf idField lines, 0 ∉ value) ∨ 0 ∉ (fieldOf line).2 := by
      rw [hsome hid]
      simp [or_and_right, exists_or]
    refine ⟨?_, ?_, ?_⟩
    · rw [hsince, hnone hdata, ← h.data]
      split <;> rfl
    · rw [hsince, hnone hevent, ← h.event]
      split <;> rfl
    · rw [hvalues, ← h.id]
      split
      · rename_i hnul
        exact ⟨.inl, fun hor => hor.resolve_right (not_not_intro hnul)⟩
      · rename_i hnul
        exact iff_of_true rfl (.inr hnul)
  · have hother : (fieldOf line).1 ∉ [eventField, dataField, idField] := by simp [*]
    rw [processLine_of_other f hother]
    refine ⟨?_, ?_, ?_⟩
    · rw [hsince, hnone hdata]
      exact h.data
    · rw [hsince, hnone hevent]
      exact h.event
    · rw [hnone hid]
      exact h.id

theorem left_fieldsAfter (lines : List Text) : Left lines (fieldsAfter {} lines) := by
  induction lines using List.reverseRecOn with
  | nil => exact ⟨rfl, rfl, by simp [valuesOf, fieldsAfter]⟩
  | append_singleton lines line ih =>
    have hstep : fieldsAfter {} (lines ++ [line]) =
        ((fieldsAfter {} lines).endLine line).1 := by
      rw [fieldsAfter, List.foldl_append]
      rfl
    rw [hstep]
    by_cases hline : line = []
    · subst hline
      exact ih.reset
    · rw [Fields.endLine, if_neg hline]
      exact ih.processLine hline

theorem frameOpen_iff (stream : Text) :
    FrameOpen stream ↔ (atStream stream).fields.isOpen = true := by
  have hleft := left_fieldsAfter (endedLines stream)
  rw [← fields_atStream] at hleft
  generalize (atStream stream).fields = f at hleft ⊢
  have hevent : f.currentEvent ≠ [] ↔
      ∃ value, (valuesOf eventField (sinceBlank (endedLines stream))).getLast? = some value ∧
        value ≠ [] := by
    rw [hleft.event]
    cases (valuesOf eventField (sinceBlank (endedLines stream))).getLast? <;> simp
  rw [FrameOpen, ← hleft.data, ← hevent, ← hleft.id, Fields.isOpen]
  simp [List.length_pos_iff, or_assoc]

/-- The line that has begun at the end of a stream. -/
def restFrom : Bool → Text → Text → Text
  | _, line, [] => line
  | afterCR, line, c :: stream =>
    if c = LF ∧ afterCR = true then restFrom false line stream
    else if isLineEnd c then restFrom (c = CR) [] stream
    else restFrom false (line ++ [c]) stream

/-- The frames that lines dispatch. -/
def framesOf : Fields → List Text → List SSEFrame
  | _, [] => []
  | f, line :: lines => (f.endLine line).2.toList ++ framesOf (f.endLine line).1 lines

theorem line_scan (s : Scan) (n : Nat) (text : Text) :
    (scan s n text).1.line = restFrom s.afterCR s.line text := by
  induction text generalizing s n with
  | nil => rfl
  | cons c text ih =>
    rw [scan, restFrom, ih, Scan.step]
    split
    · rfl
    · split <;> rfl

theorem frames_scan (s : Scan) (n : Nat) (text : Text) :
    (scan s n text).2.map (·.2) = framesOf s.fields (endedFrom s.afterCR s.line text) := by
  induction text generalizing s n with
  | nil => rfl
  | cons c text ih =>
    rw [scan, endedFrom, List.map_append, ih, Scan.step]
    split
    · rfl
    · split
      · rw [framesOf]
        dsimp only
        cases (s.fields.endLine s.line).2 <;> rfl
      · rfl

/-- What a chunk does: its lines are read after the one that has begun. -/
theorem push_eq (parser : SSEFrameParser) (chunk : Text)
    (h : ∀ c ∈ parser.buffer, isLineEnd c = false) :
    parser.push chunk =
      ({ fieldsAfter parser.toFields (endedFrom false parser.buffer chunk) with
          buffer := restFrom false parser.buffer chunk },
        framesOf parser.toFields (endedFrom false parser.buffer chunk)) := by
  rw [SSEFrameParser.push, drain_eq _ _ _ _ h]
  dsimp only
  rw [frames_scan, fields_scan, line_scan]

theorem restFrom_kept {line : Text} (h : ∀ c ∈ line, isLineEnd c = false) (chunk : Text) :
    ∀ c ∈ restFrom false line chunk, isLineEnd c = false := by
  have hkept : (scan ⟨{}, line, false⟩ 0 chunk).1.Kept :=
    Scan.Kept.scan ⟨h, fun hcr => absurd hcr Bool.false_ne_true⟩ 0 chunk
  have hline := hkept.line
  rwa [line_scan] at hline

/-! ### Where frames are dispatched -/

/-- A character dispatches a frame if it ends a line at once and there is something to dispatch. -/
theorem mem_step_iff (s : Scan) (m : Nat) (c : CodeUnit) (n : Nat) :
    (∃ frame, (n, frame) ∈ (s.step m c).2) ↔
      n = m ∧ isLineEnd c = true ∧ ¬ (c = LF ∧ s.afterCR = true) ∧ s.line = [] ∧
        s.fields.isOpen = true := by
  unfold Scan.step
  split
  · rename_i hfeed
    exact iff_of_false (by simp) fun h => h.2.2.1 hfeed
  · rename_i hfeed
    split
    · rename_i hend
      unfold Fields.endLine
      by_cases hline : s.line = []
      · cases hopen : s.fields.isOpen <;> simp [hline, hend, hfeed]
      · simp [hline]
    · rename_i hend
      exact iff_of_false (by simp) fun h => hend h.2.1

/-- At the end of a stream, a character dispatches a frame if it is a blank line, and a frame is
open. -/
theorem mem_step_atStream (stream : Text) (c : CodeUnit) :
    (∃ frame, (stream.length, frame) ∈ ((atStream stream).step stream.length c).2) ↔
      BlankAt (stream ++ [c]) stream.length ∧ FrameOpen stream := by
  have hend : (stream ++ [c])[stream.length]? = some c := by simp
  have htake : (stream ++ [c]).take stream.length = stream := by simp
  rw [mem_step_iff, frameOpen_iff, BlankAt, hend, htake, afterCR_atStream, line_atStream]
  constructor
  · rintro ⟨-, hc, hfeed, hbegun, hopen⟩
    refine ⟨⟨c, rfl, hc, fun before hlast => ⟨hbegun before hlast, ?_⟩⟩, hopen⟩
    rintro ⟨rfl, rfl⟩
    exact hfeed ⟨rfl, hlast⟩
  · rintro ⟨⟨c', hc', hc, hbefore⟩, hopen⟩
    obtain rfl := Option.some.inj hc'
    exact ⟨rfl, hc, fun hfeed => (hbefore CR hfeed.2).2 ⟨rfl, hfeed.1⟩,
      fun before hlast => (hbefore before hlast).1, hopen⟩

theorem le_of_mem_scan {frame : SSEFrame} (h : (n, frame) ∈ (scan s start text).2) :
    start ≤ n ∧ n < start + text.length := by
  induction text generalizing s start with
  | nil => cases h
  | cons c text ih =>
    rw [scan] at h
    rw [List.length_cons]
    rcases List.mem_append.mp h with h | h
    · obtain ⟨rfl, -⟩ := (mem_step_iff s start c n).mp ⟨frame, h⟩
      omega
    · obtain ⟨hle, hlt⟩ := ih h
      omega

theorem mem_scan_iff (stream : Text) (n : Nat) :
    (∃ frame, (n, frame) ∈ (scan {} 0 stream).2) ↔
      BlankAt stream n ∧ FrameOpen (stream.take n) := by
  induction stream using List.reverseRecOn with
  | nil => simp [scan, BlankAt]
  | append_singleton stream c ih =>
    have hscan : (scan {} 0 (stream ++ [c])).2 =
        (scan {} 0 stream).2 ++ ((atStream stream).step stream.length c).2 := by
      rw [scan_append, Nat.zero_add]
      exact congrArg _ (List.append_nil _)
    have hmem : (∃ frame, (n, frame) ∈ (scan {} 0 (stream ++ [c])).2) ↔
        (∃ frame, (n, frame) ∈ (scan {} 0 stream).2) ∨
          ∃ frame, (n, frame) ∈ ((atStream stream).step stream.length c).2 := by
      rw [hscan]
      simp only [List.mem_append, exists_or]
    rw [hmem]
    rcases Nat.lt_trichotomy n stream.length with hlt | rfl | hlt
    · have hlater : ¬ ∃ frame, (n, frame) ∈ ((atStream stream).step stream.length c).2 := by
        rw [mem_step_iff]
        exact fun h => Nat.ne_of_lt hlt h.1
      have hblank : BlankAt (stream ++ [c]) n ↔ BlankAt stream n := by
        unfold BlankAt
        rw [List.getElem?_append_left hlt, List.take_append_of_le_length (Nat.le_of_lt hlt)]
      rw [or_iff_left hlater, ih, hblank, List.take_append_of_le_length (Nat.le_of_lt hlt)]
    · have hearlier : ¬ ∃ frame, (stream.length, frame) ∈ (scan {} 0 stream).2 := by
        rintro ⟨frame, h⟩
        have hrange := le_of_mem_scan h
        omega
      rw [or_iff_right hearlier, mem_step_atStream, List.take_left]
    · have hearlier : ¬ ∃ frame, (n, frame) ∈ (scan {} 0 stream).2 := by
        rintro ⟨frame, h⟩
        have hrange := le_of_mem_scan h
        omega
      have hlater : ¬ ∃ frame, (n, frame) ∈ ((atStream stream).step stream.length c).2 := by
        rw [mem_step_iff]
        exact fun h => Nat.ne_of_gt hlt h.1
      refine iff_of_false (not_or_intro hearlier hlater) ?_
      rintro ⟨⟨c', hc', -⟩, -⟩
      rw [List.getElem?_eq_none (by rw [List.length_append, List.length_singleton]; omega)] at hc'
      cases hc'

/-! ### What the cuts do -/

/-- No cut after `before` separates a carriage return from its line feed while a frame is open. -/
def CutsFit (before : Text) (chunks : List Text) : Prop :=
  ∀ first later, chunks = first ++ later →
    (before ++ first.flatten).getLast? = some CR → later.flatten.head? = some LF →
      ¬ FrameOpen (before ++ first.flatten)

/-- At the end of a chunk nothing else is forgotten. -/
theorem scanChunks_forget (s : Scan) (b : Bool) (n : Nat) (chunks : List Text) :
    scanChunks { s with afterCR := b } n chunks = scanChunks s n chunks := by
  cases chunks <;> rfl

/-- The first character after a cut is read as without it. -/
theorem step_forget (s : Scan) (n : Nat) (h : ¬ (c = LF ∧ s.afterCR = true)) :
    Scan.step { s with afterCR := false } n c = s.step n c := by
  rw [Scan.step, Scan.step, if_neg (by simp), if_neg h]

/-- A blank line more, where there is nothing to dispatch. -/
theorem step_forget_of_idle (h : s.Kept) (n : Nat) (hcr : s.afterCR = true)
    (hidle : ¬ s.fields.isOpen = true) :
    Scan.step { s with afterCR := false } n LF = s.step n LF := by
  have hreset : s.fields.reset = s.fields := by
    have hfields := hidle
    unfold Fields.isOpen at hfields
    simp only [Bool.or_eq_true, decide_eq_true_eq, not_or, not_lt, Nat.le_zero,
      List.length_eq_zero_iff, not_not] at hfields
    obtain ⟨⟨hdata, hevent⟩, -⟩ := hfields
    rw [Fields.reset, ← hdata, ← hevent]
  have hend : isLineEnd LF = true := rfl
  rw [Scan.step, Scan.step, if_neg (by simp), if_pos hend, if_pos ⟨rfl, hcr⟩]
  simp only [Fields.endLine, h.afterCR hcr, if_pos, hreset, hidle]
  rfl

theorem scan_forget {before chunk : Text} (n : Nat)
    (h : before.getLast? = some CR → chunk.head? = some LF → ¬ FrameOpen before)
    (hne : chunk ≠ []) :
    scan { atStream before with afterCR := false } n chunk = scan (atStream before) n chunk := by
  cases chunk with
  | nil => exact absurd rfl hne
  | cons c chunk =>
    have hstep : Scan.step { atStream before with afterCR := false } n c =
        (atStream before).step n c := by
      by_cases hfeed : c = LF ∧ (atStream before).afterCR = true
      · obtain ⟨rfl, hcr⟩ := hfeed
        refine step_forget_of_idle (atStream_kept before) n hcr ?_
        rw [← frameOpen_iff]
        exact h ((afterCR_atStream before).mp hcr) rfl
      · exact step_forget _ n hfeed
    rw [scan, scan, hstep]

theorem cutsFit_cons {before chunk : Text} {chunks : List Text} :
    CutsFit before (chunk :: chunks) ↔
      (before.getLast? = some CR → (chunk :: chunks).flatten.head? = some LF →
        ¬ FrameOpen before) ∧ CutsFit (before ++ chunk) chunks := by
  constructor
  · intro h
    refine ⟨?_, fun first later hsplit => ?_⟩
    · have hfirst := h [] (chunk :: chunks) rfl
      rwa [List.flatten_nil, List.append_nil] at hfirst
    · have hnext := h (chunk :: first) later (by rw [hsplit, List.cons_append])
      rwa [List.flatten_cons, ← List.append_assoc] at hnext
  · rintro ⟨hcut, hrest⟩ first later hsplit
    cases first with
    | nil =>
      rw [List.nil_append] at hsplit
      rw [List.flatten_nil, List.append_nil, ← hsplit]
      exact hcut
    | cons first firsts =>
      rw [List.cons_append] at hsplit
      obtain ⟨rfl, hchunks⟩ := List.cons.inj hsplit
      rw [List.flatten_cons, ← List.append_assoc]
      exact hrest firsts later hchunks

theorem scanChunks_nil_cons (before : Text) (chunks : List Text) :
    scanChunks (atStream before) before.length ([] :: chunks) =
      scanChunks (atStream before) before.length chunks :=
  scanChunks_forget (atStream before) false before.length chunks

theorem scanChunks_cons {before chunk : Text} (chunks : List Text)
    (h : before.getLast? = some CR → chunk.head? = some LF → ¬ FrameOpen before)
    (hne : chunk ≠ []) :
    scanChunks (atStream before) before.length (chunk :: chunks) =
      (scan (atStream before) before.length chunk).2 ++
        scanChunks (atStream (before ++ chunk)) (before ++ chunk).length chunks := by
  rw [scanChunks, scan_forget _ h hne, atStream_append, List.length_append]

theorem head?_flatten_cons {chunk : Text} (chunks : List Text) (hne : chunk ≠ []) :
    (chunk :: chunks).flatten.head? = chunk.head? := by
  rw [List.flatten_cons, List.head?_append_of_ne_nil _ hne]

theorem scanChunks_of_cutsFit {before : Text} {chunks : List Text} (h : CutsFit before chunks) :
    scanChunks (atStream before) before.length chunks =
      (scan (atStream before) before.length chunks.flatten).2 := by
  induction chunks generalizing before with
  | nil => rfl
  | cons chunk chunks ih =>
    obtain ⟨hcut, hrest⟩ := cutsFit_cons.mp h
    by_cases hne : chunk = []
    · subst hne
      rw [List.append_nil] at hrest
      rw [scanChunks_nil_cons, ih hrest]
      rfl
    · rw [head?_flatten_cons chunks hne] at hcut
      rw [scanChunks_cons chunks hcut hne, ih hrest, List.flatten_cons, scan_append,
        atStream_append, List.length_append]

/-- The first cut that does not fit dispatches a frame at the line feed. -/
theorem dispatched_of_not_cutsFit {before : Text} {chunks : List Text}
    (h : ¬ CutsFit before chunks) :
    ∃ n frame, (n, frame) ∈ scanChunks (atStream before) before.length chunks ∧
      ¬ BlankAt (before ++ chunks.flatten) n := by
  induction chunks generalizing before with
  | nil =>
    refine absurd (fun first later hsplit _ hhead => ?_) h
    obtain ⟨-, rfl⟩ := List.append_eq_nil_iff.mp hsplit.symm
    cases hhead
  | cons chunk chunks ih =>
    by_cases hne : chunk = []
    · subst hne
      have hrest : ¬ CutsFit before chunks := by
        intro hfit
        refine h (cutsFit_cons.mpr ⟨?_, ?_⟩)
        · have hfirst := hfit [] chunks rfl
          rwa [List.flatten_nil, List.append_nil] at hfirst
        · rwa [List.append_nil]
      rw [scanChunks_nil_cons]
      exact ih hrest
    · by_cases hcut : before.getLast? = some CR → chunk.head? = some LF → ¬ FrameOpen before
      · have hrest : ¬ CutsFit (before ++ chunk) chunks := by
          intro hfit
          refine h (cutsFit_cons.mpr ⟨?_, hfit⟩)
          rwa [head?_flatten_cons chunks hne]
        obtain ⟨n, frame, hmem, hblank⟩ := ih hrest
        rw [scanChunks_cons chunks hcut hne, List.flatten_cons, ← List.append_assoc]
        exact ⟨n, frame, List.mem_append_right _ hmem, hblank⟩
      · simp only [not_forall, not_not] at hcut
        obtain ⟨hcr, hhead, hopen⟩ := hcut
        obtain ⟨rest, rfl⟩ := List.head?_eq_some_iff.mp hhead
        have hline : (atStream before).line = [] :=
          (atStream_kept before).afterCR ((afterCR_atStream before).mpr hcr)
        obtain ⟨frame, hframe⟩ :=
          (mem_step_iff { atStream before with afterCR := false } before.length LF
            before.length).mpr
            ⟨rfl, rfl, fun hfeed => Bool.false_ne_true hfeed.2, hline,
              (frameOpen_iff before).mp hopen⟩
        refine ⟨before.length, frame, ?_, ?_⟩
        · rw [scanChunks, scan]
          exact List.mem_append_left _ (List.mem_append_left _ hframe)
        · rintro ⟨c, hc, -, hbefore⟩
          have hnext : (before ++ ((LF :: rest) :: chunks).flatten)[before.length]? =
              some LF := by
            simp
          rw [hnext] at hc
          rw [List.take_left] at hbefore
          exact (hbefore CR hcr).2 ⟨rfl, (Option.some.inj hc).symm⟩

theorem dispatched_eq_scanChunks (chunks : List Text) :
    ({} : SSEFrameParser).dispatched 0 chunks = scanChunks (atStream []) 0 chunks :=
  dispatched_eq {} 0 [] false chunks (by simp)

theorem push_eq_scan (stream : Text) :
    (({} : SSEFrameParser).push stream).2 = (scan {} 0 stream).2.map (·.2) := by
  have hdrain := drain_eq {} 0 [] stream (by simp)
  rw [List.nil_append] at hdrain
  rw [SSEFrameParser.push]
  exact congrArg (fun r => r.2.map (·.2)) hdrain

/-- **Which chunks do not matter.**  The chunks of a stream give its frames, each at the blank line
that ends it, just if no cut separates a carriage return from its line feed while a frame is
open. -/
theorem push_chunks_iff (chunks : List Text) :
    ReadAsOne chunks ↔
      ∀ first later, chunks = first ++ later →
        first.flatten.getLast? = some CR → later.flatten.head? = some LF →
          ¬ FrameOpen first.flatten := by
  have hfits : CutsFit [] chunks ↔ ∀ first later, chunks = first ++ later →
      first.flatten.getLast? = some CR → later.flatten.head? = some LF →
        ¬ FrameOpen first.flatten := Iff.rfl
  rw [← hfits, ReadAsOne, pushAll_eq {} 0 chunks, push_eq_scan, dispatched_eq_scanChunks]
  constructor
  · rintro ⟨-, hblank⟩
    by_contra hcut
    obtain ⟨n, frame, hmem, hnot⟩ := dispatched_of_not_cutsFit hcut
    exact hnot ((hblank n).mp ⟨frame, hmem⟩).1
  · intro hcuts
    have hsame : scanChunks (atStream []) 0 chunks = (scan {} 0 chunks.flatten).2 :=
      scanChunks_of_cutsFit hcuts
    rw [hsame]
    exact ⟨rfl, mem_scan_iff chunks.flatten⟩

/-- An identifier alone: the line feed behind it ends a frame. -/
theorem split_line_end : ¬ ∀ chunks, ReadAsOne chunks := by
  intro h
  have hframes := (h ["id: 1".toList.map unit ++ [CR], [LF]]).1
  rw [pushAll_eq {} 0, dispatched_eq_scanChunks, push_eq_scan] at hframes
  revert hframes
  decide

end Declaragent.Mcp.SSE
