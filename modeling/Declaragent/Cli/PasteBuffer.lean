import Declaragent.Library.RegExp
import Declaragent.Library.Search

/-!
# Cli — bracketed paste

`PasteMachine` reads the standard input in chunks and finds the pastes between a start and an end
marker.  What may be the beginning of a marker at the end of a chunk is kept until the next one.

`Reads` says what a whole input comes to: a start at each start marker outside a paste, the text up
to the next end marker, and an end there.

* `scan_reads`: what the machine makes of one chunk.
* `Reads.append`: an input that goes on is read on from what was held back.
* `feedAll_eq`: the chunks do not matter.
-/

namespace Declaragent.Cli
open RegExp Search

def PASTE_START_MARKER : List CodeUnit := [Char.ofNat 27, '[', '2', '0', '0', '~'].map unit

def PASTE_END_MARKER : List CodeUnit := [Char.ofNat 27, '[', '2', '0', '1', '~'].map unit

inductive PasteEvent where
  | start
  | slice (text : List CodeUnit)
  | ended
  deriving DecidableEq

structure PasteMachine where
  inPaste : Bool := false
  pending : List CodeUnit := []

def PasteMachine.active (m : PasteMachine) : Bool := m.inPaste

/-- A slice is not empty. -/
def slices (text : List CodeUnit) : List PasteEvent := if text = [] then [] else [.slice text]

theorem start_ne : PASTE_START_MARKER ≠ [] := by decide

theorem end_ne : PASTE_END_MARKER ≠ [] := by decide

/-- The loop, at what is left of the chunk. -/
def scan (inPaste : Bool) (rest : List CodeUnit) : List PasteEvent × PasteMachine :=
  if _hrest : rest = [] then ([], ⟨inPaste, []⟩)
  else
    match inPaste with
    | false =>
      match _hcut : cut PASTE_START_MARKER rest with
      | none => ([], ⟨false, rest.drop (rest.length - heldBack PASTE_START_MARKER rest)⟩)
      | some (_, after) =>
        let (events, m) := scan true after
        (.start :: events, m)
    | true =>
      match _hcut : cut PASTE_END_MARKER rest with
      | none =>
        let safeUpTo := rest.length - heldBack PASTE_END_MARKER rest
        (slices (rest.take safeUpTo), ⟨true, rest.drop safeUpTo⟩)
      | some (before, after) =>
        let (events, m) := scan false after
        (slices before ++ .ended :: events, m)
termination_by rest.length
decreasing_by
  · exact cut_length start_ne _hcut
  · exact cut_length end_ne _hcut

namespace PasteMachine

def feed (m : PasteMachine) (chunk : List CodeUnit) : List PasteEvent × PasteMachine :=
  scan m.inPaste (m.pending ++ chunk)

def feedAll : PasteMachine → List (List CodeUnit) → List PasteEvent × PasteMachine
  | m, [] => ([], m)
  | m, chunk :: chunks =>
    let (events, m) := m.feed chunk
    let (more, m) := feedAll m chunks
    (events ++ more, m)

end PasteMachine

/-! ### What an input comes to -/

/-- Adjacent slices are one. -/
def joinSlices : List PasteEvent → List PasteEvent
  | [] => []
  | .slice text :: events =>
    match joinSlices events with
    | .slice more :: events => .slice (text ++ more) :: events
    | events => .slice text :: events
  | e :: events => e :: joinSlices events

/-- From outside or inside a paste, a text gives the events, and ends outside or inside a paste
with an end that may still become a marker. -/
inductive Reads : Bool → List CodeUnit → List PasteEvent → Bool → List CodeUnit → Prop where
  | outside {front tail : List CodeUnit} (hnone : ¬ PASTE_START_MARKER <:+: front ++ tail)
      (hheld : Held PASTE_START_MARKER (front ++ tail) tail) :
      Reads false (front ++ tail) [] false tail
  | starts {text before after tail : List CodeUnit} {events : List PasteEvent} {active : Bool}
      (hfirst : First PASTE_START_MARKER text before after)
      (h : Reads true after events active tail) : Reads false text (.start :: events) active tail
  | inside {front tail : List CodeUnit} (hnone : ¬ PASTE_END_MARKER <:+: front ++ tail)
      (hheld : Held PASTE_END_MARKER (front ++ tail) tail) :
      Reads true (front ++ tail) (slices front) true tail
  | ends {text before after tail : List CodeUnit} {events : List PasteEvent} {active : Bool}
      (hfirst : First PASTE_END_MARKER text before after)
      (h : Reads false after events active tail) :
      Reads true text (slices before ++ .ended :: events) active tail

variable {b active active' : Bool} {text more tail tail' : List CodeUnit}
  {events events' : List PasteEvent}

theorem Reads.unique (h : Reads b text events active tail)
    (h' : Reads b text events' active' tail') :
    events = events' ∧ active = active' ∧ tail = tail' := by
  induction h generalizing events' with
  | @outside front tail hnone hheld =>
    generalize htext : front ++ tail = text at h' hnone hheld
    cases h' with
    | outside _ hheld' => exact ⟨rfl, rfl, hheld.unique hheld'⟩
    | starts hfirst => exact absurd hfirst.occurs hnone
  | starts hfirst _ ih =>
    generalize hb : false = b at h'
    cases h' with
    | outside hnone => exact absurd hfirst.occurs hnone
    | starts hfirst' h' =>
      obtain ⟨-, rfl⟩ := hfirst.unique hfirst'
      obtain ⟨rfl, rfl, rfl⟩ := ih h'
      exact ⟨rfl, rfl, rfl⟩
    | inside => cases hb
    | ends => cases hb
  | @inside front tail hnone hheld =>
    generalize htext : front ++ tail = text at h' hnone hheld
    cases h' with
    | @inside front' tail' _ hheld' =>
      obtain rfl := hheld.unique hheld'
      rw [List.append_cancel_right htext]
      exact ⟨rfl, rfl, rfl⟩
    | ends hfirst => exact absurd hfirst.occurs hnone
  | ends hfirst _ ih =>
    generalize hb : true = b at h'
    cases h' with
    | inside hnone => exact absurd hfirst.occurs hnone
    | ends hfirst' h' =>
      obtain ⟨rfl, rfl⟩ := hfirst.unique hfirst'
      obtain ⟨rfl, rfl, rfl⟩ := ih h'
      exact ⟨rfl, rfl, rfl⟩
    | outside => cases hb
    | starts => cases hb

theorem reads_nil (b : Bool) : Reads b [] [] b [] := by
  cases b with
  | false =>
    exact @Reads.outside [] _ (fun h => start_ne (List.infix_nil.mp h))
      (held_nil start_ne)
  | true =>
    exact @Reads.inside [] _ (fun h => end_ne (List.infix_nil.mp h)) (held_nil end_ne)

/-! ### The loop -/

variable {rest before after : List CodeUnit}

theorem scan_outside (hrest : rest ≠ []) (hcut : cut PASTE_START_MARKER rest = none) :
    scan false rest =
      ([], ⟨false, rest.drop (rest.length - heldBack PASTE_START_MARKER rest)⟩) := by
  rw [scan.eq_def, dif_neg hrest]
  dsimp only
  split
  · rfl
  · rename_i hfound
    rw [hcut] at hfound
    cases hfound

theorem scan_starts (hrest : rest ≠ [])
    (hcut : cut PASTE_START_MARKER rest = some (before, after)) :
    scan false rest = (.start :: (scan true after).1, (scan true after).2) := by
  rw [scan.eq_def, dif_neg hrest]
  dsimp only
  split
  · rename_i hfound
    rw [hcut] at hfound
    cases hfound
  · rename_i hfound
    rw [hcut] at hfound
    cases hfound
    rfl

theorem scan_inside (hrest : rest ≠ []) (hcut : cut PASTE_END_MARKER rest = none) :
    scan true rest = (slices (rest.take (rest.length - heldBack PASTE_END_MARKER rest)),
      ⟨true, rest.drop (rest.length - heldBack PASTE_END_MARKER rest)⟩) := by
  rw [scan.eq_def, dif_neg hrest]
  dsimp only
  split
  · rfl
  · rename_i hfound
    rw [hcut] at hfound
    cases hfound

theorem scan_ends (hrest : rest ≠ [])
    (hcut : cut PASTE_END_MARKER rest = some (before, after)) :
    scan true rest = (slices before ++ .ended :: (scan false after).1, (scan false after).2) := by
  rw [scan.eq_def, dif_neg hrest]
  dsimp only
  split
  · rename_i hfound
    rw [hcut] at hfound
    cases hfound
  · rename_i hfound
    rw [hcut] at hfound
    cases hfound
    rfl

/-- **One chunk.** -/
theorem scan_reads (b : Bool) (rest : List CodeUnit) :
    Reads b rest (scan b rest).1 (scan b rest).2.active (scan b rest).2.pending := by
  induction b, rest using scan.induct with
  | case1 b =>
    rw [scan.eq_def, dif_pos rfl]
    exact reads_nil b
  | case2 rest hrest hcut =>
    rw [scan_outside hrest hcut]
    have hsplit := List.take_append_drop
      (rest.length - heldBack PASTE_START_MARKER rest) rest
    have h := Reads.outside (hsplit.symm ▸ cut_eq_none_iff.mp hcut)
      (hsplit.symm ▸ held_heldBack start_ne rest)
    rwa [hsplit] at h
  | case3 rest hrest before after hcut events m hscan ih =>
    rw [scan_starts hrest hcut]
    exact .starts (cut_eq_some_iff.mp hcut) ih
  | case4 rest hrest hcut =>
    rw [scan_inside hrest hcut]
    have hsplit := List.take_append_drop
      (rest.length - heldBack PASTE_END_MARKER rest) rest
    have h := Reads.inside (hsplit.symm ▸ cut_eq_none_iff.mp hcut)
      (hsplit.symm ▸ held_heldBack end_ne rest)
    rwa [hsplit] at h
  | case5 rest hrest before after hcut events m hscan ih =>
    rw [scan_ends hrest hcut]
    exact .ends (cut_eq_some_iff.mp hcut) ih

/-! ### An input that goes on -/

@[simp] theorem joinSlices_slices (text : List CodeUnit) :
    joinSlices (slices text) = slices text := by
  unfold slices
  split <;> rfl

theorem joinSlices_slices_ended (text : List CodeUnit) (events : List PasteEvent) :
    joinSlices (slices text ++ .ended :: events) = slices text ++ .ended :: joinSlices events := by
  unfold slices
  split <;> rfl

theorem joinSlices_slices_slices (text more : List CodeUnit) :
    joinSlices (slices text ++ slices more) = slices (text ++ more) := by
  unfold slices
  by_cases ht : text = []
  · by_cases hm : more = [] <;> simp [ht, hm, joinSlices]
  · by_cases hm : more = [] <;> simp [ht, hm, joinSlices]

theorem joinSlices_slices_slices_ended (text more : List CodeUnit) (events : List PasteEvent) :
    joinSlices (slices text ++ (slices more ++ .ended :: events)) =
      slices (text ++ more) ++ .ended :: joinSlices events := by
  unfold slices
  by_cases ht : text = []
  · by_cases hm : more = [] <;> simp [ht, hm, joinSlices]
  · by_cases hm : more = [] <;> simp [ht, hm, joinSlices]

theorem joinSlices_append {more : List PasteEvent}
    (h : joinSlices (joinSlices more) = joinSlices more) (events : List PasteEvent) :
    joinSlices (events ++ joinSlices more) = joinSlices (events ++ more) := by
  induction events with
  | nil => exact h
  | cons e events ih =>
    rw [List.cons_append, List.cons_append]
    cases e with
    | start => exact congrArg (List.cons _) ih
    | ended => exact congrArg (List.cons _) ih
    | slice text => rw [joinSlices, joinSlices, ih]

/-- No two slices of an input are adjacent. -/
theorem Reads.joined (h : Reads b text events active tail) : joinSlices events = events := by
  induction h with
  | outside => rfl
  | starts _ _ ih => exact congrArg (List.cons _) ih
  | inside => exact joinSlices_slices _
  | ends _ _ ih => rw [joinSlices_slices_ended, ih]

/-- What is held back comes to nothing yet. -/
theorem Reads.heldBack (h : Reads b text events active tail) :
    Reads active tail [] active tail := by
  induction h with
  | @outside front tail _ hheld =>
    have hlt := hheld.1.2.2
    exact @Reads.outside [] _ (fun h => absurd h.length_le (Nat.not_le.mpr hlt))
      ⟨⟨List.suffix_rfl, hheld.1.2⟩, fun _ h => h.1.length_le⟩
  | starts _ _ ih => exact ih
  | @inside front tail _ hheld =>
    have hlt := hheld.1.2.2
    exact @Reads.inside [] _ (fun h => absurd h.length_le (Nat.not_le.mpr hlt))
      ⟨⟨List.suffix_rfl, hheld.1.2⟩, fun _ h => h.1.length_le⟩
  | ends _ _ ih => exact ih

/-- **An input that goes on** is read on from what was held back. -/
theorem Reads.append (h : Reads b text events active tail)
    (h' : Reads active (tail ++ more) events' active' tail') :
    Reads b (text ++ more) (joinSlices (events ++ events')) active' tail' := by
  induction h with
  | @outside front tail hnone hheld =>
    rw [List.nil_append, h'.joined]
    generalize htext : tail ++ more = text at h'
    cases h' with
    | @outside front' tail' hnone' hheld' =>
      have hsplit : front ++ tail ++ more = (front ++ front') ++ tail' := by
        rw [List.append_assoc, htext, List.append_assoc]
      rw [← htext] at hnone' hheld'
      rw [hsplit]
      exact .outside (hsplit ▸ hheld.notInfix_append hnone hnone')
        (hsplit ▸ hheld.append hheld')
    | starts hfirst h' => exact .starts (hheld.first_append hnone (htext ▸ hfirst)) h'
  | starts hfirst _ ih => exact .starts (hfirst.append more) (ih h')
  | @inside front tail hnone hheld =>
    generalize htext : tail ++ more = text at h'
    cases h' with
    | @inside front' tail' hnone' hheld' =>
      have hsplit : front ++ tail ++ more = (front ++ front') ++ tail' := by
        rw [List.append_assoc, htext, List.append_assoc]
      rw [← htext] at hnone' hheld'
      rw [joinSlices_slices_slices, hsplit]
      exact .inside (hsplit ▸ hheld.notInfix_append hnone hnone')
        (hsplit ▸ hheld.append hheld')
    | ends hfirst h' =>
      rw [joinSlices_slices_slices_ended, h'.joined]
      exact .ends (hheld.first_append hnone (htext ▸ hfirst)) h'
  | ends hfirst _ ih =>
    rw [List.append_assoc, List.cons_append, joinSlices_slices_ended]
    exact .ends (hfirst.append more) (ih h')

/-- The chunks from a machine that holds back what it has read. -/
theorem feedAll_reads {m : PasteMachine} (chunks : List (List CodeUnit))
    (hm : Reads m.inPaste m.pending [] m.inPaste m.pending) :
    Reads m.inPaste (m.pending ++ chunks.flatten) (joinSlices (m.feedAll chunks).1)
      (m.feedAll chunks).2.active (m.feedAll chunks).2.pending := by
  induction chunks generalizing m with
  | nil =>
    rw [List.flatten_nil, List.append_nil]
    exact hm
  | cons chunk chunks ih =>
    have hchunk := scan_reads m.inPaste (m.pending ++ chunk)
    have hrest := ih hchunk.heldBack
    have happend := hchunk.append hrest
    rw [joinSlices_append hrest.joined, List.append_assoc] at happend
    exact happend

/-- **The chunks do not matter**: what a new machine makes of them is what the whole input comes
to, which is what it makes of the input in one piece. -/
theorem feedAll_eq (chunks : List (List CodeUnit)) :
    Reads false chunks.flatten (joinSlices (({} : PasteMachine).feedAll chunks).1)
        (({} : PasteMachine).feedAll chunks).2.active
        (({} : PasteMachine).feedAll chunks).2.pending ∧
      joinSlices (({} : PasteMachine).feedAll chunks).1 =
        (({} : PasteMachine).feed chunks.flatten).1 ∧
      (({} : PasteMachine).feedAll chunks).2 = (({} : PasteMachine).feed chunks.flatten).2 := by
  have hchunks := feedAll_reads (m := {}) chunks (reads_nil false)
  have hwhole := scan_reads false chunks.flatten
  obtain ⟨hevents, hactive, hpending⟩ := hchunks.unique hwhole
  exact ⟨hchunks, hevents, congrArg₂ PasteMachine.mk hactive hpending⟩

end Declaragent.Cli
