import Declaragent.Library.Fences
import Declaragent.Library.Markup

/-!
# Channels — long messages

A message that is too long for a platform is cut into chunks, at paragraphs, else at lines, at words
or anywhere, and each chunk ends with its number.  A block of code between two fences is kept whole.

* `chunks_whole`: the chunks without their numbers are the text; each has paired fences, where it
  ends before an unpaired fence of the text; and no chunk is too long but a block that is, or one
  with a number that is wider than what was kept for it.
* `unpaired_kept`: a text with an unpaired fence is a chunk with an unpaired fence; ten thousand
  chunks have numbers that are too wide.
-/

namespace Declaragent.Channels
open RegExp (CodeUnit unit)
open Markup (units decimal)
open Search Fences

/-! ### Cutting -/

def codeFence : List CodeUnit := units "```"

inductive Segment where
  | text (text : List CodeUnit)
  | fence (text : List CodeUnit)

/-- Texts and blocks of code in turn; each turn takes a fence at least. -/
def segmentsFrom : Nat → List CodeUnit → List Segment
  | 0, _ => []
  | _ + 1, [] => []
  | fuel + 1, c :: text =>
    match cut codeFence (c :: text) with
    | none => [.text (c :: text)]
    | some (before, rest) =>
      (if before = [] then [] else [.text before]) ++
        match cut codeFence rest with
        | none => [.text (codeFence ++ rest)]
        | some (inside, after) =>
          .fence (codeFence ++ inside ++ codeFence) :: segmentsFrom fuel after

def segmentPreservingFences (text : List CodeUnit) : List Segment := segmentsFrom text.length text

/-- Each turn takes a separator at least. -/
def splitKeepingFrom (separator : List CodeUnit) : Nat → List CodeUnit → List (List CodeUnit)
  | 0, _ => []
  | _ + 1, [] => []
  | fuel + 1, c :: text =>
    match cut separator (c :: text) with
    | none => [c :: text]
    | some (before, after) => (before ++ separator) :: splitKeepingFrom separator fuel after

def splitKeepingSeparator (text separator : List CodeUnit) : List (List CodeUnit) :=
  splitKeepingFrom separator text.length text

/-- Slices of the budget; each turn takes a unit at least. -/
def hardCut (budget : Nat) : Nat → List CodeUnit → List (List CodeUnit)
  | 0, _ => []
  | _ + 1, [] => []
  | fuel + 1, c :: word =>
    (c :: word).take budget :: hardCut budget fuel ((c :: word).drop budget)

/-- The part, or its parts where it is too long. -/
def orSplit (budget : Nat) (split : List CodeUnit → List (List CodeUnit)) (part : List CodeUnit) :
    List (List CodeUnit) :=
  if part.length ≤ budget then [part] else split part

def splitWord (budget : Nat) (word : List CodeUnit) : List (List CodeUnit) :=
  hardCut budget word.length word

def splitLine (budget : Nat) (line : List CodeUnit) : List (List CodeUnit) :=
  (splitKeepingSeparator line (units " ")).flatMap (orSplit budget (splitWord budget))

def splitParagraph (budget : Nat) (para : List CodeUnit) : List (List CodeUnit) :=
  (splitKeepingSeparator para (units "\n")).flatMap (orSplit budget (splitLine budget))

def splitText (budget : Nat) (text : List CodeUnit) : List (List CodeUnit) :=
  (splitKeepingSeparator text (units "\n\n")).flatMap (orSplit budget (splitParagraph budget))

/-! ### Packing -/

structure SplitUnit where
  text : List CodeUnit
  oversized : Bool

def segmentUnits (budget : Nat) : Segment → List SplitUnit
  | .fence text => [⟨text, budget < text.length⟩]
  | .text text => (splitText budget text).map (⟨·, false⟩)

def flush (buf : List CodeUnit) : List (List CodeUnit) := if buf.length > 0 then [buf] else []

/-- The chunks that are still to come, with what is in the buffer. -/
def pack (budget : Nat) : List CodeUnit → List SplitUnit → List (List CodeUnit)
  | buf, [] => flush buf
  | buf, u :: us =>
    if u.oversized then flush buf ++ u.text :: pack budget [] us
    else if buf.length > 0 ∧ buf.length + u.text.length > budget then
      flush buf ++ pack budget u.text us
    else pack budget (buf ++ u.text) us

/-- The number of a chunk, where there are more. -/
def partMarker (i n : Nat) : List CodeUnit :=
  if n = 1 then [] else units " (" ++ decimal (i + 1) ++ units "/" ++ decimal n ++ units ")"

structure SplitOptions where
  maxLen : Nat
  suffixReserve : Option Nat

def DEFAULT_SUFFIX_RESERVE : Nat := 12

def SplitOptions.reserve (options : SplitOptions) : Nat :=
  options.suffixReserve.getD DEFAULT_SUFFIX_RESERVE

def numbered (chunks : List (List CodeUnit)) : List (List CodeUnit) :=
  chunks.mapIdx fun i chunk => chunk ++ partMarker i chunks.length

def splitLongText (text : List CodeUnit) (options : SplitOptions) :
    Except String (List (List CodeUnit)) :=
  if options.maxLen = 0 then
    .error s!"splitLongText: maxLen must be > 0 (got {options.maxLen})"
  else if text.length ≤ options.maxLen then .ok [text]
  else
    let budget := max 1 (options.maxLen - options.reserve)
    let units := (segmentPreservingFences text).flatMap (segmentUnits budget)
    .ok (numbered (pack budget [] units))

/-! ### The parts of a text -/

/-- The parts make up the text, and none is empty. -/
structure Parts (text : List CodeUnit) (parts : List (List CodeUnit)) : Prop where
  flatten : parts.flatten = text
  ne_nil : ∀ part ∈ parts, part ≠ []

theorem Parts.flatMap {text : List CodeUnit} {parts : List (List CodeUnit)} (h : Parts text parts)
    {split : List CodeUnit → List (List CodeUnit)}
    (hsplit : ∀ part, part ≠ [] → Parts part (split part)) :
    Parts text (parts.flatMap split) := by
  refine ⟨?_, fun piece hpiece => ?_⟩
  · rw [← h.flatten, List.flatMap, List.flatten_flatten, List.map_map]
    have hmap : parts.map (List.flatten ∘ split) = parts.map id :=
      List.map_congr_left fun part hpart => (hsplit part (h.ne_nil part hpart)).flatten
    rw [hmap, List.map_id]
  · obtain ⟨part, hpart, hmem⟩ := List.mem_flatMap.mp hpiece
    exact (hsplit part (h.ne_nil part hpart)).ne_nil piece hmem

theorem parts_orSplit {budget : Nat} {split : List CodeUnit → List (List CodeUnit)}
    {part : List CodeUnit} (hne : part ≠ []) (h : Parts part (split part)) :
    Parts part (orSplit budget split part) := by
  rw [orSplit]
  split_ifs
  · refine ⟨List.flatten_singleton, fun piece hpiece => ?_⟩
    rw [List.mem_singleton.mp hpiece]
    exact hne
  · exact h

theorem parts_splitKeepingFrom {separator : List CodeUnit} (hsep : separator ≠ []) (fuel : Nat)
    (text : List CodeUnit) (hfuel : text.length ≤ fuel) :
    Parts text (splitKeepingFrom separator fuel text) := by
  induction fuel generalizing text with
  | zero =>
    rw [List.eq_nil_of_length_eq_zero (Nat.le_zero.mp hfuel)]
    exact ⟨rfl, fun part hpart => (by cases hpart)⟩
  | succ fuel ih =>
    cases text with
    | nil => exact ⟨rfl, fun part hpart => (by cases hpart)⟩
    | cons c text =>
      rw [splitKeepingFrom]
      cases hcut : cut separator (c :: text) with
      | none =>
        refine ⟨List.flatten_singleton, fun part hpart => ?_⟩
        rw [List.mem_singleton.mp hpart]
        exact List.cons_ne_nil _ _
      | some p =>
        obtain ⟨before, after⟩ := p
        have hlt := cut_length hsep hcut
        have hrest := ih after (by omega)
        refine ⟨?_, fun part hpart => ?_⟩
        · rw [List.flatten_cons, hrest.flatten, cut_eq hcut]
        · rcases List.mem_cons.mp hpart with rfl | hpart
          · exact fun h => hsep (List.append_eq_nil_iff.mp h).2
          · exact hrest.ne_nil part hpart

theorem parts_splitKeepingSeparator {separator : List CodeUnit} (hsep : separator ≠ [])
    (text : List CodeUnit) : Parts text (splitKeepingSeparator text separator) :=
  parts_splitKeepingFrom hsep _ text le_rfl

theorem parts_hardCut {budget : Nat} (hbudget : 0 < budget) (fuel : Nat) (word : List CodeUnit)
    (hfuel : word.length ≤ fuel) : Parts word (hardCut budget fuel word) := by
  induction fuel generalizing word with
  | zero =>
    rw [List.eq_nil_of_length_eq_zero (Nat.le_zero.mp hfuel)]
    exact ⟨rfl, fun part hpart => (by cases hpart)⟩
  | succ fuel ih =>
    cases word with
    | nil => exact ⟨rfl, fun part hpart => (by cases hpart)⟩
    | cons c word =>
      have hrest := ih ((c :: word).drop budget) (by
        rw [List.length_drop, List.length_cons] at *
        omega)
      refine ⟨?_, fun part hpart => ?_⟩
      · rw [hardCut, List.flatten_cons, hrest.flatten, List.take_append_drop]
      · rw [hardCut] at hpart
        rcases List.mem_cons.mp hpart with rfl | hpart
        · intro h
          rcases List.take_eq_nil_iff.mp h with hzero | hnil
          · omega
          · cases hnil
        · exact hrest.ne_nil part hpart

theorem length_hardCut {budget : Nat} (fuel : Nat) (word : List CodeUnit) :
    ∀ part ∈ hardCut budget fuel word, part.length ≤ budget := by
  induction fuel generalizing word with
  | zero => exact fun part hpart => (by cases hpart)
  | succ fuel ih =>
    cases word with
    | nil => exact fun part hpart => (by cases hpart)
    | cons c word =>
      rw [hardCut]
      intro part hpart
      rcases List.mem_cons.mp hpart with rfl | hpart
      · exact List.length_take_le _ _
      · exact ih _ part hpart

/-- A text is cut into parts that fit. -/
theorem parts_splitText {budget : Nat} (hbudget : 0 < budget) (text : List CodeUnit) :
    Parts text (splitText budget text) := by
  refine (parts_splitKeepingSeparator (by decide) text).flatMap fun para hpara =>
    parts_orSplit hpara ?_
  refine (parts_splitKeepingSeparator (by decide) para).flatMap fun line hline =>
    parts_orSplit hline ?_
  refine (parts_splitKeepingSeparator (by decide) line).flatMap fun word hword =>
    parts_orSplit hword ?_
  exact parts_hardCut hbudget _ word le_rfl

theorem length_orSplit {budget : Nat} {split : List CodeUnit → List (List CodeUnit)}
    (h : ∀ text, ∀ part ∈ split text, part.length ≤ budget) (text : List CodeUnit) :
    ∀ part ∈ orSplit budget split text, part.length ≤ budget := by
  intro part hpart
  rw [orSplit] at hpart
  split_ifs at hpart with hle
  · rw [List.mem_singleton.mp hpart]
    exact hle
  · exact h text part hpart

theorem length_flatMap_orSplit {budget : Nat} {split : List CodeUnit → List (List CodeUnit)}
    (h : ∀ text, ∀ part ∈ split text, part.length ≤ budget) (texts : List (List CodeUnit)) :
    ∀ part ∈ texts.flatMap (orSplit budget split), part.length ≤ budget := by
  intro part hpart
  obtain ⟨text, -, hmem⟩ := List.mem_flatMap.mp hpart
  exact length_orSplit h text part hmem

theorem length_splitText {budget : Nat} (text : List CodeUnit) :
    ∀ part ∈ splitText budget text, part.length ≤ budget :=
  length_flatMap_orSplit (fun _ => length_flatMap_orSplit (fun _ =>
    length_flatMap_orSplit (fun word => length_hardCut _ word) _) _) _

/-! ### The units of a text -/

theorem codeFence_ne_nil : codeFence ≠ [] := by decide

theorem fenced_nil : Fenced codeFence [] [] := .done (by
  refine cut_eq_none_iff.mp ?_
  rw [cut, if_neg codeFence_ne_nil])

theorem unpaired_nil : unpaired codeFence [] = [] := by
  refine unpaired_of_plain ?_
  rw [cut, if_neg codeFence_ne_nil]

/-- The texts of the units of segments. -/
def unitTexts (budget : Nat) (segments : List Segment) : List (List CodeUnit) :=
  (segments.flatMap (segmentUnits budget)).map SplitUnit.text

theorem unitTexts_append (budget : Nat) (segments more : List Segment) :
    unitTexts budget (segments ++ more) = unitTexts budget segments ++ unitTexts budget more := by
  rw [unitTexts, List.flatMap_append, List.map_append]
  rfl

theorem unitTexts_text (budget : Nat) (text : List CodeUnit) :
    unitTexts budget [.text text] = splitText budget text := by
  simp only [unitTexts, List.flatMap_cons, List.flatMap_nil, segmentUnits, List.append_nil,
    List.map_map]
  exact List.map_id _

theorem parts_unitTexts_before {budget : Nat} (hbudget : 0 < budget) (before : List CodeUnit) :
    Parts before (unitTexts budget (if before = [] then [] else [.text before])) := by
  split_ifs with h
  · rw [h]
    exact ⟨rfl, fun part hpart => (by cases hpart)⟩
  · rw [unitTexts_text]
    exact parts_splitText hbudget before

/-- The units make up the text; those before an unpaired fence are blocks, and pieces of the texts
in between. -/
theorem fenced_unitTexts {budget : Nat} (hbudget : 0 < budget) (fuel : Nat) (text : List CodeUnit)
    (hfuel : text.length ≤ fuel) :
    ∃ front back, unitTexts budget (segmentsFrom fuel text) = front ++ back ∧
      Parts text (front ++ back) ∧ back.flatten = unpaired codeFence text ∧
        Fenced codeFence [] front := by
  induction fuel generalizing text with
  | zero =>
    rw [List.eq_nil_of_length_eq_zero (Nat.le_zero.mp hfuel)]
    exact ⟨[], [], rfl, ⟨rfl, fun part hpart => (by cases hpart)⟩, unpaired_nil.symm,
      fenced_nil⟩
  | succ fuel ih =>
    cases text with
    | nil =>
      exact ⟨[], [], rfl, ⟨rfl, fun part hpart => (by cases hpart)⟩, unpaired_nil.symm,
      fenced_nil⟩
    | cons c text =>
      rw [segmentsFrom]
      cases hcut : cut codeFence (c :: text) with
      | none =>
        have hparts := parts_splitText hbudget (c :: text)
        refine ⟨splitText budget (c :: text), [], ?_, ?_, ?_, ?_⟩
        · rw [List.append_nil, unitTexts_text]
        · rw [List.append_nil]
          exact hparts
        · rw [unpaired_of_plain hcut]
          rfl
        · rw [← List.append_nil (splitText _ _)]
          refine Fenced.cut (.done ?_)
          rw [hparts.flatten]
          exact cut_eq_none_iff.mp hcut
      | some p =>
        obtain ⟨before, rest⟩ := p
        have hbefore := parts_unitTexts_before hbudget before
        cases hrest : cut codeFence rest with
        | none =>
          have hopen := parts_splitText hbudget (codeFence ++ rest)
          simp only [hrest]
          refine ⟨_, _, unitTexts_append _ _ _, ?_, ?_, ?_⟩
          · rw [unitTexts_text]
            refine ⟨?_, fun part hpart => ?_⟩
            · rw [List.flatten_append, hbefore.flatten, hopen.flatten, cut_eq hcut,
                List.append_assoc]
            · rcases List.mem_append.mp hpart with hpart | hpart
              · exact hbefore.ne_nil part hpart
              · exact hopen.ne_nil part hpart
          · rw [unitTexts_text, hopen.flatten,
              unpaired_of_open codeFence_ne_nil hcut hrest]
          · rw [← List.append_nil (unitTexts _ _)]
            refine Fenced.cut (.done ?_)
            rw [hbefore.flatten]
            exact (lead_of_cut hcut).plain codeFence_ne_nil
        | some q =>
          obtain ⟨inside, after⟩ := q
          have hlt := cut_length codeFence_ne_nil hcut
          have hlt' := cut_length codeFence_ne_nil hrest
          obtain ⟨front, back, htexts, hparts, hback, hfenced⟩ := ih after (by
            rw [List.length_cons] at *
            omega)
          have hblock : Block codeFence (codeFence ++ inside ++ codeFence) :=
            ⟨inside, lead_of_cut hrest, rfl⟩
          refine ⟨unitTexts budget (if before = [] then [] else [.text before]) ++
            (codeFence ++ inside ++ codeFence) :: front, back, ?_, ?_, ?_, ?_⟩
          · have hunits : unitTexts budget (.fence (codeFence ++ inside ++ codeFence) ::
                segmentsFrom fuel after) =
                  (codeFence ++ inside ++ codeFence) :: (front ++ back) := by
              rw [← htexts]
              rfl
            simp only [hrest]
            rw [unitTexts_append, hunits]
            exact (List.append_assoc _ (_ :: front) back).symm
          · refine ⟨?_, fun part hpart => ?_⟩
            · rw [List.append_assoc, List.cons_append, List.flatten_append,
                hbefore.flatten, List.flatten_cons, hparts.flatten, cut_eq hcut,
                cut_eq hrest]
              simp only [List.append_assoc]
            · rw [List.append_assoc, List.cons_append] at hpart
              rcases List.mem_append.mp hpart with hpart | hpart
              · exact hbefore.ne_nil part hpart
              · rcases List.mem_cons.mp hpart with rfl | hpart
                · exact fun h => codeFence_ne_nil (List.append_eq_nil_iff.mp h).2
                · exact hparts.ne_nil part hpart
          · rw [hback, unpaired_of_block codeFence_ne_nil hcut hrest]
          · refine Fenced.cut (.block ?_ hblock hfenced)
            rw [hbefore.flatten]
            exact lead_of_cut hcut

/-- A unit fits, or is a block that does not. -/
theorem fits_segmentUnits {budget : Nat} (fuel : Nat) (text : List CodeUnit) :
    ∀ u ∈ (segmentsFrom fuel text).flatMap (segmentUnits budget),
      if u.oversized then Block codeFence u.text ∧ budget < u.text.length
      else u.text.length ≤ budget := by
  have htext : ∀ text, ∀ u ∈ segmentUnits budget (.text text),
      if u.oversized then Block codeFence u.text ∧ budget < u.text.length
      else u.text.length ≤ budget := by
    intro text u hu
    obtain ⟨part, hpart, rfl⟩ := List.mem_map.mp hu
    exact length_splitText text part hpart
  induction fuel generalizing text with
  | zero => exact fun u hu => (by cases hu)
  | succ fuel ih =>
    cases text with
    | nil => exact fun u hu => (by cases hu)
    | cons c text =>
      rw [segmentsFrom]
      cases hcut : cut codeFence (c :: text) with
      | none =>
        intro u hu
        obtain ⟨segment, hsegment, hu⟩ := List.mem_flatMap.mp hu
        rw [List.mem_singleton.mp hsegment] at hu
        exact htext _ u hu
      | some p =>
        intro u hu
        rw [List.flatMap_append] at hu
        rcases List.mem_append.mp hu with hu | hu
        · obtain ⟨segment, hsegment, hu⟩ := List.mem_flatMap.mp hu
          split_ifs at hsegment
          · cases hsegment
          · rw [List.mem_singleton.mp hsegment] at hu
            exact htext _ u hu
        · cases hrest : cut codeFence p.2 with
          | none =>
            simp only [hrest] at hu
            obtain ⟨segment, hsegment, hu⟩ := List.mem_flatMap.mp hu
            rw [List.mem_singleton.mp hsegment] at hu
            exact htext _ u hu
          | some q =>
            simp only [hrest] at hu
            rw [List.flatMap_cons] at hu
            rcases List.mem_append.mp hu with hu | hu
            · rw [List.mem_singleton.mp hu]
              by_cases hlong : budget < (codeFence ++ q.1 ++ codeFence).length
              · rw [if_pos (decide_eq_true hlong)]
                exact ⟨⟨q.1, lead_of_cut hrest, rfl⟩, hlong⟩
              · rw [if_neg (by simpa using hlong)]
                exact Nat.le_of_not_lt hlong
            · exact ih _ u hu

/-! ### Chunks -/

/-- A chunk fits, or is a block that does not. -/
def Fits (budget : Nat) (chunk : List CodeUnit) : Prop :=
  chunk.length ≤ budget ∨ Block codeFence chunk ∧ budget < chunk.length

theorem flush_eq (buf : List CodeUnit) : flush buf = if buf = [] then [] else [buf] := by
  rw [flush]
  exact if_congr List.length_pos_iff rfl rfl |>.trans (ite_not _ _ _)

/-- The chunks are groups of the units in turn. -/
theorem pack_groups (budget : Nat) (us : List SplitUnit) (hne : ∀ u ∈ us, u.text ≠ [])
    (group : List (List CodeUnit)) (hgroup : ∀ part ∈ group, part ≠ []) :
    ∃ groups : List (List (List CodeUnit)), groups.flatten = group ++ us.map SplitUnit.text ∧
      pack budget group.flatten us = groups.map List.flatten := by
  have hflush : ∀ group : List (List CodeUnit), (∀ part ∈ group, part ≠ []) →
      ∃ groups : List (List (List CodeUnit)), groups.flatten = group ∧
        flush group.flatten = groups.map List.flatten := by
    intro group hgroup
    rw [flush_eq]
    split_ifs with hnil
    · refine ⟨[], ?_, rfl⟩
      cases group with
      | nil => rfl
      | cons part group =>
        exact absurd (List.append_eq_nil_iff.mp hnil).1 (hgroup part List.mem_cons_self)
    · exact ⟨[group], List.flatten_singleton, rfl⟩
  induction us generalizing group with
  | nil =>
    obtain ⟨groups, hgroups, hpack⟩ := hflush group hgroup
    exact ⟨groups, by rw [hgroups, List.map_nil, List.append_nil], hpack⟩
  | cons u us ih =>
    have hu := hne u List.mem_cons_self
    have hus := fun v hv => hne v (List.mem_cons_of_mem u hv)
    rw [pack]
    split_ifs
    · obtain ⟨groups, hgroups, hpack⟩ := hflush group hgroup
      obtain ⟨rest, hrest, htail⟩ := ih hus [] (fun part hpart => (by cases hpart))
      refine ⟨groups ++ [u.text] :: rest, ?_, ?_⟩
      · rw [List.flatten_append, hgroups, List.flatten_cons, hrest]
        rfl
      · rw [List.map_append, List.map_cons, List.flatten_singleton, ← hpack, ← htail]
        rfl
    · obtain ⟨groups, hgroups, hpack⟩ := hflush group hgroup
      obtain ⟨rest, hrest, htail⟩ := ih hus [u.text] (fun part hpart => by
        rw [List.mem_singleton.mp hpart]
        exact hu)
      refine ⟨groups ++ rest, ?_, ?_⟩
      · rw [List.flatten_append, hgroups, hrest]
        rfl
      · rw [List.map_append, ← hpack, ← htail, List.flatten_singleton]
    · obtain ⟨groups, hgroups, hpack⟩ := ih hus (group ++ [u.text]) (fun part hpart => by
        rcases List.mem_append.mp hpart with hpart | hpart
        · exact hgroup part hpart
        · rw [List.mem_singleton.mp hpart]
          exact hu)
      refine ⟨groups, ?_, ?_⟩
      · rw [hgroups, List.append_assoc]
        rfl
      · rw [← hpack, List.flatten_append, List.flatten_singleton]

theorem fits_pack {budget : Nat} (us : List SplitUnit)
    (hus : ∀ u ∈ us, if u.oversized then Block codeFence u.text ∧ budget < u.text.length
      else u.text.length ≤ budget) (buf : List CodeUnit) (hbuf : buf.length ≤ budget) :
    ∀ chunk ∈ pack budget buf us, Fits budget chunk := by
  have hflush : ∀ buf : List CodeUnit, buf.length ≤ budget → ∀ chunk ∈ flush buf,
      Fits budget chunk := by
    intro buf hbuf chunk hchunk
    rw [flush] at hchunk
    split_ifs at hchunk
    · rw [List.mem_singleton.mp hchunk]
      exact .inl hbuf
    · cases hchunk
  induction us generalizing buf with
  | nil => exact hflush buf hbuf
  | cons u us ih =>
    have hu := hus u List.mem_cons_self
    have hrest := ih fun v hv => hus v (List.mem_cons_of_mem u hv)
    intro chunk hchunk
    rw [pack] at hchunk
    split_ifs at hchunk with hover hfull
    · rw [if_pos hover] at hu
      rcases List.mem_append.mp hchunk with hchunk | hchunk
      · exact hflush buf hbuf chunk hchunk
      · rcases List.mem_cons.mp hchunk with rfl | hchunk
        · exact .inr hu
        · exact hrest [] (Nat.zero_le _) chunk hchunk
    · rw [if_neg hover] at hu
      rcases List.mem_append.mp hchunk with hchunk | hchunk
      · exact hflush buf hbuf chunk hchunk
      · exact hrest u.text hu chunk hchunk
    · rw [if_neg hover] at hu
      refine hrest (buf ++ u.text) ?_ chunk hchunk
      rw [List.length_append]
      omega

/-! ### Their numbers -/

theorem notMem_codeFence_of_isDigit {c : Char} (h : c.isDigit = true) : unit c ∉ codeFence := by
  intro hmem
  have hfence : unit c = unit (Char.ofNat 96) := by
    simpa [codeFence, units] using hmem
  have hvalue := congrArg UInt16.toNat hfence
  have hbound : 48 ≤ c.toNat ∧ c.toNat ≤ 57 := by
    simpa [Char.isDigit, UInt32.le_iff_toNat_le] using h
  simp only [unit, UInt16.toNat_ofNat'] at hvalue
  have h96 : (Char.ofNat 96).toNat = 96 := rfl
  rw [h96] at hvalue
  omega

theorem notMem_codeFence_of_mem_decimal {n : Nat} : ∀ c ∈ decimal n, c ∉ codeFence := by
  intro c hc
  obtain ⟨d, hd, rfl⟩ := List.mem_map.mp hc
  exact notMem_codeFence_of_isDigit (Nat.isDigit_of_mem_toDigits (by decide) (by decide) hd)

theorem notMem_codeFence_of_all {text : List CodeUnit}
    (h : (text.all fun c => decide (c ∉ codeFence)) = true) : ∀ c ∈ text, c ∉ codeFence :=
  fun c hc => of_decide_eq_true (List.all_eq_true.mp h c hc)

theorem notMem_codeFence_of_mem_partMarker {i n : Nat} : ∀ c ∈ partMarker i n, c ∉ codeFence := by
  intro c hc
  rw [partMarker] at hc
  split_ifs at hc
  · cases hc
  · simp only [List.mem_append] at hc
    rcases hc with (((hc | hc) | hc) | hc) | hc
    · exact notMem_codeFence_of_all (by decide) c hc
    · exact notMem_codeFence_of_mem_decimal c hc
    · exact notMem_codeFence_of_all (by decide) c hc
    · exact notMem_codeFence_of_mem_decimal c hc
    · exact notMem_codeFence_of_all (by decide) c hc

theorem length_partMarker {i n : Nat} (hn : n ≠ 1) :
    (partMarker i n).length = (decimal (i + 1)).length + (decimal n).length + 4 := by
  have hopen : (units " (").length = 2 := by decide
  have hslash : (units "/").length = 1 := by decide
  have hclose : (units ")").length = 1 := by decide
  rw [partMarker, if_neg hn]
  simp only [List.length_append, hopen, hslash, hclose]
  omega

theorem length_decimal_le {n k : Nat} (hk : 0 < k) : (decimal n).length ≤ k ↔ n < 10 ^ k := by
  rw [decimal, List.length_map]
  exact Nat.length_toDigits_le_iff (by decide) hk

/-- The default leaves room for the numbers of up to 9999 chunks. -/
theorem length_partMarker_le {i n : Nat} (hi : i < n) (hn : n < 10000) :
    (partMarker i n).length ≤ DEFAULT_SUFFIX_RESERVE := by
  by_cases hone : n = 1
  · rw [partMarker, if_pos hone]
    exact Nat.zero_le _
  · have hleft : (decimal (i + 1)).length ≤ 4 := (length_decimal_le (by decide)).mpr (by omega)
    have hright : (decimal n).length ≤ 4 := (length_decimal_le (by decide)).mpr (by omega)
    rw [length_partMarker hone, DEFAULT_SUFFIX_RESERVE]
    omega

/-! ### The message -/

/-- A group of units before an unpaired fence has paired fences, with a number behind it. -/
theorem paired_group {budget i n : Nat} {text : List CodeUnit} (hbudget : 0 < budget)
    (groups : List (List (List CodeUnit))) {group : List (List CodeUnit)}
    (more : List (List (List CodeUnit))) (hgroups : (groups ++ group :: more).flatten =
      unitTexts budget (segmentPreservingFences text))
    (hlength : ((groups.flatten ++ group).flatten).length + (unpaired codeFence text).length ≤
      text.length) : Paired codeFence (group.flatten ++ partMarker i n) := by
  obtain ⟨front, back, htexts, hparts, hback, hfenced⟩ :=
    fenced_unitTexts hbudget _ text le_rfl
  have hsplit : (groups.flatten ++ group) ++ more.flatten = front ++ back := by
    have hsegments : unitTexts budget (segmentPreservingFences text) = front ++ back := htexts
    rw [← hsegments, ← hgroups]
    simp only [List.flatten_append, List.flatten_cons, List.append_assoc]
  have hfront : ∃ rest, front = groups.flatten ++ group ++ rest := by
    rcases List.append_eq_append_iff.mp hsplit with ⟨rest, hfront, -⟩ | ⟨rest, hleft, hright⟩
    · exact ⟨rest, hfront⟩
    · have htext := congrArg List.length hparts.flatten
      rw [List.flatten_append, List.length_append, hback] at htext
      rw [hleft, List.flatten_append, List.length_append] at hlength
      have hrest : rest = [] := by
        cases rest with
        | nil => rfl
        | cons part rest =>
          have hpart := hparts.ne_nil part (by
            rw [hright]
            simp)
          have hpos := List.length_pos_of_ne_nil hpart
          rw [List.flatten_cons, List.length_append] at hlength
          omega
      exact ⟨[], by rw [hleft, hrest, List.append_nil, List.append_nil]⟩
  obtain ⟨rest, rfl⟩ := hfront
  have hgroup := (hfenced.left codeFence_ne_nil).right
  have hpairs := (hgroup.concat codeFence_ne_nil
    (notMem_codeFence_of_mem_partMarker (i := i) (n := n))).paired codeFence_ne_nil
  simpa using hpairs

/-- What is said of a chunk of a text: the chunk and its number have paired fences, where it ends
before an unpaired fence of the text; they fit, where the chunk is no block that does not and the
number is no wider than what was kept for it; and the number is not, of up to 9999. -/
structure Whole (text : List CodeUnit) (options : SplitOptions) (bodies : List (List CodeUnit))
    (i : Nat) (body : List CodeUnit) : Prop where
  paired : (bodies.take (i + 1)).flatten.length + (unpaired codeFence text).length ≤
    text.length → Paired codeFence (body ++ partMarker i bodies.length)
  fits : ¬ (Block codeFence body ∧ options.maxLen - options.reserve < body.length) →
    (partMarker i bodies.length).length ≤ options.reserve →
      (body ++ partMarker i bodies.length).length ≤ options.maxLen
  narrow : bodies.length < 10000 →
    (partMarker i bodies.length).length ≤ DEFAULT_SUFFIX_RESERVE

theorem whole_of_short {text : List CodeUnit} {options : SplitOptions}
    (h : text.length ≤ options.maxLen) : ∀ i body, [text][i]? = some body →
      Whole text options [text] i body := by
  intro i body hi
  obtain ⟨hlt, rfl⟩ := List.getElem?_eq_some_iff.mp hi
  obtain rfl : i = 0 := Nat.lt_one_iff.mp hlt
  refine ⟨fun hpaired => ?_, fun _ _ => ?_, fun _ => Nat.zero_le _⟩
  · have hnil : unpaired codeFence text = [] := by
      have hle : text.length + (unpaired codeFence text).length ≤ text.length := by
        simpa using hpaired
      exact List.eq_nil_of_length_eq_zero (by omega)
    have hpairs := paired_of_unpaired codeFence_ne_nil hnil
    simpa [partMarker] using hpairs
  · simpa [partMarker] using h

/-- A long text is cut into whole chunks, of which only blocks may not fit. -/
theorem chunks_of_long {text : List CodeUnit} {options : SplitOptions}
    (h : options.reserve < options.maxLen) (hlong : options.maxLen < text.length) :
    ∃ bodies, splitLongText text options = .ok (numbered bodies) ∧ bodies.flatten = text ∧
      (∀ body ∈ bodies, Fits (options.maxLen - options.reserve) body) ∧
        ∀ i body, bodies[i]? = some body → Whole text options bodies i body := by
  have hbudget : max 1 (options.maxLen - options.reserve) = options.maxLen - options.reserve :=
    max_eq_right (by omega)
  have hpos : 0 < options.maxLen - options.reserve := by omega
  rw [splitLongText, if_neg (Nat.ne_of_gt (Nat.zero_lt_of_lt h)), if_neg (Nat.not_le.mpr hlong),
    hbudget]
  generalize hsize : options.maxLen - options.reserve = budget at hpos ⊢
  obtain ⟨front, back, htexts, hparts, -, -⟩ := fenced_unitTexts hpos _ text le_rfl
  have hne : ∀ u ∈ (segmentPreservingFences text).flatMap (segmentUnits budget), u.text ≠ [] := by
    intro u hu
    have hmem : u.text ∈ front ++ back := by
      rw [← htexts]
      exact List.mem_map_of_mem hu
    exact hparts.ne_nil _ hmem
  obtain ⟨groups, hgroups, hpack⟩ := pack_groups budget _ hne []
    (fun part hpart => (by cases hpart))
  have hfits : ∀ chunk ∈ pack budget []
      ((segmentPreservingFences text).flatMap (segmentUnits budget)), Fits budget chunk :=
    fits_pack _ (fits_segmentUnits text.length text) [] (Nat.zero_le _)
  rw [List.flatten_nil] at hpack
  rw [List.nil_append] at hgroups
  rw [hpack] at hfits
  dsimp only
  rw [hpack]
  refine ⟨_, rfl, ?_, hfits, fun i body hi => ⟨fun hpaired => ?_, fun hblock hmarker => ?_,
    fun hcount => ?_⟩⟩
  · have hflatten := hparts.flatten
    rw [← htexts] at hflatten
    rw [← List.flatten_flatten, hgroups]
    exact hflatten
  · rw [List.getElem?_map] at hi
    obtain ⟨group, hgroup, rfl⟩ := Option.map_eq_some_iff.mp hi
    obtain ⟨hlt, rfl⟩ := List.getElem?_eq_some_iff.mp hgroup
    have hunits : (groups.take i ++ groups[i] :: groups.drop (i + 1)).flatten =
        unitTexts budget (segmentPreservingFences text) := by
      rw [← List.drop_eq_getElem_cons hlt, List.take_append_drop]
      exact hgroups
    rw [← List.map_take, ← List.flatten_flatten, List.take_succ_eq_append_getElem hlt,
      List.flatten_append, List.flatten_singleton] at hpaired
    exact paired_group hpos _ _ hunits hpaired
  · rcases hfits body (List.mem_of_getElem? hi) with hle | hover
    · rw [List.length_append]
      omega
    · exact absurd (hsize ▸ hover) hblock
  · exact length_partMarker_le (List.getElem?_eq_some_iff.mp hi).1 hcount

/-- **Long messages are cut into whole chunks.** -/
theorem chunks_whole (text : List CodeUnit) {options : SplitOptions}
    (h : options.reserve < options.maxLen) :
    ∃ bodies, splitLongText text options = .ok (numbered bodies) ∧ bodies.flatten = text ∧
      ∀ i body, bodies[i]? = some body → Whole text options bodies i body := by
  by_cases hshort : text.length ≤ options.maxLen
  · refine ⟨[text], ?_, List.flatten_singleton, whole_of_short hshort⟩
    rw [splitLongText, if_neg (Nat.ne_of_gt (Nat.zero_lt_of_lt h)), if_pos hshort]
    simp [numbered, partMarker]
  · obtain ⟨bodies, hchunks, hflatten, -, hwhole⟩ := chunks_of_long h (Nat.lt_of_not_le hshort)
    exact ⟨bodies, hchunks, hflatten, hwhole⟩

/-- A block of code that does not fit, and what follows it. -/
theorem chunks_whole_block : ∃ bodies,
    splitLongText (units "```some code``` and more") ⟨20, none⟩ = .ok (numbered bodies) ∧
      bodies.flatten = units "```some code``` and more" ∧ ∀ i body, bodies[i]? = some body →
        Whole (units "```some code``` and more") ⟨20, none⟩ bodies i body :=
  chunks_whole _ (by decide)

theorem length_flatten_le {α : Type} {texts : List (List α)} (h : ∀ text ∈ texts, text.length ≤ 1) :
    texts.flatten.length ≤ texts.length := by
  induction texts with
  | nil => exact le_rfl
  | cons text texts ih =>
    have htext := h text List.mem_cons_self
    have hrest := ih fun t ht => h t (List.mem_cons_of_mem text ht)
    rw [List.flatten_cons, List.length_append, List.length_cons]
    omega

/-- **An unpaired fence is kept**, and the ten thousandth chunk has a number that is too wide. -/
theorem unpaired_kept :
    (splitLongText codeFence ⟨13, none⟩ = .ok [codeFence] ∧ ¬ Paired codeFence codeFence) ∧
      ∃ chunks, splitLongText (List.replicate 10000 (unit 'a')) ⟨13, none⟩ = .ok chunks ∧
        ∃ chunk ∈ chunks, ¬ codeFence <:+: chunk ∧ 13 < chunk.length := by
  refine ⟨⟨rfl, ?_⟩, ?_⟩
  · intro hpairs
    have hcut : cut codeFence codeFence = some ([], []) := cut_of_begins (List.prefix_refl _)
    rw [Paired, pieces_of_cut codeFence_ne_nil hcut, pieces_of_none (by decide)] at hpairs
    exact absurd hpairs (by decide)
  · have hlong : (⟨13, none⟩ : SplitOptions).maxLen < (List.replicate 10000 (unit 'a')).length := by
      rw [List.length_replicate]
      decide
    have hreserve : (⟨13, none⟩ : SplitOptions).reserve < (⟨13, none⟩ : SplitOptions).maxLen := by
      decide
    obtain ⟨bodies, hchunks, hflatten, hfits, -⟩ := chunks_of_long hreserve hlong
    obtain ⟨tick, htick⟩ := List.exists_mem_of_ne_nil _ codeFence_ne_nil
    have hplain : ∀ body ∈ bodies, tick ∉ body := by
      intro body hbody hmem
      have htext : tick ∈ List.replicate 10000 (unit 'a') := by
        rw [← hflatten]
        exact List.mem_flatten.mpr ⟨body, hbody, hmem⟩
      have hfence : unit 'a' ∉ codeFence := by decide
      exact hfence (List.eq_of_mem_replicate htext ▸ htick)
    have hone : ∀ body ∈ bodies, body.length ≤ 1 := by
      intro body hbody
      rcases hfits body hbody with hle | ⟨⟨inside, -, rfl⟩, -⟩
      · exact hle
      · exact absurd (List.mem_append_right _ htick) (hplain _ hbody)
    have hcount : 10000 ≤ bodies.length := by
      have hle := length_flatten_le hone
      rwa [hflatten, List.length_replicate] at hle
    have hlt : 9999 < bodies.length := hcount
    refine ⟨_, hchunks, bodies[9999] ++ partMarker 9999 bodies.length, ?_, fun hfence => ?_, ?_⟩
    · exact List.mem_mapIdx.mpr ⟨9999, hlt, rfl⟩
    · rcases List.mem_append.mp (hfence.subset htick) with hmem | hmem
      · exact hplain _ (List.getElem_mem hlt) hmem
      · exact notMem_codeFence_of_mem_partMarker tick hmem htick
    · have hleft : ¬ (decimal (9999 + 1)).length ≤ 4 := by
        rw [length_decimal_le (by decide)]
        decide
      have hright : ¬ (decimal bodies.length).length ≤ 4 := by
        rw [length_decimal_le (by decide)]
        omega
      rw [List.length_append, length_partMarker (by omega)]
      omega

end Declaragent.Channels
