import Declaragent.Library.Lines
import Mathlib.Data.Finset.Dedup

/-!
# Library — the text exposition of metrics

A text of lines, each a comment or a series: a name, labels with their values between quotes, and
the text of a value.  A series is told by its name and the set of its labels.

* `readValue_escape`: what was escaped is recovered, up to the closing quote.
* `readLine_writeLine`: a line that was written for a well-formed series is read as it.
* `read_terminated`: a text is read line by line.
-/

namespace Exposition

structure Series where
  name : String
  labels : List (String × String)
  value : String
  deriving DecidableEq

/-- What a series is told by. -/
def Series.identity (s : Series) : String × Finset (String × String) := (s.name, s.labels.toFinset)

/-! ### Names -/

def isLabelChar (c : Char) : Bool := c.isAlphanum || c == '_'

/-- `[a-zA-Z_][a-zA-Z0-9_]*`. -/
def isLabelName : List Char → Bool
  | [] => false
  | c :: cs => !c.isDigit && (c :: cs).all isLabelChar

def isMetricChar (c : Char) : Bool := isLabelChar c || c == ':'

/-- `[a-zA-Z_:][a-zA-Z0-9_:]*`. -/
def isMetricName : List Char → Bool
  | [] => false
  | c :: cs => !c.isDigit && (c :: cs).all isMetricChar

/-! ### Writing -/

def escapeChar (c : Char) : List Char :=
  if c = '\\' then ['\\', '\\'] else if c = '\n' then ['\\', 'n']
  else if c = '"' then ['\\', '"'] else [c]

def escape (value : List Char) : List Char := value.flatMap escapeChar

def writePair (p : String × String) : List Char :=
  p.1.toList ++ '=' :: '"' :: escape p.2.toList ++ ['"']

def writeLabels (labels : List (String × String)) : List Char :=
  if labels = [] then []
  else '{' :: [','].intercalate (labels.map writePair) ++ ['}']

def writeLine (s : Series) : List Char :=
  s.name.toList ++ writeLabels s.labels ++ ' ' :: s.value.toList

/-! ### Reading -/

def unescapeChar (c : Char) : Option Char :=
  if c = '\\' then some '\\' else if c = 'n' then some '\n' else if c = '"' then some '"' else none

/-- A value up to its closing quote, and what is after it. -/
def readValue : List Char → Option (List Char × List Char)
  | [] => none
  | '"' :: rest => some ([], rest)
  | '\\' :: c :: rest =>
    (unescapeChar c).bind fun d => (readValue rest).map fun r => (d :: r.1, r.2)
  | c :: rest => (readValue rest).map fun r => (c :: r.1, r.2)

/-- Labels up to the closing brace, and what is after it; there are not more than characters. -/
def readPairs : Nat → List Char → Option (List (String × String) × List Char)
  | 0, _ => none
  | fuel + 1, cs =>
    let name := cs.takeWhile (· ≠ '=')
    if isLabelName name then
      match cs.dropWhile (· ≠ '=') with
      | '=' :: '"' :: rest => (readValue rest).bind fun r =>
        match r.2 with
        | '}' :: rest => some ([(String.ofList name, String.ofList r.1)], rest)
        | ',' :: rest => (readPairs fuel rest).map fun more =>
          ((String.ofList name, String.ofList r.1) :: more.1, more.2)
        | _ => none
      | _ => none
    else none

/-- The series of a name, with labels that have different names. -/
def seriesOf (name : List Char) (labels : List (String × String)) : List Char → Option Series
  | ' ' :: value =>
    if (labels.map Prod.fst).Nodup then
      some ⟨String.ofList name, labels, String.ofList value⟩
    else none
  | _ => none

def readLine (line : List Char) : Option Series :=
  let name := line.takeWhile isMetricChar
  if isMetricName name then
    match line.dropWhile isMetricChar with
    | '{' :: rest => (readPairs rest.length rest).bind fun r => seriesOf name r.1 r.2
    | rest => seriesOf name [] rest
  else none

def isComment : List Char → Bool
  | [] => true
  | c :: _ => c == '#'

def readLines : List (List Char) → Option (List Series)
  | [] => some []
  | line :: lines =>
    if isComment line then readLines lines
    else (readLine line).bind fun s => (readLines lines).map (s :: ·)

def read (text : List Char) : Option (List Series) := readLines (text.splitOn '\n')

/-- Texts that break off are not read. -/
example : readValue [] = none ∧ readPairs 1 [] = none ∧ readLine [] = none ∧
    seriesOf [] [] [] = none ∧ readLines [] = some [] := by
  rw [readValue, readPairs, readLine, readLines]
  unfold seriesOf
  exact ⟨rfl, rfl, rfl, rfl, rfl⟩

structure Series.WellFormed (s : Series) : Prop where
  name : isMetricName s.name.toList = true
  labels : ∀ p ∈ s.labels, isLabelName p.1.toList = true
  nodup : (s.labels.map Prod.fst).Nodup
  value : '\n' ∉ s.value.toList

/-! ### A value -/

theorem readValue_cons {c : Char} (hquote : c ≠ '"') (hescape : c ≠ '\\') (rest : List Char) :
    readValue (c :: rest) = (readValue rest).map fun r => (c :: r.1, r.2) := by
  rw [readValue]
  · exact hquote
  · exact fun _ _ h => (hescape h).elim

/-- **What was escaped is recovered.** -/
theorem readValue_escape (value rest : List Char) :
    readValue (escape value ++ '"' :: rest) = some (value, rest) := by
  induction value with
  | nil => rfl
  | cons c value ih =>
    have hcons : escape (c :: value) = escapeChar c ++ escape value := List.flatMap_cons
    rw [hcons, List.append_assoc]
    unfold escapeChar
    split_ifs with hbackslash hnewline hquote
    · subst hbackslash
      simp [readValue, unescapeChar, ih]
    · subst hnewline
      simp [readValue, unescapeChar, ih]
    · subst hquote
      simp [readValue, unescapeChar, ih]
    · rw [List.singleton_append, readValue_cons hquote hbackslash, ih]
      rfl

theorem notMem_escape (value : List Char) : '\n' ∉ escape value := by
  intro h
  obtain ⟨c, -, hc⟩ := List.mem_flatMap.mp h
  unfold escapeChar at hc
  split_ifs at hc with hbackslash hnewline hquote
  · simp at hc
  · simp at hc
  · simp at hc
  · exact hnewline (List.mem_singleton.mp hc).symm

/-! ### Labels -/

theorem isLabelName_iff {name : List Char} : isLabelName name = true ↔
    name ≠ [] ∧ (∀ c ∈ name.head?, c.isDigit = false) ∧ ∀ c ∈ name, isLabelChar c = true := by
  cases name <;> simp [isLabelName]

theorem isMetricName_iff {name : List Char} : isMetricName name = true ↔
    name ≠ [] ∧ (∀ c ∈ name.head?, c.isDigit = false) ∧ ∀ c ∈ name, isMetricChar c = true := by
  cases name <;> simp [isMetricName]

theorem notMem_of_isLabelChar {name : List Char} (h : ∀ c ∈ name, isLabelChar c = true)
    {c : Char} (hc : isLabelChar c = false) : c ∉ name := by
  intro hmem
  rw [h c hmem] at hc
  cases hc

theorem notMem_of_isMetricChar {name : List Char} (h : ∀ c ∈ name, isMetricChar c = true)
    {c : Char} (hc : isMetricChar c = false) : c ∉ name := by
  intro hmem
  rw [h c hmem] at hc
  cases hc

/-- The name of a label ends at the equals sign. -/
theorem span_labelName {name : List Char} (h : isLabelName name = true) (rest : List Char) :
    (name ++ '=' :: rest).takeWhile (· ≠ '=') = name ∧
      (name ++ '=' :: rest).dropWhile (· ≠ '=') = '=' :: rest := by
  have hnot : '=' ∉ name := notMem_of_isLabelChar (isLabelName_iff.mp h).2.2 rfl
  have hall : ∀ c ∈ name, decide (c ≠ '=') = true :=
    fun c hc => decide_eq_true fun heq => hnot (heq ▸ hc)
  constructor
  · rw [List.takeWhile_append_of_pos hall, List.takeWhile_cons_of_neg (by simp), List.append_nil]
  · rw [List.dropWhile_append_of_pos hall, List.dropWhile_cons_of_neg (by simp)]

theorem writePair_append (p : String × String) (rest : List Char) :
    writePair p ++ rest = p.1.toList ++ '=' :: ('"' :: (escape p.2.toList ++ '"' :: rest)) := by
  simp [writePair]

section
variable {p : String × String} (hname : isLabelName p.1.toList = true) (fuel : Nat)
include hname

theorem readPairs_last (rest : List Char) :
    readPairs (fuel + 1) (writePair p ++ '}' :: rest) = some ([p], rest) := by
  obtain ⟨htake, hdrop⟩ := span_labelName hname ('"' :: (escape p.2.toList ++ '"' :: '}' :: rest))
  rw [readPairs, writePair_append, htake, hdrop, if_pos hname]
  simp [readValue_escape]

theorem readPairs_more (rest : List Char) :
    readPairs (fuel + 1) (writePair p ++ ',' :: rest) =
      (readPairs fuel rest).map fun more => (p :: more.1, more.2) := by
  obtain ⟨htake, hdrop⟩ := span_labelName hname ('"' :: (escape p.2.toList ++ '"' :: ',' :: rest))
  rw [readPairs, writePair_append, htake, hdrop, if_pos hname]
  simp [readValue_escape]

end

theorem readPairs_intercalate {labels : List (String × String)} (hne : labels ≠ [])
    (hnames : ∀ p ∈ labels, isLabelName p.1.toList = true) :
    ∀ {fuel : Nat}, labels.length ≤ fuel → ∀ rest : List Char,
      readPairs fuel ([','].intercalate (labels.map writePair) ++ '}' :: rest) =
        some (labels, rest) := by
  induction labels with
  | nil => exact absurd rfl hne
  | cons p labels ih =>
    intro fuel hfuel rest
    obtain ⟨hname, hnames⟩ := List.forall_mem_cons.mp hnames
    obtain ⟨fuel, rfl⟩ : ∃ n, fuel = n + 1 := ⟨fuel - 1, by simp at hfuel; omega⟩
    by_cases hlabels : labels = []
    · subst hlabels
      rw [List.map_cons, List.map_nil, List.intercalate_singleton]
      exact readPairs_last hname fuel rest
    · have hmap : labels.map writePair ≠ [] := fun h => hlabels (List.map_eq_nil_iff.mp h)
      rw [List.map_cons, List.intercalate_cons_of_ne_nil hmap, List.append_assoc,
        List.append_assoc, List.singleton_append, readPairs_more hname,
        ih hlabels hnames (Nat.le_of_succ_le_succ hfuel)]
      rfl

/-- Only labels with names of labels are read. -/
theorem isLabelName_of_readPairs {fuel : Nat} :
    ∀ {cs rest : List Char} {labels : List (String × String)},
      readPairs fuel cs = some (labels, rest) →
      ∀ p ∈ labels, isLabelName p.1.toList = true := by
  induction fuel with
  | zero => intro _ _ _ h; cases h
  | succ fuel ih =>
    intro cs rest labels h p hp
    rw [readPairs] at h
    split at h
    · rename_i hname
      split at h
      · obtain ⟨value, -, h⟩ := Option.bind_eq_some_iff.mp h
        split at h
        · obtain ⟨rfl, -⟩ := Prod.mk.inj (Option.some.inj h)
          rw [List.mem_singleton.mp hp, String.toList_ofList]
          exact hname
        · obtain ⟨more, hmore, h⟩ := Option.map_eq_some_iff.mp h
          obtain ⟨rfl, -⟩ := Prod.mk.inj h
          rcases List.mem_cons.mp hp with rfl | hp
          · rw [String.toList_ofList]
            exact hname
          · exact ih hmore p hp
        · cases h
      · cases h
    · cases h

/-! ### A line -/

theorem notMem_writePair {p : String × String} (h : isLabelName p.1.toList = true) :
    '\n' ∉ writePair p := by
  have hname := notMem_of_isLabelChar (isLabelName_iff.mp h).2.2 (c := '\n') rfl
  simp [writePair, hname, notMem_escape]

theorem notMem_intercalate {sep : List Char} {parts : List (List Char)} {c : Char}
    (hsep : c ∉ sep) (hparts : ∀ part ∈ parts, c ∉ part) : c ∉ sep.intercalate parts := by
  induction parts with
  | nil => exact List.not_mem_nil
  | cons part parts ih =>
    obtain ⟨hpart, hparts⟩ := List.forall_mem_cons.mp hparts
    by_cases hne : parts = []
    · subst hne
      rwa [List.intercalate_singleton]
    · rw [List.intercalate_cons_of_ne_nil hne]
      simp [hpart, hsep, ih hparts]

theorem Series.WellFormed.notMem_writeLine {s : Series} (h : s.WellFormed) :
    '\n' ∉ writeLine s := by
  have hname := notMem_of_isMetricChar (isMetricName_iff.mp h.name).2.2 (c := '\n') rfl
  have hlabels : '\n' ∉ [','].intercalate (s.labels.map writePair) := by
    refine notMem_intercalate (by simp) fun part hpart => ?_
    obtain ⟨p, hp, rfl⟩ := List.mem_map.mp hpart
    exact notMem_writePair (h.labels p hp)
  have hwritten : '\n' ∉ writeLabels s.labels := by
    unfold writeLabels
    split
    · exact List.not_mem_nil
    · simp [hlabels]
  simp [writeLine, hname, hwritten, h.value]

/-- The name of a series ends at the first character that is not of a name. -/
theorem span_metricName {name rest : List Char} (h : isMetricName name = true)
    (hrest : ∀ c ∈ rest.head?, isMetricChar c = false) :
    (name ++ rest).takeWhile isMetricChar = name ∧
      (name ++ rest).dropWhile isMetricChar = rest := by
  have hall := (isMetricName_iff.mp h).2.2
  rw [List.takeWhile_append_of_pos hall, List.dropWhile_append_of_pos hall]
  cases rest with
  | nil => simp
  | cons c rest => simp [hrest c rfl]

theorem length_le_intercalate (sep : List Char) {parts : List (List Char)}
    (h : ∀ part ∈ parts, part ≠ []) : parts.length ≤ (sep.intercalate parts).length := by
  induction parts with
  | nil => exact Nat.le_refl _
  | cons part parts ih =>
    obtain ⟨hpart, hparts⟩ := List.forall_mem_cons.mp h
    have hpos := List.length_pos_iff.mpr hpart
    have hrest := ih hparts
    by_cases hne : parts = []
    · subst hne
      rw [List.intercalate_singleton]
      exact hpos
    · rw [List.intercalate_cons_of_ne_nil hne, List.length_cons, List.length_append,
        List.length_append]
      omega

theorem seriesOf_eq {name value : List Char} {labels : List (String × String)}
    (h : (labels.map Prod.fst).Nodup) : seriesOf name labels (' ' :: value) =
      some ⟨String.ofList name, labels, String.ofList value⟩ := by
  rw [seriesOf, if_pos h]

/-- **A line that was written is read.** -/
theorem readLine_writeLine {s : Series} (h : s.WellFormed) : readLine (writeLine s) = some s := by
  obtain ⟨name, labels, value⟩ := s
  have hspan : ∀ rest : List Char, (∀ c ∈ rest.head?, isMetricChar c = false) →
      (name.toList ++ rest).takeWhile isMetricChar = name.toList ∧
        (name.toList ++ rest).dropWhile isMetricChar = rest := fun rest => span_metricName h.name
  by_cases hlabels : labels = []
  · subst hlabels
    have hwrite : writeLine ⟨name, [], value⟩ = name.toList ++ ' ' :: value.toList := by
      simp [writeLine, writeLabels]
    obtain ⟨htake, hdrop⟩ := hspan (' ' :: value.toList) (by simp [isMetricChar, isLabelChar])
    rw [hwrite, readLine, htake, hdrop, if_pos h.name]
    simp [seriesOf_eq]
  · have hwrite : writeLine ⟨name, labels, value⟩ = name.toList ++
        '{' :: ([','].intercalate (labels.map writePair) ++ '}' :: ' ' :: value.toList) := by
      simp [writeLine, writeLabels, hlabels]
    obtain ⟨htake, hdrop⟩ := hspan ('{' :: ([','].intercalate (labels.map writePair) ++
      '}' :: ' ' :: value.toList)) (by simp [isMetricChar, isLabelChar])
    have hfuel : labels.length ≤ ([','].intercalate (labels.map writePair) ++
        '}' :: ' ' :: value.toList).length := by
      have hparts : ∀ part ∈ labels.map writePair, part ≠ [] := by
        intro part hpart
        obtain ⟨p, -, rfl⟩ := List.mem_map.mp hpart
        simp [writePair]
      have hlength := length_le_intercalate [','] hparts
      rw [List.length_map] at hlength
      rw [List.length_append]
      omega
    rw [hwrite, readLine, htake, hdrop, if_pos h.name]
    simp only [readPairs_intercalate hlabels h.labels hfuel, Option.bind_some, seriesOf_eq h.nodup,
      String.ofList_toList]

/-- The labels of a series that was read have names of labels, all different. -/
theorem labels_of_readLine {line : List Char} {s : Series} (h : readLine line = some s) :
    (∀ p ∈ s.labels, isLabelName p.1.toList = true) ∧ (s.labels.map Prod.fst).Nodup := by
  have hseries {name value : List Char} {labels : List (String × String)}
      (hs : seriesOf name labels value = some s) :
      s.labels = labels ∧ (labels.map Prod.fst).Nodup := by
    unfold seriesOf at hs
    split at hs
    · split at hs
      · rename_i hnodup
        obtain rfl := Option.some.inj hs
        exact ⟨rfl, hnodup⟩
      · cases hs
    · cases hs
  rw [readLine] at h
  split at h
  · split at h
    · obtain ⟨⟨labels, rest⟩, hpairs, h⟩ := Option.bind_eq_some_iff.mp h
      obtain ⟨hlabels, hnodup⟩ := hseries h
      rw [hlabels]
      exact ⟨isLabelName_of_readPairs hpairs, hnodup⟩
    · obtain ⟨hlabels, hnodup⟩ := hseries h
      rw [hlabels]
      exact ⟨fun p hp => absurd hp List.not_mem_nil, hnodup⟩
  · cases h

/-! ### A text -/

theorem isComment_writeLine {s : Series} (h : s.WellFormed) : isComment (writeLine s) = false := by
  obtain ⟨hne, -, hall⟩ := isMetricName_iff.mp h.name
  obtain ⟨c, cs, hname⟩ := List.exists_cons_of_ne_nil hne
  have hc := hall c (by rw [hname]; exact List.mem_cons_self)
  have hcomment : c ≠ '#' := by
    rintro rfl
    cases hc
  rw [writeLine, hname]
  simpa [isComment] using hcomment

theorem readLines_append {first second : List (List Char)} {ss ts : List Series}
    (hfirst : readLines first = some ss) (hsecond : readLines second = some ts) :
    readLines (first ++ second) = some (ss ++ ts) := by
  induction first generalizing ss with
  | nil =>
    obtain rfl := Option.some.inj hfirst
    exact hsecond
  | cons line first ih =>
    rw [readLines] at hfirst
    rw [List.cons_append, readLines]
    split at hfirst
    · rename_i hcomment
      rw [if_pos hcomment, ih hfirst]
    · rename_i hcomment
      obtain ⟨s, hs, hfirst⟩ := Option.bind_eq_some_iff.mp hfirst
      obtain ⟨more, hmore, rfl⟩ := Option.map_eq_some_iff.mp hfirst
      rw [if_neg hcomment, hs, ih hmore]
      rfl

theorem readLines_flatMap {α : Type} {items : List α} {lines : α → List (List Char)}
    {series : α → List Series} (h : ∀ a ∈ items, readLines (lines a) = some (series a)) :
    readLines (items.flatMap lines) = some (items.flatMap series) := by
  induction items with
  | nil => rfl
  | cons a items ih =>
    obtain ⟨ha, hitems⟩ := List.forall_mem_cons.mp h
    rw [List.flatMap_cons, List.flatMap_cons]
    exact readLines_append ha (ih hitems)

theorem readLines_comment {line : List Char} (h : isComment line = true) :
    readLines [line] = some [] := by
  rw [readLines, if_pos h, readLines]

theorem readLines_map_writeLine {series : List Series} (h : ∀ s ∈ series, s.WellFormed) :
    readLines (series.map writeLine) = some series := by
  induction series with
  | nil => rfl
  | cons s series ih =>
    obtain ⟨hs, hseries⟩ := List.forall_mem_cons.mp h
    rw [List.map_cons, readLines, isComment_writeLine hs, if_neg Bool.false_ne_true,
      readLine_writeLine hs, ih hseries]
    rfl

/-- The labels of every series of a text have names of labels, all different. -/
theorem labels_of_readLines {lines : List (List Char)} :
    ∀ {series : List Series}, readLines lines = some series → ∀ s ∈ series,
      (∀ p ∈ s.labels, isLabelName p.1.toList = true) ∧ (s.labels.map Prod.fst).Nodup := by
  induction lines with
  | nil =>
    intro series h s hs
    obtain rfl := Option.some.inj h
    cases hs
  | cons line lines ih =>
    intro series h s hs
    rw [readLines] at h
    split at h
    · exact ih h s hs
    · obtain ⟨first, hfirst, h⟩ := Option.bind_eq_some_iff.mp h
      obtain ⟨more, hmore, rfl⟩ := Option.map_eq_some_iff.mp h
      rcases List.mem_cons.mp hs with rfl | hs
      · exact labels_of_readLine hfirst
      · exact ih hmore s hs

/-- **A text is read line by line**, each ended. -/
theorem read_terminated {lines : List (List Char)} (h : ∀ line ∈ lines, '\n' ∉ line) :
    read (lines.flatMap (· ++ ['\n'])) = readLines lines := by
  have hlast : readLines [[]] = some [] := readLines_comment rfl
  have hlines (ls : List (List Char)) : readLines (ls ++ [[]]) = readLines ls := by
    induction ls with
    | nil => exact hlast
    | cons line ls ih => rw [List.cons_append, readLines, readLines, ih]
  rw [read, Lines.splitOn_eq, Lines.complete_all h, Lines.rest_terminated h, hlines]

end Exposition
