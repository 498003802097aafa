import Declaragent.Library.RegExp

/-!
# Library — markup

A table gives the characters that stand for themselves nowhere, each with its reference.
`replaceInTurn` puts the references in one after the other, `encode` all at once, and `decode`
reads them back.  `tokenize` is a reader of tags, attributes and text.

* `replaceInTurn_eq`: the order of the replacements is harmless if no reference holds a character
  that is replaced later.
* `decode_encode`: references that begin with the mark, none with another one, are read back.
* `scan_attributes`, `scan_text`, `scan_opens`, `scan_closes`: what the reader makes of each part
  of a text whose values hold no delimiter.
-/

namespace Markup

/-! ### References -/

section References

variable {α : Type} [DecidableEq α]

/-- `text.replaceAll(c, word)`, for one character. -/
def replaceEach (c : α) (word text : List α) : List α :=
  text.flatMap fun d => if d = c then word else [d]

/-- The replacements of a table, one after the other. -/
def replaceInTurn (table : List (α × List α)) (text : List α) : List α :=
  table.foldl (fun text entry => replaceEach entry.1 entry.2 text) text

def encodeEach (table : List (α × List α)) (c : α) : List α := (table.lookup c).getD [c]

/-- The replacements of a table, all at once. -/
def encode (table : List (α × List α)) (text : List α) : List α := text.flatMap (encodeEach table)

/-- The references are read back, behind what is skipped. -/
def decodeFrom (table : List (α × List α)) : Nat → List α → List α
  | _, [] => []
  | skip + 1, _ :: text => decodeFrom table skip text
  | 0, c :: text =>
    match table.find? fun entry => entry.2.isPrefixOf (c :: text) with
    | some entry => entry.1 :: decodeFrom table (entry.2.length - 1) text
    | none => c :: decodeFrom table 0 text

def decode (table : List (α × List α)) (text : List α) : List α := decodeFrom table 0 text

/-- The references all begin with the mark, and none of them with another one. -/
structure References (table : List (α × List α)) (mark : α) : Prop where
  begins : ∀ entry ∈ table, entry.2.head? = some mark
  free : ∀ p ∈ table, ∀ q ∈ table, p.2 <+: q.2 → p = q

variable {table part : List (α × List α)} {mark : α}

theorem encodeEach_of_notMem {c : α} (h : c ∉ table.map Prod.fst) : encodeEach table c = [c] := by
  rw [encodeEach, List.lookup_eq_none_iff.mpr]
  · rfl
  · rintro ⟨d, word⟩ mem
    have : c ≠ d := fun eq => h (List.mem_map.mpr ⟨_, mem, eq.symm⟩)
    simpa using this

theorem encode_of_notMem {text : List α} (h : ∀ c ∈ text, c ∉ table.map Prod.fst) :
    encode table text = text := by
  induction text with
  | nil => rfl
  | cons c text ih =>
    rw [List.forall_mem_cons] at h
    rw [encode, List.flatMap_cons, encodeEach_of_notMem h.1, ← encode, ih h.2,
      List.singleton_append]

theorem replaceInTurn_eq (h : table.Pairwise fun p q => q.1 ∉ p.2) (text : List α) :
    replaceInTurn table text = encode table text := by
  induction table generalizing text with
  | nil => exact (encode_of_notMem (by simp)).symm
  | cons entry table ih =>
    obtain ⟨later, h⟩ := List.pairwise_cons.mp h
    have kept : encode table entry.2 = entry.2 := by
      refine encode_of_notMem fun c mem keyed => ?_
      obtain ⟨q, hq, rfl⟩ := List.mem_map.mp keyed
      exact later q hq mem
    rw [replaceInTurn, List.foldl_cons, ← replaceInTurn, ih h, replaceEach, encode, encode,
      List.flatMap_assoc]
    congr 1
    funext d
    by_cases same : d = entry.1
    · rw [if_pos same, ← encode, kept, encodeEach, List.lookup_cons, beq_iff_eq.mpr same]
      rfl
    · rw [if_neg same, List.flatMap_singleton, encodeEach, encodeEach, List.lookup_cons,
        beq_eq_false_iff_ne.mpr same]

theorem decodeFrom_append (word text : List α) :
    decodeFrom table word.length (word ++ text) = decodeFrom table 0 text := by
  induction word with
  | nil => rfl
  | cons c word ih => exact ih

/-- A reference is read as its character. -/
theorem decodeFrom_reference (refs : References table mark) {c : α} {word : List α}
    (mem : (c, word) ∈ table) (text : List α) :
    decodeFrom table 0 (word ++ text) = c :: decodeFrom table 0 text := by
  obtain ⟨d, word, rfl⟩ : ∃ d rest, word = d :: rest :=
    List.exists_cons_of_ne_nil fun nil => by simpa [nil] using refs.begins _ mem
  have found : (table.find? fun entry => entry.2.isPrefixOf (d :: (word ++ text))) =
      some (c, d :: word) := by
    obtain ⟨entry, found⟩ := Option.isSome_iff_exists.mp (List.find?_isSome.mpr ⟨_, mem, by simp⟩ :
      (table.find? fun entry => entry.2.isPrefixOf (d :: (word ++ text))).isSome = true)
    have isPrefix := List.find?_some found
    have begins : entry.2 <+: d :: word ++ text := List.isPrefixOf_iff_prefix.mp isPrefix
    have mem' := List.mem_of_find?_eq_some found
    rcases List.prefix_or_prefix_of_prefix begins (List.prefix_append (d :: word) text) with h | h
    · rw [found, refs.free _ mem' _ mem h]
    · rw [found, ← refs.free _ mem _ mem' h]
  rw [List.cons_append, decodeFrom, found]
  exact congrArg (c :: ·) (decodeFrom_append word text)

/-- What does not begin a reference is read as it is. -/
theorem decodeFrom_plain (refs : References table mark) {c : α} (h : c ≠ mark) (text : List α) :
    decodeFrom table 0 (c :: text) = c :: decodeFrom table 0 text := by
  have none : (table.find? fun entry => entry.2.isPrefixOf (c :: text)) = none := by
    refine List.find?_eq_none.mpr fun entry mem begins => ?_
    have begins := List.isPrefixOf_iff_prefix.mp begins
    obtain ⟨d, word, eq⟩ : ∃ d rest, entry.2 = d :: rest :=
      List.exists_cons_of_ne_nil fun nil => by simpa [nil] using refs.begins _ mem
    have marked := refs.begins _ mem
    rw [eq] at begins marked
    exact h ((List.cons_prefix_cons.mp begins).1 ▸ Option.some.inj marked)
  rw [decodeFrom, none]

/-- The references of a part of the table that holds the mark are read back. -/
theorem decode_encode (refs : References table mark) (sub : ∀ entry ∈ part, entry ∈ table)
    (marked : mark ∈ part.map Prod.fst) (text : List α) :
    decode table (encode part text) = text := by
  induction text with
  | nil => rfl
  | cons c text ih =>
    rw [encode, List.flatMap_cons, ← encode, decode]
    cases found : part.lookup c with
    | none =>
      have plain : c ≠ mark := by
        rintro rfl
        obtain ⟨entry, mem, eq⟩ := List.mem_map.mp marked
        simpa [eq] using List.lookup_eq_none_iff.mp found entry mem
      rw [encodeEach, found, Option.getD_none, List.singleton_append,
        decodeFrom_plain refs plain, ← decode, ih]
    | some word =>
      have mem : (c, word) ∈ part := by
        obtain ⟨l₁, l₂, eq, -⟩ := List.lookup_eq_some_iff.mp found
        simp [eq]
      rw [encodeEach, found, Option.getD_some,
        decodeFrom_reference refs (sub _ mem), ← decode, ih]

/-- A character that is replaced, and is in no reference, does not occur. -/
theorem notMem_encode {c : α} (keyed : c ∈ table.map Prod.fst)
    (free : ∀ entry ∈ table, c ∉ entry.2) (text : List α) : c ∉ encode table text := by
  intro mem
  obtain ⟨d, -, mem⟩ := List.mem_flatMap.mp mem
  cases found : table.lookup d with
  | none =>
    rw [encodeEach, found, Option.getD_none, List.mem_singleton] at mem
    obtain ⟨entry, hentry, rfl⟩ := List.mem_map.mp keyed
    simpa [mem] using List.lookup_eq_none_iff.mp found entry hentry
  | some word =>
    rw [encodeEach, found, Option.getD_some] at mem
    obtain ⟨l₁, l₂, eq, -⟩ := List.lookup_eq_some_iff.mp found
    exact free (d, word) (by simp [eq]) mem

end References

/-! ### Reading -/

open RegExp (CodeUnit unit)

/-- The code units of a text in the basic plane. -/
def units (text : String) : List CodeUnit := text.toList.map unit

/-- The code units of a number. -/
def decimal (n : Nat) : List CodeUnit := (Nat.toDigits 10 n).map unit

/-- The predefined references. -/
def entities : List (CodeUnit × List CodeUnit) :=
  [(unit '&', units "&amp;"), (unit '<', units "&lt;"), (unit '>', units "&gt;"),
    (unit '"', units "&quot;")]

inductive Token where
  | opens (name : List CodeUnit) (attributes : List (List CodeUnit × List CodeUnit))
  | closes (name : List CodeUnit)
  | text (content : List CodeUnit)
  deriving DecidableEq

/-- What delimits a tag, its parts or a value. -/
def delimiters : List CodeUnit := [unit '<', unit '>', unit '"', unit '=', unit ' ', unit '/']

/-- Where the reader is: in a text, in the name of a tag, in the name of an attribute, ahead of a
value, or in a value. -/
inductive Scan where
  | text (seen : List CodeUnit)
  | name (closes : Bool) (seen : List CodeUnit)
  | key (name : List CodeUnit) (attributes : List (List CodeUnit × List CodeUnit))
      (seen : List CodeUnit)
  | equals (name : List CodeUnit) (attributes : List (List CodeUnit × List CodeUnit))
      (key : List CodeUnit)
  | value (name : List CodeUnit) (attributes : List (List CodeUnit × List CodeUnit))
      (key seen : List CodeUnit)

/-- The tokens of the rest.  No tag bracket may stand in a text or a value. -/
def scan : Scan → List CodeUnit → Option (List Token)
  | .text seen, [] => some [.text (decode entities seen)]
  | _, [] => none
  | .text seen, c :: rest =>
    if c = unit '<' then (scan (.name false []) rest).map (.text (decode entities seen) :: ·)
    else if c = unit '>' then none
    else scan (.text (seen ++ [c])) rest
  | .name closes seen, c :: rest =>
    if c = unit '>' then
      (scan (.text []) rest).map ((if closes then .closes seen else .opens seen []) :: ·)
    else if c = unit '/' ∧ closes = false ∧ seen = [] then scan (.name true []) rest
    else if c = unit ' ' ∧ closes = false then scan (.key seen [] []) rest
    else if c ∈ delimiters then none
    else scan (.name closes (seen ++ [c])) rest
  | .key name attributes seen, c :: rest =>
    if c = unit '>' ∧ seen = [] then
      (scan (.text []) rest).map (.opens name attributes :: ·)
    else if c = unit ' ' ∧ seen = [] then scan (.key name attributes []) rest
    else if c = unit '=' then scan (.equals name attributes seen) rest
    else if c ∈ delimiters then none
    else scan (.key name attributes (seen ++ [c])) rest
  | .equals name attributes key, c :: rest =>
    if c = unit '"' then scan (.value name attributes key []) rest else none
  | .value name attributes key seen, c :: rest =>
    if c = unit '"' then scan (.key name (attributes ++ [(key, decode entities seen)]) []) rest
    else if c = unit '<' ∨ c = unit '>' then none
    else scan (.value name attributes key (seen ++ [c])) rest

def tokenize (text : List CodeUnit) : Option (List Token) := scan (.text []) text

example : tokenize [unit '<', unit 'a', unit '>'] =
    some [.text [], .opens [unit 'a'] [], .text []] := by
  rw [tokenize, scan]
  decide

/-- A text without tag brackets. -/
def Bare (text : List CodeUnit) : Prop := unit '<' ∉ text ∧ unit '>' ∉ text

instance (text : List CodeUnit) : Decidable (Bare text) := inferInstanceAs (Decidable (_ ∧ _))

/-- A name without delimiters. -/
def Plain (name : List CodeUnit) : Prop := ∀ c ∈ name, c ∉ delimiters

instance (name : List CodeUnit) : Decidable (Plain name) :=
  List.decidableBAll (fun c => c ∉ delimiters) name

variable {name key value text seen rest : List CodeUnit}
  {attributes : List (List CodeUnit × List CodeUnit)}

theorem scan_text (h : Bare text) :
    scan (.text seen) (text ++ rest) = scan (.text (seen ++ text)) rest := by
  induction text generalizing seen with
  | nil => simp
  | cons c text ih =>
    obtain ⟨hlt, hgt⟩ := h
    rw [List.mem_cons, not_or] at hlt hgt
    rw [List.cons_append, scan, if_neg (Ne.symm hlt.1), if_neg (Ne.symm hgt.1),
      ih ⟨hlt.2, hgt.2⟩, List.append_assoc, List.singleton_append]

theorem scan_value (bare : Bare value) (unquoted : unit '"' ∉ value) :
    scan (.value name attributes key seen) (value ++ rest) =
      scan (.value name attributes key (seen ++ value)) rest := by
  induction value generalizing seen with
  | nil => simp
  | cons c value ih =>
    obtain ⟨hlt, hgt⟩ := bare
    rw [List.mem_cons, not_or] at hlt hgt unquoted
    rw [List.cons_append, scan, if_neg (Ne.symm unquoted.1),
      if_neg (not_or.mpr ⟨Ne.symm hlt.1, Ne.symm hgt.1⟩), ih ⟨hlt.2, hgt.2⟩ unquoted.2,
      List.append_assoc, List.singleton_append]

/-- What is not among the delimiters is none of them. -/
theorem ne_of_plain {c : CodeUnit} (h : c ∉ delimiters) :
    c ≠ unit '>' ∧ c ≠ unit '/' ∧ c ≠ unit ' ' ∧ c ≠ unit '=' := by
  simp only [delimiters, List.mem_cons, not_or] at h
  exact ⟨h.2.1, h.2.2.2.2.2.1, h.2.2.2.2.1, h.2.2.2.1⟩

theorem scan_name {closes : Bool} (h : Plain name) :
    scan (.name closes seen) (name ++ rest) = scan (.name closes (seen ++ name)) rest := by
  induction name generalizing seen with
  | nil => simp
  | cons c name ih =>
    obtain ⟨plain, h⟩ := List.forall_mem_cons.mp h
    obtain ⟨hgt, hslash, hspace, -⟩ := ne_of_plain plain
    rw [List.cons_append, scan, if_neg hgt, if_neg fun h => hslash h.1,
      if_neg fun h => hspace h.1, if_neg plain, ih h, List.append_assoc, List.singleton_append]

theorem scan_key (h : Plain key) :
    scan (.key name attributes seen) (key ++ rest) =
      scan (.key name attributes (seen ++ key)) rest := by
  induction key generalizing seen with
  | nil => simp
  | cons c key ih =>
    obtain ⟨plain, h⟩ := List.forall_mem_cons.mp h
    obtain ⟨hgt, -, hspace, hequals⟩ := ne_of_plain plain
    rw [List.cons_append, scan, if_neg fun h => hgt h.1, if_neg fun h => hspace h.1,
      if_neg hequals, if_neg plain, ih h, List.append_assoc, List.singleton_append]

/-- A tag without attributes. -/
def openTag (name : List CodeUnit) : List CodeUnit := unit '<' :: name ++ [unit '>']

def closeTag (name : List CodeUnit) : List CodeUnit := unit '<' :: unit '/' :: name ++ [unit '>']

/-- An attribute, with its value as it is written. -/
def attributeText (key value : List CodeUnit) : List CodeUnit :=
  key ++ unit '=' :: unit '"' :: value ++ [unit '"']

theorem scan_opens (h : Plain name) :
    scan (.text text) (openTag name ++ rest) =
      (scan (.text []) rest).map fun tokens =>
        .text (decode entities text) :: .opens name [] :: tokens := by
  rw [openTag, List.append_assoc, List.cons_append, scan, if_pos rfl, scan_name h,
    List.singleton_append, scan, if_pos rfl, Option.map_map]
  rfl

theorem scan_closes (h : Plain name) :
    scan (.text text) (closeTag name ++ rest) =
      (scan (.text []) rest).map fun tokens =>
        .text (decode entities text) :: .closes name :: tokens := by
  rw [closeTag, List.append_assoc, List.cons_append, scan, if_pos rfl, List.cons_append, scan,
    if_neg (by decide), if_pos ⟨rfl, rfl, rfl⟩, scan_name h, List.singleton_append, scan,
    if_pos rfl, Option.map_map]
  rfl

theorem scan_attribute (plain : Plain key) (bare : Bare value) (unquoted : unit '"' ∉ value) :
    scan (.key name attributes []) (attributeText key value ++ rest) =
      scan (.key name (attributes ++ [(key, decode entities value)]) []) rest := by
  rw [attributeText, List.append_assoc, List.append_assoc, scan_key plain, List.nil_append,
    List.cons_append, scan, if_neg fun h => absurd h.1 (by decide),
    if_neg fun h => absurd h.1 (by decide), if_pos rfl, List.cons_append, scan, if_pos rfl,
    scan_value bare unquoted, List.nil_append, List.singleton_append, scan, if_pos rfl]

/-- Attributes that can be read: with plain names, and values that hold no delimiter. -/
def Written (attributes : List (List CodeUnit × List CodeUnit)) : Prop :=
  ∀ a ∈ attributes, Plain a.1 ∧ Bare a.2 ∧ unit '"' ∉ a.2

/-- Attributes, one space apart. -/
def attributeTexts (attributes : List (List CodeUnit × List CodeUnit)) : List CodeUnit :=
  [unit ' '].intercalate (attributes.map fun a => attributeText a.1 a.2)

/-- What is read of attributes. -/
def decodeValues (attributes : List (List CodeUnit × List CodeUnit)) :
    List (List CodeUnit × List CodeUnit) :=
  attributes.map fun a => (a.1, decode entities a.2)

theorem attributeTexts_cons_cons {a b : List CodeUnit × List CodeUnit}
    {written : List (List CodeUnit × List CodeUnit)} :
    attributeTexts (a :: b :: written) =
      attributeText a.1 a.2 ++ unit ' ' :: attributeTexts (b :: written) := by
  simp [attributeTexts]

theorem scan_attributes {written : List (List CodeUnit × List CodeUnit)} (h : Written written) :
    scan (.key name attributes []) (attributeTexts written ++ unit '>' :: rest) =
      (scan (.text []) rest).map (.opens name (attributes ++ decodeValues written) :: ·) := by
  induction written generalizing attributes with
  | nil =>
    rw [attributeTexts, List.map_nil, List.intercalate_nil, List.nil_append, scan,
      if_pos ⟨rfl, rfl⟩, decodeValues, List.map_nil, List.append_nil]
  | cons a written ih =>
    obtain ⟨⟨plain, bare, unquoted⟩, h⟩ := List.forall_mem_cons.mp h
    have split : attributes ++ decodeValues (a :: written) =
        attributes ++ [(a.1, decode entities a.2)] ++ decodeValues written :=
      List.append_cons ..
    rw [split, ← ih h]
    cases written with
    | nil =>
      rw [attributeTexts, List.map_singleton, List.intercalate_singleton,
        scan_attribute plain bare unquoted]
      rfl
    | cons b written =>
      rw [attributeTexts_cons_cons, List.append_assoc, scan_attribute plain bare unquoted,
        List.cons_append, scan, if_neg fun h => absurd h.1 (by decide), if_pos ⟨rfl, rfl⟩]

/-- A tag with attributes. -/
def startTag (name : List CodeUnit) (attributes : List (List CodeUnit × List CodeUnit)) :
    List CodeUnit :=
  unit '<' :: name ++ unit ' ' :: attributeTexts attributes ++ [unit '>']

theorem scan_startTag {written : List (List CodeUnit × List CodeUnit)} (plain : Plain name)
    (h : Written written) :
    scan (.text text) (startTag name written ++ rest) =
      (scan (.text []) rest).map fun tokens =>
        .text (decode entities text) :: .opens name (decodeValues written) :: tokens := by
  rw [startTag, List.append_assoc, List.append_assoc, List.cons_append, scan, if_pos rfl,
    scan_name plain, List.nil_append, List.cons_append, scan, if_neg (by decide),
    if_neg fun h => absurd h.1 (by decide), if_pos ⟨rfl, rfl⟩, List.singleton_append,
    scan_attributes h, Option.map_map, List.nil_append]
  rfl

end Markup
