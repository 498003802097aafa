import Declaragent.Library.RegExp

/-!
# Library — MarkdownV2

A reader of a markup in which a backslash takes its meaning from any character behind it.  Outside
of code, the reserved characters are markup: asterisks and underscores around what is bold, italic
or underlined, and backticks around code.  In code only the backtick and the backslash are special.
Two underscores are always read as one mark.

* `read_escapeEach`: a text whose special characters are escaped is read as itself.
* `length_pre`: a text in a block of code whose special characters are not escaped is read as
  something shorter.
-/

namespace MarkdownV2
open RegExp (CodeUnit unit)

/-! ### The reader -/

def tick : CodeUnit := 96

def backslash : CodeUnit := 92

def fence : List CodeUnit := [tick, tick, tick]

/-- These are markup outside of code. -/
def reserved : List CodeUnit :=
  [unit '_', unit '*', unit '[', unit ']', unit '(', unit ')', unit '~', tick, unit '>', unit '#',
    unit '+', unit '-', unit '=', unit '|', unit '{', unit '}', unit '.', unit '!']

/-- These can stand behind a backslash. -/
def escapable (c : CodeUnit) : Bool := 1 ≤ c && c ≤ 126

inductive Mark where
  | bold | italic | underline
  deriving DecidableEq

inductive Piece where
  | char (c : CodeUnit)
  | code (c : CodeUnit)
  | opensCode | closesCode
  | opensPre | closesPre
  | mark (m : Mark)

inductive Zone where
  | text | code | pre

/-- A character of the zone. -/
def Zone.piece : Zone → CodeUnit → Piece
  | .text => .char
  | .code | .pre => .code

/-- What a character is read after: nothing special, a backslash, or the start of a word whose other
characters are skipped. -/
inductive Pending where
  | ready
  | escape
  | skip (n : Nat)

/-- Two more backticks. -/
def goesOn (rest : List CodeUnit) : Bool := [tick, tick].isPrefixOf rest

def stepText (c : CodeUnit) (rest : List CodeUnit) : Option (List Piece × Zone × Pending) :=
  if c = tick then
    if goesOn rest then some ([.opensPre], .pre, .skip 1) else some ([.opensCode], .code, .ready)
  else if c = unit '_' then
    if rest.head? = some (unit '_') then some ([.mark .underline], .text, .skip 0)
    else some ([.mark .italic], .text, .ready)
  else if c = unit '*' then some ([.mark .bold], .text, .ready)
  else if c ∈ reserved then none
  else some ([.char c], .text, .ready)

def stepCode (c : CodeUnit) : Option (List Piece × Zone × Pending) :=
  if c = tick then some ([.closesCode], .text, .ready) else some ([.code c], .code, .ready)

def stepPre (c : CodeUnit) (rest : List CodeUnit) : Option (List Piece × Zone × Pending) :=
  if c = tick then if goesOn rest then some ([.closesPre], .text, .skip 1) else none
  else some ([.code c], .pre, .ready)

def stepZone (c : CodeUnit) (rest : List CodeUnit) : Zone → Option (List Piece × Zone × Pending)
  | .text => stepText c rest
  | .code => stepCode c
  | .pre => stepPre c rest

def step (zone : Zone) (c : CodeUnit) (rest : List CodeUnit) :
    Pending → Option (List Piece × Zone × Pending)
  | .ready => if c = backslash then some ([], zone, .escape) else stepZone c rest zone
  | .escape => if escapable c then some ([zone.piece c], zone, .ready) else none
  | .skip 0 => some ([], zone, .ready)
  | .skip (n + 1) => some ([], zone, .skip n)

/-- The pieces of a text, if it is one that can be read. -/
def readFrom : Zone → Pending → List CodeUnit → Option (List Piece)
  | .text, .ready, [] => some []
  | _, _, [] => none
  | zone, pending, c :: rest =>
    match step zone c rest pending with
    | none => none
    | some (pieces, zone, pending) => (readFrom zone pending rest).map (pieces ++ ·)

def readMarkdown (text : List CodeUnit) : Option (List Piece) := readFrom .text .ready text

/-- The marks are closed in the opposite order. -/
def nestedFrom : List Mark → List Piece → Bool
  | marks, [] => marks.isEmpty
  | marks, .mark m :: pieces =>
    if marks.head? = some m then nestedFrom marks.tail pieces else nestedFrom (m :: marks) pieces
  | marks, _ :: pieces => nestedFrom marks pieces

def Nested (pieces : List Piece) : Prop := nestedFrom [] pieces = true

def Piece.isMark : Piece → Bool
  | .mark _ => true
  | _ => false

/-- What a piece shows of the text that it was made of. -/
def Piece.source : Piece → List CodeUnit
  | .char c | .code c => [c]
  | .opensCode | .closesCode => [tick]
  | .opensPre | .closesPre => fence
  | .mark _ => []

/-! ### Reading single pieces -/

variable {zone : Zone} {c : CodeUnit} {rest : List CodeUnit}

/-- The character is read as itself. -/
def Bare : Zone → CodeUnit → Prop
  | .text, c => c ≠ backslash ∧ c ∉ reserved
  | .code, c | .pre, c => c ≠ backslash ∧ c ≠ tick

theorem readFrom_step {zone' : Zone} {pending pending' : Pending} {pieces : List Piece}
    (h : step zone c rest pending = some (pieces, zone', pending')) :
    readFrom zone pending (c :: rest) = (readFrom zone' pending' rest).map (pieces ++ ·) := by
  rw [readFrom, h]

theorem readFrom_escape (h : escapable c = true) :
    readFrom zone .ready (backslash :: c :: rest) =
      (readFrom zone .ready rest).map (zone.piece c :: ·) := by
  have hfirst : step zone backslash (c :: rest) .ready = some ([], zone, .escape) := by
    rw [step, if_pos rfl]
  have hsecond : step zone c rest .escape = some ([zone.piece c], zone, .ready) := by
    rw [step, if_pos h]
  rw [readFrom_step hfirst, readFrom_step hsecond, Option.map_map]
  rfl

theorem stepZone_bare (h : Bare zone c) : stepZone c rest zone =
    some ([zone.piece c], zone, .ready) := by
  cases zone with
  | text =>
    have hne : ∀ d ∈ reserved, c ≠ d := fun d hd hcd => h.2 (hcd ▸ hd)
    rw [stepZone, stepText, if_neg (hne _ (by decide)), if_neg (hne _ (by decide)),
      if_neg (hne _ (by decide)), if_neg h.2]
    rfl
  | code => exact if_neg h.2
  | pre => exact if_neg h.2

theorem Bare.ne_backslash (h : Bare zone c) : c ≠ backslash := by
  cases zone <;> exact h.1

theorem readFrom_bare (h : Bare zone c) : readFrom zone .ready (c :: rest) =
    (readFrom zone .ready rest).map (zone.piece c :: ·) := by
  have hstep : step zone c rest .ready = some ([zone.piece c], zone, .ready) := by
    rw [step, if_neg h.ne_backslash, stepZone_bare h]
  exact readFrom_step hstep

theorem readFrom_opensPre : readFrom .text .ready (fence ++ rest) =
    (readFrom .pre .ready rest).map (.opensPre :: ·) := by
  have hfirst : step .text tick (tick :: tick :: rest) .ready = some ([.opensPre], .pre, .skip 1) :=
    rfl
  have hsecond : step .pre tick (tick :: rest) (.skip 1) = some ([], .pre, .skip 0) := rfl
  have hthird : step .pre tick rest (.skip 0) = some ([], .pre, .ready) := rfl
  rw [fence, List.cons_append, List.cons_append, List.cons_append, List.nil_append,
    readFrom_step hfirst, readFrom_step hsecond, readFrom_step hthird, Option.map_map,
    Option.map_map]
  rfl

theorem readFrom_closesPre : readFrom .pre .ready (fence ++ rest) =
    (readFrom .text .ready rest).map (.closesPre :: ·) := by
  have hfirst : step .pre tick (tick :: tick :: rest) .ready = some ([.closesPre], .text, .skip 1) :=
    rfl
  have hsecond : step .text tick (tick :: rest) (.skip 1) = some ([], .text, .skip 0) := rfl
  have hthird : step .text tick rest (.skip 0) = some ([], .text, .ready) := rfl
  rw [fence, List.cons_append, List.cons_append, List.cons_append, List.nil_append,
    readFrom_step hfirst, readFrom_step hsecond, readFrom_step hthird, Option.map_map,
    Option.map_map]
  rfl

theorem goesOn_of_head_ne (h : rest.head? ≠ some tick) : goesOn rest = false := by
  cases rest with
  | nil => rfl
  | cons d rest =>
    have hd : tick ≠ d := fun heq => h (congrArg some heq.symm)
    rw [goesOn, List.isPrefixOf, beq_eq_false_iff_ne.mpr hd]
    rfl

theorem goesOn_tick_of_head_ne (h : rest.head? ≠ some tick) : goesOn (tick :: rest) = false := by
  rw [goesOn, List.isPrefixOf, beq_self_eq_true, Bool.true_and]
  cases rest with
  | nil => rfl
  | cons d rest =>
    have hd : tick ≠ d := fun heq => h (congrArg some heq.symm)
    rw [List.isPrefixOf, beq_eq_false_iff_ne.mpr hd]
    rfl

theorem readFrom_opensCode (h : goesOn rest = false) : readFrom .text .ready (tick :: rest) =
    (readFrom .code .ready rest).map (.opensCode :: ·) := by
  have hstep : step .text tick rest .ready = some ([.opensCode], .code, .ready) := by
    rw [step, if_neg (by decide), stepZone, stepText, if_pos rfl, h]
    rfl
  exact readFrom_step hstep

theorem readFrom_closesCode : readFrom .code .ready (tick :: rest) =
    (readFrom .text .ready rest).map (.closesCode :: ·) := by
  have hstep : step .code tick rest .ready = some ([.closesCode], .text, .ready) := rfl
  exact readFrom_step hstep

/-- A lone backtick in a block of code. -/
theorem readFrom_pre_tick (h : goesOn rest = false) : readFrom .pre .ready (tick :: rest) = none := by
  have hstep : step .pre tick rest .ready = none := by
    rw [step, if_neg (by decide), stepZone, stepPre, if_pos rfl, h]
    rfl
  rw [readFrom, hstep]

theorem readFrom_bold : readFrom .text .ready (unit '*' :: rest) =
    (readFrom .text .ready rest).map (.mark .bold :: ·) := by
  have hstep : step .text (unit '*') rest .ready = some ([.mark .bold], .text, .ready) := rfl
  exact readFrom_step hstep

theorem readFrom_italic (h : rest.head? ≠ some (unit '_')) :
    readFrom .text .ready (unit '_' :: rest) =
      (readFrom .text .ready rest).map (.mark .italic :: ·) := by
  have hstep : step .text (unit '_') rest .ready = some ([.mark .italic], .text, .ready) := by
    rw [step, if_neg (by decide), stepZone, stepText, if_neg (by decide), if_pos rfl, if_neg h]
  exact readFrom_step hstep

theorem readFrom_underline : readFrom .text .ready (unit '_' :: unit '_' :: rest) =
    (readFrom .text .ready rest).map (.mark .underline :: ·) := by
  have hfirst : step .text (unit '_') (unit '_' :: rest) .ready =
      some ([.mark .underline], .text, .skip 0) := rfl
  have hsecond : step .text (unit '_') rest (.skip 0) = some ([], .text, .ready) := rfl
  rw [readFrom_step hfirst, readFrom_step hsecond, Option.map_map]
  rfl

/-! ### Reading texts -/

/-- The text, with a backslash before each special character. -/
def escapeEach (special : CodeUnit → Bool) (text : List CodeUnit) : List CodeUnit :=
  text.flatMap fun c => if special c then [backslash, c] else [c]

theorem escapeEach_append (special : CodeUnit → Bool) (text more : List CodeUnit) :
    escapeEach special (text ++ more) = escapeEach special text ++ escapeEach special more :=
  List.flatMap_append

theorem escapeEach_of_plain {special : CodeUnit → Bool} {text : List CodeUnit}
    (h : ∀ c ∈ text, special c = false) : escapeEach special text = text := by
  induction text with
  | nil => rfl
  | cons c text ih =>
    have hc := h c List.mem_cons_self
    rw [escapeEach, List.flatMap_cons, hc]
    exact congrArg (c :: ·) (ih fun d hd => h d (List.mem_cons_of_mem c hd))

/-- **A text whose special characters are escaped is read as itself.** -/
theorem read_escapeEach {special : CodeUnit → Bool}
    (hbare : ∀ c, special c = false → Bare zone c)
    (hescapable : ∀ c, special c = true → escapable c = true) (text : List CodeUnit) :
    readFrom zone .ready (escapeEach special text ++ rest) =
      (readFrom zone .ready rest).map (text.map zone.piece ++ ·) := by
  induction text with
  | nil =>
    cases hrest : readFrom zone .ready rest with
    | none => simp [escapeEach, hrest]
    | some pieces => simp [escapeEach, hrest]
  | cons c text ih =>
    have hcons : readFrom zone .ready (escapeEach special (c :: text) ++ rest) =
        (readFrom zone .ready (escapeEach special text ++ rest)).map (zone.piece c :: ·) := by
      rw [escapeEach, List.flatMap_cons]
      cases hc : special c with
      | true => exact readFrom_escape (hescapable c hc)
      | false => exact readFrom_bare (hbare c hc)
    rw [hcons, ih, Option.map_map]
    rfl

theorem code_cons {read : Option (List Piece)} {pieces : List CodeUnit} {more : List Piece}
    (h : read.map (.code c :: ·) = some (pieces.map .code ++ .closesPre :: more)) :
    ∃ pieces', pieces = c :: pieces' ∧ read = some (pieces'.map .code ++ .closesPre :: more) := by
  obtain ⟨found, rfl, heq⟩ := Option.map_eq_some_iff.mp h
  cases pieces with
  | nil => cases heq
  | cons d pieces =>
    cases heq
    exact ⟨pieces, rfl, rfl⟩

/-- **A text that is not escaped**, in a block of code up to the next line: it is read as no more
than itself, and as less where it has special characters. -/
theorem length_pre : ∀ {text pieces : List CodeUnit} {more : List Piece},
    readFrom .pre .ready (text ++ 10 :: (fence ++ rest)) =
        some (pieces.map .code ++ .closesPre :: more) →
      pieces.length ≤ text.length + 1 ∧
        (pieces.length = text.length + 1 → backslash ∉ text ∧ tick ∉ text)
  | [], pieces, more, h => by
      have hnewline : Bare .pre 10 := ⟨by decide, by decide⟩
      rw [List.nil_append, readFrom_bare hnewline, readFrom_closesPre] at h
      obtain ⟨pieces', rfl, hrest⟩ := code_cons h
      obtain ⟨found, -, heq⟩ := Option.map_eq_some_iff.mp hrest
      cases pieces' with
      | nil => exact ⟨Nat.le_refl _, fun _ => ⟨List.not_mem_nil, List.not_mem_nil⟩⟩
      | cons d pieces' => cases heq
  | c :: text, pieces, more, h => by
      by_cases hslash : c = backslash
      · subst hslash
        cases text with
        | nil =>
          have hnewline : escapable 10 = true := by decide
          rw [List.singleton_append, readFrom_escape hnewline, readFrom_closesPre] at h
          obtain ⟨pieces', rfl, hrest⟩ := code_cons h
          obtain ⟨found, -, heq⟩ := Option.map_eq_some_iff.mp hrest
          cases pieces' with
          | nil => exact ⟨by simp, fun hlength => by simp at hlength⟩
          | cons d pieces' => cases heq
        | cons d text =>
          cases hd : escapable d with
          | false =>
            have hnone : step .pre d (text ++ 10 :: (fence ++ rest)) .escape = none := by
              rw [step, hd]
              rfl
            have hescape : step .pre backslash (d :: (text ++ 10 :: (fence ++ rest))) .ready =
                some ([], .pre, .escape) := rfl
            rw [List.cons_append, List.cons_append, readFrom_step hescape, readFrom, hnone] at h
            cases h
          | true =>
            rw [List.cons_append, List.cons_append, readFrom_escape hd] at h
            obtain ⟨pieces', rfl, hrest⟩ := code_cons h
            obtain ⟨hle, -⟩ := length_pre hrest
            simp only [List.length_cons]
            exact ⟨by omega, fun hlength => by omega⟩
      · by_cases htick : c = tick
        · subst htick
          rw [List.cons_append] at h
          cases hgoes : goesOn (text ++ 10 :: (fence ++ rest)) with
          | false =>
            rw [readFrom_pre_tick hgoes] at h
            cases h
          | true =>
            have hclose : step .pre tick (text ++ 10 :: (fence ++ rest)) .ready =
                some ([.closesPre], .text, .skip 1) := by
              rw [step, if_neg (by decide), stepZone, stepPre, if_pos rfl, hgoes]
              rfl
            rw [readFrom_step hclose] at h
            obtain ⟨found, -, heq⟩ := Option.map_eq_some_iff.mp h
            cases pieces with
            | nil => exact ⟨Nat.zero_le _, fun hlength => by simp at hlength⟩
            | cons d pieces => cases heq
        · have hbare : Bare .pre c := ⟨hslash, htick⟩
          rw [List.cons_append, readFrom_bare hbare] at h
          obtain ⟨pieces', rfl, hrest⟩ := code_cons h
          obtain ⟨hle, hplain⟩ := length_pre hrest
          simp only [List.length_cons, List.mem_cons, not_or]
          refine ⟨by omega, fun hlength => ?_⟩
          obtain ⟨hno, hno'⟩ := hplain (by omega)
          exact ⟨⟨fun heq => hslash heq.symm, hno⟩, fun heq => htick heq.symm, hno'⟩

theorem nestedFrom_append {pieces : List Piece} (h : ∀ p ∈ pieces, p.isMark = false)
    (marks : List Mark) (more : List Piece) :
    nestedFrom marks (pieces ++ more) = nestedFrom marks more := by
  induction pieces with
  | nil => rfl
  | cons p pieces ih =>
    have hrest := ih fun q hq => h q (List.mem_cons_of_mem p hq)
    cases p with
    | mark m =>
      have hmark : true = false := h _ List.mem_cons_self
      cases hmark
    | char _ => exact hrest
    | code _ => exact hrest
    | opensCode => exact hrest
    | closesCode => exact hrest
    | opensPre => exact hrest
    | closesPre => exact hrest

/-- What stands between two marks of a kind. -/
theorem nestedFrom_marked {pieces : List Piece} (h : ∀ p ∈ pieces, p.isMark = false) (m : Mark)
    (more : List Piece) :
    nestedFrom [] (.mark m :: pieces ++ .mark m :: more) = nestedFrom [] more := by
  have hopen : nestedFrom [] (.mark m :: (pieces ++ .mark m :: more)) =
      nestedFrom [m] (pieces ++ .mark m :: more) := by
    rw [nestedFrom]
    rfl
  rw [List.cons_append, hopen, nestedFrom_append h, nestedFrom]
  exact if_pos rfl

end MarkdownV2
