import Mathlib.Data.List.Sort
import Mathlib.Data.List.Lex
import Mathlib.Data.Rat.Defs

/-!
# Library — JSON values and the text they are written as

`Json` is the tree of a JSON value; an object is the list of its fields, in the order its keys
are listed.  `stringify` is the compact text of a value, as `JSON.stringify` writes it.

* A finite number is kept as its shortest decimal `mantissa · 10 ^ exponent`, in lowest terms,
  and written the way ECMAScript writes it (`Number.render`).
* `keyOrder` is the order in which a plain object lists its keys once they were inserted in
  sorted order: array indices first, by value, then the other keys by UTF-16 code units.
* `visible_stringify`: a compact text has no control character.
* `newline_notMem_stringify`: a compact text is one line.  So a text before it, a line break and
  the compact text can be told apart (`split_at_line`).
-/

namespace JsonText

/-- A finite number, as a decimal in lowest terms. -/
structure Number where
  mantissa : Int
  exponent : Int
  lowest : mantissa % 10 ≠ 0 ∨ (mantissa = 0 ∧ exponent = 0)
  deriving DecidableEq

namespace Number

def zero : Number := ⟨0, 0, Or.inr ⟨rfl, rfl⟩⟩

def value (n : Number) : ℚ :=
  if 0 ≤ n.exponent then n.mantissa * 10 ^ n.exponent.toNat
  else n.mantissa / 10 ^ (-n.exponent).toNat

/-- The digits of `Number::toString`: `k` digits `s`, with the decimal point after place `n`. -/
def renderPositive (s : List Char) (e : Int) : List Char :=
  let k := s.length
  let n : Int := k + e
  if 0 ≤ e ∧ n ≤ 21 then s ++ List.replicate e.toNat '0'
  else if 0 < n ∧ n ≤ 21 then s.take n.toNat ++ '.' :: s.drop n.toNat
  else if -6 < n ∧ n ≤ 0 then '0' :: '.' :: (List.replicate (-n).toNat '0' ++ s)
  else
    let digits := Nat.toDigits 10 (n - 1).natAbs
    let sign := if 0 < n then '+' else '-'
    s.take 1 ++ (if k = 1 then [] else '.' :: s.drop 1) ++ 'e' :: sign :: digits

def render (n : Number) : List Char :=
  let s := renderPositive (Nat.toDigits 10 n.mantissa.natAbs) n.exponent
  if n.mantissa < 0 then '-' :: s else s

def text (n : Number) : String := String.ofList n.render

/-- The characters of numbers. -/
def isNumeric (c : Char) : Bool := c.isDigit || c ∈ ['.', 'e', '+', '-']

theorem isNumeric_of_mem_toDigits {m : Nat} {c : Char} (h : c ∈ Nat.toDigits 10 m) :
    isNumeric c = true := by
  rw [isNumeric, Nat.isDigit_of_mem_toDigits (by decide) (by decide) h]
  rfl

theorem isNumeric_of_mem_renderPositive {s : List Char} (hs : ∀ c ∈ s, isNumeric c = true)
    (e : Int) {c : Char} (h : c ∈ renderPositive s e) : isNumeric c = true := by
  have hzero : isNumeric '0' = true := rfl
  have hpoint : isNumeric '.' = true := rfl
  have hexp : isNumeric 'e' = true := rfl
  have hplus : isNumeric '+' = true := rfl
  have hminus : isNumeric '-' = true := rfl
  have htake : ∀ k, ∀ c ∈ s.take k, isNumeric c = true := fun k c h => hs c (List.mem_of_mem_take h)
  have hdrop : ∀ k, ∀ c ∈ s.drop k, isNumeric c = true := fun k c h => hs c (List.mem_of_mem_drop h)
  have hzeros : ∀ k, ∀ c ∈ List.replicate k '0', isNumeric c = true :=
    fun k c h => (List.eq_of_mem_replicate h) ▸ hzero
  have hdigits : ∀ m : Nat, ∀ c ∈ Nat.toDigits 10 m, isNumeric c = true :=
    fun m c h => isNumeric_of_mem_toDigits h
  revert c
  unfold renderPositive
  dsimp only
  split
  · intro c h
    rcases List.mem_append.mp h with h | h
    · exact hs c h
    · exact hzeros _ c h
  · split
    · intro c h
      rcases List.mem_append.mp h with h | h
      · exact htake _ c h
      · rcases List.mem_cons.mp h with rfl | h
        · exact hpoint
        · exact hdrop _ c h
    · split
      · intro c h
        rcases List.mem_cons.mp h with rfl | h
        · exact hzero
        · rcases List.mem_cons.mp h with rfl | h
          · exact hpoint
          · rcases List.mem_append.mp h with h | h
            · exact hzeros _ c h
            · exact hs c h
      · intro c h
        rcases List.mem_append.mp h with h | h
        · rcases List.mem_append.mp h with h | h
          · exact htake _ c h
          · split at h
            · cases h
            · rcases List.mem_cons.mp h with rfl | h
              · exact hpoint
              · exact hdrop _ c h
        · rcases List.mem_cons.mp h with rfl | h
          · exact hexp
          · rcases List.mem_cons.mp h with rfl | h
            · split
              · exact hplus
              · exact hminus
            · exact hdigits _ c h

theorem isNumeric_of_mem_render {n : Number} {c : Char} (h : c ∈ n.render) :
    isNumeric c = true := by
  have hpositive : ∀ c ∈ renderPositive (Nat.toDigits 10 n.mantissa.natAbs) n.exponent,
      isNumeric c = true :=
    fun c h => isNumeric_of_mem_renderPositive (fun c h => isNumeric_of_mem_toDigits h) _ h
  unfold render at h
  dsimp only at h
  split at h
  · rcases List.mem_cons.mp h with rfl | h
    · rfl
    · exact hpositive c h
  · exact hpositive c h

theorem visible_render {n : Number} {c : Char} (h : c ∈ n.render) : 0x20 ≤ c.toNat := by
  have hnumeric := isNumeric_of_mem_render h
  simp only [isNumeric, Bool.or_eq_true, decide_eq_true_eq, List.mem_cons, List.not_mem_nil,
    or_false] at hnumeric
  rcases hnumeric with hdigit | rfl | rfl | rfl | rfl
  · exact le_trans (by decide) (Char.isDigit_iff_toNat.mp hdigit).1
  all_goals decide

end Number

/-- A JSON value. -/
inductive Json where
  | null
  | bool (b : Bool)
  | num (n : Number)
  | str (s : String)
  | arr (items : List Json)
  | obj (fields : List (String × Json))

/-! ### Object fields -/

/-- `value[key]`. -/
def Json.field (key : String) : Json → Option Json
  | .obj fields => fields.lookup key
  | _ => none

/-- Give a field a value: an existing field keeps its place, a new one comes last. -/
def setField (key : String) (v : Json) : List (String × Json) → List (String × Json)
  | [] => [(key, v)]
  | (k, w) :: fields => if k = key then (k, v) :: fields else (k, w) :: setField key v fields

/-- `{ ...value, [key]: v }`. -/
def Json.set (j : Json) (key : String) (v : Json) : Json :=
  match j with
  | .obj fields => .obj (setField key v fields)
  | j => j

theorem lookup_setField_of_ne {key other : String} (h : other ≠ key) (v : Json) :
    ∀ fields : List (String × Json), (setField key v fields).lookup other = fields.lookup other
  | [] => by simp [setField, List.lookup_cons, beq_eq_false_iff_ne.mpr h]
  | (k, w) :: fields => by
      unfold setField
      split
      · subst_vars; simp [List.lookup_cons, beq_eq_false_iff_ne.mpr h]
      · rw [List.lookup_cons, List.lookup_cons, lookup_setField_of_ne h v fields]

/-- A field set under another key is not seen. -/
theorem Json.field_set_of_ne {key other : String} (h : other ≠ key) (j v : Json) :
    (j.set key v).field other = j.field other := by
  cases j with
  | obj fields => exact lookup_setField_of_ne h v fields
  | null | bool | num | str | arr => rfl

/-- The UTF-16 code units of a text. -/
def utf16 (s : String) : List Nat :=
  s.toList.flatMap fun c =>
    let n := c.toNat
    if n < 0x10000 then [n]
    else [0xD800 + (n - 0x10000) / 0x400, 0xDC00 + (n - 0x10000) % 0x400]

/-- The array index a key spells, if it spells one. -/
def arrayIndex? (key : String) : Option Nat :=
  if key.toList.all Char.isDigit then
    let n := key.toList.foldl (fun n c => 10 * n + (c.toNat - '0'.toNat)) 0
    if n < 4294967295 ∧ Nat.toDigits 10 n = key.toList then some n else none
  else none

/-- The place of a key among the keys of an object that was filled in sorted order. -/
def keyOrder (key : String) : List Nat :=
  match arrayIndex? key with
  | some n => [0, n]
  | none => 1 :: utf16 key

/-- Fields in the order an object lists them. -/
def FieldLe (f g : String × Json) : Prop := keyOrder f.1 ≤ keyOrder g.1

instance : DecidableRel FieldLe := fun f g =>
  inferInstanceAs (Decidable (keyOrder f.1 ≤ keyOrder g.1))

instance : Std.Total FieldLe := ⟨fun f g => le_total (keyOrder f.1) (keyOrder g.1)⟩

instance : IsTrans (String × Json) FieldLe := ⟨fun _ _ _ => le_trans⟩

/-- The fields of an object, listed in order. -/
def sortFields (fields : List (String × Json)) : List (String × Json) :=
  fields.insertionSort FieldLe

theorem sortFields_sortFields (fields : List (String × Json)) :
    sortFields (sortFields fields) = sortFields fields :=
  (List.pairwise_insertionSort FieldLe fields).insertionSort_eq

/-- Rewriting the values of the fields commutes with listing them in order. -/
theorem sortFields_map (f : Json → Json) (fields : List (String × Json)) :
    sortFields (fields.map fun p => (p.1, f p.2)) =
      (sortFields fields).map fun p => (p.1, f p.2) :=
  (List.map_insertionSort FieldLe FieldLe (fun p => (p.1, f p.2)) fields
    fun _ _ _ _ => Iff.rfl).symm

theorem lookup_orderedInsert (key : String) (a : String × Json) :
    ∀ fields : List (String × Json),
      (fields.orderedInsert FieldLe a).lookup key = (a :: fields).lookup key
  | [] => rfl
  | b :: fields => by
      by_cases h : FieldLe a b
      · rw [List.orderedInsert_cons_of_le _ _ h]
      have hne : a.1 ≠ b.1 := fun he => h (le_of_eq (congrArg keyOrder he))
      rw [List.orderedInsert_of_not_le _ _ h]
      obtain ⟨ka, va⟩ := a
      obtain ⟨kb, vb⟩ := b
      rw [List.lookup_cons, lookup_orderedInsert key (ka, va) fields]
      simp only [List.lookup_cons]
      by_cases hb : key = kb
      · subst hb
        have : (key == ka) = false := by simpa using fun h => hne h.symm
        simp [this]
      · simp [beq_eq_false_iff_ne.mpr hb]

/-- Listing the fields in order loses and changes none of them. -/
theorem lookup_sortFields (key : String) :
    ∀ fields : List (String × Json), (sortFields fields).lookup key = fields.lookup key
  | [] => rfl
  | (k, v) :: fields => by
      have ih := lookup_sortFields key fields
      unfold sortFields at ih ⊢
      rw [List.insertionSort_cons, lookup_orderedInsert, List.lookup_cons, ih, List.lookup_cons]

/-! ### The compact text -/

def hexDigit (n : Nat) : Char := Nat.digitChar n

/-- `QuoteJSONString` of one character. -/
def escape (c : Char) : List Char :=
  if c = '"' then ['\\', '"']
  else if c = '\\' then ['\\', '\\']
  else if c = '\x08' then ['\\', 'b']
  else if c = '\x0c' then ['\\', 'f']
  else if c = '\n' then ['\\', 'n']
  else if c = '\r' then ['\\', 'r']
  else if c = '\t' then ['\\', 't']
  else if c.toNat < 0x20 then
    ['\\', 'u', '0', '0', hexDigit (c.toNat / 16), hexDigit (c.toNat % 16)]
  else [c]

def quote (s : String) : List Char :=
  '"' :: (s.toList.flatMap escape ++ ['"'])

mutual

/-- The compact text of a value, character by character. -/
def render : Json → List Char
  | .null => ['n', 'u', 'l', 'l']
  | .bool true => ['t', 'r', 'u', 'e']
  | .bool false => ['f', 'a', 'l', 's', 'e']
  | .num n => n.render
  | .str s => quote s
  | .arr items => '[' :: ([','].intercalate (renderItems items) ++ [']'])
  | .obj fields => '{' :: ([','].intercalate (renderFields fields) ++ ['}'])

def renderItems : List Json → List (List Char)
  | [] => []
  | j :: items => render j :: renderItems items

def renderFields : List (String × Json) → List (List Char)
  | [] => []
  | (k, v) :: fields => (quote k ++ ':' :: render v) :: renderFields fields

end

/-- `JSON.stringify(value)`. -/
def stringify (j : Json) : String := String.ofList (render j)

/-- A line break and the indentation of a depth, two blanks for each level. -/
def indentation (depth : Nat) : List Char := '\n' :: List.replicate (2 * depth) ' '

mutual

/-- The indented text of a value at a depth. -/
def renderIndented (depth : Nat) : Json → List Char
  | .arr [] => ['[', ']']
  | .arr (j :: items) =>
    '[' :: (indentation (depth + 1) ++
      (',' :: indentation (depth + 1)).intercalate
        (renderIndented (depth + 1) j :: renderItemsIndented (depth + 1) items) ++
      indentation depth ++ [']'])
  | .obj [] => ['{', '}']
  | .obj ((k, v) :: fields) =>
    '{' :: (indentation (depth + 1) ++
      (',' :: indentation (depth + 1)).intercalate
        ((quote k ++ ':' :: ' ' :: renderIndented (depth + 1) v) ::
          renderFieldsIndented (depth + 1) fields) ++
      indentation depth ++ ['}'])
  | j => render j

def renderItemsIndented (depth : Nat) : List Json → List (List Char)
  | [] => []
  | j :: items => renderIndented depth j :: renderItemsIndented depth items

def renderFieldsIndented (depth : Nat) : List (String × Json) → List (List Char)
  | [] => []
  | (k, v) :: fields =>
    (quote k ++ ':' :: ' ' :: renderIndented depth v) :: renderFieldsIndented depth fields

end

/-- `JSON.stringify(value, null, 2)`. -/
def stringifyIndented (j : Json) : String := String.ofList (renderIndented 0 j)

theorem visible_hexDigit (n : Nat) (h : n < 16) : 0x20 ≤ (hexDigit n).toNat := by
  revert n; decide

/-- Control characters are escaped. -/
theorem visible_escape {c d : Char} (h : d ∈ escape c) : 0x20 ≤ d.toNat := by
  unfold escape at h
  split_ifs at h with h₁ h₂ h₃ h₄ h₅ h₆ h₇ h₈
  all_goals simp only [List.mem_cons, List.not_mem_nil, or_false] at h
  rotate_left 7
  · rcases h with rfl | rfl | rfl | rfl | rfl | rfl
    · decide
    · decide
    · decide
    · decide
    · exact visible_hexDigit _ (by omega)
    · exact visible_hexDigit _ (by omega)
  · rw [h]
    exact Nat.not_lt.mp h₈
  all_goals rcases h with rfl | rfl <;> decide

theorem visible_quote {s : String} {d : Char} (h : d ∈ quote s) : 0x20 ≤ d.toNat := by
  rcases List.mem_cons.mp h with rfl | h
  · decide
  · rcases List.mem_append.mp h with h | h
    · obtain ⟨c, -, hc⟩ := List.mem_flatMap.mp h
      exact visible_escape hc
    · obtain rfl := List.mem_singleton.mp h
      decide

/-- A joined text has no control character when the parts have none. -/
theorem visible_intercalate {ls : List (List Char)} (hls : ∀ l ∈ ls, ∀ d ∈ l, 0x20 ≤ d.toNat) :
    ∀ d ∈ [','].intercalate ls, 0x20 ≤ d.toNat := by
  induction ls with
  | nil => simp
  | cons l ls ih =>
    obtain ⟨hl, hrest⟩ := List.forall_mem_cons.mp hls
    by_cases hne : ls = []
    · subst hne
      rw [List.intercalate_singleton]
      exact hl
    · intro d hd
      rw [List.intercalate_cons_of_ne_nil hne] at hd
      simp only [List.mem_append, List.mem_singleton] at hd
      rcases hd with (hd | rfl) | hd
      · exact hl d hd
      · decide
      · exact ih hrest d hd

/-- What stands between brackets. -/
theorem visible_enclosed {l : List Char} (hl : ∀ d ∈ l, 0x20 ≤ d.toNat) {first last : Char}
    (hfirst : 0x20 ≤ first.toNat) (hlast : 0x20 ≤ last.toNat) :
    ∀ d ∈ first :: (l ++ [last]), 0x20 ≤ d.toNat := by
  intro d hd
  rcases List.mem_cons.mp hd with rfl | hd
  · exact hfirst
  · rcases List.mem_append.mp hd with hd | hd
    · exact hl d hd
    · obtain rfl := List.mem_singleton.mp hd
      exact hlast

theorem visible_of_all {cs : List Char} (h : (cs.all fun d => decide (0x20 ≤ d.toNat)) = true) :
    ∀ d ∈ cs, 0x20 ≤ d.toNat := fun d hd => of_decide_eq_true (List.all_eq_true.mp h d hd)

mutual

theorem visible_render : ∀ j : Json, ∀ d ∈ render j, 0x20 ≤ d.toNat
  | .null | .bool true | .bool false => by
      rw [render]
      exact visible_of_all (by decide)
  | .num n => fun _ hd => n.visible_render hd
  | .str s => fun _ hd => visible_quote hd
  | .arr items => visible_enclosed (visible_intercalate (visible_renderItems items))
      (by decide) (by decide)
  | .obj fields => visible_enclosed (visible_intercalate (visible_renderFields fields))
      (by decide) (by decide)

theorem visible_renderItems : ∀ items : List Json, ∀ l ∈ renderItems items, ∀ d ∈ l, 0x20 ≤ d.toNat
  | [] => by simp [renderItems]
  | j :: items => by
      rw [renderItems]
      exact List.forall_mem_cons.mpr ⟨visible_render j, visible_renderItems items⟩

theorem visible_renderFields :
    ∀ fields : List (String × Json), ∀ l ∈ renderFields fields, ∀ d ∈ l, 0x20 ≤ d.toNat
  | [] => by simp [renderFields]
  | (k, v) :: fields => by
      rw [renderFields]
      refine List.forall_mem_cons.mpr ⟨fun d hd => ?_, visible_renderFields fields⟩
      rcases List.mem_append.mp hd with hd | hd
      · exact visible_quote hd
      · rcases List.mem_cons.mp hd with rfl | hd
        · decide
        · exact visible_render v d hd

end

/-- A compact text has no control character. -/
theorem visible_stringify (j : Json) : ∀ d ∈ (stringify j).toList, 0x20 ≤ d.toNat := by
  rw [stringify, String.toList_ofList]
  exact visible_render j

/-- **A compact text is one line.** -/
theorem newline_notMem_stringify (j : Json) : '\n' ∉ (stringify j).toList :=
  fun h => absurd (visible_stringify j '\n' h) (by decide)

/-- Two lists are cut at the first `a` into the same pieces. -/
theorem cut_at_first {α : Type} {a : α} :
    ∀ {x x' z z' : List α}, a ∉ x → a ∉ x' → x ++ a :: z = x' ++ a :: z' → x = x' ∧ z = z'
  | [], [], _, _, _, _, h => by simpa using h
  | [], b :: x', _, _, _, hx', h => by
      simp only [List.nil_append, List.cons_append, List.cons.injEq] at h
      exact absurd (h.1 ▸ List.mem_cons_self) hx'
  | b :: x, [], _, _, hx, _, h => by
      simp only [List.nil_append, List.cons_append, List.cons.injEq] at h
      exact absurd (h.1 ▸ List.mem_cons_self) hx
  | b :: x, b' :: x', _, _, hx, hx', h => by
      simp only [List.cons_append, List.cons.injEq] at h
      obtain ⟨rfl, h⟩ := h
      obtain ⟨rfl, hz⟩ := cut_at_first (fun h => hx (List.mem_cons_of_mem b h))
        (fun h => hx' (List.mem_cons_of_mem b h)) h
      exact ⟨rfl, hz⟩

/-- Two texts are cut at the last `d` into the same pieces. -/
theorem split_at_last {d : Char} {p p' c c' : String} (hc : d ∉ c.toList) (hc' : d ∉ c'.toList)
    (h : p ++ String.singleton d ++ c = p' ++ String.singleton d ++ c') : p = p' ∧ c = c' := by
  have hrev := congrArg (fun s => s.toList.reverse) h
  simp only [String.toList_append, String.toList_singleton, List.reverse_append,
    List.reverse_singleton, List.singleton_append] at hrev
  obtain ⟨hcc, hpp⟩ := cut_at_first (by simpa using hc) (by simpa using hc') hrev
  exact ⟨String.toList_inj.mp (List.reverse_injective hpp),
    String.toList_inj.mp (List.reverse_injective hcc)⟩

/-- A text, a line break and one line: the line is what follows the last line break. -/
theorem split_at_line {p p' c c' : String} (hc : '\n' ∉ c.toList) (hc' : '\n' ∉ c'.toList)
    (h : p ++ "\n" ++ c = p' ++ "\n" ++ c') : p = p' ∧ c = c' :=
  split_at_last hc hc' h

/-- The digits of a number hold no other character. -/
theorem notMem_toString {d : Char} (hd : d.isDigit = false) (n : Nat) :
    d ∉ (toString n).toList := by
  intro h
  rw [Nat.toString_eq_ofList_toDigits, String.toList_ofList] at h
  rw [Nat.isDigit_of_mem_toDigits (by decide) (by decide) h] at hd
  cases hd

theorem toString_nat_injective {n m : Nat} (h : toString n = toString m) : n = m := by
  rw [Nat.toString_eq_ofList_toDigits, Nat.toString_eq_ofList_toDigits, String.ofList_inj] at h
  rw [← Nat.ofDigitChars_ten_toDigits (n := n), h, Nat.ofDigitChars_ten_toDigits]

end JsonText
