import Declaragent.Library.Json
import Mathlib.Algebra.Order.Ring.Nat
import Mathlib.Data.List.TakeDrop

/-!
# Library — reading JSON text

`parse` is the JSON grammar as a recursive descent parser over characters: blanks anywhere between
tokens, the escapes of strings with surrogate pairs put together, numbers with fraction and
exponent read as the decimals they are.  The fields of an object are kept as the text lists them.

* `parse_stringify`: the compact text of a value reads as that value.
* `stringify_injective`: so different values have different texts.
-/

namespace JsonText

/-! ### Numbers -/

namespace Number

/-- Drop the zeros at the end of `m`, into the exponent; `fuel` is at least `m`. -/
def stripZeros : Nat → Nat → Int → Nat × Int
  | 0, m, e => (m, e)
  | fuel + 1, m, e => if m % 10 = 0 then stripZeros fuel (m / 10) (e + 1) else (m, e)

theorem stripZeros_lowest : ∀ (fuel m : Nat) (e : Int), 0 < m → m ≤ fuel →
    (stripZeros fuel m e).1 % 10 ≠ 0
  | 0, _, _, hpos, hle => by omega
  | fuel + 1, m, e, hpos, hle => by
      unfold stripZeros
      split
      · exact stripZeros_lowest fuel (m / 10) (e + 1) (by omega) (by omega)
      · assumption

theorem stripZeros_mul (m : Nat) (hm : m % 10 ≠ 0) :
    ∀ (k fuel : Nat) (e : Int), m * 10 ^ k ≤ fuel →
      stripZeros fuel (m * 10 ^ k) e = (m, e + k)
  | 0, 0, e, hle => by simp at hle; simp [stripZeros, hle]
  | 0, fuel + 1, e, _ => by simp [stripZeros, hm]
  | k + 1, 0, e, hle => by
      have : 0 < m * 10 ^ (k + 1) := Nat.mul_pos (by omega) (Nat.pow_pos (by decide))
      omega
  | k + 1, fuel + 1, e, hle => by
      have hpow : m * 10 ^ (k + 1) = m * 10 ^ k * 10 := by
        rw [Nat.pow_succ, ← Nat.mul_assoc]
      have hpos : 0 < m * 10 ^ k := Nat.mul_pos (by omega) (Nat.pow_pos (by decide))
      unfold stripZeros
      rw [hpow, if_pos (Nat.mul_mod_left _ _), Nat.mul_div_cancel _ (by omega),
        stripZeros_mul m hm k fuel (e + 1) (by omega)]
      congr 1
      push_cast
      omega

/-- The decimal `± m · 10 ^ e` in lowest terms. -/
def ofDecimal (negative : Bool) (m : Nat) (e : Int) : Number :=
  if h : 0 < m then
    let d := stripZeros m m e
    ⟨if negative then -(d.1 : Int) else d.1, d.2, Or.inl (by
      have hlowest := stripZeros_lowest m m e h le_rfl
      dsimp only [d]
      split <;> omega)⟩
  else zero

/-- A number is the decimal it is written as, with any number of zeros moved out of the
exponent. -/
theorem ofDecimal_eq (n : Number) (k : Nat) :
    ofDecimal (decide (n.mantissa < 0)) (n.mantissa.natAbs * 10 ^ k) (n.exponent - k) = n := by
  obtain ⟨m, e, hlowest⟩ := n
  unfold ofDecimal
  dsimp only
  by_cases hm : m = 0
  · subst hm
    have he : e = 0 := by omega
    subst he
    simp [zero]
  · have hmod : m.natAbs % 10 ≠ 0 := by omega
    have hpos : 0 < m.natAbs * 10 ^ k := Nat.mul_pos (by omega) (Nat.pow_pos (by decide))
    rw [dif_pos hpos]
    simp only [stripZeros_mul m.natAbs hmod k _ _ le_rfl, Number.mk.injEq]
    refine ⟨?_, by omega⟩
    by_cases hneg : m < 0
    · simp only [hneg, decide_true, if_true]
      omega
    · simp only [hneg, decide_false, Bool.false_eq_true, if_false]
      omega

theorem stripZeros_value : ∀ (fuel m : Nat) (e : Int), ∃ k : Nat,
    (stripZeros fuel m e).2 = e + k ∧ (stripZeros fuel m e).1 * 10 ^ k = m
  | 0, m, e => ⟨0, by simp [stripZeros]⟩
  | fuel + 1, m, e => by
      unfold stripZeros
      split
      · obtain ⟨k, he, hm⟩ := stripZeros_value fuel (m / 10) (e + 1)
        refine ⟨k + 1, by omega, ?_⟩
        rw [Nat.pow_succ, ← Nat.mul_assoc, hm]
        omega
      · exact ⟨0, by simp⟩

/-- An integer as a number. -/
def ofInt (d : Int) : Number := ofDecimal (decide (d < 0)) d.natAbs 0

/-- The integer a number is. -/
def intValue? (n : Number) : Option Int :=
  if 0 ≤ n.exponent then some (n.mantissa * 10 ^ n.exponent.toNat) else none

@[simp] theorem intValue?_ofInt (d : Int) : (ofInt d).intValue? = some d := by
  unfold ofInt ofDecimal
  by_cases hd : 0 < d.natAbs
  · obtain ⟨k, he, hm⟩ := stripZeros_value d.natAbs d.natAbs 0
    rw [dif_pos hd]
    unfold intValue?
    simp only [he]
    rw [if_pos (by omega)]
    have hk : ((0 : Int) + k).toNat = k := by omega
    have hcast : ((stripZeros d.natAbs d.natAbs 0).1 : Int) * 10 ^ k = d.natAbs := by
      exact_mod_cast hm
    rw [hk]
    by_cases hneg : d < 0
    · simp only [hneg, decide_true, if_true, Option.some.injEq]
      rw [Int.neg_mul, hcast]
      omega
    · simp only [hneg, decide_false, Bool.false_eq_true, if_false, Option.some.injEq]
      rw [hcast]
      omega
  · have hzero : d = 0 := by omega
    subst hzero
    rfl

theorem ofInt_injective : Function.Injective ofInt := fun c d h =>
  Option.some.inj (by rw [← intValue?_ofInt c, h, intValue?_ofInt])

end Number

/-- The digits at the front. -/
def takeDigits : List Char → List Char × List Char := List.span Char.isDigit

/-- One digit or more. -/
def parseDigits (cs : List Char) : Option (List Char × List Char) :=
  match takeDigits cs with
  | ([], _) => none
  | (ds, rest) => some (ds, rest)

/-- The digits before the point: a zero stands alone. -/
def parseInt : List Char → Option (List Char × List Char)
  | '0' :: cs => some (['0'], cs)
  | cs => parseDigits cs

def parseFraction : List Char → Option (List Char × List Char)
  | '.' :: cs => parseDigits cs
  | cs => some ([], cs)

def parseSign : List Char → Bool × List Char
  | '-' :: cs => (true, cs)
  | '+' :: cs => (false, cs)
  | cs => (false, cs)

def parseExponent : List Char → Option (Int × List Char)
  | [] => some (0, [])
  | c :: cs =>
    if c = 'e' ∨ c = 'E' then
      (parseDigits (parseSign cs).2).map fun p =>
        let e : Int := Nat.ofDigitChars 10 p.1 0
        (if (parseSign cs).1 then -e else e, p.2)
    else some (0, c :: cs)

/-- Digits and exponent of a number without its sign. -/
def parseDecimal (cs : List Char) : Option ((Nat × Int) × List Char) := do
  let (int, cs) ← parseInt cs
  let (fraction, cs) ← parseFraction cs
  let (exponent, cs) ← parseExponent cs
  some ((Nat.ofDigitChars 10 (int ++ fraction) 0, exponent - fraction.length), cs)

def parseNumber : List Char → Option (Number × List Char)
  | '-' :: cs => (parseDecimal cs).map fun p => (Number.ofDecimal true p.1.1 p.1.2, p.2)
  | cs => (parseDecimal cs).map fun p => (Number.ofDecimal false p.1.1 p.1.2, p.2)

/-- What may follow a number, or it would go on. -/
def Stops (rest : List Char) : Prop :=
  ∀ c ∈ rest.head?, c.isDigit = false ∧ c ≠ '.' ∧ c ≠ 'e' ∧ c ≠ 'E'

theorem takeDigits_append {ds rest : List Char} (hds : ∀ c ∈ ds, c.isDigit)
    (hrest : ∀ c ∈ rest.head?, c.isDigit = false) : takeDigits (ds ++ rest) = (ds, rest) := by
  unfold takeDigits
  rw [List.span_eq_takeWhile_dropWhile, List.takeWhile_append_of_pos hds,
    List.dropWhile_append_of_pos hds]
  cases rest with
  | nil => simp
  | cons c rest => simp [hrest c (by simp)]

theorem parseDigits_append {ds rest : List Char} (hds : ∀ c ∈ ds, c.isDigit) (hne : ds ≠ [])
    (hrest : ∀ c ∈ rest.head?, c.isDigit = false) : parseDigits (ds ++ rest) = some (ds, rest) := by
  unfold parseDigits
  rw [takeDigits_append hds hrest]
  cases ds with
  | nil => exact absurd rfl hne
  | cons c ds => rfl

theorem Stops.not_digit {rest : List Char} (h : Stops rest) :
    ∀ c ∈ rest.head?, c.isDigit = false :=
  fun c hc => (h c hc).1

theorem parseInt_append {ds rest : List Char} (hds : ∀ c ∈ ds, c.isDigit) (hne : ds ≠ [])
    (hzero : ds.head? = some '0' → ds = ['0']) (hrest : ∀ c ∈ rest.head?, c.isDigit = false) :
    parseInt (ds ++ rest) = some (ds, rest) := by
  cases ds with
  | nil => exact absurd rfl hne
  | cons c ds =>
    by_cases hc : c = '0'
    · subst hc
      cases hzero rfl
      rfl
    · have hmatch : parseInt (c :: (ds ++ rest)) = parseDigits (c :: (ds ++ rest)) := by
        unfold parseInt
        split
        · rename_i heq
          exact absurd (List.cons.inj heq).1 hc
        · rfl
      rw [List.cons_append, hmatch, ← List.cons_append]
      exact parseDigits_append hds hne hrest

theorem parseFraction_stop {rest : List Char} (h : Stops rest) :
    parseFraction rest = some ([], rest) := by
  unfold parseFraction
  split
  · rename_i cs
    exact absurd rfl (h '.' (by simp)).2.1
  · rfl

theorem parseExponent_stop {rest : List Char} (h : Stops rest) :
    parseExponent rest = some (0, rest) := by
  cases rest with
  | nil => rfl
  | cons c rest =>
    obtain ⟨-, -, he, hE⟩ := h c (by simp)
    exact if_neg (not_or.mpr ⟨he, hE⟩)

/-- The parts of a number, put together. -/
theorem parseDecimal_of {cs ds ds' cs₁ cs₂ cs₃ : List Char} {e : Int}
    (hint : parseInt cs = some (ds, cs₁)) (hfraction : parseFraction cs₁ = some (ds', cs₂))
    (hexponent : parseExponent cs₂ = some (e, cs₃)) :
    parseDecimal cs = some ((Nat.ofDigitChars 10 (ds ++ ds') 0, e - ds'.length), cs₃) := by
  unfold parseDecimal
  simp [hint, hfraction, hexponent]

theorem isDigit_of_mem_toDigits {n : Nat} : ∀ c ∈ Nat.toDigits 10 n, c.isDigit :=
  fun _ h => Nat.isDigit_of_mem_toDigits (by decide) (by decide) h

theorem parseExponent_append (n : Int) {rest : List Char} (h : Stops rest) :
    parseExponent ('e' :: (if 0 < n then '+' else '-') ::
      (Nat.toDigits 10 (n - 1).natAbs ++ rest)) = some (n - 1, rest) := by
  have hdigits : parseDigits (Nat.toDigits 10 (n - 1).natAbs ++ rest) =
      some (Nat.toDigits 10 (n - 1).natAbs, rest) :=
    parseDigits_append isDigit_of_mem_toDigits Nat.toDigits_ne_nil h.not_digit
  unfold parseExponent
  by_cases hn : 0 < n
  · simp only [hn, if_true, true_or, parseSign, hdigits, Option.map_some,
      Nat.ofDigitChars_ten_toDigits, Bool.false_eq_true, if_false, Option.some.injEq,
      Prod.mk.injEq, and_true]
    omega
  · simp only [hn, if_true, if_false, true_or, parseSign, hdigits, Option.map_some,
      Nat.ofDigitChars_ten_toDigits, Option.some.injEq, Prod.mk.injEq, and_true]
    omega

/-- **The digits of a number** read as the number, whichever way they are written. -/
theorem parseDecimal_renderPositive {s rest : List Char} {e : Int} (hs : ∀ c ∈ s, c.isDigit)
    (hne : s ≠ []) (hzero : s.head? = some '0' → s = ['0'] ∧ e = 0) (h : Stops rest) :
    ∃ k : Nat, parseDecimal (Number.renderPositive s e ++ rest) =
      some ((Nat.ofDigitChars 10 s 0 * 10 ^ k, e - k), rest) := by
  have hlength : 0 < s.length := List.length_pos_of_ne_nil hne
  unfold Number.renderPositive
  dsimp only
  split
  · -- an integer, with zeros at its end
    rename_i he
    refine ⟨e.toNat, ?_⟩
    have hint : parseInt (s ++ List.replicate e.toNat '0' ++ rest) =
        some (s ++ List.replicate e.toNat '0', rest) := by
      refine parseInt_append (fun c hc => ?_) (by simp [hne]) (fun hhead => ?_) h.not_digit
      · rcases List.mem_append.mp hc with hc | hc
        · exact hs c hc
        · rw [List.eq_of_mem_replicate hc]
          decide
      · rw [List.head?_append_of_ne_nil s hne] at hhead
        obtain ⟨rfl, rfl⟩ := hzero hhead
        rfl
    rw [parseDecimal_of hint (parseFraction_stop h) (parseExponent_stop h), List.append_nil,
      Nat.ofDigitChars_append, Nat.ofDigitChars_replicate_zero, Nat.mul_comm]
    simp only [List.length_nil, Option.some.injEq, Prod.mk.injEq, true_and, and_true]
    omega
  · rename_i he
    split
    · -- the point among the digits
      rename_i hn
      have hlt : ((s.length : Int) + e).toNat < s.length := by omega
      have hpos : ((s.length : Int) + e).toNat ≠ 0 := by omega
      have hint : parseInt (s.take ((s.length : Int) + e).toNat ++
          '.' :: (s.drop ((s.length : Int) + e).toNat ++ rest)) =
            some (s.take ((s.length : Int) + e).toNat,
              '.' :: (s.drop ((s.length : Int) + e).toNat ++ rest)) := by
        refine parseInt_append (fun c hc => hs c (List.mem_of_mem_take hc)) ?_ (fun hhead => ?_)
          (by simp)
        · simp [hne, hpos]
        · rw [List.head?_take, if_neg hpos] at hhead
          have := (hzero hhead).2
          omega
      have hfraction : parseFraction ('.' :: (s.drop ((s.length : Int) + e).toNat ++ rest)) =
          some (s.drop ((s.length : Int) + e).toNat, rest) :=
        parseDigits_append (fun c hc => hs c (List.mem_of_mem_drop hc)) (by simp [hlt])
          h.not_digit
      refine ⟨0, ?_⟩
      rw [List.append_assoc, List.cons_append,
        parseDecimal_of hint hfraction (parseExponent_stop h), List.take_append_drop,
        List.length_drop]
      simp only [Nat.pow_zero, Nat.mul_one, Option.some.injEq, Prod.mk.injEq, true_and, and_true]
      omega
    · split
      · -- zeros after the point
        rename_i hn
        have hfraction : parseFraction ('.' ::
            (List.replicate (-((s.length : Int) + e)).toNat '0' ++ s ++ rest)) =
              some (List.replicate (-((s.length : Int) + e)).toNat '0' ++ s, rest) := by
          refine parseDigits_append (fun c hc => ?_) (by simp [hne]) h.not_digit
          rcases List.mem_append.mp hc with hc | hc
          · rw [List.eq_of_mem_replicate hc]
            decide
          · exact hs c hc
        refine ⟨0, ?_⟩
        rw [List.cons_append, List.cons_append,
          parseDecimal_of rfl hfraction (parseExponent_stop h)]
        have hvalue : Nat.ofDigitChars 10 (['0'] ++
            (List.replicate (-((s.length : Int) + e)).toNat '0' ++ s)) 0 =
              Nat.ofDigitChars 10 s 0 := by
          rw [Nat.ofDigitChars_append, Nat.ofDigitChars_append, Nat.ofDigitChars_replicate_zero]
          rfl
        rw [hvalue, List.length_append, List.length_replicate]
        simp only [Nat.pow_zero, Nat.mul_one, Option.some.injEq, Prod.mk.injEq, true_and,
          and_true]
        omega
      · -- an exponent
        rename_i hn
        have hexponent := parseExponent_append ((s.length : Int) + e) h
        have hint : ∀ tail : List Char, (∀ c ∈ tail.head?, c.isDigit = false) →
            parseInt (s.take 1 ++ tail) = some (s.take 1, tail) := by
          intro tail htail
          refine parseInt_append (fun c hc => hs c (List.mem_of_mem_take hc)) (by simp [hne])
            (fun hhead => ?_) htail
          rw [List.head?_take, if_neg (by decide)] at hhead
          rw [(hzero hhead).1]
          rfl
        refine ⟨0, ?_⟩
        by_cases hone : s.length = 1
        · have hnil : s.drop 1 = [] := List.drop_eq_nil_of_le (by omega)
          have hs1 : s.take 1 = s := List.take_of_length_le (by omega)
          rw [if_pos hone, List.append_nil, List.append_assoc, List.cons_append, List.cons_append,
            parseDecimal_of (hint _ (by simp)) rfl hexponent, List.append_nil, hs1]
          simp only [Nat.pow_zero, Nat.mul_one, List.length_nil, Option.some.injEq, Prod.mk.injEq,
            true_and, and_true]
          omega
        · have hfraction : ∀ tail : List Char, (∀ c ∈ tail.head?, c.isDigit = false) →
              parseFraction ('.' :: (s.drop 1 ++ tail)) = some (s.drop 1, tail) := fun tail htail =>
            parseDigits_append (fun c hc => hs c (List.mem_of_mem_drop hc))
              (fun hnil => hone (by have := List.drop_eq_nil_iff.mp hnil; omega)) htail
          rw [if_neg hone, List.append_assoc, List.append_assoc, List.cons_append,
            List.cons_append, List.cons_append,
            parseDecimal_of (hint _ (by simp)) (hfraction _ (by simp)) hexponent,
            List.take_append_drop, List.length_drop]
          simp only [Nat.pow_zero, Nat.mul_one, Option.some.injEq, Prod.mk.injEq, true_and,
            and_true]
          omega

theorem digitChar_eq_zero : ∀ n < 10, Nat.digitChar n = '0' → n = 0 := by decide

theorem head?_toDigits {n : Nat} (h : (Nat.toDigits 10 n).head? = some '0') : n = 0 := by
  induction n using Nat.strongRecOn with
  | ind n ih =>
    by_cases hn : n < 10
    · rw [Nat.toDigits_of_lt_base hn, List.head?_cons, Option.some.injEq] at h
      exact digitChar_eq_zero n hn h
    · rw [Nat.toDigits_of_base_le (by decide) (by omega),
        List.head?_append_of_ne_nil _ Nat.toDigits_ne_nil] at h
      have := ih (n / 10) (by omega) h
      omega

/-- **The text of a number** reads as the number. -/
theorem parseNumber_render (n : Number) {rest : List Char} (h : Stops rest) :
    parseNumber (n.render ++ rest) = some (n, rest) := by
  have hhead : (Nat.toDigits 10 n.mantissa.natAbs).head? = some '0' →
      Nat.toDigits 10 n.mantissa.natAbs = ['0'] ∧ n.exponent = 0 := by
    intro h0
    have hzero := head?_toDigits h0
    refine ⟨by rw [hzero]; rfl, ?_⟩
    have := n.lowest
    omega
  obtain ⟨k, hdecimal⟩ := parseDecimal_renderPositive (e := n.exponent)
    (isDigit_of_mem_toDigits (n := n.mantissa.natAbs)) Nat.toDigits_ne_nil hhead h
  rw [Nat.ofDigitChars_ten_toDigits] at hdecimal
  have hn := Number.ofDecimal_eq n k
  unfold Number.render
  dsimp only
  by_cases hneg : n.mantissa < 0
  · rw [if_pos hneg, List.cons_append]
    rw [decide_eq_true hneg] at hn
    change (parseDecimal _).map _ = _
    rw [hdecimal, Option.map_some, hn]
  · rw [if_neg hneg]
    rw [decide_eq_false hneg] at hn
    unfold parseNumber
    split
    · rename_i cs heq
      rw [heq] at hdecimal
      cases hdecimal
    · rw [hdecimal, Option.map_some, hn]

theorem Number.text_injective : Function.Injective Number.text := by
  intro n m h
  have hrender : n.render = m.render := String.ofList_inj.mp h
  have hstops : Stops [] := fun c hc => nomatch hc
  have hn := parseNumber_render n hstops
  rw [hrender, parseNumber_render m hstops] at hn
  cases hn
  rfl

/-! ### Strings -/

/-- The UTF-16 code units of a character. -/
def units (c : Char) : List Nat :=
  let n := c.toNat
  if n < 0x10000 then [n]
  else [0xD800 + (n - 0x10000) / 0x400, 0xDC00 + (n - 0x10000) % 0x400]

/-- The character of a code unit that stands alone; a surrogate has none, and is replaced. -/
def loneUnit (u : Nat) : Char := if 0xD800 ≤ u ∧ u < 0xE000 then '\uFFFD' else Char.ofNat u

/-- The characters that code units spell, with the two halves of a surrogate pair put together. -/
def ofUtf16 : List Nat → List Char
  | [] => []
  | [u] => [loneUnit u]
  | u :: v :: us =>
    if (0xD800 ≤ u ∧ u < 0xDC00) ∧ 0xDC00 ≤ v ∧ v < 0xE000 then
      Char.ofNat (0x10000 + (u - 0xD800) * 0x400 + (v - 0xDC00)) :: ofUtf16 us
    else loneUnit u :: ofUtf16 (v :: us)

def hexValue? (c : Char) : Option Nat :=
  if '0' ≤ c ∧ c ≤ '9' then some (c.toNat - '0'.toNat)
  else if 'a' ≤ c ∧ c ≤ 'f' then some (c.toNat - 'a'.toNat + 10)
  else if 'A' ≤ c ∧ c ≤ 'F' then some (c.toNat - 'A'.toNat + 10)
  else none

/-- The code unit of an escape of one character. -/
def unescape? (c : Char) : Option Nat :=
  if c = '"' ∨ c = '\\' ∨ c = '/' then some c.toNat
  else if c = 'b' then some 0x08
  else if c = 'f' then some 0x0C
  else if c = 'n' then some 0x0A
  else if c = 'r' then some 0x0D
  else if c = 't' then some 0x09
  else none

/-- Where in a string the next character stands: outside an escape, after its backslash, or
before the last `left + 1` hexadecimal digits of a `u` escape. -/
inductive StringState where
  | plain
  | escape
  | hex (left value : Nat)

/-- The code units of a string up to its closing quote. -/
def parseUnits : StringState → List Char → Option (List Nat × List Char)
  | _, [] => none
  | .plain, c :: cs =>
    if c = '"' then some ([], cs)
    else if c = '\\' then parseUnits .escape cs
    else if c.toNat < 0x20 then none
    else (parseUnits .plain cs).map fun p => (units c ++ p.1, p.2)
  | .escape, c :: cs =>
    if c = 'u' then parseUnits (.hex 3 0) cs
    else (unescape? c).bind fun u => (parseUnits .plain cs).map fun p => ([u] ++ p.1, p.2)
  | .hex left value, c :: cs =>
    (hexValue? c).bind fun h =>
      match left with
      | 0 => (parseUnits .plain cs).map fun p => ([0x10 * value + h] ++ p.1, p.2)
      | left + 1 => parseUnits (.hex left (0x10 * value + h)) cs

/-- A string after its opening quote. -/
def parseString (cs : List Char) : Option (String × List Char) :=
  (parseUnits .plain cs).map fun p => (String.ofList (ofUtf16 p.1), p.2)

theorem ofUtf16_units (c : Char) (us : List Nat) : ofUtf16 (units c ++ us) = c :: ofUtf16 us := by
  have hvalid : c.toNat < 0xD800 ∨ 0xDFFF < c.toNat ∧ c.toNat < 0x110000 := c.valid
  unfold units
  dsimp only
  split
  · have hlone : loneUnit c.toNat = c := by
      unfold loneUnit
      rw [if_neg (by omega), Char.ofNat_toNat]
    cases us with
    | nil => simp [ofUtf16, hlone]
    | cons v us =>
      have hnot : ¬ ((0xD800 ≤ c.toNat ∧ c.toNat < 0xDC00) ∧ 0xDC00 ≤ v ∧ v < 0xE000) := by
        omega
      simp only [List.cons_append, List.nil_append, ofUtf16, hnot, if_false, hlone]
  · have hpair : (0xD800 ≤ 0xD800 + (c.toNat - 0x10000) / 0x400 ∧
        0xD800 + (c.toNat - 0x10000) / 0x400 < 0xDC00) ∧
        0xDC00 ≤ 0xDC00 + (c.toNat - 0x10000) % 0x400 ∧
        0xDC00 + (c.toNat - 0x10000) % 0x400 < 0xE000 := by omega
    have hc : 0x10000 + (0xD800 + (c.toNat - 0x10000) / 0x400 - 0xD800) * 0x400 +
        (0xDC00 + (c.toNat - 0x10000) % 0x400 - 0xDC00) = c.toNat := by omega
    simp only [List.cons_append, List.nil_append, ofUtf16, hpair, and_self, if_true, hc,
      Char.ofNat_toNat]

theorem ofUtf16_flatMap_units (cs : List Char) : ofUtf16 (cs.flatMap units) = cs := by
  induction cs with
  | nil => rfl
  | cons c cs ih => rw [List.flatMap_cons, ofUtf16_units, ih]

theorem utf16_injective : Function.Injective utf16 := fun s t h => by
  have hs : ∀ s : String, ofUtf16 (utf16 s) = s.toList := fun s => ofUtf16_flatMap_units s.toList
  exact String.toList_inj.mp (by rw [← hs s, h, hs t])

theorem hexValue?_hexDigit : ∀ n < 0x10, hexValue? (hexDigit n) = some n := by decide

/-- A character is written as a short escape, as a `u` escape, or as it is. -/
theorem escape_cases (c : Char) :
    (∃ e, e ≠ 'u' ∧ unescape? e = some c.toNat ∧ c.toNat < 0x10000 ∧ escape c = ['\\', e]) ∨
    (c.toNat < 0x20 ∧ escape c =
      ['\\', 'u', '0', '0', hexDigit (c.toNat / 16), hexDigit (c.toNat % 16)]) ∨
    (c ≠ '"' ∧ c ≠ '\\' ∧ ¬ c.toNat < 0x20 ∧ escape c = [c]) := by
  unfold escape
  split_ifs with h₁ h₂ h₃ h₄ h₅ h₆ h₇ h₈
  · subst h₁
    exact Or.inl ⟨_, by decide, rfl, by decide, rfl⟩
  · subst h₂
    exact Or.inl ⟨_, by decide, rfl, by decide, rfl⟩
  · subst h₃
    exact Or.inl ⟨_, by decide, rfl, by decide, rfl⟩
  · subst h₄
    exact Or.inl ⟨_, by decide, rfl, by decide, rfl⟩
  · subst h₅
    exact Or.inl ⟨_, by decide, rfl, by decide, rfl⟩
  · subst h₆
    exact Or.inl ⟨_, by decide, rfl, by decide, rfl⟩
  · subst h₇
    exact Or.inl ⟨_, by decide, rfl, by decide, rfl⟩
  · exact Or.inr (Or.inl ⟨h₈, rfl⟩)
  · exact Or.inr (Or.inr ⟨h₁, h₂, h₈, rfl⟩)

/-- **One character of a string.** -/
theorem parseUnits_escape (c : Char) (rest : List Char) :
    parseUnits .plain (escape c ++ rest) =
      (parseUnits .plain rest).map fun p => (units c ++ p.1, p.2) := by
  have hunits : c.toNat < 0x10000 → units c = [c.toNat] := fun h => if_pos h
  rcases escape_cases c with ⟨e, he, hu, hlt, hc⟩ | ⟨hlt, hc⟩ | ⟨hquote, hslash, hge, hc⟩
  · rw [hc, hunits hlt]
    simp [parseUnits, he, hu]
  · have hzero : hexValue? '0' = some 0 := rfl
    have hvalue : 0x10 * (c.toNat / 16) + c.toNat % 16 = c.toNat := by omega
    rw [hc, hunits (by omega)]
    simp [parseUnits, hzero, hexValue?_hexDigit (c.toNat / 16) (by omega),
      hexValue?_hexDigit (c.toNat % 16) (by omega), hvalue]
  · rw [hc, List.singleton_append]
    simp only [parseUnits, hquote, hslash, hge, if_false]

theorem parseUnits_flatMap_escape (cs rest : List Char) :
    parseUnits .plain (cs.flatMap escape ++ '"' :: rest) = some (cs.flatMap units, rest) := by
  induction cs with
  | nil => rfl
  | cons c cs ih =>
    rw [List.flatMap_cons, List.append_assoc, parseUnits_escape, ih]
    rfl

/-- **The text of a string** reads as the string. -/
theorem parseString_quote (s : String) (rest : List Char) :
    parseString (s.toList.flatMap escape ++ '"' :: rest) = some (s, rest) := by
  unfold parseString
  rw [parseUnits_flatMap_escape, Option.map_some, ofUtf16_flatMap_units, String.ofList_toList]

/-! ### Values -/

def isSpace (c : Char) : Bool := c = ' ' || c = '\t' || c = '\n' || c = '\r'

def skipSpace (cs : List Char) : List Char := cs.dropWhile isSpace

/-- What follows the literal. -/
def literal : List Char → List Char → Option (List Char)
  | [], cs => some cs
  | _ :: _, [] => none
  | l :: ls, c :: cs => if l = c then literal ls cs else none

mutual

/-- A value, and what follows it. -/
def parseValue : Nat → List Char → Option (Json × List Char)
  | 0, _ => none
  | fuel + 1, cs =>
    match skipSpace cs with
    | [] => none
    | c :: rest =>
      if c = '"' then (parseString rest).map fun p => (.str p.1, p.2)
      else if c = '[' then
        match skipSpace rest with
        | ']' :: rest => some (.arr [], rest)
        | rest => (parseItems fuel rest).map fun p => (.arr p.1, p.2)
      else if c = '{' then
        match skipSpace rest with
        | '}' :: rest => some (.obj [], rest)
        | rest => (parseFields fuel rest).map fun p => (.obj p.1, p.2)
      else if c = 'n' then (literal ['u', 'l', 'l'] rest).map fun rest => (.null, rest)
      else if c = 't' then (literal ['r', 'u', 'e'] rest).map fun rest => (.bool true, rest)
      else if c = 'f' then
        (literal ['a', 'l', 's', 'e'] rest).map fun rest => (.bool false, rest)
      else (parseNumber (c :: rest)).map fun p => (.num p.1, p.2)

/-- The items of an array up to its closing bracket. -/
def parseItems : Nat → List Char → Option (List Json × List Char)
  | 0, _ => none
  | fuel + 1, cs => do
      let (j, cs) ← parseValue fuel cs
      match skipSpace cs with
      | ',' :: cs => (parseItems fuel cs).map fun p => (j :: p.1, p.2)
      | ']' :: cs => some ([j], cs)
      | _ => none

/-- The fields of an object up to its closing brace. -/
def parseFields : Nat → List Char → Option (List (String × Json) × List Char)
  | 0, _ => none
  | fuel + 1, cs => do
      let (key, cs) ← match skipSpace cs with
        | '"' :: cs => parseString cs
        | _ => none
      let cs ← literal [':'] (skipSpace cs)
      let (j, cs) ← parseValue fuel cs
      match skipSpace cs with
      | ',' :: cs => (parseFields fuel cs).map fun p => ((key, j) :: p.1, p.2)
      | '}' :: cs => some ([(key, j)], cs)
      | _ => none

end

/-- The value of a JSON text. -/
def parse (text : String) : Option Json :=
  let cs := text.toList
  match parseValue (cs.length + 1) cs with
  | some (j, rest) => if skipSpace rest = [] then some j else none
  | none => none

/-! ### A compact text reads as its value -/

mutual

/-- The fuel that reading the text of the value takes. -/
def Json.size : Json → Nat
  | .arr items => 1 + sizeItems items
  | .obj fields => 1 + sizeFields fields
  | _ => 1

def sizeItems : List Json → Nat
  | [] => 0
  | j :: items => 1 + j.size + sizeItems items

def sizeFields : List (String × Json) → Nat
  | [] => 0
  | (_, j) :: fields => 1 + j.size + sizeFields fields

end

/-- The first character of a value. -/
def Starts (c : Char) : Prop := isSpace c = false ∧ c ≠ ']'

theorem skipSpace_cons {c : Char} (h : isSpace c = false) (cs : List Char) :
    skipSpace (c :: cs) = c :: cs := by
  simp [skipSpace, h]

theorem literal_append (l rest : List Char) : literal l (l ++ rest) = some rest := by
  induction l with
  | nil => rfl
  | cons c l ih => simp [literal, ih]

theorem renderPositive_head {s : List Char} (hs : ∀ c ∈ s, c.isDigit) (hne : s ≠ []) (e : Int) :
    ∃ c cs, Number.renderPositive s e = c :: cs ∧ c.isDigit := by
  cases s with
  | nil => exact absurd rfl hne
  | cons c s =>
    have hc := hs c List.mem_cons_self
    unfold Number.renderPositive
    dsimp only
    split
    · exact ⟨c, _, rfl, hc⟩
    · split
      · rename_i hn
        obtain ⟨k, hk⟩ : ∃ k, (((c :: s).length : Int) + e).toNat = k + 1 :=
          ⟨(((c :: s).length : Int) + e).toNat - 1, by omega⟩
        rw [hk]
        exact ⟨c, _, rfl, hc⟩
      · split
        · exact ⟨'0', _, rfl, rfl⟩
        · exact ⟨c, _, rfl, hc⟩

theorem number_head (n : Number) : ∃ c cs, n.render = c :: cs ∧ (c = '-' ∨ c.isDigit) := by
  unfold Number.render
  dsimp only
  split
  · exact ⟨'-', _, rfl, Or.inl rfl⟩
  · obtain ⟨c, cs, hcs, hc⟩ := renderPositive_head (isDigit_of_mem_toDigits
      (n := n.mantissa.natAbs)) Nat.toDigits_ne_nil n.exponent
    exact ⟨c, cs, hcs, Or.inr hc⟩

theorem ne_of_isDigit {c d : Char} (hc : c = '-' ∨ c.isDigit) (hd : d.isDigit = false)
    (hne : d ≠ '-') : c ≠ d := by
  rintro rfl
  rcases hc with rfl | hc
  · exact hne rfl
  · rw [hc] at hd
    cases hd

theorem render_head (j : Json) : ∃ c cs, render j = c :: cs ∧ Starts c := by
  cases j with
  | null => exact ⟨_, _, rfl, rfl, by decide⟩
  | bool b => cases b <;> exact ⟨_, _, rfl, rfl, by decide⟩
  | num n =>
    obtain ⟨c, cs, hcs, hc⟩ := number_head n
    refine ⟨c, cs, hcs, ?_, ne_of_isDigit hc rfl (by decide)⟩
    have hne := fun (d : Char) => ne_of_isDigit (d := d) hc
    simp [isSpace, hne ' ' rfl (by decide), hne '\t' rfl (by decide),
      hne '\n' rfl (by decide), hne '\r' rfl (by decide)]
  | str s => exact ⟨_, _, rfl, rfl, by decide⟩
  | arr items => exact ⟨_, _, rfl, rfl, by decide⟩
  | obj fields => exact ⟨_, _, rfl, rfl, by decide⟩

theorem skipSpace_render (j : Json) (rest : List Char) :
    skipSpace (render j ++ rest) = render j ++ rest := by
  obtain ⟨c, cs, hcs, hc⟩ := render_head j
  rw [hcs, List.cons_append, skipSpace_cons hc.1]

theorem stops_cons {c : Char} (h : c.isDigit = false ∧ c ≠ '.' ∧ c ≠ 'e' ∧ c ≠ 'E')
    (rest : List Char) : Stops (c :: rest) := by
  intro d hd
  cases hd
  exact h

/-- An array with items. -/
theorem parseValue_arr {c : Char} (hc : Starts c) (fuel : Nat) {text cs : List Char}
    (htext : skipSpace text = c :: cs) :
    parseValue (fuel + 1) ('[' :: text) =
      (parseItems fuel (c :: cs)).map fun p => (.arr p.1, p.2) := by
  have hbracket : skipSpace ('[' :: text) = '[' :: text := skipSpace_cons rfl _
  rw [parseValue, hbracket]
  simp only [Char.reduceEq, if_false, if_true, htext]
  split
  · rename_i heq
    exact absurd (List.cons.inj heq).1 hc.2
  · rfl

theorem renderItems_head (j : Json) (items : List Json) :
    ∃ c cs, [','].intercalate (renderItems (j :: items)) = c :: cs ∧ Starts c := by
  obtain ⟨c, cs, hcs, hc⟩ := render_head j
  cases items with
  | nil => exact ⟨c, cs, by simp [renderItems, hcs], hc⟩
  | cons k items =>
    refine ⟨c, cs ++ [','] ++ [','].intercalate (renderItems (k :: items)), ?_, hc⟩
    simp [renderItems, hcs, List.intercalate_cons_cons]

/-- An object with fields. -/
theorem parseValue_obj (fuel : Nat) {text cs : List Char} (htext : skipSpace text = '"' :: cs) :
    parseValue (fuel + 1) ('{' :: text) =
      (parseFields fuel ('"' :: cs)).map fun p => (.obj p.1, p.2) := by
  simp [parseValue, skipSpace_cons, isSpace, htext]

theorem renderFields_head (key : String) (j : Json) (fields : List (String × Json)) :
    ∃ cs, [','].intercalate (renderFields ((key, j) :: fields)) = '"' :: cs := by
  cases fields with
  | nil => exact ⟨_, by simp only [renderFields, List.intercalate_singleton, quote,
      List.cons_append]; rfl⟩
  | cons p fields =>
    obtain ⟨key', k⟩ := p
    simp only [renderFields, List.intercalate_cons_cons, quote, List.cons_append]
    exact ⟨_, rfl⟩

/-- The next item of an array, up to the comma or bracket after it. -/
theorem parseItems_cons {j : Json} {fuel : Nat} {text cs : List Char} {d : Char}
    {rest : List Char} (h : ∀ rest, Stops rest → parseValue fuel (text ++ rest) = some (j, rest))
    (hstops : Stops cs) (hcs : skipSpace cs = d :: rest) (hd : d = ',' ∨ d = ']') :
    parseItems (fuel + 1) (text ++ cs) =
      if d = ',' then (parseItems fuel rest).map fun p => (j :: p.1, p.2)
      else some ([j], rest) := by
  rw [parseItems]
  rcases hd with rfl | rfl <;> simp [h _ hstops, hcs]

/-- The next field of an object, up to the comma or brace after it. -/
theorem parseFields_cons {key : String} {j : Json} {fuel : Nat} {text cs : List Char} {d : Char}
    {rest : List Char} (h : ∀ rest, Stops rest → parseValue fuel (text ++ rest) = some (j, rest))
    (hstops : Stops cs) (hcs : skipSpace cs = d :: rest) (hd : d = ',' ∨ d = '}') :
    parseFields (fuel + 1) (quote key ++ ':' :: text ++ cs) =
      if d = ',' then (parseFields fuel rest).map fun p => ((key, j) :: p.1, p.2)
      else some ([(key, j)], rest) := by
  have hkey := parseString_quote key (':' :: (text ++ cs))
  have hcolon := literal_append [':'] (text ++ cs)
  rw [List.singleton_append] at hcolon
  rw [parseFields]
  rcases hd with rfl | rfl <;>
    simp [quote, skipSpace_cons, isSpace, hkey, hcolon, h _ hstops, hcs]

mutual

/-- **The compact text of a value**, and what follows it. -/
theorem parseValue_render : ∀ (j : Json) {fuel : Nat} {rest : List Char}, j.size ≤ fuel →
    Stops rest → parseValue fuel (render j ++ rest) = some (j, rest)
  | j, 0, rest, hfuel, _ => by cases j <;> simp [Json.size] at hfuel
  | .null, fuel + 1, rest, _, _ => by
      have hl := literal_append ['u', 'l', 'l'] rest
      simp only [List.cons_append, List.nil_append] at hl
      simp [render, parseValue, skipSpace_cons, isSpace, hl]
  | .bool true, fuel + 1, rest, _, _ => by
      have hl := literal_append ['r', 'u', 'e'] rest
      simp only [List.cons_append, List.nil_append] at hl
      simp [render, parseValue, skipSpace_cons, isSpace, hl]
  | .bool false, fuel + 1, rest, _, _ => by
      have hl := literal_append ['a', 'l', 's', 'e'] rest
      simp only [List.cons_append, List.nil_append] at hl
      simp [render, parseValue, skipSpace_cons, isSpace, hl]
  | .num n, fuel + 1, rest, _, hrest => by
      have hskip := skipSpace_render (.num n) rest
      have hparse := parseNumber_render n hrest
      obtain ⟨c, cs, hcs, hc⟩ := number_head n
      have hne := fun (d : Char) => ne_of_isDigit (d := d) hc
      rw [render, hcs, List.cons_append] at hskip
      rw [hcs, List.cons_append] at hparse
      simp only [render, hcs, List.cons_append, parseValue, hskip, hparse, Option.map_some,
        hne '"' rfl (by decide), hne '[' rfl (by decide), hne '{' rfl (by decide),
        hne 'n' rfl (by decide), hne 't' rfl (by decide), hne 'f' rfl (by decide), if_false]
  | .str s, fuel + 1, rest, _, _ => by
      have hs := parseString_quote s rest
      simp [render, quote, parseValue, skipSpace_cons, isSpace, hs]
  | .arr [], fuel + 1, rest, _, _ => by
      simp [render, renderItems, parseValue, skipSpace_cons, isSpace]
  | .arr (j :: items), fuel + 1, rest, hfuel, _ => by
      have hitems := parseItems_render j items fuel rest
        (by simp only [Json.size] at hfuel; omega)
      obtain ⟨c, cs, hcs, hc⟩ := renderItems_head j items
      rw [hcs, List.cons_append] at hitems
      rw [render, hcs, List.cons_append, List.append_assoc, List.cons_append,
        List.singleton_append, parseValue_arr hc fuel (skipSpace_cons hc.1 _), hitems]
      rfl
  | .obj [], fuel + 1, rest, _, _ => by
      simp [render, renderFields, parseValue, skipSpace_cons, isSpace]
  | .obj ((key, j) :: fields), fuel + 1, rest, hfuel, _ => by
      have hfields := parseFields_render key j fields fuel rest
        (by simp only [Json.size] at hfuel; omega)
      obtain ⟨cs, hcs⟩ := renderFields_head key j fields
      rw [hcs, List.cons_append] at hfields
      rw [render, hcs, List.cons_append, List.append_assoc, List.cons_append,
        List.singleton_append, parseValue_obj fuel (skipSpace_cons rfl _), hfields]
      rfl

theorem parseItems_render : ∀ (j : Json) (items : List Json) (fuel : Nat) (rest : List Char),
    sizeItems (j :: items) ≤ fuel →
      parseItems fuel ([','].intercalate (renderItems (j :: items)) ++ ']' :: rest) =
        some (j :: items, rest)
  | j, items, 0, rest, hfuel => by simp [sizeItems] at hfuel
  | j, [], fuel + 1, rest, hfuel => by
      have hj : ∀ rest, Stops rest → parseValue fuel (render j ++ rest) = some (j, rest) :=
        fun rest hrest => parseValue_render j (by simp only [sizeItems] at hfuel; omega) hrest
      rw [renderItems, renderItems, List.intercalate_singleton,
        parseItems_cons hj (stops_cons (by decide) rest) (skipSpace_cons rfl _) (Or.inr rfl),
        if_neg (by decide)]
  | j, k :: items, fuel + 1, rest, hfuel => by
      have hj : ∀ rest, Stops rest → parseValue fuel (render j ++ rest) = some (j, rest) :=
        fun rest hrest => parseValue_render j (by simp only [sizeItems] at hfuel; omega) hrest
      have hitems := parseItems_render k items fuel rest
        (by simp only [sizeItems] at hfuel ⊢; omega)
      rw [renderItems, renderItems, List.intercalate_cons_cons, List.append_assoc,
        List.append_assoc, List.singleton_append,
        parseItems_cons hj (stops_cons (by decide) _) (skipSpace_cons rfl _) (Or.inl rfl),
        if_pos rfl]
      rw [renderItems] at hitems
      rw [hitems]
      rfl

theorem parseFields_render : ∀ (key : String) (j : Json) (fields : List (String × Json))
    (fuel : Nat) (rest : List Char), sizeFields ((key, j) :: fields) ≤ fuel →
      parseFields fuel ([','].intercalate (renderFields ((key, j) :: fields)) ++ '}' :: rest) =
        some ((key, j) :: fields, rest)
  | key, j, fields, 0, rest, hfuel => by simp [sizeFields] at hfuel
  | key, j, [], fuel + 1, rest, hfuel => by
      have hj : ∀ rest, Stops rest → parseValue fuel (render j ++ rest) = some (j, rest) :=
        fun rest hrest => parseValue_render j (by simp only [sizeFields] at hfuel; omega) hrest
      rw [renderFields, renderFields, List.intercalate_singleton,
        parseFields_cons hj (stops_cons (by decide) rest) (skipSpace_cons rfl _) (Or.inr rfl),
        if_neg (by decide)]
  | key, j, (key', k) :: fields, fuel + 1, rest, hfuel => by
      have hj : ∀ rest, Stops rest → parseValue fuel (render j ++ rest) = some (j, rest) :=
        fun rest hrest => parseValue_render j (by simp only [sizeFields] at hfuel; omega) hrest
      have hfields := parseFields_render key' k fields fuel rest
        (by simp only [sizeFields] at hfuel ⊢; omega)
      rw [renderFields, renderFields, List.intercalate_cons_cons, List.append_assoc,
        List.append_assoc, List.singleton_append,
        parseFields_cons hj (stops_cons (by decide) _) (skipSpace_cons rfl _) (Or.inl rfl),
        if_pos rfl]
      rw [renderFields] at hfields
      rw [hfields]
      rfl

end

mutual

theorem size_le_render : ∀ j : Json, j.size ≤ (render j).length
  | .null | .bool true | .bool false => by simp [Json.size, render]
  | .num n => by
      obtain ⟨c, cs, hcs, -⟩ := number_head n
      simp [Json.size, render, hcs]
  | .str s => by simp [Json.size, render, quote]
  | .arr items => by
      have := sizeItems_le_render items
      simp [Json.size, render]
      omega
  | .obj fields => by
      have := sizeFields_le_render fields
      simp [Json.size, render]
      omega

theorem sizeItems_le_render : ∀ items : List Json,
    sizeItems items ≤ ([','].intercalate (renderItems items)).length + 1
  | [] => by simp [sizeItems]
  | [j] => by
      have := size_le_render j
      simp [sizeItems, renderItems]
      omega
  | j :: k :: items => by
      have := size_le_render j
      have := sizeItems_le_render (k :: items)
      rw [renderItems] at this
      simp only [sizeItems, renderItems, List.intercalate_cons_cons, List.length_append,
        List.length_singleton] at this ⊢
      omega

theorem sizeFields_le_render : ∀ fields : List (String × Json),
    sizeFields fields ≤ ([','].intercalate (renderFields fields)).length + 1
  | [] => by simp [sizeFields]
  | [(key, j)] => by
      have := size_le_render j
      simp [sizeFields, renderFields]
      omega
  | (key, j) :: (key', k) :: fields => by
      have := size_le_render j
      have := sizeFields_le_render ((key', k) :: fields)
      rw [renderFields] at this
      simp only [sizeFields, renderFields, List.intercalate_cons_cons, List.length_append,
        List.length_cons, List.length_nil] at this ⊢
      omega

end

/-- **Reading back.**  The compact text of a value reads as that value. -/
theorem parse_stringify (j : Json) : parse (stringify j) = some j := by
  have hvalue : parseValue ((render j).length + 1) (render j) = some (j, []) := by
    have h : parseValue ((render j).length + 1) (render j ++ []) = some (j, []) :=
      parseValue_render j (Nat.le_succ_of_le (size_le_render j)) fun c hc => (by cases hc)
    rwa [List.append_nil] at h
  unfold parse stringify
  simp [hvalue, skipSpace]

/-- Different values have different compact texts. -/
theorem stringify_injective : Function.Injective stringify := fun j k h =>
  Option.some.inj (by rw [← parse_stringify j, h, parse_stringify])

end JsonText
