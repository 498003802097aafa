import Declaragent.Library.JsValue
import Mathlib.Data.Rat.Floor

/-!
# Library — the numbers that JavaScript reads

`Numeral.ofText` is `Number(text)`: blanks at both ends are dropped, an empty text is zero, and
decimals, integers in other bases and infinities are read.  The numbers are the rationals they
spell; rounding to a double is left out.

A count is a numeral that is compared with whole numbers only, so its whole part will do.
-/

namespace JsonText

theorem value_ofInt (d : Int) : (Number.ofInt d).value = d := by
  have hvalue := Number.intValue?_ofInt d
  unfold Number.intValue? at hvalue
  split at hvalue
  · rename_i hexponent
    have hcast : (((Number.ofInt d).mantissa * 10 ^ (Number.ofInt d).exponent.toNat : Int) : ℚ) =
        d := congrArg Int.cast (Option.some.inj hvalue)
    rw [Number.value, if_pos hexponent, ← hcast]
    push_cast
    rfl
  · cases hvalue

inductive Numeral where
  | finite (q : ℚ)
  | nonFinite (kind : NonFinite)

namespace Numeral

/-- White space and line terminators. -/
def isWhite (c : Char) : Bool :=
  c.toNat ∈ [0x09, 0x0a, 0x0b, 0x0c, 0x0d, 0x20, 0xa0, 0x1680, 0x2028, 0x2029, 0x202f, 0x205f,
    0x3000, 0xfeff] || (0x2000 ≤ c.toNat && c.toNat ≤ 0x200a)

def trim (cs : List Char) : List Char :=
  ((cs.dropWhile isWhite).reverse.dropWhile isWhite).reverse

/-- The words between blanks. -/
def words (cs : List Char) : List (List Char) := (cs.splitOnP isWhite).filter (· ≠ [])

/-- `Number.parseInt(text, 10)`, if it is finite. -/
def parseFiniteInt (cs : List Char) : Option Int :=
  let read (sign : Int) (rest : List Char) : Option Int :=
    match rest.takeWhile Char.isDigit with
    | [] => none
    | digits =>
      -- the least number that is rounded to infinity
      if Nat.ofDigitChars 10 digits 0 < 2 ^ 1024 - 2 ^ 970 then
        some (sign * Nat.ofDigitChars 10 digits 0)
      else none
  match cs.dropWhile isWhite with
  | '-' :: rest => read (-1) rest
  | '+' :: rest => read 1 rest
  | rest => read 1 rest

/-- The base of an integer literal, by the letter after its zero. -/
def base? (c : Char) : Option Nat :=
  if c = 'x' ∨ c = 'X' then some 16
  else if c = 'o' ∨ c = 'O' then some 8
  else if c = 'b' ∨ c = 'B' then some 2
  else none

def ofDigitsIn (base : Nat) (ds : List Char) : Numeral :=
  if ds = [] then .nonFinite .nan
  else
    match ds.mapM hexValue? with
    | some values =>
      if values.all (· < base) then .finite (values.foldl (fun n d => base * n + d) 0 : Nat)
      else .nonFinite .nan
    | none => .nonFinite .nan

/-- A decimal without its sign; one side of the point may be empty. -/
def ofDecimalText (cs : List Char) : Numeral :=
  let (int, rest) := takeDigits cs
  let (fraction, rest) := match rest with
    | '.' :: rest => takeDigits rest
    | rest => ([], rest)
  if int = [] ∧ fraction = [] then .nonFinite .nan
  else
    match parseExponent rest with
    | some (exponent, []) =>
      .finite (Nat.ofDigitChars 10 (int ++ fraction) 0 * 10 ^ (exponent - fraction.length))
    | _ => .nonFinite .nan

def ofUnsigned (negative : Bool) (cs : List Char) : Numeral :=
  if cs = "Infinity".toList then .nonFinite (.infinity negative)
  else
    match ofDecimalText cs with
    | .finite q => .finite (if negative then -q else q)
    | .nonFinite kind => .nonFinite kind

def ofChars : List Char → Numeral
  | [] => .finite 0
  | '+' :: cs => ofUnsigned false cs
  | '-' :: cs => ofUnsigned true cs
  | [c] => ofUnsigned false [c]
  | c :: c' :: cs =>
    match base? c' with
    | some base => if c = '0' then ofDigitsIn base cs else ofUnsigned false (c :: c' :: cs)
    | none => ofUnsigned false (c :: c' :: cs)

/-- `Number(text)`. -/
def ofText (text : String) : Numeral := ofChars (trim text.toList)

/-- The whole part of a count that is no less than zero; what is no number is below no bound. -/
def count : Numeral → WithTop Nat
  | .finite q => (⌊q⌋₊ : Nat)
  | .nonFinite (.infinity true) => (0 : Nat)
  | .nonFinite (.infinity false) | .nonFinite .nan => ⊤

theorem not_isWhite_of_isDigit {c : Char} (h : c.isDigit = true) : isWhite c = false := by
  have hc : 48 ≤ c.toNat ∧ c.toNat ≤ 57 := by
    simpa [Char.isDigit, UInt32.le_iff_toNat_le] using h
  simp only [isWhite, Bool.or_eq_false_iff, decide_eq_false_iff_not, List.mem_cons,
    List.not_mem_nil, or_false, Bool.and_eq_false_iff]
  omega

/-- A text without blanks is left as it is. -/
theorem trim_of_notWhite {cs : List Char} (h : ∀ c ∈ cs, isWhite c = false) : trim cs = cs := by
  have hkeep : ∀ l : List Char, (∀ c ∈ l, isWhite c = false) → l.dropWhile isWhite = l := by
    intro l hl
    cases l with
    | nil => rfl
    | cons c l => simp [hl c List.mem_cons_self]
  have hreverse : ∀ c ∈ cs.reverse, isWhite c = false := fun c hc => h c (List.mem_reverse.mp hc)
  rw [trim, hkeep cs h, hkeep cs.reverse hreverse, List.reverse_reverse]

/-- A text whose first and last character are no blanks has none to lose. -/
theorem trim_cons_append {a b : Char} (ha : isWhite a = false) (hb : isWhite b = false)
    (cs : List Char) : trim (a :: (cs ++ [b])) = a :: (cs ++ [b]) := by
  have hback : (a :: (cs ++ [b])).reverse = b :: (a :: cs).reverse := by simp
  rw [trim, List.dropWhile_cons_of_neg (by rw [ha]; exact Bool.false_ne_true), hback,
    List.dropWhile_cons_of_neg (by rw [hb]; exact Bool.false_ne_true), ← hback,
    List.reverse_reverse]

/-- The text of an object has no blank at its ends. -/
theorem trim_render_obj (fields : List (String × Json)) :
    trim (render (.obj fields)) = render (.obj fields) := by
  rw [render]
  exact trim_cons_append (by decide) (by decide) _

theorem trim_ne_nil {cs : List Char} {c : Char} (hc : c ∈ cs) (h : isWhite c = false) :
    trim cs ≠ [] := by
  have hstays : ∀ l : List Char, c ∈ l → c ∈ l.dropWhile isWhite := by
    intro l hl
    induction l with
    | nil => exact hl
    | cons d l ih =>
      rw [List.dropWhile_cons]
      split
      · rename_i hd
        rcases List.mem_cons.mp hl with rfl | hl
        · rw [h] at hd
          cases hd
        · exact ih hl
      · exact hl
  have hmem : c ∈ trim cs :=
    List.mem_reverse.mpr (hstays _ (List.mem_reverse.mpr (hstays _ hc)))
  exact List.ne_nil_of_mem hmem

theorem trim_digits {ds : List Char} (h : ∀ c ∈ ds, c.isDigit = true) : trim ds = ds :=
  trim_of_notWhite fun c hc => not_isWhite_of_isDigit (h c hc)

end Numeral

end JsonText
