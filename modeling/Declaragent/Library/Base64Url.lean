import Declaragent.Library.Utf8

/-!
# Library — base64

Bytes as text of letters, digits, `-` and `_`, without padding.  The decoder takes the letters of
the plain alphabet as well, and skips every other character.

`atob` is the strict decoder of the plain alphabet: it wants the padding right and nothing but
letters.  `atob_padded` is what it reads of what was encoded.
-/

namespace Base64Url
open Utf8 (Bytes)

def alphabet : List Char :=
  ['A', 'B', 'C', 'D', 'E', 'F', 'G', 'H', 'I', 'J', 'K', 'L', 'M', 'N', 'O', 'P', 'Q', 'R', 'S',
    'T', 'U', 'V', 'W', 'X', 'Y', 'Z', 'a', 'b', 'c', 'd', 'e', 'f', 'g', 'h', 'i', 'j', 'k', 'l',
    'm', 'n', 'o', 'p', 'q', 'r', 's', 't', 'u', 'v', 'w', 'x', 'y', 'z', '0', '1', '2', '3', '4',
    '5', '6', '7', '8', '9', '-', '_']

def digit (n : Nat) : Char := alphabet.getD n 'A'

def value? (c : Char) : Option Nat :=
  if c = '+' then some 62
  else if c = '/' then some 63
  else alphabet.idxOf? c

/-- Three bytes are four digits. -/
def digits : Bytes → List Nat
  | a :: b :: c :: rest =>
    a.toNat / 4 :: (a.toNat % 4 * 16 + b.toNat / 16) :: (b.toNat % 16 * 4 + c.toNat / 64) ::
      c.toNat % 64 :: digits rest
  | [a, b] => [a.toNat / 4, a.toNat % 4 * 16 + b.toNat / 16, b.toNat % 16 * 4]
  | [a] => [a.toNat / 4, a.toNat % 4 * 16]
  | [] => []

def bytes : List Nat → Bytes
  | p :: q :: r :: s :: rest =>
    .ofNat (p * 4 + q / 16) :: .ofNat (q % 16 * 16 + r / 4) :: .ofNat (r % 4 * 64 + s) ::
      bytes rest
  | [p, q, r] => [.ofNat (p * 4 + q / 16), .ofNat (q % 16 * 16 + r / 4)]
  | [p, q] => [.ofNat (p * 4 + q / 16)]
  | _ => []

def encode (bs : Bytes) : List Char := (digits bs).map digit

def decode (text : List Char) : Bytes := bytes (text.filterMap value?)

theorem value?_digit : ∀ n < 64, value? (digit n) = some n := by decide

theorem digits_lt : ∀ (bs : Bytes), ∀ n ∈ digits bs, n < 64
  | a :: b :: c :: rest => by
      have ha := a.toNat_lt
      have hb := b.toNat_lt
      have hc := c.toNat_lt
      simp only [digits, List.forall_mem_cons]
      exact ⟨by omega, by omega, by omega, by omega, digits_lt rest⟩
  | [a, b] => by
      have ha := a.toNat_lt
      have hb := b.toNat_lt
      simp only [digits, List.forall_mem_cons]
      exact ⟨by omega, by omega, by omega, fun n hn => nomatch hn⟩
  | [a] => by
      have ha := a.toNat_lt
      simp only [digits, List.forall_mem_cons]
      exact ⟨by omega, by omega, fun n hn => nomatch hn⟩
  | [] => fun n hn => nomatch hn

theorem ofNat_eq {n : Nat} {b : UInt8} (h : n = b.toNat) : UInt8.ofNat n = b := by
  rw [h, UInt8.ofNat_toNat]

theorem bytes_digits : ∀ bs : Bytes, bytes (digits bs) = bs
  | a :: b :: c :: rest => by
      have hb := b.toNat_lt
      have hc := c.toNat_lt
      simp only [digits, bytes, bytes_digits rest]
      rw [ofNat_eq (b := a) (by omega), ofNat_eq (b := b) (by omega), ofNat_eq (b := c) (by omega)]
  | [a, b] => by
      have hb := b.toNat_lt
      simp only [digits, bytes]
      rw [ofNat_eq (b := a) (by omega), ofNat_eq (b := b) (by omega)]
  | [a] => by
      simp only [digits, bytes]
      rw [ofNat_eq (b := a) (by omega)]
  | [] => rfl

theorem filterMap_digit : ∀ ns : List Nat, (∀ n ∈ ns, n < 64) →
    (ns.map digit).filterMap value? = ns
  | [], _ => rfl
  | n :: ns, h => by
      rw [List.map_cons, List.filterMap_cons, value?_digit n (h n List.mem_cons_self),
        filterMap_digit ns fun m hm => h m (List.mem_cons_of_mem _ hm)]

/-- What was encoded is read back. -/
theorem decode_encode (bs : Bytes) : decode (encode bs) = bs := by
  rw [decode, encode, filterMap_digit _ (digits_lt bs), bytes_digits]

/-! ### The strict decoder -/

def isBlank (c : Char) : Bool :=
  c = ' ' || c = '\t' || c = '\n' || c = '\r' || c = '\x0c'

/-- Without the padding that fills up the last four letters. -/
def unpadded (text : List Char) : List Char :=
  if text.length % 4 = 0 then
    match text.reverse with
    | '=' :: '=' :: rest => rest.reverse
    | '=' :: rest => rest.reverse
    | _ => text
  else text

def plainValue? (c : Char) : Option Nat := if c = '-' ∨ c = '_' then none else value? c

/-- `atob(text)`. -/
def atob (text : List Char) : Option Bytes :=
  let letters := unpadded (text.filter fun c => !isBlank c)
  if letters.length % 4 = 1 then none else (letters.mapM plainValue?).map bytes

/-- The letter of the plain alphabet. -/
def plain (c : Char) : Char := if c = '-' then '+' else if c = '_' then '/' else c

/-- The padding of a text. -/
def padding (text : List Char) : List Char :=
  if text.length % 4 = 0 then [] else List.replicate (4 - text.length % 4) '='

theorem plain_digit : ∀ n < 64, plainValue? (plain (digit n)) = some n ∧
    isBlank (plain (digit n)) = false ∧ plain (digit n) ≠ '=' := by decide

theorem length_digits : ∀ bs : Bytes, (digits bs).length % 4 ≠ 1
  | a :: b :: c :: rest => by
      have hrest := length_digits rest
      simp only [digits, List.length_cons]
      omega
  | [a, b] => by simp [digits]
  | [a] => by simp [digits]
  | [] => by simp [digits]

theorem mapM_plain {ns : List Nat} (h : ∀ n ∈ ns, n < 64) :
    ((ns.map digit).map plain).mapM plainValue? = some ns := by
  induction ns with
  | nil => rfl
  | cons n ns ih =>
    obtain ⟨hn, hns⟩ := List.forall_mem_cons.mp h
    rw [List.map_cons, List.map_cons, List.mapM_cons, (plain_digit n hn).1, ih hns]
    rfl

theorem unpadded_append {text : List Char} (h : text.length % 4 ≠ 1) (hne : ∀ c ∈ text, c ≠ '=') :
    unpadded (text ++ padding text) = text := by
  have hlast : ∀ rest, text.reverse ≠ '=' :: rest := by
    intro rest hrest
    exact hne '=' (List.mem_reverse.mp (hrest ▸ List.mem_cons_self)) rfl
  have hlength := Nat.mod_lt text.length (Nat.zero_lt_succ 3)
  unfold padding
  by_cases hzero : text.length % 4 = 0
  · rw [if_pos hzero, List.append_nil, unpadded, if_pos hzero]
    split
    · rename_i hreverse
      exact absurd hreverse (hlast _)
    · rename_i hreverse
      exact absurd hreverse (hlast _)
    · rfl
  · rw [if_neg hzero]
    have hfull : (text ++ List.replicate (4 - text.length % 4) '=').length % 4 = 0 := by
      rw [List.length_append, List.length_replicate]
      omega
    rw [unpadded, if_pos hfull]
    have hcount : 4 - text.length % 4 = 1 ∨ 4 - text.length % 4 = 2 := by omega
    rcases hcount with hcount | hcount
    · have hreverse : (text ++ List.replicate (4 - text.length % 4) '=').reverse =
          '=' :: text.reverse := by
        rw [hcount, List.reverse_append]
        rfl
      rw [hreverse]
      split
      · rename_i hrest
        exact absurd (List.cons.inj hrest).2 (hlast _)
      · rename_i hrest
        rw [← (List.cons.inj hrest).2, List.reverse_reverse]
      · rename_i hother
        exact absurd rfl (hother _)
    · have hreverse : (text ++ List.replicate (4 - text.length % 4) '=').reverse =
          '=' :: '=' :: text.reverse := by
        rw [hcount, List.reverse_append]
        rfl
      rw [hreverse]
      exact List.reverse_reverse _

/-- **What was encoded is read**, in the plain alphabet and with its padding. -/
theorem atob_padded (bs : Bytes) :
    atob ((encode bs ++ padding (encode bs)).map plain) = some bs := by
  have hlt := digits_lt bs
  have hletter : ∀ c ∈ (encode bs).map plain, isBlank c = false ∧ c ≠ '=' := by
    intro c hc
    obtain ⟨d, hd, rfl⟩ := List.mem_map.mp hc
    obtain ⟨n, hn, rfl⟩ := List.mem_map.mp hd
    exact (plain_digit n (hlt n hn)).2
  have hlength : ((encode bs).map plain).length = (digits bs).length := by simp [encode]
  have hpadding : (padding (encode bs)).map plain = padding ((encode bs).map plain) := by
    unfold padding
    rw [List.length_map]
    split
    · rfl
    · rw [List.map_replicate]
      rfl
  have hpad : ∀ c ∈ padding ((encode bs).map plain), isBlank c = false := by
    intro c hc
    unfold padding at hc
    split at hc
    · cases hc
    · rw [List.eq_of_mem_replicate hc]
      rfl
  have hfilter : (((encode bs).map plain ++ padding ((encode bs).map plain)).filter
      fun c => !isBlank c) = (encode bs).map plain ++ padding ((encode bs).map plain) := by
    refine List.filter_eq_self.mpr fun c hc => ?_
    rcases List.mem_append.mp hc with hc | hc
    · rw [(hletter c hc).1]
      rfl
    · rw [hpad c hc]
      rfl
  have hodd : ((encode bs).map plain).length % 4 ≠ 1 := by
    rw [hlength]
    exact length_digits bs
  rw [List.map_append, hpadding, atob, hfilter, unpadded_append hodd fun c hc => (hletter c hc).2,
    if_neg hodd, encode, mapM_plain hlt, Option.map_some, bytes_digits]

/-- A letter is no other character. -/
theorem notMem_encode {c : Char} (h : c ∉ alphabet) (bs : Bytes) : c ∉ encode bs := by
  intro hc
  obtain ⟨n, -, rfl⟩ := List.mem_map.mp hc
  rw [digit, List.getD_eq_getElem?_getD] at h
  cases hn : alphabet[n]? with
  | none =>
    rw [hn] at h
    exact h List.mem_cons_self
  | some d =>
    rw [hn] at h
    exact h (List.mem_of_getElem? hn)

end Base64Url
