import Declaragent.Library.Utf8
import Mathlib.Data.List.Basic

/-!
# Library — UTF-8 by the byte

The decoder of a stream.  What it has read of a character that has not ended is its state, so that
it does not matter in which chunks the bytes come.

* `feed_encode`: what was encoded is read back, and nothing is left over.
* `TextDecoder.decodeAll_encode`: in whatever chunks it comes.
-/

namespace Utf8

/-- What the decoder has read of a character: how many bytes it needs, the bits of those that it
has, and the bounds of the next one. -/
structure Decoder where
  needed : Nat := 0
  codePoint : Nat := 0
  lower : Nat := 0x80
  upper : Nat := 0xbf

namespace Decoder

/-- The first byte of a character. -/
def start (b : Nat) : Decoder × List Char :=
  if b ≤ 0x7f then ({}, [Char.ofNat b])
  else if 0xc2 ≤ b ∧ b ≤ 0xdf then ({ needed := 1, codePoint := b % 0x20 }, [])
  else if 0xe0 ≤ b ∧ b ≤ 0xef then
    ({ needed := 2, codePoint := b % 0x10, lower := if b = 0xe0 then 0xa0 else 0x80,
       upper := if b = 0xed then 0x9f else 0xbf }, [])
  else if 0xf0 ≤ b ∧ b ≤ 0xf4 then
    ({ needed := 3, codePoint := b % 8, lower := if b = 0xf0 then 0x90 else 0x80,
       upper := if b = 0xf4 then 0x8f else 0xbf }, [])
  else ({}, ['\uFFFD'])

/-- A byte that does not go on with the character starts another one. -/
def next (d : Decoder) (b : Nat) : Decoder × List Char :=
  if d.needed = 0 then start b
  else if d.lower ≤ b ∧ b ≤ d.upper then
    let codePoint := d.codePoint * 0x40 + b % 0x40
    if d.needed = 1 then ({}, [Char.ofNat codePoint])
    else ({ needed := d.needed - 1, codePoint }, [])
  else ((start b).1, '\uFFFD' :: (start b).2)

def feed : Decoder → Bytes → Decoder × List Char
  | d, [] => (d, [])
  | d, b :: bytes => ((feed (d.next b.toNat).1 bytes).1,
      (d.next b.toNat).2 ++ (feed (d.next b.toNat).1 bytes).2)

theorem feed_append (d : Decoder) (bytes more : Bytes) :
    d.feed (bytes ++ more) =
      (((d.feed bytes).1.feed more).1, (d.feed bytes).2 ++ ((d.feed bytes).1.feed more).2) := by
  induction bytes generalizing d with
  | nil => rfl
  | cons b bytes ih => rw [List.cons_append, feed, feed, ih, List.append_assoc]

/-! ### What was encoded -/

variable {b : Nat} {d : Decoder}

theorem start_one (h : b ≤ 0x7f) : start b = ({}, [Char.ofNat b]) := if_pos h

theorem start_two (h : 0xc2 ≤ b) (h' : b ≤ 0xdf) :
    start b = ({ needed := 1, codePoint := b % 0x20 }, []) := by
  rw [start, if_neg (by omega), if_pos ⟨h, h'⟩]

theorem start_three (h : 0xe0 ≤ b) (h' : b ≤ 0xef) :
    start b = ({ needed := 2, codePoint := b % 0x10, lower := if b = 0xe0 then 0xa0 else 0x80,
                 upper := if b = 0xed then 0x9f else 0xbf }, []) := by
  rw [start, if_neg (by omega), if_neg (by omega), if_pos ⟨h, h'⟩]

theorem start_four (h : 0xf0 ≤ b) (h' : b ≤ 0xf4) :
    start b = ({ needed := 3, codePoint := b % 8, lower := if b = 0xf0 then 0x90 else 0x80,
                 upper := if b = 0xf4 then 0x8f else 0xbf }, []) := by
  rw [start, if_neg (by omega), if_neg (by omega), if_neg (by omega), if_pos ⟨h, h'⟩]

theorem next_idle (b : Nat) : next {} b = start b := rfl

theorem next_last (h : d.needed = 1) (hb : d.lower ≤ b ∧ b ≤ d.upper) :
    d.next b = ({}, [Char.ofNat (d.codePoint * 0x40 + b % 0x40)]) := by
  rw [next, if_neg (by omega), if_pos hb]
  simp only [h, if_true]

theorem next_more (h : 1 < d.needed) (hb : d.lower ≤ b ∧ b ≤ d.upper) :
    d.next b = ({ needed := d.needed - 1, codePoint := d.codePoint * 0x40 + b % 0x40 }, []) := by
  rw [next, if_neg (by omega), if_pos hb]
  simp only [if_neg (show d.needed ≠ 1 by omega)]

theorem toNat_ofNat {n : Nat} (h : n < 256) : (UInt8.ofNat n).toNat = n := by
  rw [UInt8.toNat_ofNat', Nat.mod_eq_of_lt h]

theorem feed_two {v : Nat} (h : 0x80 ≤ v) (h' : v ≤ 0x7ff) :
    feed {} [UInt8.ofNat (v / 64 % 0x20 + 0xc0), UInt8.ofNat (v % 0x40 + 0x80)] =
      ({}, [Char.ofNat v]) := by
  have hvalue : (v / 64 % 0x20 + 0xc0) % 0x20 * 0x40 + (v % 0x40 + 0x80) % 0x40 = v := by omega
  rw [feed, toNat_ofNat (by omega), next_idle, start_two (by omega) (by omega)]
  dsimp only
  rw [feed, toNat_ofNat (by omega), next_last rfl (by dsimp only; omega)]
  simp only [feed, hvalue, List.nil_append, List.append_nil]

theorem feed_three {v : Nat} (h : 0x800 ≤ v) (h' : v ≤ 0xffff) (hs : v < 0xd800 ∨ 0xdfff < v) :
    feed {} [UInt8.ofNat (v / 4096 % 0x10 + 0xe0), UInt8.ofNat (v / 64 % 0x40 + 0x80),
        UInt8.ofNat (v % 0x40 + 0x80)] =
      ({}, [Char.ofNat v]) := by
  have hvalue : ((v / 4096 % 0x10 + 0xe0) % 0x10 * 0x40 + (v / 64 % 0x40 + 0x80) % 0x40) * 0x40 +
      (v % 0x40 + 0x80) % 0x40 = v := by
    omega
  rw [feed, toNat_ofNat (by omega), next_idle, start_three (by omega) (by omega)]
  dsimp only
  rw [feed, toNat_ofNat (by omega),
    next_more Nat.one_lt_two (by dsimp only; split <;> split <;> omega)]
  dsimp only
  rw [feed, toNat_ofNat (by omega), next_last rfl (by dsimp only; omega)]
  simp only [feed, hvalue, List.nil_append, List.append_nil]

theorem feed_four {v : Nat} (h : 0x10000 ≤ v) (h' : v ≤ 0x10ffff) :
    feed {} [UInt8.ofNat (v / 262144 % 8 + 0xf0), UInt8.ofNat (v / 4096 % 0x40 + 0x80),
        UInt8.ofNat (v / 64 % 0x40 + 0x80), UInt8.ofNat (v % 0x40 + 0x80)] =
      ({}, [Char.ofNat v]) := by
  have hvalue : (((v / 262144 % 8 + 0xf0) % 8 * 0x40 + (v / 4096 % 0x40 + 0x80) % 0x40) * 0x40 +
      (v / 64 % 0x40 + 0x80) % 0x40) * 0x40 + (v % 0x40 + 0x80) % 0x40 = v := by
    omega
  rw [feed, toNat_ofNat (by omega), next_idle, start_four (by omega) (by omega)]
  dsimp only
  rw [feed, toNat_ofNat (by omega),
    next_more (Nat.lt_of_sub_eq_succ rfl) (by dsimp only; split <;> split <;> omega)]
  dsimp only
  rw [feed, toNat_ofNat (by omega), next_more Nat.one_lt_two (by dsimp only; omega)]
  dsimp only
  rw [feed, toNat_ofNat (by omega), next_last rfl (by dsimp only; omega)]
  simp only [feed, hvalue, List.nil_append, List.append_nil]

theorem feed_utf8EncodeChar (c : Char) :
    ({} : Decoder).feed (String.utf8EncodeChar c) = ({}, [c]) := by
  have hchar : Char.ofNat c.val.toNat = c := Char.ofNat_toNat c
  have hvalid : c.val.toNat < 0xd800 ∨ 0xdfff < c.val.toNat ∧ c.val.toNat < 0x110000 := c.valid
  generalize hv : c.val.toNat = v at hchar hvalid
  rw [String.utf8EncodeChar, hv]
  split
  · rename_i hone
    rw [feed, feed, toNat_ofNat (by omega), next_idle, start_one hone, hchar]
    rfl
  · split
    · rw [feed_two (by omega) (by omega), hchar]
    · split
      · rw [feed_three (by omega) (by omega) (by omega), hchar]
      · rw [feed_four (by omega) (by omega), hchar]

theorem feed_encode (text : List Char) : ({} : Decoder).feed (encode text) = ({}, text) := by
  induction text with
  | nil => rfl
  | cons c text ih =>
    have hcons : encode (c :: text) = String.utf8EncodeChar c ++ encode text :=
      List.flatMap_cons
    rw [hcons, feed_append, feed_utf8EncodeChar, ih]
    rfl

end Decoder

/-- A decoder of text, which leaves out a byte order mark that the text begins with. -/
structure TextDecoder where
  decoder : Decoder := {}
  bomSeen : Bool := false

namespace TextDecoder

/-- `decode(chunk, { stream: true })`. -/
def decode (t : TextDecoder) (chunk : Bytes) : TextDecoder × List Char :=
  match t.bomSeen, (t.decoder.feed chunk).2 with
  | true, text => (⟨(t.decoder.feed chunk).1, true⟩, text)
  | false, [] => (⟨(t.decoder.feed chunk).1, false⟩, [])
  | false, c :: text =>
    (⟨(t.decoder.feed chunk).1, true⟩, if c = '\uFEFF' then text else c :: text)

def decodeAll : TextDecoder → List Bytes → List (List Char)
  | _, [] => []
  | t, chunk :: chunks => (t.decode chunk).2 :: (t.decode chunk).1.decodeAll chunks

theorem decode_append (t : TextDecoder) (chunk more : Bytes) :
    t.decode (chunk ++ more) =
      (((t.decode chunk).1.decode more).1,
        (t.decode chunk).2 ++ ((t.decode chunk).1.decode more).2) := by
  obtain ⟨d, bomSeen⟩ := t
  cases bomSeen with
  | true => simp only [decode, Decoder.feed_append]
  | false =>
    cases htext : (d.feed chunk).2 with
    | nil => simp only [decode, Decoder.feed_append, htext, List.nil_append]
    | cons c text =>
      simp only [decode, Decoder.feed_append, htext, List.cons_append]
      split <;> rfl

/-- The texts of chunks are the text of the whole. -/
theorem decodeAll_eq (t : TextDecoder) (chunks : List Bytes) :
    (t.decodeAll chunks).flatten = (t.decode chunks.flatten).2 := by
  induction chunks generalizing t with
  | nil =>
    obtain ⟨d, bomSeen⟩ := t
    cases bomSeen <;> rfl
  | cons chunk chunks ih =>
    rw [decodeAll, List.flatten_cons, List.flatten_cons, decode_append, ih]

/-- **What was encoded arrives**, in whatever chunks it comes. -/
theorem decodeAll_encode {text : List Char} (h : text.head? ≠ some '\uFEFF') {chunks : List Bytes}
    (hchunks : chunks.flatten = encode text) :
    (({} : TextDecoder).decodeAll chunks).flatten = text := by
  rw [decodeAll_eq, hchunks, decode, Decoder.feed_encode]
  cases text with
  | nil => rfl
  | cons c text =>
    have hc : c ≠ '\uFEFF' := by
      rintro rfl
      exact h rfl
    exact if_neg hc

/-- `decode(bytes)` of a whole text: a character that has not ended is replaced. -/
def decodeWhole (bytes : Bytes) : List Char :=
  let (t, text) := ({} : TextDecoder).decode bytes
  if t.decoder.needed = 0 then text else text ++ ['\uFFFD']

theorem decodeWhole_encode {text : List Char} (h : text.head? ≠ some '\uFEFF') :
    decodeWhole (encode text) = text := by
  have hall : (({} : TextDecoder).decodeAll [encode text]).flatten = text :=
    decodeAll_encode h List.flatten_singleton
  rw [decodeAll, decodeAll, List.flatten_singleton] at hall
  have hended : (({} : TextDecoder).decode (encode text)).1.decoder.needed = 0 := by
    rw [decode, Decoder.feed_encode]
    cases text <;> rfl
  rw [decodeWhole]
  dsimp only
  rw [if_pos hended, hall]

end TextDecoder

end Utf8
