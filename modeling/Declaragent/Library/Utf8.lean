/-!
# Library — UTF-8

The encoding is the one of Lean's strings.  The decoder takes any bytes: it puts a replacement
character for every longest start of a character that does not go on.
-/

namespace Utf8

abbrev Bytes := List UInt8

def encode (text : List Char) : Bytes := text.flatMap String.utf8EncodeChar

def isContinuation (b : UInt8) : Bool := 0x80 ≤ b && b ≤ 0xbf

/-- The bounds of the second byte of a character of three or four bytes. -/
def second (first : UInt8) : UInt8 × UInt8 :=
  if first = 0xe0 then (0xa0, 0xbf)
  else if first = 0xed then (0x80, 0x9f)
  else if first = 0xf0 then (0x90, 0xbf)
  else if first = 0xf4 then (0x80, 0x8f)
  else (0x80, 0xbf)

/-- How many bytes, after the first one, of bytes that do not start with a character could start
one. -/
def started (first : UInt8) (bytes : Bytes) : Nat :=
  let (low, high) := second first
  match bytes with
  | b :: rest =>
    if 0xe0 ≤ first ∧ first ≤ 0xf4 ∧ low ≤ b ∧ b ≤ high then
      if 0xf0 ≤ first ∧ (rest.head?.any isContinuation) then 2 else 1
    else 0
  | [] => 0

/-- The character that the bytes start with. -/
def char? (bytes : Bytes) : Option Char := bytes.toByteArray.utf8DecodeChar? 0

def decode : Bytes → List Char
  | [] => []
  | first :: bytes =>
    match char? (first :: bytes) with
    | some c => c :: decode (bytes.drop (c.utf8Size - 1))
    | none => '\uFFFD' :: decode (bytes.drop (started first bytes))
termination_by bytes => bytes.length
decreasing_by
  all_goals
    rw [List.length_drop, List.length_cons]
    omega

theorem char?_encode (c : Char) (rest : Bytes) :
    char? (String.utf8EncodeChar c ++ rest) = some c := by
  rw [char?, List.toByteArray_append]
  exact ByteArray.utf8DecodeChar?_utf8EncodeChar_append

/-- What was encoded is read back, whatever follows it. -/
theorem decode_encode_append (text : List Char) (rest : Bytes) :
    decode (encode text ++ rest) = text ++ decode rest := by
  induction text with
  | nil => rfl
  | cons c text ih =>
    have hsplit : encode (c :: text) ++ rest =
        String.utf8EncodeChar c ++ (encode text ++ rest) := by
      rw [encode, List.flatMap_cons, List.append_assoc]
      rfl
    have hchar := char?_encode c (encode text ++ rest)
    have hlength := String.length_utf8EncodeChar c
    rw [hsplit, List.cons_append, ← ih]
    cases hbytes : String.utf8EncodeChar c with
    | nil =>
      have hpos := c.utf8Size_pos
      rw [hbytes, List.length_nil] at hlength
      omega
    | cons first bytes =>
      rw [hbytes] at hchar hlength
      rw [List.cons_append] at hchar ⊢
      have hdrop : (bytes ++ (encode text ++ rest)).drop (c.utf8Size - 1) =
          encode text ++ rest := by
        rw [← hlength, List.length_cons, Nat.add_sub_cancel, List.drop_left]
      rw [decode, hchar]
      simp only [hdrop]

theorem decode_encode (text : List Char) : decode (encode text) = text := by
  have happend := decode_encode_append text []
  rwa [List.append_nil, decode, List.append_nil] at happend

end Utf8
