import Declaragent.Library.Utf8

/-!
# Library — the query of a URL

The `application/x-www-form-urlencoded` parser, over the bytes of names and values.

* `UrlQuery.parse`: pairs between ampersands, cut at the first equals sign; a plus is a blank, and
  the percent-encoded bytes are decoded.
* `UrlQuery.get`: the value of the first pair of a name.
-/

namespace UrlQuery

open Utf8 (Bytes)

/-- The value of a hexadecimal digit. -/
def hexValue (b : UInt8) : Option UInt8 :=
  if 48 ≤ b ∧ b ≤ 57 then some (b - 48)
  else if 65 ≤ b ∧ b ≤ 70 then some (b - 55)
  else if 97 ≤ b ∧ b ≤ 102 then some (b - 87)
  else none

/-- A percent sign that is not followed by two digits stays. -/
def percentDecode : Bytes → Bytes
  | [] => []
  | b :: hi :: lo :: rest =>
    match if b = 37 then (hexValue hi, hexValue lo) else (none, none) with
    | (some h, some l) => (16 * h + l) :: percentDecode rest
    | _ => b :: percentDecode (hi :: lo :: rest)
  | b :: rest => b :: percentDecode rest

/-- A name or a value. -/
def decode (component : List Char) : Bytes :=
  percentDecode ((Utf8.encode component).map fun b => if b = 43 then 32 else b)

def parse (query : List Char) : List (Bytes × Bytes) :=
  ((query.splitOn '&').filter (· ≠ [])).map fun pair =>
    (decode (pair.takeWhile (· ≠ '=')), decode ((pair.dropWhile (· ≠ '=')).drop 1))

def get (query name : List Char) : Option Bytes := (parse query).lookup (Utf8.encode name)

end UrlQuery
