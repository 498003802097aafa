import Declaragent.Library.JsonParse
import Mathlib.Data.List.Infix

/-!
# Events — JSON paths

A path is `$` and then names and indices: `.name`, `[0]`, `["any key"]`, `.["any key"]`.

An event is any graph of objects.  Objects are the same only if they are one object, and reading a
property may find it among the inherited ones.
-/

namespace Declaragent.Events
open JsonText

/-! ### The text of a path -/

inductive JsonPathSegment where
  | key (name : String)
  | index (n : Nat)
  deriving DecidableEq

def jsonPathError (path reason : String) : String := "JSONPath \"" ++ path ++ "\": " ++ reason

/-- `\s`. -/
def isBlank (c : Char) : Bool :=
  c ∈ [' ', '\t', '\n', '\r', '\x0b', '\x0c', '\u00a0', '\u1680', '\u2028', '\u2029', '\u202f',
    '\u205f', '\u3000', '\ufeff'] || ('\u2000' ≤ c && c ≤ '\u200a')

/-- `[`, blanks, and then what `p` accepts. -/
def bracketed (p : List Char → Bool) : List Char → Bool
  | [] => false
  | '[' :: cs => p (cs.dropWhile isBlank) || bracketed p cs
  | _ :: cs => bracketed p cs

/-- `/\[\s*\*\s*\]/`. -/
def hasWildcard : List Char → Bool :=
  bracketed fun
    | '*' :: cs => (cs.dropWhile isBlank).head? == some ']'
    | _ => false

/-- `/\[\s*\?/`. -/
def hasPredicate : List Char → Bool := bracketed fun cs => cs.head? == some '?'

/-- `/[\w$]/`. -/
def isIdentChar (c : Char) : Bool :=
  ('a' ≤ c && c ≤ 'z') || ('A' ≤ c && c ≤ 'Z') || ('0' ≤ c && c ≤ '9') || c = '_' || c = '$'

/-- The length in code units. -/
def unitLength (cs : List Char) : Nat := (utf16 (String.ofList cs)).length

/-- The identifier after a dot at position `i`, and what is left. -/
def scanIdent (path : String) (i : Nat) (cs : List Char) : Except String (String × List Char) :=
  let word := cs.takeWhile fun c => c ≠ '.' && c ≠ '['
  match word.find? fun c => !isIdentChar c with
  | some c =>
    let before := word.takeWhile isIdentChar
    .error (jsonPathError path ("invalid identifier character \"" ++
      String.ofList ((utf16 (String.singleton c)).take 1 |>.map loneUnit) ++ "\" at position " ++
      toString (i + unitLength before)))
  | none =>
    if word = [] then
      .error (jsonPathError path ("empty identifier after \".\" at position " ++ toString i))
    else .ok (String.ofList word, cs.drop word.length)

/-- A quoted key up to its closing quote, and what is left after it. -/
def scanQuoted (quote : Char) : List Char → Option (List Char × List Char)
  | [] => none
  | ['\\'] => none
  | '\\' :: c :: cs => (scanQuoted quote cs).map fun (key, rest) => (c :: key, rest)
  | c :: cs =>
    if c = quote then some ([], cs)
    else (scanQuoted quote cs).map fun (key, rest) => (c :: key, rest)

/-- What stands after an opening bracket at position `i`, up to its closing one. -/
def scanBracket (path : String) (total : Nat) (cs : List Char) :
    Except String (JsonPathSegment × List Char) :=
  let position (rest : List Char) : String := toString (total - unitLength rest)
  let close (segment : JsonPathSegment) (rest : List Char) :=
    match rest with
    | ']' :: rest => .ok (segment, rest)
    | _ => .error (jsonPathError path ("expected \"]\" at position " ++ position rest))
  match cs with
  | [] => .error (jsonPathError path "unterminated bracket")
  | c :: rest =>
    if c = '"' ∨ c = '\'' then
      match scanQuoted c rest with
      | none => .error (jsonPathError path "unterminated quoted key")
      | some (key, rest) => close (.key (String.ofList key)) rest
    else
      let num := cs.takeWhile Char.isDigit
      if num = [] then
        .error (jsonPathError path ("expected numeric index at position " ++ position cs))
      else
        close (.index (num.foldl (fun n c => 10 * n + (c.toNat - '0'.toNat)) 0))
          (cs.drop num.length)

/-- The segments from here on; every round takes a character, so `fuel` is the length. -/
def parseSegments (path : String) (total : Nat) :
    Nat → List Char → Except String (List JsonPathSegment)
  | 0, _ | _, [] => .ok []
  | fuel + 1, c :: cs =>
    if c = '.' then
      if cs.head? = some '[' then parseSegments path total fuel cs
      else do
        let (name, rest) ← scanIdent path (total - unitLength cs) cs
        let segments ← parseSegments path total fuel rest
        pure (.key name :: segments)
    else if c = '[' then do
      let (segment, rest) ← scanBracket path total cs
      let segments ← parseSegments path total fuel rest
      pure (segment :: segments)
    else
      .error (jsonPathError path ("unexpected character \"" ++
        String.ofList ((utf16 (String.singleton c)).take 1 |>.map loneUnit) ++
        "\" at position " ++ toString (total - unitLength (c :: cs))))

def parseJsonPath (path : String) : Except String (List JsonPathSegment) :=
  match path.toList with
  | [] => .error (jsonPathError path "path must be a non-empty string")
  | '$' :: cs =>
    if ['.', '.'] <:+: '$' :: cs then
      .error (jsonPathError path "recursive descent \"..\" is not supported")
    else if hasWildcard ('$' :: cs) then
      .error (jsonPathError path "wildcard \"[*]\" is not supported")
    else if hasPredicate ('$' :: cs) then
      .error (jsonPathError path "predicate expressions are not supported")
    else parseSegments path (unitLength ('$' :: cs)) cs.length cs
  | _ => .error (jsonPathError path "must start with \"$\"")

/-! ### What a path finds -/

/-- A value, with the numbers `N` and the objects `O`. -/
inductive Value (N O : Type) where
  | undefined
  | null
  | bool (b : Bool)
  | num (n : N)
  | str (s : String)
  | object (o : O)
  | function (o : O)
  deriving DecidableEq

/-- `Array.isArray`, and the properties of an object, its own and those that it inherits. -/
structure Objects (N O : Type) where
  isArray : O → Bool
  get : O → String → Value N O

variable {N O : Type} (objects : Objects N O)

/-- `cur[seg]`, where the walk goes on. -/
def follow (cur : Value N O) : JsonPathSegment → Value N O
  | .index n =>
    match cur with
    | .object o => if objects.isArray o then objects.get o (toString n) else .undefined
    | _ => .undefined
  | .key name =>
    match cur with
    | .object o => objects.get o name
    | _ => .undefined

def Objects.resolveJsonPath (root : Value N O) (path : String) : Except String (Value N O) :=
  (parseJsonPath path).map fun segments => segments.foldl (follow objects) root

end Declaragent.Events
