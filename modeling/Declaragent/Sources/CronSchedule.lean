import Declaragent.Library.JsNumber

/-!
# Sources — schedules

A schedule is a duration, `PT…`, or five fields of a cron expression.  A field lists the numbers
that it matches; `*`, ranges, steps and names are read.

Names are looked up in an object, which has the keys of every object, too: `constructor` and
`__proto__` are read as values that no number equals.
-/

namespace Declaragent.Sources.Cron
open JsonText

/-- What reading a schedule comes to when it gives none: an error, or no end. -/
inductive CronError where
  | thrown (message : String)
  | diverges
  deriving DecidableEq

/-! ### Durations -/

def isDuration (s : String) : Bool :=
  match Numeral.trim s.toList with
  | p :: t :: _ => p.toLower = 'p' && t.toLower = 't'
  | _ => false

/-- `\d+(?:\.\d+)?` at the front. -/
def takeAmount (cs : List Char) : Option (ℚ × List Char) :=
  match takeDigits cs with
  | ([], _) => none
  | (int, '.' :: rest) =>
    match takeDigits rest with
    | ([], _) => some ((Nat.ofDigitChars 10 int 0 : Nat), '.' :: rest)
    | (fraction, rest) =>
      some ((Nat.ofDigitChars 10 (int ++ fraction) 0 : Nat) / 10 ^ fraction.length, rest)
  | (int, rest) => some ((Nat.ofDigitChars 10 int 0 : Nat), rest)

/-- An amount of a unit, if one is at the front. -/
def takeUnit (letter : Char) (cs : List Char) : Option ℚ × List Char :=
  match takeAmount cs with
  | some (amount, c :: rest) => if c.toLower = letter then (some amount, rest) else (none, cs)
  | _ => (none, cs)

/-- The milliseconds of a duration. -/
def parseDuration (s : String) : Except CronError Int :=
  let (h, rest) := takeUnit 'h' ((Numeral.trim s.toList).drop 2)
  let (min, rest) := takeUnit 'm' rest
  let (sec, rest) := takeUnit 's' rest
  if isDuration s = false ∨ rest ≠ [] ∨ (h = none ∧ min = none ∧ sec = none) then
    .error (.thrown ("invalid ISO-8601 duration: \"" ++ s ++ "\""))
  else
    let ms := ⌊h.getD 0 * 3600000 + min.getD 0 * 60000 + sec.getD 0 * 1000 + 1 / 2⌋
    if ms ≤ 0 then
      .error (.thrown ("duration \"" ++ s ++ "\" resolves to non-positive interval"))
    else .ok ms

/-! ### Fields -/

def MONTH_NAMES : List (String × Int) :=
  [("jan", 1), ("feb", 2), ("mar", 3), ("apr", 4), ("may", 5), ("jun", 6), ("jul", 7), ("aug", 8),
    ("sep", 9), ("oct", 10), ("nov", 11), ("dec", 12)]

def DAY_NAMES : List (String × Int) :=
  [("sun", 0), ("mon", 1), ("tue", 2), ("wed", 3), ("thu", 4), ("fri", 5), ("sat", 6)]

structure ParseFieldOpts where
  aliases : Option (List (String × Int)) := none
  sevenIsSunday : Bool := false

/-- An end of a range: a number, or what every object has under a key. -/
inductive Bound where
  | number (n : Int)
  | constructor
  | proto
  deriving DecidableEq

/-- A bound in a template. -/
def Bound.text : Bound → String
  | .number n => toString n
  | .constructor => "function Object() \x7b [native code] \x7d"
  | .proto => "[object Object]"

def outOfRange (n lo hi : Int) : CronError :=
  .thrown ("cron: value " ++ toString n ++ " out of range " ++ toString lo ++ "-" ++ toString hi)

def parseNumber (raw : List Char) (lo hi : Int) (opts : ParseFieldOpts) : Except CronError Bound :=
  match Numeral.parseFiniteInt raw with
  | none => .error (.thrown ("cron: invalid token \"" ++ String.ofList raw ++ "\""))
  | some n =>
    if opts.sevenIsSunday = true ∧ n = 7 then .ok (.number 0)
    else if n < lo ∨ n > hi then .error (outOfRange n lo hi)
    else .ok (.number n)

def parseOne (raw : List Char) (lo hi : Int) (opts : ParseFieldOpts) : Except CronError Bound :=
  let token := String.ofList (raw.map Char.toLower)
  match opts.aliases with
  | none => parseNumber raw lo hi opts
  | some aliases =>
    match aliases.lookup token with
    | some n => .ok (.number n)
    | none =>
      if token = "constructor" then .ok .constructor
      else if token = "__proto__" then .ok .proto
      else parseNumber raw lo hi opts

/-- `for (let v = lo; v <= hi; v += step)`. -/
def stepsFrom (lo hi step : Int) : List Bound :=
  (List.range ((hi - lo) / step + 1).toNat).map fun k => .number (lo + step * k)

/-- The values of a range; those that are no numbers are compared as texts, and a step makes the
text longer. -/
def rangeValues (lo hi : Bound) (step : Int) (s : List Char) : Except CronError (List Bound) :=
  match lo, hi with
  | .number lo, .number hi =>
    if lo > hi then
      .error (.thrown ("cron: invalid range " ++ toString lo ++ "-" ++ toString hi ++ " in \"" ++
        String.ofList s ++ "\""))
    else .ok (stepsFrom lo hi step)
  | .constructor, .proto =>
    .error (.thrown ("cron: invalid range " ++ Bound.constructor.text ++ "-" ++
      Bound.proto.text ++ " in \"" ++ String.ofList s ++ "\""))
  | .proto, .constructor => .error .diverges
  | .constructor, .constructor => .ok [.constructor]
  | .proto, .proto => .ok [.proto]
  | .number _, .constructor | .number _, .proto | .constructor, .number _ | .proto, .number _ =>
    .ok []

/-- The text before the first `c`, and what follows it. -/
def cutAt (c : Char) (cs : List Char) : List Char × Option (List Char) :=
  match cs.span (· ≠ c) with
  | (front, _ :: back) => (front, some back)
  | (front, []) => (front, none)

def parsePiece (piece : List Char) (lo hi : Int) (opts : ParseFieldOpts) (s : List Char) :
    Except CronError (List Bound) := do
  let (rest, stepStr) := cutAt '/' piece
  let step ← match stepStr with
    | none => .ok 1
    | some text =>
      match Numeral.parseFiniteInt text with
      | some step => if step ≤ 0 then .error (invalidStep text) else .ok step
      | none => .error (invalidStep text)
  let (rangeLo, rangeHi) ←
    if rest = ['*'] ∨ rest = [] then .ok (.number lo, .number hi)
    else
      match cutAt '-' rest with
      | (first, some last) => do
          let rangeLo ← parseOne first lo hi opts
          let rangeHi ← parseOne last lo hi opts
          .ok (rangeLo, rangeHi)
      | (_, none) => do
          let rangeLo ← parseOne rest lo hi opts
          .ok (rangeLo, if stepStr.isSome then .number hi else rangeLo)
  rangeValues rangeLo rangeHi step s
where
  invalidStep (text : List Char) : CronError :=
    .thrown ("cron: invalid step \"" ++ String.ofList text ++ "\" in \"" ++ String.ofList s ++ "\"")

def parseField (s : List Char) (lo hi : Int) (opts : ParseFieldOpts) :
    Except CronError (List Bound) :=
  match (s.splitOn ',').mapM fun piece => parsePiece piece lo hi opts s with
  | .error err => .error err
  | .ok values =>
    if values.flatten = [] then
      .error (.thrown ("cron: field \"" ++ String.ofList s ++ "\" matches no values"))
    else .ok values.flatten

structure CronFields where
  minute : List Bound
  hour : List Bound
  dayOfMonth : List Bound
  month : List Bound
  dayOfWeek : List Bound
  hasDomRestriction : Bool
  hasDowRestriction : Bool

def parseCron (expr : String) : Except CronError CronFields :=
  match Numeral.words expr.toList with
  | [minuteF, hourF, domF, monthF, dowF] => do
      let minute ← parseField minuteF 0 59 {}
      let hour ← parseField hourF 0 23 {}
      let dayOfMonth ← parseField domF 1 31 {}
      let month ← parseField monthF 1 12 { aliases := some MONTH_NAMES }
      let dayOfWeek ← parseField dowF 0 6 { aliases := some DAY_NAMES, sevenIsSunday := true }
      .ok
        { minute, hour, dayOfMonth, month, dayOfWeek
          hasDomRestriction := domF ≠ ['*']
          hasDowRestriction := dowF ≠ ['*'] }
  | parts =>
    -- an empty text is split into one part
    .error (.thrown ("cron: expected 5 fields, got " ++ toString (max 1 parts.length) ++ ": \"" ++
      expr ++ "\""))

/-! ### Dates -/

/-- The day on which a year begins, counted from the first of 1970. -/
def dayFromYear (y : Int) : Int :=
  365 * (y - 1970) + (y - 1969) / 4 - (y - 1901) / 100 + (y - 1601) / 400

/-- The year of a day: an estimate is off by one at most. -/
def yearFromDay (day : Int) : Int :=
  let y := 1970 + day * 400 / 146097
  if day < dayFromYear y then y - 1 else if dayFromYear (y + 1) ≤ day then y + 1 else y

def monthLengths (y : Int) : List Int :=
  [31, dayFromYear (y + 1) - dayFromYear y - 337, 31, 30, 31, 30, 31, 31, 30, 31, 30, 31]

/-- The month, counted from 1, and the date of a day of a year. -/
def monthAndDate : Int → List Int → Int → Int × Int
  | month, length :: lengths, day =>
    if day < length then (month, day + 1) else monthAndDate (month + 1) lengths (day - length)
  | month, [], day => (month, day + 1)

/-- The fields of a time in milliseconds. -/
structure DateFields where
  minute : Int
  hour : Int
  dayOfMonth : Int
  month : Int
  dayOfWeek : Int
  deriving DecidableEq

/-- The fields of a date, unless it is too far away. -/
def dateFields (ms : Int) : Option DateFields :=
  if ms.natAbs ≤ 8640000000000000 then
    let day := ms / 86400000
    let y := yearFromDay day
    let (month, dayOfMonth) := monthAndDate 1 (monthLengths y) (day - dayFromYear y)
    some ⟨ms / 60000 % 60, ms / 3600000 % 24, dayOfMonth, month, (day + 4) % 7⟩
  else none

end Declaragent.Sources.Cron
