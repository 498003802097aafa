import Declaragent.Library.JsNumber
import Declaragent.Library.Lines

/-!
# Events — the lines of a control stream

A stream of values has one on each line.  A decoder gets the text in chunks; it skips the lines that
are blank, and those that are no JSON.
-/

namespace Declaragent.Events
open JsonText

variable (F : NumberFormat)

/-- The value of a line. -/
def lineValue? (line : List Char) : Option JsValue :=
  let line := Numeral.trim line
  if line = [] then none else jsonParse F (String.ofList line)

structure NDJSONDecoder where
  buffer : List Char := []

namespace NDJSONDecoder

def push (decoder : NDJSONDecoder) (chunk : List Char) : List JsValue × NDJSONDecoder :=
  let buffer := decoder.buffer ++ chunk
  ((Lines.complete '\n' buffer).filterMap (lineValue? F), ⟨Lines.rest '\n' buffer⟩)

end NDJSONDecoder

/-- The lines of a stream that have more than blanks. -/
def filledLines (text : List Char) : List (List Char) :=
  (Lines.complete '\n' text).filter fun line => Numeral.trim line ≠ []

end Declaragent.Events
