import Declaragent.Events.JsonPath
import Declaragent.Library.JsNumber

/-!
# Events — filter expressions

Comparisons of literals and of paths into the event, under `not`, `and`, `or` and parentheses.
The text is cut into tokens, the tokens are parsed from `or` down to the operands, and the tree is
evaluated.

Numbers are the doubles of the language, with the operations on them that are used.

* `comparisons_documented_iff`: which comparisons with a path that finds nothing have the value that
  the language documents; where all have, so has every expression made of them.
* `missing_is_not_null`: such a path is not equal to `null`.
-/

namespace Declaragent.Events
open JsonText

/-! ### Tokens -/

inductive TokenKind where
  | number | string | ident | jsonpath | op | lparen | rparen | lbracket | rbracket | comma
  deriving DecidableEq

structure Token where
  kind : TokenKind
  value : String
  pos : Nat
  deriving DecidableEq

/-- Outside of brackets, these end a path. -/
def endsPath (c : Char) : Bool :=
  Numeral.isWhite c || c ∈ [',', '(', ')', ']', '=', '!', '<', '>']

/-- The brackets that are open after a character. -/
def bracketDepth (depth : Nat) (c : Char) : Nat :=
  if c = '[' then depth + 1 else if c = ']' then depth - 1 else depth

/-- A path from after its `$`, and the text after it. -/
def scanPath : Nat → List Char → List Char × List Char
  | _, [] => ([], [])
  | depth, c :: text =>
    if depth = 0 ∧ endsPath c then ([], c :: text)
    else
      let (path, rest) := scanPath (bracketDepth depth c) text
      (c :: path, rest)

/-- `\w`. -/
def isWordChar (c : Char) : Bool := c.isAlphanum || c = '_'

/-- A text up to its quote, and the text after that; a backslash keeps the next character. -/
def readQuoted (quote : Char) : Bool → List Char → Option (List Char × List Char)
  | _, [] => none
  | true, c :: text => (readQuoted quote false text).map fun r => (c :: r.1, r.2)
  | false, c :: text =>
    if c = quote then some ([], text)
    else if c = '\\' then readQuoted quote true text
    else (readQuoted quote false text).map fun r => (c :: r.1, r.2)

def utf16Length (text : List Char) : Nat := (text.flatMap units).length

def isDigitOrDot (c : Char) : Bool := c.isDigit || c = '.'

/-- One turn of the loop: the token, where it is no white space, and the text after it. -/
def nextToken (pos : Nat) (c : Char) (text : List Char) :
    Except String (Option Token × List Char) :=
  let single (kind : TokenKind) : Except String (Option Token × List Char) :=
    .ok (some ⟨kind, c.toString, pos⟩, text)
  if Numeral.isWhite c then .ok (none, text)
  else if c = '$' then
    let (path, rest) := scanPath 0 text
    .ok (some ⟨.jsonpath, String.ofList ('$' :: path), pos⟩, rest)
  else if c = '(' then single .lparen
  else if c = ')' then single .rparen
  else if c = '[' then single .lbracket
  else if c = ']' then single .rbracket
  else if c = ',' then single .comma
  else if c = '"' ∨ c = '\'' then
    match readQuoted c false text with
    | none => .error s!"unterminated string starting at {pos}"
    | some (str, rest) => .ok (some ⟨.string, String.ofList str, pos⟩, rest)
  else if c.isDigit ∨ (c = '-' ∧ (text.head?.any Char.isDigit) = true) then
    .ok (some ⟨.number, String.ofList (c :: text.takeWhile isDigitOrDot), pos⟩,
      text.dropWhile isDigitOrDot)
  else if c = '=' ∨ c = '!' ∨ c = '<' ∨ c = '>' then
    if text.head? = some '=' then .ok (some ⟨.op, String.ofList [c, '='], pos⟩, text.tail)
    else if c = '<' ∨ c = '>' then single .op
    else .error s!"unexpected \"{c}\" at position {pos}"
  else if c.isAlpha ∨ c = '_' then
    .ok (some ⟨.ident, String.ofList (c :: text.takeWhile isWordChar), pos⟩,
      text.dropWhile isWordChar)
  else .error s!"unexpected character \"{c}\" at position {pos}"

/-- The tokens from a position on; each turn takes a character at least. -/
def tokenizeFrom : Nat → Nat → List Char → Except String (List Token)
  | _, _, [] => .ok []
  | 0, _, _ => .ok []
  | fuel + 1, pos, c :: text =>
    match nextToken pos c text with
    | .error reason => .error reason
    | .ok (token, rest) =>
      match tokenizeFrom fuel (pos + (utf16Length (c :: text) - utf16Length rest)) rest with
      | .error reason => .error reason
      | .ok tokens => .ok (token.toList ++ tokens)

def tokenize (input : String) : Except String (List Token) :=
  tokenizeFrom input.toList.length 0 input.toList

/-! ### The tree -/

inductive BinaryOp where
  | eq | ne | lt | le | gt | ge | and | or
  deriving DecidableEq

inductive Literal (N : Type) where
  | num (n : N)
  | str (s : String)
  | bool (b : Bool)
  | null

inductive Expr (N : Type) where
  | literal (value : Literal N)
  | jsonpath (path : String)
  | binary (op : BinaryOp) (left right : Expr N)
  | not (operand : Expr N)
  | isIn (value : Expr N) (arr : List (Expr N))

/-- What is used of the doubles: `Number.parseFloat`, `===`, the sign of a difference, which is none
where the difference is no number, and which of them count as false. -/
structure Doubles (N : Type) where
  parseFloat : String → N
  same : N → N → Bool
  diff : N → N → Option Ordering
  falsy : N → Bool

/-! ### Parsing -/

section
variable {N : Type} (doubles : Doubles N)

/-- The comparison that an operator token stands for. -/
def comparisonOp (value : String) : BinaryOp :=
  if value = "==" then .eq
  else if value = "!=" then .ne
  else if value = "<" then .lt
  else if value = "<=" then .le
  else if value = ">" then .gt
  else .ge

/-- The token is this word. -/
def Token.isWord (token : Token) (word : String) : Bool :=
  token.kind = .ident && token.value = word

/-- The literal that a token stands for. -/
def literalOf (token : Token) : Option (Literal N) :=
  match token.kind with
  | .number => some (.num (doubles.parseFloat token.value))
  | .string => some (.str token.value)
  | .ident =>
    if token.value = "true" then some (.bool true)
    else if token.value = "false" then some (.bool false)
    else if token.value = "null" then some .null
    else none
  | _ => none

/-- `this.peek()?.pos`, as it is printed. -/
def peekPos (tokens : List Token) : String :=
  match tokens with
  | [] => "undefined"
  | token :: _ => toString token.pos

-- The first argument bounds the depth of the calls, which the tokens bound as well.
mutual

def parseOr : Nat → List Token → Except String (Expr N × List Token)
  | 0, _ => .error "too deep"
  | fuel + 1, tokens => do
      let (left, tokens) ← parseAnd fuel tokens
      parseOrs fuel left tokens

def parseOrs : Nat → Expr N → List Token → Except String (Expr N × List Token)
  | 0, _, _ => .error "too deep"
  | fuel + 1, left, token :: tokens =>
    if token.isWord "or" then do
      let (right, tokens) ← parseAnd fuel tokens
      parseOrs fuel (.binary .or left right) tokens
    else .ok (left, token :: tokens)
  | _ + 1, left, [] => .ok (left, [])

def parseAnd : Nat → List Token → Except String (Expr N × List Token)
  | 0, _ => .error "too deep"
  | fuel + 1, tokens => do
      let (left, tokens) ← parseNot fuel tokens
      parseAnds fuel left tokens

def parseAnds : Nat → Expr N → List Token → Except String (Expr N × List Token)
  | 0, _, _ => .error "too deep"
  | fuel + 1, left, token :: tokens =>
    if token.isWord "and" then do
      let (right, tokens) ← parseNot fuel tokens
      parseAnds fuel (.binary .and left right) tokens
    else .ok (left, token :: tokens)
  | _ + 1, left, [] => .ok (left, [])

def parseNot : Nat → List Token → Except String (Expr N × List Token)
  | 0, _ => .error "too deep"
  | fuel + 1, token :: tokens =>
    if token.isWord "not" then do
      let (operand, tokens) ← parseNot fuel tokens
      return (.not operand, tokens)
    else parseCmp fuel (token :: tokens)
  | fuel + 1, [] => parseCmp fuel []

def parseCmp : Nat → List Token → Except String (Expr N × List Token)
  | 0, _ => .error "too deep"
  | fuel + 1, tokens => do
      let (left, tokens) ← parsePrimary fuel tokens
      match tokens with
      | [] => return (left, [])
      | token :: rest =>
        if token.kind = .op then do
          let (right, rest) ← parsePrimary fuel rest
          return (.binary (comparisonOp token.value) left right, rest)
        else if token.isWord "in" then do
          let (arr, rest) ← parseArray fuel rest
          return (.isIn left arr, rest)
        else return (left, token :: rest)

def parsePrimary : Nat → List Token → Except String (Expr N × List Token)
  | 0, _ => .error "too deep"
  | _ + 1, [] => .error "unexpected end of expression"
  | fuel + 1, token :: tokens =>
    if token.kind = .lparen then do
      let (inner, rest) ← parseOr fuel tokens
      match rest with
      | ⟨.rparen, _, _⟩ :: rest => return (inner, rest)
      | rest => throw s!"expected \")\" at position {peekPos rest}"
    else if token.kind = .jsonpath then .ok (.jsonpath token.value, tokens)
    else
      match literalOf doubles token with
      | some value => .ok (.literal value, tokens)
      | none => .error s!"unexpected token \"{token.value}\" at position {token.pos}"

def parseArray : Nat → List Token → Except String (List (Expr N) × List Token)
  | 0, _ => .error "too deep"
  | fuel + 1, ⟨.lbracket, _, _⟩ :: tokens =>
    match tokens with
    | ⟨.rbracket, _, _⟩ :: rest => .ok ([], rest)
    | tokens => do
        let (item, rest) ← parsePrimary fuel tokens
        let (items, rest) ← parseItems fuel rest
        return (item :: items, rest)
  | _ + 1, tokens => .error s!"expected \"[\" after \"in\" at position {peekPos tokens}"

def parseItems : Nat → List Token → Except String (List (Expr N) × List Token)
  | 0, _ => .error "too deep"
  | fuel + 1, ⟨.comma, _, _⟩ :: tokens => do
      let (item, rest) ← parsePrimary fuel tokens
      let (items, rest) ← parseItems fuel rest
      return (item :: items, rest)
  | _ + 1, ⟨.rbracket, _, _⟩ :: rest => .ok ([], rest)
  | _ + 1, tokens => .error s!"expected \"]\" at position {peekPos tokens}"

end

structure FilterExpressionError where
  expr : String
  reason : String

def parseFilterExpression (expr : String) : Except FilterExpressionError (Expr N) :=
  match tokenize expr with
  | .error reason => .error ⟨expr, reason⟩
  | .ok [] => .error ⟨expr, "empty expression"⟩
  | .ok tokens =>
    match parseOr doubles (8 * tokens.length) tokens with
    | .error reason => .error ⟨expr, reason⟩
    | .ok (tree, []) => .ok tree
    | .ok (_, token :: _) => .error ⟨expr, s!"unexpected trailing token \"{token.value}\""⟩

end

/-! ### Evaluation -/

section
variable {N O : Type} [DecidableEq O] (doubles : Doubles N) (objects : Objects N O)

/-- `===`. -/
def strictEquals : Value N O → Value N O → Bool
  | .undefined, .undefined => true
  | .null, .null => true
  | .bool a, .bool b => a = b
  | .num a, .num b => doubles.same a b
  | .str a, .str b => a = b
  | .object a, .object b => a = b
  | .function a, .function b => a = b
  | _, _ => false

/-- Strict equality, and numbers with the texts of numbers. -/
def looseEquals (a b : Value N O) : Bool :=
  if strictEquals doubles a b then true
  else
    match a, b with
    | .num a, .num b => doubles.same a b
    | .num a, .str b => doubles.same a (doubles.parseFloat b)
    | .str a, .num b => doubles.same b (doubles.parseFloat a)
    | _, _ => false

/-- The sign of `cmp`, which is none where it is no number. -/
def cmp : Value N O → Value N O → Option Ordering
  | .num a, .num b => doubles.diff a b
  | .str a, .str b =>
    some (if utf16 a < utf16 b then .lt else if utf16 b < utf16 a then .gt else .eq)
  | _, _ => none

/-- `!!value`. -/
def truthy : Value N O → Bool
  | .undefined | .null => false
  | .bool b => b
  | .num n => !doubles.falsy n
  | .str s => s ≠ ""
  | .object _ | .function _ => true

/-- A comparison of two values. -/
def compareValues (op : BinaryOp) (left right : Value N O) : Bool :=
  match op with
  | .eq => looseEquals doubles left right
  | .ne => !looseEquals doubles left right
  | .lt => cmp doubles left right = some .lt
  | .le => cmp doubles left right = some .lt || cmp doubles left right = some .eq
  | .gt => cmp doubles left right = some .gt
  | .ge => cmp doubles left right = some .gt || cmp doubles left right = some .eq
  | .and | .or => false

def Literal.toValue : Literal N → Value N O
  | .num n => .num n
  | .str s => .str s
  | .bool b => .bool b
  | .null => .null

mutual

def evaluate (context : Value N O) : Expr N → Except String (Value N O)
  | .literal value => .ok value.toValue
  | .jsonpath path => objects.resolveJsonPath context path
  | .not operand => do
      let value ← evaluate context operand
      return .bool (!truthy doubles value)
  | .binary .and left right => do
      let left ← evaluate context left
      if truthy doubles left then
        let right ← evaluate context right
        return .bool (truthy doubles right)
      else return .bool false
  | .binary .or left right => do
      let left ← evaluate context left
      if truthy doubles left then return .bool true
      else
        let right ← evaluate context right
        return .bool (truthy doubles right)
  | .binary op left right => do
      let left ← evaluate context left
      let right ← evaluate context right
      return .bool (compareValues doubles op left right)
  | .isIn value arr => do
      let value ← evaluate context value
      return .bool (← evaluateIn context value arr)

/-- One of the items equals the value. -/
def evaluateIn (context value : Value N O) : List (Expr N) → Except String Bool
  | [] => .ok false
  | item :: items => do
      let found ← evaluate context item
      if looseEquals doubles value found then return true
      else evaluateIn context value items

end

def evaluateFilter (expr : String) (context : Value N O) :
    Except (FilterExpressionError ⊕ String) Bool :=
  match parseFilterExpression doubles expr with
  | .error err => .error (.inl err)
  | .ok tree =>
    match evaluate doubles objects context tree with
    | .error err => .error (.inr err)
    | .ok value => .ok (truthy doubles value)

/-! ### Paths that find nothing -/

def Value.isUndefined : Value N O → Bool
  | .undefined => true
  | _ => false

def Expr.isNull : Expr N → Bool
  | .literal .null => true
  | _ => false

/-- The documented value of a comparison of a path that finds nothing with another operand. -/
def documentedValue (op : BinaryOp) (other : Expr N) : Bool := op = .eq && other.isNull

/-- A comparison, as it is documented. -/
def documentedCompare (op : BinaryOp) (left right : Expr N) (leftValue rightValue : Value N O) :
    Bool :=
  if leftValue.isUndefined then documentedValue op right
  else if rightValue.isUndefined then documentedValue op left
  else compareValues doubles op leftValue rightValue

mutual

/-- `evaluate`, with the documented comparisons. -/
def documented (context : Value N O) : Expr N → Except String (Value N O)
  | .literal value => .ok value.toValue
  | .jsonpath path => objects.resolveJsonPath context path
  | .not operand => do
      let value ← documented context operand
      return .bool (!truthy doubles value)
  | .binary .and left right => do
      let left ← documented context left
      if truthy doubles left then
        let right ← documented context right
        return .bool (truthy doubles right)
      else return .bool false
  | .binary .or left right => do
      let left ← documented context left
      if truthy doubles left then return .bool true
      else
        let right ← documented context right
        return .bool (truthy doubles right)
  | .binary op left right => do
      let leftValue ← documented context left
      let rightValue ← documented context right
      return .bool (documentedCompare doubles op left right leftValue rightValue)
  | .isIn value arr => do
      let value ← documented context value
      return .bool (← documentedIn context value arr)

def documentedIn (context value : Value N O) : List (Expr N) → Except String Bool
  | [] => .ok false
  | item :: items => do
      let found ← documented context item
      if looseEquals doubles value found && !value.isUndefined then return true
      else documentedIn context value items

end

mutual

/-- The comparisons in an expression. -/
def comparisons : Expr N → List (Expr N)
  | .literal _ | .jsonpath _ => []
  | .not operand => comparisons operand
  | .binary op left right =>
    (match op with
      | .and | .or => []
      | op => [.binary op left right]) ++ (comparisons left ++ comparisons right)
  | .isIn value arr => .isIn value arr :: (comparisons value ++ comparisonsIn arr)

def comparisonsIn : List (Expr N) → List (Expr N)
  | [] => []
  | item :: items => comparisons item ++ comparisonsIn items

end

variable (context : Value N O)

/-- The expression is a path that finds nothing. -/
def Missing (e : Expr N) : Prop :=
  ∃ path, e = .jsonpath path ∧ objects.resolveJsonPath context path = .ok .undefined

/-- Where the comparison has a value, and a path that finds nothing, that value is the documented
one. -/
def Documented (c : Expr N) : Prop :=
  ∀ value, evaluate doubles objects context c = .ok value →
    match c with
    | .binary op left right =>
      (Missing objects context left → value = .bool (documentedValue op right)) ∧
        (Missing objects context right → value = .bool (documentedValue op left))
    | .isIn operand _ => Missing objects context operand → value = .bool false
    | _ => True

/-- Where the comparison has a value, and a path that finds nothing: equality is not with `null` and
not with another such path, inequality is with another such path, and no such path is in a list. -/
def Settled (c : Expr N) : Prop :=
  (∃ value, evaluate doubles objects context c = .ok value) →
    match c with
    | .binary op left right => Missing objects context left ∨ Missing objects context right →
        match op with
        | .eq => left.isNull = false ∧ right.isNull = false ∧
            ¬ (Missing objects context left ∧ Missing objects context right)
        | .ne => Missing objects context left ∧ Missing objects context right
        | _ => True
    | .isIn operand arr => Missing objects context operand →
        ∀ item ∈ arr, ¬ Missing objects context item
    | _ => True

variable {doubles objects context}

/-- The operator compares values. -/
def BinaryOp.compares : BinaryOp → Bool
  | .and | .or => false
  | .eq | .ne | .lt | .le | .gt | .ge => true

/-- What stands among the comparisons is one. -/
inductive IsComparison : Expr N → Prop where
  | binary {op : BinaryOp} (hop : op.compares = true) (left right : Expr N) :
      IsComparison (.binary op left right)
  | isIn (operand : Expr N) (arr : List (Expr N)) : IsComparison (.isIn operand arr)

theorem evaluate_compare {op : BinaryOp} (hop : op.compares = true) (left right : Expr N) :
    evaluate doubles objects context (.binary op left right) =
      (evaluate doubles objects context left).bind fun leftValue =>
        (evaluate doubles objects context right).bind fun rightValue =>
          .ok (.bool (compareValues doubles op leftValue rightValue)) := by
  cases op <;> first | rfl | cases hop

theorem documented_compare {op : BinaryOp} (hop : op.compares = true) (left right : Expr N) :
    documented doubles objects context (.binary op left right) =
      (documented doubles objects context left).bind fun leftValue =>
        (documented doubles objects context right).bind fun rightValue =>
          .ok (.bool (documentedCompare doubles op left right leftValue rightValue)) := by
  cases op <;> first | rfl | cases hop

/-- Whatever is no literal and no path is true or false. -/
theorem evaluate_bool {e : Expr N} (hliteral : ∀ value, e ≠ .literal value)
    (hpath : ∀ path, e ≠ .jsonpath path) {v : Value N O}
    (h : evaluate doubles objects context e = .ok v) : ∃ b, v = .bool b := by
  cases e with
  | literal value => exact absurd rfl (hliteral value)
  | jsonpath path => exact absurd rfl (hpath path)
  | not operand =>
    rw [evaluate] at h
    cases hoperand : evaluate doubles objects context operand with
    | error err => rw [hoperand] at h; cases h
    | ok value => rw [hoperand] at h; cases h; exact ⟨_, rfl⟩
  | binary op left right =>
    by_cases hop : op.compares = true
    · rw [evaluate_compare hop] at h
      cases hleft : evaluate doubles objects context left with
      | error err => rw [hleft] at h; cases h
      | ok leftValue =>
        cases hright : evaluate doubles objects context right with
        | error err => rw [hleft, hright] at h; cases h
        | ok rightValue => rw [hleft, hright] at h; cases h; exact ⟨_, rfl⟩
    · cases hleft : evaluate doubles objects context left with
      | error err => cases op <;> first | exact absurd rfl hop | (rw [evaluate, hleft] at h; cases h)
      | ok leftValue =>
        have hlogic : (∃ b, evaluate doubles objects context (.binary op left right) =
            .ok (.bool b)) ∨ evaluate doubles objects context (.binary op left right) =
              (evaluate doubles objects context right).bind fun rightValue =>
                .ok (.bool (truthy doubles rightValue)) := by
          cases htruthy : truthy doubles leftValue <;> cases op <;>
            first | exact absurd rfl hop | simp [evaluate, hleft, htruthy, bind, Except.bind, pure, Except.pure]
        rcases hlogic with ⟨b, hb⟩ | hright
        · rw [hb] at h
          cases h
          exact ⟨b, rfl⟩
        · rw [hright] at h
          cases hvalue : evaluate doubles objects context right with
          | error err => rw [hvalue] at h; cases h
          | ok rightValue => rw [hvalue] at h; cases h; exact ⟨_, rfl⟩
  | isIn value arr =>
    rw [evaluate] at h
    cases hvalue : evaluate doubles objects context value with
    | error err => rw [hvalue] at h; cases h
    | ok v' =>
      cases hin : evaluateIn doubles objects context v' arr with
      | error err => rw [hvalue] at h; simp only [bind, Except.bind, hin] at h; cases h
      | ok b =>
        rw [hvalue] at h
        simp only [bind, Except.bind, hin] at h
        cases h
        exact ⟨_, rfl⟩

/-- Only a path that finds nothing is undefined. -/
theorem evaluate_undefined_iff {e : Expr N} :
    evaluate doubles objects context e = .ok .undefined ↔ Missing objects context e := by
  by_cases hpath : ∃ path, e = .jsonpath path
  · obtain ⟨path, rfl⟩ := hpath
    simp [evaluate, Missing]
  · have hmissing : ¬ Missing objects context e := fun ⟨path, he, _⟩ => hpath ⟨path, he⟩
    refine iff_of_false (fun h => ?_) hmissing
    by_cases hliteral : ∃ value, e = .literal value
    · obtain ⟨value, rfl⟩ := hliteral
      cases value <;> simp [evaluate, Literal.toValue] at h
    · obtain ⟨b, hb⟩ := evaluate_bool (fun value he => hliteral ⟨value, he⟩)
        (fun path he => hpath ⟨path, he⟩) h
      cases hb

theorem compare_undefined_left (op : BinaryOp) (v : Value N O) :
    compareValues doubles op .undefined v = match op with
      | .eq => v.isUndefined
      | .ne => !v.isUndefined
      | _ => false := by
  cases op <;> cases v <;> rfl

theorem compare_undefined_right (op : BinaryOp) (v : Value N O) :
    compareValues doubles op v .undefined = match op with
      | .eq => v.isUndefined
      | .ne => !v.isUndefined
      | _ => false := by
  cases op <;> cases v <;> rfl

theorem missing_iff {e : Expr N} {v : Value N O} (h : evaluate doubles objects context e = .ok v) :
    Missing objects context e ↔ v.isUndefined = true := by
  have hundefined : evaluate doubles objects context e = .ok .undefined ↔
      Missing objects context e := evaluate_undefined_iff
  rw [← hundefined, h]
  cases v <;> simp [Value.isUndefined]

/-- An operand that is `null` finds something. -/
theorem not_undefined_of_isNull {e : Expr N} {v : Value N O}
    (h : evaluate doubles objects context e = .ok v) (hnull : e.isNull = true) :
    v.isUndefined = false := by
  cases e with
  | literal value =>
    cases value with
    | null => cases h; rfl
    | num n => cases hnull
    | str s => cases hnull
    | bool b => cases hnull
  | jsonpath path => cases hnull
  | not operand => cases hnull
  | binary op left right => cases hnull
  | isIn value arr => cases hnull

/-- The truth table: which operands find nothing, and which are `null`. -/
theorem settled_table (op : BinaryOp) (leftMissing rightMissing leftNull rightNull : Bool)
    (hleft : leftNull = true → leftMissing = false)
    (hright : rightNull = true → rightMissing = false) :
    ((leftMissing = true → (match op with
          | .eq => rightMissing
          | .ne => !rightMissing
          | _ => false) = (decide (op = .eq) && rightNull)) ∧
        (rightMissing = true → (match op with
          | .eq => leftMissing
          | .ne => !leftMissing
          | _ => false) = (decide (op = .eq) && leftNull))) ↔
      (leftMissing = true ∨ rightMissing = true → match op with
        | .eq => leftNull = false ∧ rightNull = false ∧
            ¬ (leftMissing = true ∧ rightMissing = true)
        | .ne => leftMissing = true ∧ rightMissing = true
        | _ => True) := by
  cases op <;> cases leftMissing <;> cases rightMissing <;> cases leftNull <;> cases rightNull <;>
    simp at hleft hright ⊢

/-- A comparison of two values is as documented exactly where it is settled. -/
theorem compare_documented_iff (op : BinaryOp) {left right : Expr N} {l r : Value N O}
    (hl : evaluate doubles objects context left = .ok l)
    (hr : evaluate doubles objects context right = .ok r) :
    ((Missing objects context left → compareValues doubles op l r = documentedValue op right) ∧
        (Missing objects context right → compareValues doubles op l r = documentedValue op left)) ↔
      (Missing objects context left ∨ Missing objects context right →
        match op with
        | .eq => left.isNull = false ∧ right.isNull = false ∧
            ¬ (Missing objects context left ∧ Missing objects context right)
        | .ne => Missing objects context left ∧ Missing objects context right
        | _ => True) := by
  have htable := settled_table op l.isUndefined r.isUndefined left.isNull right.isNull
    (not_undefined_of_isNull hl) (not_undefined_of_isNull hr)
  rw [missing_iff hl, missing_iff hr, ← htable]
  have hundefined : ∀ v : Value N O, v.isUndefined = true → v = .undefined := by
    intro v hv
    cases v <;> first | rfl | cases hv
  refine and_congr (imp_congr_right fun h => ?_) (imp_congr_right fun h => ?_)
  · rw [hundefined l h, compare_undefined_left]
    rfl
  · rw [hundefined r h, compare_undefined_right]
    rfl

/-- Where it is settled, a comparison gives its documented value. -/
theorem compare_of_settled {op : BinaryOp} {left right : Expr N} {l r : Value N O}
    (hl : evaluate doubles objects context left = .ok l)
    (hr : evaluate doubles objects context right = .ok r)
    (hsettled : Missing objects context left ∨ Missing objects context right →
      match op with
      | .eq => left.isNull = false ∧ right.isNull = false ∧
          ¬ (Missing objects context left ∧ Missing objects context right)
      | .ne => Missing objects context left ∧ Missing objects context right
      | _ => True) :
    compareValues doubles op l r = documentedCompare doubles op left right l r := by
  obtain ⟨hleft, hright⟩ := (compare_documented_iff op hl hr).mpr hsettled
  unfold documentedCompare
  split
  · rename_i hmissing
    exact hleft ((missing_iff hl).mpr hmissing)
  · split
    · rename_i hmissing
      exact hright ((missing_iff hr).mpr hmissing)
    · rfl

theorem evaluateIn_cons (v : Value N O) (item : Expr N) (items : List (Expr N)) :
    evaluateIn doubles objects context v (item :: items) =
      (evaluate doubles objects context item).bind fun found =>
        if looseEquals doubles v found then .ok true
        else evaluateIn doubles objects context v items := rfl

theorem documentedIn_cons (v : Value N O) (item : Expr N) (items : List (Expr N)) :
    documentedIn doubles objects context v (item :: items) =
      (documented doubles objects context item).bind fun found =>
        if looseEquals doubles v found && !v.isUndefined then .ok true
        else documentedIn doubles objects context v items := rfl

theorem evaluate_isIn (operand : Expr N) (arr : List (Expr N)) :
    evaluate doubles objects context (.isIn operand arr) =
      (evaluate doubles objects context operand).bind fun v =>
        (evaluateIn doubles objects context v arr).bind fun b => .ok (.bool b) := rfl

theorem documented_isIn (operand : Expr N) (arr : List (Expr N)) :
    documented doubles objects context (.isIn operand arr) =
      (documented doubles objects context operand).bind fun v =>
        (documentedIn doubles objects context v arr).bind fun b => .ok (.bool b) := rfl

theorem looseEquals_undefined (v : Value N O) :
    looseEquals doubles .undefined v = v.isUndefined := by
  cases v <;> rfl

/-- What is undefined is in a list exactly where a path of the list finds nothing. -/
theorem evaluateIn_undefined {arr : List (Expr N)} {b : Bool}
    (h : evaluateIn doubles objects context .undefined arr = .ok b) :
    b = true ↔ ∃ item ∈ arr, Missing objects context item := by
  induction arr with
  | nil =>
    cases h
    simp
  | cons item items ih =>
    rw [evaluateIn_cons] at h
    cases hitem : evaluate doubles objects context item with
    | error err => rw [hitem] at h; cases h
    | ok found =>
      rw [hitem] at h
      simp only [Except.bind, looseEquals_undefined] at h
      rw [List.exists_mem_cons_iff, missing_iff hitem]
      split at h
      · rename_i hfound
        cases h
        exact iff_of_true rfl (.inl hfound)
      · rename_i hfound
        rw [ih h]
        exact (or_iff_right hfound).symm

theorem in_documented_iff {operand : Expr N} {arr : List (Expr N)} {v : Value N O} {b : Bool}
    (hv : evaluate doubles objects context operand = .ok v)
    (hb : evaluateIn doubles objects context v arr = .ok b) :
    (Missing objects context operand → b = false) ↔
      (Missing objects context operand → ∀ item ∈ arr, ¬ Missing objects context item) := by
  refine imp_congr_right fun hmissing => ?_
  have hundefined : evaluate doubles objects context operand = .ok .undefined :=
    evaluate_undefined_iff.mpr hmissing
  rw [hv] at hundefined
  cases hundefined
  have hin := evaluateIn_undefined hb
  cases b with
  | true => simpa using hin.mp rfl
  | false => simpa using hin.not.mp (by decide)

theorem comparisons_binary (op : BinaryOp) (left right : Expr N) :
    comparisons (.binary op left right) =
      (if op.compares then [.binary op left right] else []) ++
        (comparisons left ++ comparisons right) := by
  cases op <;> rfl

mutual

theorem isComparison_of_mem {c : Expr N} : ∀ e : Expr N, c ∈ comparisons e → IsComparison c
  | .literal _, h => by cases h
  | .jsonpath _, h => by cases h
  | .not operand, h => isComparison_of_mem operand h
  | .binary op left right, h => by
      rw [comparisons_binary] at h
      rcases List.mem_append.mp h with h | h
      · split at h
        · rename_i hop
          rw [List.mem_singleton.mp h]
          exact .binary hop left right
        · cases h
      · rcases List.mem_append.mp h with h | h
        · exact isComparison_of_mem left h
        · exact isComparison_of_mem right h
  | .isIn operand arr, h => by
      rw [comparisons] at h
      rcases List.mem_cons.mp h with rfl | h
      · exact .isIn operand arr
      · rcases List.mem_append.mp h with h | h
        · exact isComparison_of_mem operand h
        · exact isComparison_of_memIn arr h

theorem isComparison_of_memIn {c : Expr N} :
    ∀ items : List (Expr N), c ∈ comparisonsIn items → IsComparison c
  | [], h => by cases h
  | item :: items, h => by
      rw [comparisonsIn] at h
      rcases List.mem_append.mp h with h | h
      · exact isComparison_of_mem item h
      · exact isComparison_of_memIn items h

end

/-- A comparison is as documented exactly where it is settled. -/
theorem documented_iff_settled {c : Expr N} (hc : IsComparison c) :
    Documented doubles objects context c ↔ Settled doubles objects context c := by
  unfold Documented Settled
  cases hc with
  | @binary op hop left right =>
    rw [evaluate_compare hop]
    cases hl : evaluate doubles objects context left with
    | error err => simp [Except.bind]
    | ok l =>
      cases hr : evaluate doubles objects context right with
      | error err => simp [Except.bind]
      | ok r => simpa [Except.bind] using compare_documented_iff op hl hr
  | isIn operand arr =>
    rw [evaluate_isIn]
    cases hv : evaluate doubles objects context operand with
    | error err => simp [Except.bind]
    | ok v =>
      cases hb : evaluateIn doubles objects context v arr with
      | error err => simp [Except.bind, hb]
      | ok b => simpa [Except.bind, hb] using in_documented_iff hv hb

/-! ### Expressions as they are documented -/

mutual

/-- Where the comparisons are settled, the expression has its documented value. -/
theorem evaluate_eq_documented : ∀ e : Expr N,
    (∀ c ∈ comparisons e, Settled doubles objects context c) →
      evaluate doubles objects context e = documented doubles objects context e
  | .literal _, _ => rfl
  | .jsonpath _, _ => rfl
  | .not operand, h => by
      rw [evaluate, documented, evaluate_eq_documented operand h]
  | .binary op left right, h => by
      rw [comparisons_binary] at h
      have hleft := evaluate_eq_documented left fun c hc =>
        h c (List.mem_append_right _ (List.mem_append_left _ hc))
      have hright := evaluate_eq_documented right fun c hc =>
        h c (List.mem_append_right _ (List.mem_append_right _ hc))
      by_cases hop : op.compares = true
      · rw [if_pos hop] at h
        have hsettled := h _ (List.mem_append_left _ List.mem_cons_self)
        rw [evaluate_compare hop, documented_compare hop, ← hleft, ← hright]
        cases hl : evaluate doubles objects context left with
        | error err => rfl
        | ok l =>
          cases hr : evaluate doubles objects context right with
          | error err => rfl
          | ok r =>
            have hvalue : evaluate doubles objects context (.binary op left right) =
                .ok (.bool (compareValues doubles op l r)) := by
              rw [evaluate_compare hop, hl, hr]
              rfl
            simp only [Except.bind, compare_of_settled hl hr (hsettled ⟨_, hvalue⟩)]
      · cases op <;> first | exact absurd rfl hop | rw [evaluate, documented, hleft, hright]
  | .isIn operand arr, h => by
      rw [comparisons] at h
      have hoperand := evaluate_eq_documented operand fun c hc =>
        h c (List.mem_cons_of_mem _ (List.mem_append_left _ hc))
      rw [evaluate_isIn, documented_isIn, ← hoperand]
      cases hv : evaluate doubles objects context operand with
      | error err => rfl
      | ok v =>
        have hnone : v.isUndefined = true → evaluateIn doubles objects context v arr ≠ .ok true := by
          intro hundefined htrue
          have hvalue : evaluate doubles objects context (.isIn operand arr) =
              .ok (.bool true) := by
            rw [evaluate_isIn, hv]
            simp only [Except.bind, htrue]
          have hsettled := h _ List.mem_cons_self ⟨_, hvalue⟩
          have hfalse := (in_documented_iff hv htrue).mpr hsettled ((missing_iff hv).mpr hundefined)
          cases hfalse
        have hitems := evaluateIn_eq_documentedIn v arr (fun c hc =>
          h c (List.mem_cons_of_mem _ (List.mem_append_right _ hc))) hnone
        simp only [Except.bind, hitems]

/-- The same for the items of a list, where what is undefined is not found among them. -/
theorem evaluateIn_eq_documentedIn (v : Value N O) : ∀ items : List (Expr N),
    (∀ c ∈ comparisonsIn items, Settled doubles objects context c) →
      (v.isUndefined = true → evaluateIn doubles objects context v items ≠ .ok true) →
        evaluateIn doubles objects context v items = documentedIn doubles objects context v items
  | [], _, _ => by rw [evaluateIn, documentedIn]
  | item :: items, h, hnone => by
      rw [comparisonsIn] at h
      have hitem := evaluate_eq_documented item fun c hc => h c (List.mem_append_left _ hc)
      rw [evaluateIn_cons] at hnone ⊢
      rw [documentedIn_cons, ← hitem]
      cases hfound : evaluate doubles objects context item with
      | error err => rfl
      | ok found =>
        rw [hfound] at hnone
        simp only [Except.bind] at hnone ⊢
        cases hequal : looseEquals doubles v found with
        | true =>
          rw [hequal, if_pos rfl] at hnone
          cases hv : v.isUndefined with
          | true => exact absurd rfl (hnone hv)
          | false => rfl
        | false =>
          rw [hequal] at hnone
          exact evaluateIn_eq_documentedIn v items
            (fun c hc => h c (List.mem_append_right _ hc)) hnone

end

/-- **Comparisons with a path that finds nothing** have their documented values exactly where they
are settled; and then so has every expression that they are in. -/
theorem comparisons_documented_iff (doubles : Doubles N) (objects : Objects N O)
    (context : Value N O) (e : Expr N) :
    ((∀ c ∈ comparisons e, Documented doubles objects context c) ↔
        ∀ c ∈ comparisons e, Settled doubles objects context c) ∧
      ((∀ c ∈ comparisons e, Settled doubles objects context c) →
        evaluate doubles objects context e = documented doubles objects context e) := by
  refine ⟨forall₂_congr fun c hc => documented_iff_settled (isComparison_of_mem e hc), ?_⟩
  exact evaluate_eq_documented e

end

/-- The integers among the doubles. -/
def intDoubles : Doubles Int where
  parseFloat text := text.toInt?.getD 0
  same a b := a = b
  diff a b := some (compare a b)
  falsy a := a = 0

/-- There is nothing in an object. -/
def emptyObjects : Objects Int Unit where
  isArray _ := false
  get _ _ := .undefined

/-- The expression compares this path for equality with `null`. -/
def Expr.testsNull (path : String) : Expr N → Bool
  | .binary .eq (.jsonpath p) (.literal .null) => p = path
  | _ => false

/-- **A path that finds nothing is not equal to `null`**, although it is documented to be. -/
theorem missing_is_not_null :
    ¬ ∀ (doubles : Doubles Int) (objects : Objects Int Unit) (context : Value Int Unit)
      (text : String) (tree : Expr Int), parseFilterExpression doubles text = .ok tree →
        ∀ c ∈ comparisons tree, Documented doubles objects context c := by
  intro h
  have hparse : (parseFilterExpression intDoubles "$.missing == null").toOption.any
      (Expr.testsNull "$.missing") = true := by decide +kernel
  have hresolve : (emptyObjects.resolveJsonPath (.object ()) "$.missing").toOption =
      some .undefined := by decide +kernel
  cases htree : parseFilterExpression intDoubles "$.missing == null" with
  | error err => rw [htree] at hparse; cases hparse
  | ok tree =>
    rw [htree] at hparse
    cases hpath : emptyObjects.resolveJsonPath (.object ()) "$.missing" with
    | error err => rw [hpath] at hresolve; cases hresolve
    | ok found =>
      rw [hpath] at hresolve
      obtain rfl : found = .undefined := Option.some.inj hresolve
      obtain rfl : tree = .binary .eq (.jsonpath "$.missing") (.literal .null) := by
        change Expr.testsNull "$.missing" tree = true at hparse
        unfold Expr.testsNull at hparse
        split at hparse
        · rw [of_decide_eq_true hparse]
        · cases hparse
      have hvalue : evaluate intDoubles emptyObjects (.object ())
          (.binary .eq (.jsonpath "$.missing") (.literal .null)) = .ok (.bool false) := by
        rw [evaluate_compare rfl, evaluate, evaluate, hpath]
        rfl
      have htrue := (h intDoubles emptyObjects (.object ()) _ _ htree _ List.mem_cons_self
        (.bool false) hvalue).1 ⟨_, rfl, hpath⟩
      cases htrue

end Declaragent.Events
