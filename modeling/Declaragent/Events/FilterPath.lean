import Declaragent.Events.FilterExpr

/-!
# Events — paths in filter expressions

The tokenizer finds the end of a path by counting brackets.  It does not know of quotes, so the
brackets in a quoted key are counted like the others.

* `path_filter_iff`: a path that is accepted as a path is the path of the comparison it stands in
  exactly where the count delimits it.
* `bracket_in_key`: the path `$["a]b"]` is accepted, and a comparison with it is not.
-/

namespace Declaragent.Events
open JsonText

/-! ### What the tokens of a text are -/

/-- What the parser looks at in a token, where it throws nothing. -/
def Token.shape (token : Token) : TokenKind × String := (token.kind, token.value)

/-- The tokens of the text, wherever it stands. -/
def Reads (text : List Char) (shapes : List (TokenKind × String)) : Prop :=
  ∀ fuel pos, text.length ≤ fuel →
    ∃ tokens, tokenizeFrom fuel pos text = .ok tokens ∧ tokens.map Token.shape = shapes

theorem reads_nil : Reads [] [] := fun fuel pos _ => ⟨[], by cases fuel <;> rfl, rfl⟩

/-- One turn, and then the tokens of what it leaves. -/
theorem reads_cons {c : Char} {text rest : List Char} (shape : Option (TokenKind × String))
    {shapes : List (TokenKind × String)} (hlength : rest.length ≤ text.length)
    (hturn : ∀ pos, ∃ token, nextToken pos c text = .ok (token, rest) ∧
      token.map Token.shape = shape)
    (hrest : Reads rest shapes) : Reads (c :: text) (shape.toList ++ shapes) := by
  intro fuel pos hfuel
  cases fuel with
  | zero => cases hfuel
  | succ fuel =>
    obtain ⟨token, hnext, rfl⟩ := hturn pos
    have hle : rest.length ≤ fuel := hlength.trans (Nat.le_of_succ_le_succ hfuel)
    obtain ⟨tokens, htokens, rfl⟩ := hrest fuel
      (pos + (utf16Length (c :: text) - utf16Length rest)) hle
    refine ⟨token.toList ++ tokens, ?_, ?_⟩
    · rw [tokenizeFrom, hnext]
      simp only [htokens]
    · cases token <;> rfl

theorem scanPath_append (depth : Nat) (text : List Char) :
    (scanPath depth text).1 ++ (scanPath depth text).2 = text := by
  induction text generalizing depth with
  | nil => rfl
  | cons c text ih =>
    rw [scanPath]
    by_cases hend : depth = 0 ∧ endsPath c = true
    · rw [if_pos hend]
      rfl
    · rw [if_neg hend]
      exact congrArg (c :: ·) (ih _)

theorem readQuoted_length {quote : Char} {escaped : Bool} {text : List Char}
    {r : List Char × List Char} (h : readQuoted quote escaped text = some r) :
    r.2.length ≤ text.length := by
  induction text generalizing escaped r with
  | nil => cases escaped <;> cases h
  | cons c text ih =>
    have hkeep : ∀ {r : List Char × List Char} {escaped : Bool},
        ((readQuoted quote escaped text).map fun r => (c :: r.1, r.2)) = some r →
          r.2.length ≤ (c :: text).length := by
      intro r escaped hmap
      obtain ⟨r', hr', rfl⟩ := Option.map_eq_some_iff.mp hmap
      exact (ih hr').trans (Nat.le_succ _)
    cases escaped with
    | true => rw [readQuoted] at h; exact hkeep h
    | false =>
      rw [readQuoted] at h
      split at h
      · cases h; exact Nat.le_succ _
      · split at h
        · exact (ih h).trans (Nat.le_succ _)
        · exact hkeep h

/-- A turn that goes on in the text, with a token that is the same wherever the text stands. -/
def Uniform (text : List Char) (turn : Nat → Except String (Option Token × List Char)) : Prop :=
  ∀ pos token rest, turn pos = .ok (token, rest) → rest.length ≤ text.length ∧
    ∀ pos', ∃ token', turn pos' = .ok (token', rest) ∧
      token'.map Token.shape = token.map Token.shape

namespace Uniform
variable {text : List Char}

theorem error (reason : Nat → String) : Uniform text fun pos => .error (reason pos) := by
  intro pos token rest h
  cases h

theorem none {rest : List Char} (hlength : rest.length ≤ text.length) :
    Uniform text fun _ => .ok (none, rest) := by
  intro pos token rest h
  cases h
  exact ⟨hlength, fun _ => ⟨_, rfl, rfl⟩⟩

theorem some {rest : List Char} (kind : TokenKind) (value : String)
    (hlength : rest.length ≤ text.length) :
    Uniform text fun pos => .ok (some ⟨kind, value, pos⟩, rest) := by
  intro pos token rest h
  cases h
  exact ⟨hlength, fun _ => ⟨_, rfl, rfl⟩⟩

theorem ite {p : Prop} [Decidable p] {turn turn' : Nat → Except String (Option Token × List Char)}
    (h : Uniform text turn) (h' : Uniform text turn') :
    Uniform text fun pos => if p then turn pos else turn' pos := by
  by_cases hp : p
  · simpa only [if_pos hp] using h
  · simpa only [if_neg hp] using h'

end Uniform

theorem nextToken_uniform (c : Char) (text : List Char) : Uniform text fun pos =>
    nextToken pos c text := by
  have hdrop : ∀ p : Char → Bool, (text.dropWhile p).length ≤ text.length := fun p =>
    (List.dropWhile_suffix p).length_le
  have hscan : (scanPath 0 text).2.length ≤ text.length := by
    conv_rhs => rw [← scanPath_append 0 text, List.length_append]
    exact Nat.le_add_left _ _
  have htail : text.tail.length ≤ text.length := by
    rw [List.length_tail]
    exact Nat.sub_le _ _
  unfold nextToken
  refine .ite (.none le_rfl) (.ite (.some _ _ hscan) ?_)
  refine .ite (.some _ _ le_rfl) (.ite (.some _ _ le_rfl) (.ite (.some _ _ le_rfl) ?_))
  refine .ite (.some _ _ le_rfl) (.ite (.some _ _ le_rfl) (.ite ?_ ?_))
  · cases hread : readQuoted c false text with
    | none => exact .error _
    | some r => exact .some _ _ (readQuoted_length hread)
  · refine .ite (.some _ _ (hdrop _)) (.ite ?_ (.ite (.some _ _ (hdrop _)) (.error _)))
    exact .ite (.some _ _ htail) (.ite (.some _ _ le_rfl) (.error _))

/-- Where a text is cut into tokens once, it is cut into the same ones everywhere. -/
theorem reads_of_tokenizeFrom {fuel pos : Nat} {text : List Char} {tokens : List Token}
    (hfuel : text.length ≤ fuel) (h : tokenizeFrom fuel pos text = .ok tokens) :
    Reads text (tokens.map Token.shape) := by
  induction fuel generalizing pos text tokens with
  | zero =>
    obtain rfl := List.eq_nil_of_length_eq_zero (Nat.le_zero.mp hfuel)
    cases h
    exact reads_nil
  | succ fuel ih =>
    cases text with
    | nil => cases h; exact reads_nil
    | cons c text =>
      rw [tokenizeFrom] at h
      cases hnext : nextToken pos c text with
      | error reason => simp only [hnext] at h; cases h
      | ok turn =>
        obtain ⟨token, rest⟩ := turn
        obtain ⟨hlength, hturn⟩ := nextToken_uniform c text pos token rest hnext
        simp only [hnext] at h
        cases hrest : tokenizeFrom fuel
            (pos + (utf16Length (c :: text) - utf16Length rest)) rest with
        | error reason => simp only [hrest] at h; cases h
        | ok tokens' =>
          simp only [hrest] at h
          obtain rfl := Except.ok.inj h
          have hread := ih (hlength.trans (Nat.le_of_succ_le_succ hfuel)) hrest
          rw [List.map_append]
          have htokens := reads_cons _ hlength hturn hread
          cases token <;> exact htokens

theorem reads_white {gap text : List Char} {shapes : List (TokenKind × String)}
    (hgap : ∀ c ∈ gap, Numeral.isWhite c = true) (h : Reads text shapes) :
    Reads (gap ++ text) shapes := by
  induction gap with
  | nil => exact h
  | cons c gap ih =>
    have hwhite := hgap c List.mem_cons_self
    refine reads_cons none le_rfl (fun pos => ⟨none, ?_, rfl⟩)
      (ih fun c hc => hgap c (List.mem_cons_of_mem _ hc))
    unfold nextToken
    exact if_pos hwhite

theorem nextToken_path (pos : Nat) (text : List Char) :
    nextToken pos '$' text = .ok (some ⟨.jsonpath, String.ofList ('$' :: (scanPath 0 text).1), pos⟩,
      (scanPath 0 text).2) := rfl

theorem reads_path {text : List Char} {shapes : List (TokenKind × String)}
    (h : Reads (scanPath 0 text).2 shapes) : Reads ('$' :: text)
      ((.jsonpath, String.ofList ('$' :: (scanPath 0 text).1)) :: shapes) := by
  refine reads_cons (some _) ?_ (fun pos => ⟨_, nextToken_path pos text, rfl⟩) h
  conv_rhs => rw [← scanPath_append 0 text, List.length_append]
  exact Nat.le_add_left _ _

theorem reads_equals {text : List Char} {shapes : List (TokenKind × String)}
    (h : Reads text shapes) : Reads ('=' :: '=' :: text) ((.op, "==") :: shapes) :=
  reads_cons (some _) (Nat.le_succ _) (fun _ => ⟨_, rfl, rfl⟩) h

/-! ### Where a path ends -/

/-- Counting all brackets, from a depth on: no character outside of them ends the path, and at its
end none is open. -/
def DelimitedFrom (depth : Nat) (path : List Char) : Prop :=
  path.foldl bracketDepth depth = 0 ∧
    ∀ front c back, path = front ++ c :: back → front.foldl bracketDepth depth = 0 →
      endsPath c = false

theorem delimitedFrom_cons {depth : Nat} {c : Char} {path : List Char} :
    DelimitedFrom depth (c :: path) ↔
      ¬ (depth = 0 ∧ endsPath c = true) ∧ DelimitedFrom (bracketDepth depth c) path := by
  constructor
  · rintro ⟨hend, hinside⟩
    refine ⟨?_, hend, fun front x back hpath hfront => ?_⟩
    · rintro ⟨hdepth, hc⟩
      rw [hinside [] c path rfl hdepth] at hc
      cases hc
    · exact hinside (c :: front) x back (congrArg (c :: ·) hpath) hfront
  · rintro ⟨hc, hend, hinside⟩
    refine ⟨hend, fun front x back hpath hfront => ?_⟩
    cases front with
    | nil =>
      obtain ⟨rfl, rfl⟩ := List.cons.inj hpath
      exact Bool.eq_false_iff.mpr fun hx => hc ⟨hfront, hx⟩
    | cons y front =>
      obtain ⟨rfl, htail⟩ := List.cons.inj hpath
      exact hinside front x back htail hfront

/-- A path is cut off at its end exactly where it is delimited, by whatever ends paths. -/
theorem scanPath_eq_iff {depth : Nat} {path rest : List Char} {c : Char} (hc : endsPath c = true) :
    (scanPath depth (path ++ c :: rest)).1 = path ↔ DelimitedFrom depth path := by
  induction path generalizing depth with
  | nil =>
    rw [List.nil_append, scanPath]
    by_cases hdepth : depth = 0
    · rw [if_pos ⟨hdepth, hc⟩]
      refine iff_of_true rfl ⟨hdepth, fun front x back hpath => ?_⟩
      cases front <;> cases hpath
    · rw [if_neg fun h => hdepth h.1]
      exact iff_of_false (List.cons_ne_nil _ _) fun h => hdepth h.1
  | cons x path ih =>
    rw [List.cons_append, scanPath, delimitedFrom_cons]
    by_cases hx : depth = 0 ∧ endsPath x = true
    · rw [if_pos hx]
      exact iff_of_false (List.cons_ne_nil _ _).symm fun h => h.1 hx
    · rw [if_neg hx]
      have htail : (scanPath (bracketDepth depth x) (path ++ c :: rest)).1 = path ↔
          DelimitedFrom (bracketDepth depth x) path := ih
      simp only [List.cons.injEq, true_and]
      exact htail.trans (and_iff_right hx).symm

theorem scanPath_rest {path rest : List Char} (h : (scanPath 0 (path ++ rest)).1 = path) :
    (scanPath 0 (path ++ rest)).2 = rest := by
  have happend := scanPath_append 0 (path ++ rest)
  rw [h] at happend
  exact List.append_cancel_left happend

/-! ### A comparison with a path -/

section
variable {N : Type} {doubles : Doubles N}

theorem literalOf_shape {token token' : Token} (h : token'.shape = token.shape) :
    literalOf doubles token' = literalOf doubles token := by
  obtain ⟨hkind, hvalue⟩ := Prod.mk.inj h
  rw [literalOf, literalOf, hkind, hvalue]

/-- The path that an expression starts with. -/
def Expr.leftmost : Expr N → Option String
  | .jsonpath path => some path
  | .binary _ left _ => left.leftmost
  | .isIn value _ => value.leftmost
  | .literal _ | .not _ => none

/-- What follows an operand of `and` leaves its start as it is. -/
theorem parseAnds_leftmost {fuel : Nat} {left tree : Expr N} {tokens rest : List Token}
    (h : parseAnds doubles fuel left tokens = .ok (tree, rest)) : tree.leftmost = left.leftmost := by
  induction fuel generalizing left tokens with
  | zero => cases h
  | succ fuel ih =>
    cases tokens with
    | nil => cases h; rfl
    | cons token tokens =>
      rw [parseAnds] at h
      by_cases hand : token.isWord "and" = true
      · rw [if_pos hand] at h
        cases hright : parseNot doubles fuel tokens with
        | error reason => rw [hright] at h; cases h
        | ok r =>
          rw [hright] at h
          have hrest : parseAnds doubles fuel (.binary .and left r.1) r.2 = .ok (tree, rest) := h
          have htree := ih hrest
          exact htree
      · rw [if_neg hand] at h
        cases h
        rfl

theorem parseOrs_leftmost {fuel : Nat} {left tree : Expr N} {tokens rest : List Token}
    (h : parseOrs doubles fuel left tokens = .ok (tree, rest)) : tree.leftmost = left.leftmost := by
  induction fuel generalizing left tokens with
  | zero => cases h
  | succ fuel ih =>
    cases tokens with
    | nil => cases h; rfl
    | cons token tokens =>
      rw [parseOrs] at h
      by_cases hor : token.isWord "or" = true
      · rw [if_pos hor] at h
        cases hright : parseAnd doubles fuel tokens with
        | error reason => rw [hright] at h; cases h
        | ok r =>
          rw [hright] at h
          have hrest : parseOrs doubles fuel (.binary .or left r.1) r.2 = .ok (tree, rest) := h
          have htree := ih hrest
          exact htree
      · rw [if_neg hor] at h
        cases h
        rfl

theorem parseCmp_leftmost {fuel : Nat} {token : Token} {tokens rest : List Token} {tree : Expr N}
    (hkind : token.kind = .jsonpath)
    (h : parseCmp doubles fuel (token :: tokens) = .ok (tree, rest)) :
    tree.leftmost = some token.value := by
  cases fuel with
  | zero => cases h
  | succ fuel =>
    rw [parseCmp] at h
    cases fuel with
    | zero => cases h
    | succ fuel =>
      have hprimary : parsePrimary doubles (fuel + 1) (token :: tokens) =
          .ok (.jsonpath token.value, tokens) := by
        rw [parsePrimary, hkind]
        rfl
      rw [hprimary] at h
      cases tokens with
      | nil => cases h; rfl
      | cons next tokens =>
        change (if next.kind = .op then _ else if next.isWord "in" = true then _ else _) =
          _ at h
        split at h
        · cases hright : parsePrimary doubles (fuel + 1) tokens with
          | error reason => rw [hright] at h; cases h
          | ok r => rw [hright] at h; cases h; rfl
        · split at h
          · cases harr : parseArray doubles (fuel + 1) tokens with
            | error reason => rw [harr] at h; cases h
            | ok r => rw [harr] at h; cases h; rfl
          · cases h; rfl

theorem parseOr_leftmost {fuel : Nat} {token : Token} {tokens rest : List Token} {tree : Expr N}
    (hkind : token.kind = .jsonpath)
    (h : parseOr doubles fuel (token :: tokens) = .ok (tree, rest)) :
    tree.leftmost = some token.value := by
  have hword : ¬ token.isWord "not" = true := by
    rw [Token.isWord, hkind]
    exact Bool.false_ne_true
  cases fuel with
  | zero => cases h
  | succ fuel =>
    rw [parseOr] at h
    cases hand : parseAnd doubles fuel (token :: tokens) with
    | error reason => rw [hand] at h; cases h
    | ok r =>
      rw [hand] at h
      rw [parseOrs_leftmost h]
      cases fuel with
      | zero => cases hand
      | succ fuel =>
        rw [parseAnd] at hand
        cases hnot : parseNot doubles fuel (token :: tokens) with
        | error reason => rw [hnot] at hand; cases hand
        | ok r' =>
          rw [hnot] at hand
          rw [parseAnds_leftmost hand]
          cases fuel with
          | zero => cases hnot
          | succ fuel =>
            rw [parseNot, if_neg hword] at hnot
            exact parseCmp_leftmost hkind hnot

theorem parseFilterExpression_iff {expr : String} {token : Token} {tokens : List Token}
    {tree : Expr N} (htokens : tokenize expr = .ok (token :: tokens)) :
    parseFilterExpression doubles expr = .ok tree ↔
      parseOr doubles (8 * (token :: tokens).length) (token :: tokens) = .ok (tree, []) := by
  rw [parseFilterExpression, htokens]
  dsimp only
  generalize parseOr doubles (8 * (token :: tokens).length) (token :: tokens) = parsed
  cases parsed with
  | error reason => simp
  | ok r =>
    obtain ⟨tree', rest⟩ := r
    cases rest with
    | nil => simp
    | cons next rest => simp

/-- An expression that starts with a `$` starts with the path that the tokenizer finds. -/
theorem parse_leftmost {expr : String} {text : List Char} {tree : Expr N}
    (hexpr : expr.toList = '$' :: text) (h : parseFilterExpression doubles expr = .ok tree) :
    tree.leftmost = some (String.ofList ('$' :: (scanPath 0 text).1)) := by
  have hcut : tokenize expr = (tokenizeFrom text.length
      (0 + (utf16Length ('$' :: text) - utf16Length (scanPath 0 text).2)) (scanPath 0 text).2).map
        (⟨.jsonpath, String.ofList ('$' :: (scanPath 0 text).1), 0⟩ :: ·) := by
    rw [tokenize, hexpr, List.length_cons, tokenizeFrom, nextToken_path]
    dsimp only
    cases tokenizeFrom text.length
      (0 + (utf16Length ('$' :: text) - utf16Length (scanPath 0 text).2)) (scanPath 0 text).2 <;> rfl
  cases htokens : tokenizeFrom text.length
      (0 + (utf16Length ('$' :: text) - utf16Length (scanPath 0 text).2)) (scanPath 0 text).2 with
  | error reason =>
    rw [htokens] at hcut
    rw [parseFilterExpression, hcut] at h
    cases h
  | ok tokens =>
    rw [htokens] at hcut
    exact parseOr_leftmost rfl ((parseFilterExpression_iff hcut).mp h)

/-- A path, an operator and a literal are a comparison of the path with the literal. -/
theorem parse_comparison {path op token : Token} {value : Literal N} {expr : String}
    (hpath : path.kind = .jsonpath) (hop : op.shape = (.op, "=="))
    (htoken : literalOf doubles token = some value) (htokens : tokenize expr = .ok [path, op, token]) :
    parseFilterExpression doubles expr =
      .ok (.binary .eq (.jsonpath path.value) (.literal value)) := by
  obtain ⟨hopKind, hopValue⟩ := Prod.mk.inj hop
  have hliteral : ∀ fuel, parsePrimary doubles (fuel + 1) [token] = .ok (.literal value, []) := by
    intro fuel
    have hlparen : ¬ token.kind = .lparen := by
      intro hkind
      rw [literalOf, hkind] at htoken
      cases htoken
    have hjsonpath : ¬ token.kind = .jsonpath := by
      intro hkind
      rw [literalOf, hkind] at htoken
      cases htoken
    rw [parsePrimary, if_neg hlparen, if_neg hjsonpath, htoken]
  have hprimary : ∀ fuel tokens, parsePrimary doubles (fuel + 1) (path :: tokens) =
      .ok (.jsonpath path.value, tokens) := by
    intro fuel tokens
    rw [parsePrimary, hpath]
    rfl
  have hcmp : ∀ fuel, parseCmp doubles (fuel + 2) [path, op, token] =
      .ok (.binary .eq (.jsonpath path.value) (.literal value), []) := by
    intro fuel
    have heq : comparisonOp op.value = .eq := by
      rw [hopValue]
      rfl
    rw [parseCmp, hprimary]
    change (if op.kind = .op then _ else _) = _
    rw [if_pos hopKind, hliteral, heq]
    rfl
  have hword : ∀ word, ¬ path.isWord word = true := by
    intro word
    rw [Token.isWord, hpath]
    exact Bool.false_ne_true
  have hnot : ∀ fuel, parseNot doubles (fuel + 3) [path, op, token] =
      .ok (.binary .eq (.jsonpath path.value) (.literal value), []) := by
    intro fuel
    rw [parseNot, if_neg (hword _), hcmp]
  have hor : parseOr doubles 24 [path, op, token] =
      .ok (.binary .eq (.jsonpath path.value) (.literal value), []) := by
    rw [parseOr, parseAnd, hnot]
    rfl
  exact (parseFilterExpression_iff htokens).mpr hor

/-- The text is this literal. -/
def LiteralText (doubles : Doubles N) (text : String) (value : Literal N) : Prop :=
  ∃ token, tokenize text = .ok [token] ∧ literalOf doubles token = some value

/-- The path is delimited by its brackets: counting those in quoted keys like the others, no
character that ends a path stands outside of them, and all are closed. -/
def Delimited (path : String) : Prop := DelimitedFrom 0 path.toList.tail

end

section
variable {N O : Type} [DecidableEq O] (doubles : Doubles N) (objects : Objects N O)

/-- **A path in a filter expression**: the comparison of an accepted path with a literal is parsed
as that, and has the value of what the path finds, exactly where the path is delimited. -/
theorem path_filter_iff {path : String} {segments : List JsonPathSegment}
    (hpath : parseJsonPath path = .ok segments) {gap text : String} {value : Literal N}
    (hgap : ∀ c ∈ gap.toList, Numeral.isWhite c = true) (htext : LiteralText doubles text value) :
    (parseFilterExpression doubles (path ++ gap ++ "==" ++ text) =
        .ok (.binary .eq (.jsonpath path) (.literal value)) ∧
      ∀ context, ∃ found, objects.resolveJsonPath context path = .ok found ∧
        evaluateFilter doubles objects (path ++ gap ++ "==" ++ text) context =
          .ok (looseEquals doubles found value.toValue)) ↔ Delimited path := by
  obtain ⟨token, htoken, hvalue⟩ := htext
  obtain ⟨inside, hinside⟩ : ∃ inside, path.toList = '$' :: inside := by
    rw [parseJsonPath] at hpath
    split at hpath
    · cases hpath
    · exact ⟨_, ‹_›⟩
    · cases hpath
  obtain ⟨c, back, hback, hc⟩ : ∃ c back,
      gap.toList ++ ('=' :: '=' :: text.toList) = c :: back ∧ endsPath c = true := by
    cases hlist : gap.toList with
    | nil => exact ⟨_, _, rfl, rfl⟩
    | cons c gap' =>
      refine ⟨c, _, rfl, ?_⟩
      rw [endsPath, hgap c (hlist ▸ List.mem_cons_self)]
      rfl
  have hexpr : (path ++ gap ++ "==" ++ text).toList = '$' :: (inside ++ c :: back) := by
    rw [← hback]
    simp [hinside]
  have hdelimited : Delimited path ↔ (scanPath 0 (inside ++ c :: back)).1 = inside := by
    rw [Delimited, hinside]
    exact (scanPath_eq_iff hc).symm
  have hname : String.ofList ('$' :: inside) = path := by
    rw [← hinside, String.ofList_toList]
  constructor
  · rintro ⟨hparse, -⟩
    have hleft := Option.some.inj (parse_leftmost hexpr hparse)
    rw [← hname] at hleft
    exact hdelimited.mpr (List.cons.inj (String.ofList_injective hleft)).2.symm
  · intro h
    have hscan := hdelimited.mp h
    have hreads : Reads (path ++ gap ++ "==" ++ text).toList
        [(.jsonpath, path), (.op, "=="), token.shape] := by
      have hliteral := reads_of_tokenizeFrom le_rfl htoken
      have hrest := reads_white hgap (reads_equals hliteral)
      rw [hback, ← scanPath_rest hscan] at hrest
      have hread := reads_path hrest
      rw [hscan, hname] at hread
      rw [hexpr]
      exact hread
    obtain ⟨tokens, htokens, hshapes⟩ := hreads _ 0 le_rfl
    obtain ⟨first, tokens, rfl, hfirst, hshapes⟩ := List.map_eq_cons_iff.mp hshapes
    obtain ⟨op, tokens, rfl, hop, hshapes⟩ := List.map_eq_cons_iff.mp hshapes
    obtain ⟨last, tokens, rfl, hlast, hshapes⟩ := List.map_eq_cons_iff.mp hshapes
    obtain rfl := List.map_eq_nil_iff.mp hshapes
    obtain ⟨hkind, rfl⟩ := Prod.mk.inj hfirst
    have hparse := parse_comparison hkind hop ((literalOf_shape hlast).trans hvalue) htokens
    refine ⟨hparse, fun context => ⟨segments.foldl (follow objects) context, ?_, ?_⟩⟩
    · rw [Objects.resolveJsonPath, hpath]
      rfl
    · rw [evaluateFilter, hparse]
      dsimp only
      rw [evaluate_compare rfl, evaluate, evaluate, Objects.resolveJsonPath, hpath]
      rfl

end

theorem accepted_of_isOk (path : String) (h : (parseJsonPath path).toOption.isSome = true) :
    ∃ segments, parseJsonPath path = .ok segments := by
  cases hpath : parseJsonPath path with
  | error err => rw [hpath] at h; cases h
  | ok segments => exact ⟨segments, rfl⟩

theorem literalText_null : LiteralText intDoubles "null" .null :=
  ⟨⟨.ident, "null", 0⟩, by decide +kernel, rfl⟩

/-- A key with white space in it. -/
theorem path_filter_iff_key :
    parseFilterExpression intDoubles ("$[\"a key\"]" ++ " " ++ "==" ++ "null") =
      .ok (.binary .eq (.jsonpath "$[\"a key\"]") (.literal .null)) := by
  obtain ⟨segments, hpath⟩ := accepted_of_isOk "$[\"a key\"]" (by decide +kernel)
  have hdelimited : Delimited "$[\"a key\"]" := by
    have hscan : (scanPath 0 ("$[\"a key\"]".toList.tail ++ ' ' :: [])).1 =
        "$[\"a key\"]".toList.tail := by decide +kernel
    exact (scanPath_eq_iff rfl).mp hscan
  have hgap : ∀ c ∈ " ".toList, Numeral.isWhite c = true :=
    List.all_eq_true.mp (by decide +kernel)
  exact ((path_filter_iff intDoubles emptyObjects hpath hgap literalText_null).mpr hdelimited).1

/-- **A bracket in a quoted key** ends the path in the expression. -/
theorem bracket_in_key : ¬ ∀ (path : String) (segments : List JsonPathSegment) (text : String)
    (value : Literal Int), parseJsonPath path = .ok segments → LiteralText intDoubles text value →
      parseFilterExpression intDoubles (path ++ "==" ++ text) =
        .ok (.binary .eq (.jsonpath path) (.literal value)) := by
  intro h
  obtain ⟨segments, hpath⟩ := accepted_of_isOk "$[\"a]b\"]" (by decide +kernel)
  have hparse := h _ segments "null" .null hpath literalText_null
  have hexpr : ("$[\"a]b\"]" ++ "==" ++ "null").toList = '$' :: "[\"a]b\"]==null".toList := by
    decide +kernel
  have hleft := Option.some.inj (parse_leftmost hexpr hparse)
  have hcut : (scanPath 0 "[\"a]b\"]==null".toList).1 = "[\"a]b\"".toList := by decide +kernel
  rw [hcut] at hleft
  revert hleft
  decide +kernel

end Declaragent.Events
