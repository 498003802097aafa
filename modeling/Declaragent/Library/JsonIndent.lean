import Declaragent.Library.JsValue

/-!
# Library — indented JSON text

`stringifyIndented` puts every item and every field on a line of its own.  Reading skips the blanks
before a token, so the indented text of a value is read like its compact text.

* `parse_stringifyIndented`: an indented text, with a line break at its end, reads as its value.
-/

namespace JsonText

theorem skipSpace_indentation (depth : Nat) (cs : List Char) :
    skipSpace (indentation depth ++ cs) = skipSpace cs := by
  have hblanks : ∀ n, skipSpace (List.replicate n ' ' ++ cs) = skipSpace cs := by
    intro n
    induction n with
    | zero => rfl
    | succ n ih => exact ih
  exact hblanks (2 * depth)

/-! ### Blanks before a token -/

section
variable (depth : Nat) (cs : List Char)

theorem parseValue_indentation (fuel : Nat) :
    parseValue fuel (indentation depth ++ cs) = parseValue fuel cs := by
  cases fuel with
  | zero => rw [parseValue, parseValue]
  | succ fuel => rw [parseValue, parseValue, skipSpace_indentation]

theorem parseValue_blank (fuel : Nat) : parseValue fuel (' ' :: cs) = parseValue fuel cs := by
  have hskip : skipSpace (' ' :: cs) = skipSpace cs := rfl
  cases fuel with
  | zero => rw [parseValue, parseValue]
  | succ fuel => rw [parseValue, parseValue, hskip]

theorem parseItems_indentation (fuel : Nat) :
    parseItems fuel (indentation depth ++ cs) = parseItems fuel cs := by
  cases fuel with
  | zero => rw [parseItems, parseItems]
  | succ fuel => rw [parseItems, parseItems, parseValue_indentation]

theorem parseFields_indentation (fuel : Nat) :
    parseFields fuel (indentation depth ++ cs) = parseFields fuel cs := by
  cases fuel with
  | zero => rw [parseFields, parseFields]
  | succ fuel => rw [parseFields, parseFields, skipSpace_indentation]

end

/-! ### Heads -/

theorem renderIndented_head (depth : Nat) (j : Json) :
    ∃ c cs, renderIndented depth j = c :: cs ∧ Starts c := by
  cases j with
  | arr items => cases items <;> exact ⟨_, _, by rw [renderIndented], rfl, by decide⟩
  | obj fields =>
    cases fields with
    | nil => exact ⟨_, _, by rw [renderIndented], rfl, by decide⟩
    | cons p fields =>
      obtain ⟨k, v⟩ := p
      exact ⟨_, _, by rw [renderIndented], rfl, by decide⟩
  | null | bool _ | num _ | str _ =>
    rw [renderIndented]
    exact render_head _
    all_goals exact nofun

/-- What stands between two items or fields. -/
def separator (depth : Nat) : List Char := ',' :: indentation depth

theorem renderItemsIndented_head (depth : Nat) (j : Json) (items : List Json) :
    ∃ c cs, (separator depth).intercalate (renderItemsIndented depth (j :: items)) = c :: cs ∧
      Starts c := by
  obtain ⟨c, cs, hcs, hc⟩ := renderIndented_head depth j
  cases items with
  | nil => exact ⟨c, cs, by simp [renderItemsIndented, hcs], hc⟩
  | cons k items =>
    refine ⟨c, cs ++ separator depth ++
      (separator depth).intercalate (renderItemsIndented depth (k :: items)), ?_, hc⟩
    simp [renderItemsIndented, hcs, List.intercalate_cons_cons]

theorem renderFieldsIndented_head (depth : Nat) (key : String) (j : Json)
    (fields : List (String × Json)) :
    ∃ cs, (separator depth).intercalate (renderFieldsIndented depth ((key, j) :: fields)) =
      '"' :: cs := by
  cases fields with
  | nil =>
    simp only [renderFieldsIndented, List.intercalate_singleton, quote, List.cons_append]
    exact ⟨_, rfl⟩
  | cons p fields =>
    obtain ⟨key', k⟩ := p
    simp only [renderFieldsIndented, List.intercalate_cons_cons, quote, List.cons_append]
    exact ⟨_, rfl⟩

/-! ### Reading back -/

theorem stops_indentation (depth : Nat) (rest : List Char) : Stops (indentation depth ++ rest) :=
  stops_cons (by decide) _

/-- What closes an array or an object stands on a line of its own. -/
theorem skipSpace_closing {c : Char} (hc : isSpace c = false) (depth : Nat) (rest : List Char) :
    skipSpace (indentation depth ++ c :: rest) = c :: rest := by
  rw [skipSpace_indentation, skipSpace_cons hc]

mutual

/-- **The indented text of a value**, and what follows it. -/
theorem parseValue_renderIndented : ∀ (depth : Nat) (j : Json) {fuel : Nat} {rest : List Char},
    j.size ≤ fuel → Stops rest →
      parseValue fuel (renderIndented depth j ++ rest) = some (j, rest)
  | _, .null, _, _, hfuel, hrest | _, .bool _, _, _, hfuel, hrest
  | _, .num _, _, _, hfuel, hrest | _, .str _, _, _, hfuel, hrest => by
      rw [renderIndented]
      exact parseValue_render _ hfuel hrest
      all_goals exact nofun
  | _, .arr _, 0, _, hfuel, _ | _, .obj _, 0, _, hfuel, _ => by simp [Json.size] at hfuel
  | depth, .arr [], fuel + 1, rest, _, _ => by
      simp [renderIndented, parseValue, skipSpace_cons, isSpace]
  | depth, .arr (j :: items), fuel + 1, rest, hfuel, _ => by
      have hitems := parseItems_renderIndented (depth + 1) j items depth fuel rest
        (by simp only [Json.size] at hfuel; omega)
      obtain ⟨c, cs, hcs, hc⟩ := renderItemsIndented_head (depth + 1) j items
      rw [hcs, List.cons_append] at hitems
      rw [renderItemsIndented, separator] at hcs
      have hskip : skipSpace (indentation (depth + 1) ++
          (c :: (cs ++ (indentation depth ++ ']' :: rest)))) =
            c :: (cs ++ (indentation depth ++ ']' :: rest)) := skipSpace_closing hc.1 ..
      rw [renderIndented, hcs]
      simp only [List.cons_append, List.append_assoc, List.nil_append]
      rw [parseValue_arr hc fuel hskip, hitems]
      rfl
  | depth, .obj [], fuel + 1, rest, _, _ => by
      simp [renderIndented, parseValue, skipSpace_cons, isSpace]
  | depth, .obj ((key, j) :: fields), fuel + 1, rest, hfuel, _ => by
      have hfields := parseFields_renderIndented (depth + 1) key j fields depth fuel rest
        (by simp only [Json.size] at hfuel; omega)
      obtain ⟨cs, hcs⟩ := renderFieldsIndented_head (depth + 1) key j fields
      rw [hcs, List.cons_append] at hfields
      rw [renderFieldsIndented, separator] at hcs
      have hskip : skipSpace (indentation (depth + 1) ++
          ('"' :: (cs ++ (indentation depth ++ '}' :: rest)))) =
            '"' :: (cs ++ (indentation depth ++ '}' :: rest)) := skipSpace_closing rfl ..
      rw [renderIndented, hcs]
      simp only [List.cons_append, List.append_assoc, List.nil_append]
      rw [parseValue_obj fuel hskip, hfields]
      rfl
termination_by structural _ _ fuel => fuel

theorem parseItems_renderIndented : ∀ (depth : Nat) (j : Json) (items : List Json)
    (outer fuel : Nat) (rest : List Char), sizeItems (j :: items) ≤ fuel →
      parseItems fuel ((separator depth).intercalate (renderItemsIndented depth (j :: items)) ++
        (indentation outer ++ ']' :: rest)) = some (j :: items, rest)
  | _, _, _, _, 0, _, hfuel => by simp [sizeItems] at hfuel
  | depth, j, [], outer, fuel + 1, rest, hfuel => by
      have hj : ∀ rest, Stops rest →
          parseValue fuel (renderIndented depth j ++ rest) = some (j, rest) := fun rest hrest =>
        parseValue_renderIndented depth j (by simp only [sizeItems] at hfuel; omega) hrest
      rw [renderItemsIndented, renderItemsIndented, List.intercalate_singleton,
        parseItems_cons hj (stops_indentation outer _) (skipSpace_closing rfl outer rest)
          (Or.inr rfl), if_neg (by decide)]
  | depth, j, k :: items, outer, fuel + 1, rest, hfuel => by
      have hj : ∀ rest, Stops rest →
          parseValue fuel (renderIndented depth j ++ rest) = some (j, rest) := fun rest hrest =>
        parseValue_renderIndented depth j (by simp only [sizeItems] at hfuel; omega) hrest
      have hitems := parseItems_renderIndented depth k items outer fuel rest
        (by simp only [sizeItems] at hfuel ⊢; omega)
      rw [renderItemsIndented, renderItemsIndented, List.intercalate_cons_cons, List.append_assoc,
        List.append_assoc, separator, List.cons_append,
        parseItems_cons hj (stops_cons (by decide) _) (skipSpace_cons rfl _) (Or.inl rfl),
        if_pos rfl, parseItems_indentation]
      rw [renderItemsIndented, separator] at hitems
      rw [hitems]
      rfl
termination_by structural _ _ _ _ fuel => fuel

theorem parseFields_renderIndented : ∀ (depth : Nat) (key : String) (j : Json)
    (fields : List (String × Json)) (outer fuel : Nat) (rest : List Char),
    sizeFields ((key, j) :: fields) ≤ fuel →
      parseFields fuel
        ((separator depth).intercalate (renderFieldsIndented depth ((key, j) :: fields)) ++
          (indentation outer ++ '}' :: rest)) = some ((key, j) :: fields, rest)
  | _, _, _, _, _, 0, _, hfuel => by simp [sizeFields] at hfuel
  | depth, key, j, [], outer, fuel + 1, rest, hfuel => by
      have hj : ∀ rest, Stops rest →
          parseValue fuel ((' ' :: renderIndented depth j) ++ rest) = some (j, rest) :=
        fun rest hrest => by
          rw [List.cons_append, parseValue_blank]
          exact parseValue_renderIndented depth j (by simp only [sizeFields] at hfuel; omega) hrest
      rw [renderFieldsIndented, renderFieldsIndented, List.intercalate_singleton,
        parseFields_cons hj (stops_indentation outer _) (skipSpace_closing rfl outer rest)
          (Or.inr rfl), if_neg (by decide)]
  | depth, key, j, (key', k) :: fields, outer, fuel + 1, rest, hfuel => by
      have hj : ∀ rest, Stops rest →
          parseValue fuel ((' ' :: renderIndented depth j) ++ rest) = some (j, rest) :=
        fun rest hrest => by
          rw [List.cons_append, parseValue_blank]
          exact parseValue_renderIndented depth j (by simp only [sizeFields] at hfuel; omega) hrest
      have hfields := parseFields_renderIndented depth key' k fields outer fuel rest
        (by simp only [sizeFields] at hfuel ⊢; omega)
      rw [renderFieldsIndented, renderFieldsIndented, List.intercalate_cons_cons,
        List.append_assoc, List.append_assoc, separator, List.cons_append,
        parseFields_cons hj (stops_cons (by decide) _) (skipSpace_cons rfl _) (Or.inl rfl),
        if_pos rfl, parseFields_indentation]
      rw [renderFieldsIndented, separator] at hfields
      rw [hfields]
      rfl
termination_by structural _ _ _ _ _ fuel => fuel

end

mutual

theorem size_le_renderIndented : ∀ (depth : Nat) (j : Json),
    j.size ≤ (renderIndented depth j).length
  | _, .null | _, .bool _ | _, .num _ | _, .str _ => by
      rw [renderIndented]
      exact size_le_render _
      all_goals exact nofun
  | depth, .arr [] | depth, .obj [] => by simp [Json.size, sizeItems, sizeFields, renderIndented]
  | depth, .arr (j :: items) => by
      have := sizeItems_le_renderIndented (depth + 1) (j :: items)
      simp only [Json.size, renderIndented, renderItemsIndented, separator, List.length_cons,
        List.length_append] at this ⊢
      omega
  | depth, .obj ((key, j) :: fields) => by
      have := sizeFields_le_renderIndented (depth + 1) ((key, j) :: fields)
      simp only [Json.size, renderIndented, renderFieldsIndented, separator, List.length_cons,
        List.length_append] at this ⊢
      omega

theorem sizeItems_le_renderIndented : ∀ (depth : Nat) (items : List Json),
    sizeItems items ≤
      ((separator depth).intercalate (renderItemsIndented depth items)).length + 1
  | _, [] => by simp [sizeItems]
  | depth, [j] => by
      have := size_le_renderIndented depth j
      simp [sizeItems, renderItemsIndented]
      omega
  | depth, j :: k :: items => by
      have := size_le_renderIndented depth j
      have := sizeItems_le_renderIndented depth (k :: items)
      rw [renderItemsIndented] at this
      simp only [sizeItems, renderItemsIndented, List.intercalate_cons_cons, List.length_append,
        separator, List.length_cons] at this ⊢
      omega

theorem sizeFields_le_renderIndented : ∀ (depth : Nat) (fields : List (String × Json)),
    sizeFields fields ≤
      ((separator depth).intercalate (renderFieldsIndented depth fields)).length + 1
  | _, [] => by simp [sizeFields]
  | depth, [(key, j)] => by
      have := size_le_renderIndented depth j
      simp [sizeFields, renderFieldsIndented]
      omega
  | depth, (key, j) :: (key', k) :: fields => by
      have := size_le_renderIndented depth j
      have := sizeFields_le_renderIndented depth ((key', k) :: fields)
      rw [renderFieldsIndented] at this
      simp only [sizeFields, renderFieldsIndented, List.intercalate_cons_cons, List.length_append,
        separator, List.length_cons] at this ⊢
      omega

end

/-- **Reading back.**  The indented text of a value reads as that value. -/
theorem parse_stringifyIndented (j : Json) :
    parse (stringifyIndented j ++ "\n") = some j := by
  have hbreak : "\n".toList = ['\n'] := rfl
  have hvalue : parseValue ((renderIndented 0 j ++ ['\n']).length + 1)
      (renderIndented 0 j ++ ['\n']) = some (j, ['\n']) := by
    refine parseValue_renderIndented 0 j ?_ (stops_cons (by decide) [])
    have := size_le_renderIndented 0 j
    rw [List.length_append]
    omega
  unfold parse stringifyIndented
  rw [String.toList_append, String.toList_ofList, hbreak]
  dsimp only
  rw [hvalue]
  rfl

theorem jsonParse_stringifyIndented (F : NumberFormat) (j : Json) :
    jsonParse F (stringifyIndented j ++ "\n") = some (evaluate F j) := by
  rw [jsonParse, parse_stringifyIndented, Option.map_some]

end JsonText
