import Declaragent.Library.Directory
import Declaragent.Library.JsonIndent

/-!
# Fleet — the `package.json` of a fleet

A promotion gives the root package its workspaces, and a demotion takes them away.

* `package_back_iff`: which packages come back as they were.
-/

namespace Declaragent.Fleet
open JsonText Directory

def agentsWorkspaces : JsValue := .arr [.str "agents/*"]

def isNullish : JsValue → Bool
  | .undefined | .null => true
  | _ => false

/-- `value ?? fallback`. -/
def orElse (fallback value : JsValue) : JsValue := if isNullish value then fallback else value

/-- `JSON.stringify(pkg, null, 2)` and a line break. -/
def packageText (pkg : List (String × JsValue)) : String :=
  stringifyIndented (.obj (propertiesJson pkg)) ++ "\n"

/-- An existing `package.json` with the workspaces. -/
def withWorkspaces (pkg : List (String × JsValue)) : List (String × JsValue) :=
  let pkg := put "workspaces" agentsWorkspaces pkg
  put "private" (orElse (.bool true) ((JsValue.obj pkg).get "private")) pkg

/-- The `package.json` of a fleet that had none. -/
def minimalPackage (agentId : String) : List (String × JsValue) :=
  [("name", .str agentId), ("private", .bool true), ("type", .str "module"),
    ("workspaces", agentsWorkspaces)]

def withoutWorkspaces (pkg : List (String × JsValue)) : List (String × JsValue) :=
  remove "workspaces" pkg

/-! ### There and back -/

section
variable {F : RoundingFormat} {pkg : List (String × JsValue)}

theorem jsonParse_packageText (F : RoundingFormat) (pkg : List (String × JsValue)) :
    jsonParse F.toNumberFormat (packageText pkg) =
      some (received F.toNumberFormat (.obj pkg)) :=
  jsonParse_stringifyIndented F.toNumberFormat (.obj (propertiesJson pkg))

/-- A value there is may be read and written again and again. -/
theorem received_received {v : JsValue} (h : v.Proper F.toNumberFormat) :
    received F.toNumberFormat (received F.toNumberFormat v) = received F.toNumberFormat v := by
  have hjson : toJson (received F.toNumberFormat v) = toJson v := toJson_received h
  exact congrArg (fun j => j.elim JsValue.undefined (evaluate F.toNumberFormat)) hjson

/-- The properties that are read where these were written. -/
def receivedProperties (F : NumberFormat) (pkg : List (String × JsValue)) :
    List (String × JsValue) :=
  defined (pkg.map fun p => (p.1, received F p.2))

theorem received_properties (h : Listed pkg) (F : NumberFormat) :
    received F (.obj pkg) = .obj (receivedProperties F pkg) := received_obj h

theorem get_obj (key : String) (ps : List (String × JsValue)) :
    (JsValue.obj ps).get key = (ps.lookup key).getD .undefined := rfl

theorem receivedProperties_append (F : NumberFormat) (ps qs : List (String × JsValue)) :
    receivedProperties F (ps ++ qs) = receivedProperties F ps ++ receivedProperties F qs := by
  simp [receivedProperties, defined]

theorem receivedProperties_keys (F : NumberFormat) (pkg : List (String × JsValue)) :
    ((receivedProperties F pkg).map Prod.fst).Sublist (pkg.map Prod.fst) := by
  have hkeys : (pkg.map fun p => (p.1, received F p.2)).map Prod.fst = pkg.map Prod.fst := by
    simp [List.map_map, Function.comp_def]
  rw [← hkeys]
  exact List.filter_sublist.map Prod.fst

theorem listed_remove {V : Type} {ps : List (String × V)} (h : Listed ps) (name : String) :
    Listed (remove name ps) := h.sublist List.filter_sublist

theorem listed_receivedProperties (h : Listed pkg) (F : NumberFormat) :
    Listed (receivedProperties F pkg) :=
  List.Pairwise.sublist (receivedProperties_keys F pkg) h

theorem get_receivedProperties (h : Listed pkg) (F : NumberFormat) (key : String) :
    (JsValue.obj (receivedProperties F pkg)).get key =
      ((pkg.lookup key).map (received F)).getD .undefined := by
  have hlookup : ∀ ps : List (String × JsValue),
      (ps.map fun p => (p.1, received F p.2)).lookup key = (ps.lookup key).map (received F) := by
    intro ps
    induction ps with
    | nil => rfl
    | cons p ps ih =>
      rw [List.map_cons, List.lookup_cons, List.lookup_cons, ih]
      split <;> rfl
  have hnodup : ((pkg.map fun p => (p.1, received F p.2)).map Prod.fst).Nodup := by
    simpa [List.map_map, Function.comp_def] using h.nodup
  unfold receivedProperties
  rw [get_defined hnodup, hlookup]

theorem get_remove_of_ne {name key : String} (h : key ≠ name) (ps : List (String × JsValue)) :
    (JsValue.obj (remove name ps)).get key = (JsValue.obj ps).get key :=
  congrArg (·.getD .undefined) (lookup_remove_of_ne h ps)

theorem proper_withWorkspaces (h : (JsValue.obj pkg).Proper F.toNumberFormat) :
    (JsValue.obj (withWorkspaces pkg)).Proper F.toNumberFormat := by
  obtain ⟨hvalues, hlisted⟩ := h
  have hvalues := properProperties_iff.mp hvalues
  refine ⟨properProperties_iff.mpr fun p hp => ?_, (hlisted.put (by decide) _).put (by decide) _⟩
  have hput : ∀ p ∈ put "workspaces" agentsWorkspaces pkg, p.2.Proper F.toNumberFormat := by
    intro p hp
    rcases mem_put hp with rfl | hp
    · exact ⟨trivial, trivial⟩
    · exact hvalues p hp
  rcases mem_put hp with rfl | hp
  · dsimp only
    unfold orElse
    split
    · trivial
    · unfold JsValue.get
      dsimp only
      cases hprivate : (put "workspaces" agentsWorkspaces pkg).lookup "private" with
      | none => trivial
      | some value =>
        refine hput ("private", value) ?_
        exact (lookup_eq_some_iff_mem (hlisted.put (by decide) _).nodup).mp hprivate
  · exact hput p hp

theorem get_withWorkspaces_private (pkg : List (String × JsValue)) :
    (withWorkspaces pkg).lookup "private" =
      some (orElse (.bool true) ((JsValue.obj pkg).get "private")) := by
  have hget : (JsValue.obj (put "workspaces" agentsWorkspaces pkg)).get "private" =
      (JsValue.obj pkg).get "private" :=
    congrArg (·.getD .undefined) (lookup_put_of_ne (by decide) _ pkg)
  unfold withWorkspaces
  dsimp only
  rw [lookup_put_self, hget]

/-- Where there were no workspaces and `private` was set, a demotion leaves what is read of the
`package.json` before. -/
theorem without_with_workspaces (hnone : pkg.lookup "workspaces" = none)
    (hprivate : isNullish ((JsValue.obj pkg).get "private") = false) (F : NumberFormat) :
    withoutWorkspaces (receivedProperties F (withWorkspaces pkg)) = receivedProperties F pkg := by
  have hkey := notMem_of_lookup_eq_none hnone
  obtain ⟨value, hvalue⟩ : ∃ value, pkg.lookup "private" = some value := by
    cases hlookup : pkg.lookup "private" with
    | none =>
      rw [get_obj, hlookup] at hprivate
      cases hprivate
    | some value => exact ⟨value, rfl⟩
  have hwith : withWorkspaces pkg = pkg ++ [("workspaces", agentsWorkspaces)] := by
    have hget : (JsValue.obj (pkg ++ [("workspaces", agentsWorkspaces)])).get "private" =
        (JsValue.obj pkg).get "private" := by
      simp [get_obj, List.lookup_append, hvalue]
    unfold withWorkspaces
    dsimp only
    rw [put_of_notMem hkey, hget, orElse, hprivate, if_neg Bool.false_ne_true]
    refine put_of_lookup ?_
    simp [get_obj, List.lookup_append, hvalue]
  have hread : receivedProperties F [("workspaces", agentsWorkspaces)] =
      [("workspaces", agentsWorkspaces)] := rfl
  have hrest : "workspaces" ∉ (receivedProperties F pkg).map Prod.fst := fun hmem =>
    hkey ((receivedProperties_keys F pkg).subset hmem)
  rw [hwith, receivedProperties_append, hread, withoutWorkspaces, remove, List.filter_append]
  have hsame := remove_of_notMem hrest
  rw [remove] at hsame
  rw [hsame]
  exact List.append_nil _

/-- **There and back.**  What is read of a `package.json` after both commands. -/
theorem package_back_iff (h : (JsValue.obj pkg).Proper F.toNumberFormat) :
    received F.toNumberFormat
        (.obj (withoutWorkspaces (receivedProperties F.toNumberFormat (withWorkspaces pkg)))) =
      .obj pkg ↔
      pkg.lookup "workspaces" = none ∧ isNullish ((JsValue.obj pkg).get "private") = false ∧
        received F.toNumberFormat (.obj pkg) = .obj pkg := by
  have hwith : Listed (withWorkspaces pkg) := (proper_withWorkspaces h).2
  have hlisted : Listed
      (withoutWorkspaces (receivedProperties F.toNumberFormat (withWorkspaces pkg))) :=
    listed_remove (listed_receivedProperties hwith _) _
  have hback : pkg.lookup "workspaces" = none →
      isNullish ((JsValue.obj pkg).get "private") = false →
      received F.toNumberFormat
        (.obj (withoutWorkspaces (receivedProperties F.toNumberFormat (withWorkspaces pkg)))) =
      received F.toNumberFormat (.obj pkg) := fun hnone hprivate => by
    rw [without_with_workspaces hnone hprivate, ← received_properties h.2, received_received h]
  constructor
  · intro heq
    have hread := heq
    rw [received_properties hlisted] at hread
    injection hread with hread
    have hnone : pkg.lookup "workspaces" = none := by
      rw [← hread]
      exact lookup_eq_none_of_notMem fun hmem =>
        notMem_remove "workspaces" _ ((receivedProperties_keys _ _).subset hmem)
    have hprivate : isNullish ((JsValue.obj pkg).get "private") = false := by
      by_contra hnullish
      have htrue : (JsValue.obj (withoutWorkspaces
          (receivedProperties F.toNumberFormat (withWorkspaces pkg)))).get "private" =
            .bool true := by
        rw [withoutWorkspaces, get_remove_of_ne (by decide), get_receivedProperties hwith,
          get_withWorkspaces_private, orElse, if_pos (Bool.not_eq_false _ ▸ hnullish)]
        rfl
      rw [← hread, get_receivedProperties hlisted] at hnullish
      cases hlookup : (withoutWorkspaces
          (receivedProperties F.toNumberFormat (withWorkspaces pkg))).lookup "private" with
      | none =>
        rw [get_obj, hlookup] at htrue
        cases htrue
      | some value =>
        rw [get_obj, hlookup] at htrue
        obtain rfl : value = .bool true := htrue
        rw [hlookup] at hnullish
        exact hnullish rfl
    exact ⟨hnone, hprivate, (hback hnone hprivate).symm.trans heq⟩
  · rintro ⟨hnone, hprivate, hsame⟩
    exact (hback hnone hprivate).trans hsame

end

theorem listed_minimalPackage (agentId : String) : Listed (minimalPackage agentId) := by
  have hnames : Names ["name", "private", "type", "workspaces"] := by decide
  exact hnames.listed rfl

end Declaragent.Fleet
