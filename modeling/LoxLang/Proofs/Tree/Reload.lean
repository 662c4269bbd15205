import LoxLang.Proofs.Json.Depth
import LoxLang.Proofs.Tree.Codec
import LoxLang.Session

/-!
Storing a tree and loading it again: the limit on nesting is the only thing that stands in the way.
-/

namespace LoxLang.Node

/-- A text is not nested. -/
theorem height_ofText (text : Text) : (ofText text).height = 0 := by
  cases text <;> rfl

/-- Trees that are not nested are not nested in a row. -/
theorem heights_map_of_flat {α : Type} {make : α → Node} (flat : ∀ part, (make part).height = 0)
    (parts : List α) : heights (parts.map make) = 0 := by
  induction parts with
  | nil => rfl
  | cons first rest ih => simp [heights, flat, ih]

/-- Whether what is read, if anything is, nests within a bound. -/
def ReadsWithin (bound : Nat) (reading : Except LoadError Node) : Prop :=
  ∀ tree, reading = .ok tree → tree.height ≤ bound

namespace ReadsWithin

variable {bound : Nat} {first second third : Except LoadError Node}

/-- A node of one part is one level above it. -/
theorem one {make : Node → Node} (within : ReadsWithin bound first)
    (level : ∀ part, (make part).height = part.height + 1) :
    ReadsWithin (bound + 1) (do return make (← first)) := by
  intro tree made
  obtain ⟨part, found, made⟩ := exists_of_bind_eq_ok made
  have partWithin := within part found
  cases made
  rw [level]
  omega

/-- A node of two parts is one level above the deeper one. -/
theorem two {make : Node → Node → Node} (within : ReadsWithin bound first)
    (secondWithin : ReadsWithin bound second)
    (level : ∀ part other, (make part other).height = max part.height other.height + 1) :
    ReadsWithin (bound + 1) (do return make (← first) (← second)) := by
  intro tree made
  obtain ⟨part, found, made⟩ := exists_of_bind_eq_ok made
  obtain ⟨other, foundOther, made⟩ := exists_of_bind_eq_ok made
  have partWithin := within part found
  have otherWithin := secondWithin other foundOther
  cases made
  rw [level]
  omega

/-- A node of three parts is one level above the deepest one. -/
theorem three {make : Node → Node → Node → Node} (within : ReadsWithin bound first)
    (secondWithin : ReadsWithin bound second) (thirdWithin : ReadsWithin bound third)
    (level : ∀ part other last,
      (make part other last).height = max part.height (max other.height last.height) + 1) :
    ReadsWithin (bound + 1) (do return make (← first) (← second) (← third)) := by
  intro tree made
  obtain ⟨part, found, made⟩ := exists_of_bind_eq_ok made
  obtain ⟨other, foundOther, made⟩ := exists_of_bind_eq_ok made
  obtain ⟨last, foundLast, made⟩ := exists_of_bind_eq_ok made
  have partWithin := within part found
  have otherWithin := secondWithin other foundOther
  have lastWithin := thirdWithin last foundLast
  cases made
  rw [level]
  omega

end ReadsWithin

/-- A token keeps its data as it is, so nothing of that is a level of the tree. -/
theorem readsWithin_loadToken (bound : Nat) (object : List (Text × Json)) :
    ReadsWithin bound (loadToken object) := by
  intro tree loaded
  obtain ⟨named, _, loaded⟩ := exists_of_bind_eq_ok loaded
  -- Whatever the fields hold, what is made of them is a token.
  cases named with
  | string name =>
    cases known : Kind.ofName? name with
    | some kind =>
      simp only [known] at loaded
      obtain ⟨lexeme, _, loaded⟩ := exists_of_bind_eq_ok loaded
      obtain ⟨line, _, loaded⟩ := exists_of_bind_eq_ok loaded
      cases loaded
      exact Nat.zero_le _
    | none =>
      simp only [known] at loaded
      cases loaded
  | _ => cases loaded

section

variable {object : List (Text × Json)} {fields : Fields} {bound : Nat}
  (each : ∀ {name tree}, fields.lookup name = some (.ok tree) → tree.height ≤ bound)

include each

/-- A field that a node needs is as deep as a field can be. -/
theorem readsWithin_need (name : String) : ReadsWithin bound (fields.need name) := by
  intro tree found
  unfold Fields.need at found
  cases same : fields.lookup (.plain name) with
  | some loaded =>
    rw [same] at found
    exact each (same.trans (congrArg some found))
  | none =>
    rw [same] at found
    cases found

/-- A field that may be left out is as deep as a field can be, and flat where it is left out. -/
theorem readsWithin_optional (name : String) : ReadsWithin bound (fields.optional name) := by
  intro tree found
  unfold Fields.optional at found
  cases same : fields.lookup (.plain name) with
  | some loaded =>
    rw [same] at found
    exact each (same.trans (congrArg some found))
  | none =>
    rw [same] at found
    cases found
    exact Nat.zero_le bound

/-- The statements of a block are as deep as a field can be. -/
theorem heights_of_loadStatements {statements : List Node}
    (loaded : loadStatements object fields = .ok statements) : heights statements ≤ bound := by
  obtain ⟨value, _, loaded⟩ := exists_of_bind_eq_ok loaded
  -- The characters of a text and the names of an object are texts, and so not nested.
  have flat {α : Type} {make : α → Node} (flat : ∀ part, (make part).height = 0) (parts : List α) :
      heights (parts.map make) ≤ bound :=
    Nat.le_trans (Nat.le_of_eq (heights_map_of_flat flat parts)) (Nat.zero_le bound)
  cases value with
  | array items =>
    -- An array is a list by itself, which is one level more than its items.
    obtain ⟨tree, found, loaded⟩ := exists_of_bind_eq_ok loaded
    have within := readsWithin_need each "statements" tree found
    cases tree with
    | list items =>
      cases loaded
      rw [height] at within
      exact Nat.le_of_succ_le within
    | _ =>
      cases loaded
      exact Nat.zero_le bound
  | string s =>
    cases loaded
    exact flat (fun _ => rfl) _
  | garbled text =>
    cases loaded
    exact flat height_ofText _
  | object inner =>
    cases loaded
    exact flat (fun field : Text × Json => height_ofText field.1) _
  | null | bool | int | number => cases loaded

/-- A node is one level above its fields. -/
theorem readsWithin_loadForm (form : Form) :
    ReadsWithin (bound + 1) (loadForm object fields form) := by
  have need := readsWithin_need each
  have optional := readsWithin_optional each
  -- Only a block holds a list of nodes; the others read a fixed number of fields.
  cases form with
  | block =>
    intro tree loaded
    obtain ⟨statements, found, loaded⟩ := exists_of_bind_eq_ok loaded
    have within := heights_of_loadStatements each found
    cases loaded
    rw [height]
    omega
  | expression | print => exact .one (need "expression") fun _ => by rw [height]
  | grouping => exact .one (need "expression") fun _ => by rw [height]
  | literal => exact .one (need "value") fun _ => by rw [height]
  | use => exact .one (need "name") fun _ => by rw [height]
  | declare => exact .two (need "name") (optional "initializer") fun _ _ => by rw [height]
  | loop => exact .two (need "condition") (need "body") fun _ _ => by rw [height]
  | assign => exact .two (need "name") (need "value") fun _ _ => by rw [height]
  | unary => exact .two (need "operator") (need "right") fun _ _ => by rw [height]
  | conditional =>
    exact .three (need "condition") (need "then_branch") (optional "else_branch") fun _ _ _ => by
      rw [height]
  | binary =>
    exact .three (need "left") (need "operator") (need "right") fun _ _ _ => by rw [height]

/-- What an object with a type describes is one level above its fields. -/
theorem readsWithin_loadTyped (name : String) :
    ReadsWithin (bound + 1) (loadTyped object fields name) := by
  unfold loadTyped
  cases Form.ofName? name with
  | some form => exact readsWithin_loadForm each form
  | none => rintro tree ⟨⟩

/-- What an object describes is at most one level above its fields. -/
theorem readsWithin_loadObject : ReadsWithin (bound + 1) (loadObject object fields) := by
  unfold loadObject
  split
  · rintro tree ⟨⟩
    exact Nat.zero_le _
  · exact readsWithin_loadToken _ _
  · -- Without a marker the type decides, if it is a name.
    split
    · exact readsWithin_loadTyped each _
    · rintro tree ⟨⟩
    · rintro tree ⟨⟩

end

mutual

/-- A tree is no deeper than the value it is loaded from. -/
theorem height_le_depth (value : Json) {tree : Node} (loaded : ofJson value = .ok tree) :
    tree.height ≤ value.depth := by
  -- The three theorems follow the three functions that load values, items and fields.
  cases value with
  | null | bool | int | number | string | garbled =>
    cases loaded
    exact Nat.zero_le _
  | array items =>
    obtain ⟨trees, found, loaded⟩ := exists_of_bind_eq_ok loaded
    have within := heights_le_depths items found
    cases loaded
    rw [height, Json.depth]
    exact Nat.succ_le_succ within
  | object fields => exact readsWithin_loadObject (height_le_fieldDepths fields) tree loaded

/-- Trees are no deeper than the values they are loaded from. -/
theorem heights_le_depths (values : List Json) {trees : List Node}
    (loaded : ofJsons values = .ok trees) :
    heights trees ≤ Json.depths values := by
  cases values with
  | nil =>
    cases loaded
    exact Nat.zero_le _
  | cons first rest =>
    obtain ⟨tree, found, loaded⟩ := exists_of_bind_eq_ok loaded
    obtain ⟨others, foundOthers, loaded⟩ := exists_of_bind_eq_ok loaded
    have within := height_le_depth first found
    have withinOthers := heights_le_depths rest foundOthers
    cases loaded
    rw [heights, Json.depths]
    omega

/-- What a field describes is no deeper than the fields it stands among. -/
theorem height_le_fieldDepths (fields : List (Text × Json)) {name : Text} {tree : Node}
    (found : (ofFields fields).lookup name = some (.ok tree)) :
    tree.height ≤ Json.fieldDepths fields := by
  match fields with
  | [] => cases found
  | (other, value) :: rest =>
    rw [ofFields, lookup_cons] at found
    rw [Json.fieldDepths]
    split at found
    · have within := height_le_depth value (Option.some.inj found)
      omega
    · have within := height_le_fieldDepths rest found
      omega

end

/-- Whether a tree can be stored, and loading what is stored gives it back. -/
def Reloads [Host] (tree : Node) : Prop :=
  ∃ stored, tree.toJson? = some stored ∧ ofJson stored = .ok tree

/-- What can be stored is loaded again as it was. -/
theorem ofJson_of_toJson? [Host] {tree : Node} {stored : Json}
    (storable : tree.toJson? = some stored) :
    ofJson stored = .ok tree := by
  unfold toJson? at storable
  split at storable
  · cases storable
    exact ofJson_toJson tree
  · cases storable

/-- A tree can be stored and loaded again exactly if it nests within the limit. -/
theorem reloads_iff [Host] (tree : Node) : tree.Reloads ↔ tree.height ≤ nestingLimit := by
  constructor
  · rintro ⟨stored, storable, _⟩
    unfold toJson? at storable
    split at storable
    · assumption
    · cases storable
  · intro within
    exact ⟨tree.toJson, if_pos within, ofJson_toJson tree⟩

/-- A value that is loaded and stored again. -/
def recode? [Host] (value : Json) : Option Json :=
  (ofJson value).toOption.bind toJson?

/--
Loading undoes storing, on the whole of the syntax.

Every tree within the limit on nesting can be stored, and it is loaded again as it was; nothing
but the limit is in the way. The same holds of every tree that a value within the limit
describes, however odd that value is, and so of every tree that a text describes. What is loaded
and stored again does not change when that is repeated.
-/
theorem storing_reloads [Host] :
    (∀ tree : Node, tree.Reloads ↔ tree.height ≤ nestingLimit) ∧
      (∀ (value : Json) (tree : Node), ofJson value = .ok tree → value.depth ≤ nestingLimit →
        tree.Reloads) ∧
      (∀ (text : String) (tree : Node), loadTree text = .ok tree → tree.Reloads) ∧
      ∀ value stored : Json, recode? value = some stored → recode? stored = some stored := by
  refine ⟨reloads_iff, ?_, ?_, ?_⟩
  · intro value tree loaded within
    exact (reloads_iff tree).mpr (Nat.le_trans (height_le_depth value loaded) within)
  · -- A text is read within the limit, so its value is one of those.
    intro text tree loaded
    unfold loadTree at loaded
    cases read : Json.read text with
    | error cause =>
      rw [read] at loaded
      cases cause <;> cases loaded
    | ok value =>
      rw [read] at loaded
      cases same : ofJson value with
      | error =>
        simp only [same] at loaded
        cases loaded
      | ok found =>
        simp only [same] at loaded
        cases loaded
        exact (reloads_iff tree).mpr
          (Nat.le_trans (height_le_depth value same) (Json.depth_of_read read))
  · intro value stored recoded
    obtain ⟨tree, _, storable⟩ := Option.bind_eq_some_iff.mp recoded
    rw [recode?, ofJson_of_toJson? storable]
    exact storable

/-- A block over the characters of a text, with a field that nothing asks for, is a
tree that reloads. -/
theorem storing_reloads_characters :
    ofJson (.object [("extra", .array []), ("type", .string "Block"),
      ("statements", .string "if")]) =
        .ok (block [string "i", string "f"]) ∧
      (block [string "i", string "f"]).Reloads := by
  have loaded :
      ofJson (.object [("extra", .array []), ("type", .string "Block"),
      ("statements", .string "if")]) =
      .ok (block [string "i", string "f"]) := rfl
  exact ⟨loaded, storing_reloads.2.1 _ _ loaded (by decide)⟩

/-- The sum of a one and so many others, as it is stored. -/
def sumOfOnes : Nat → Node
  | 0 => literal (number 1)
  | count + 1 =>
    binary (sumOfOnes count) (token .plus (.string "+") .null (.int 1)) (literal (number 1))

/-- A sum has a level for each of its signs. -/
theorem lt_height_sumOfOnes (count : Nat) : count < (sumOfOnes count).height := by
  induction count with
  | zero => decide
  | succ count ih =>
    rw [sumOfOnes, height]
    omega

/-- A program of one sum with more signs than the limit cannot be stored. -/
theorem toJson?_sumOfOnes [Host] {count : Nat} (long : nestingLimit ≤ count) :
    (list [expression (sumOfOnes count)]).toJson? = none := by
  have deep := lt_height_sumOfOnes count
  refine if_neg ?_
  simp only [height, heights]
  omega

/-- The sum of four thousand and one ones nests too deeply to be stored. -/
theorem long_sum_not_storable : (list [expression (sumOfOnes 4000)]).toJson? = none :=
  toJson?_sumOfOnes (by decide)

end LoxLang.Node
