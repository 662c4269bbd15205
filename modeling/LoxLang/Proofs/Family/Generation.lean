import Mathlib.Algebra.BigOperators.Group.List.Basic
import LoxLang.Proofs.Family.Offences

/-!
The text of a module tells which node types it was written from.

Its lines are found again in the text, its classes by their first lines, and the fields of each
class by the lines behind.
-/

namespace LoxLang.Family

/-- Whether a text can name a class: it holds neither a line end nor what follows
the name of a class. -/
def Bare (text : String) : Prop :=
  ∀ c ∈ text.toList, c ≠ '\n' ∧ c ≠ '(' ∧ c ≠ ':'

/-- A name is bare. -/
theorem IsName.bare {text : String} (is : IsName text) : Bare text := by
  intro c member
  have inside := is.isAlphanumeric c member
  refine ⟨?_, ?_, ?_⟩
  all_goals
    rintro rfl
    exact absurd inside (by decide)

/-- A node type whose parts can be written has a name. -/
theorem NodeSpec.isName {spec : NodeSpec} (proper : ∀ part ∈ spec.lexemes, part.Proper) :
    IsName spec.name :=
  proper (.name spec.name) (by simp [lexemes])

/-- The fields of a node type whose parts can be written have names, and types whose
parts can be written. -/
theorem NodeSpec.proper_field {spec : NodeSpec} (proper : ∀ part ∈ spec.lexemes, part.Proper)
    {field : Field} (listed : field ∈ spec.fields) :
    IsName field.name ∧ ∀ part ∈ field.type.lexemes, part.Proper := by
  have parts : ∀ part ∈ field.lexemes, part.Proper :=
    fun part inside => proper part (mem_lexemes listed inside)
  exact ⟨parts (.name field.name) (by simp [Field.lexemes]), fun part inside =>
    parts part (by simp [Field.lexemes, inside])⟩

/-- Whether the names of node types, of their fields and of their types are names,
and bases are bare. -/
structure Described.Proper (described : Described) : Prop where
  bare : ∀ family ∈ described, Bare family.1
  named : ∀ family ∈ described, ∀ spec ∈ family.2, ∀ part ∈ spec.lexemes, part.Proper

/-- What holds for all families holds for those behind the first. -/
theorem Described.Proper.of_cons {family : String × List NodeSpec} {described : Described}
    (proper : Described.Proper (family :: described)) : described.Proper :=
  ⟨fun family member => proper.bare family (by simp [member]), fun family member =>
    proper.named family (by simp [member])⟩

/-- The lines of a module behind its header. -/
def moduleLines (described : Described) : List String :=
  described.flatMap fun (base, specs) => baseLines base ++ specs.flatMap (specLines base)

/-- The lines of a family stand in front of those of the others. -/
theorem moduleLines_cons (family : String × List NodeSpec) (described : Described) :
    moduleLines (family :: described) =
      baseLines family.1 ++ (family.2.flatMap (specLines family.1) ++ moduleLines described) := by
  rw [moduleLines, List.flatMap_cons, List.append_assoc]
  rfl

/-- The name of the class that a line begins, if it begins one. -/
def className? : List Char → Option String
  | 'c' :: 'l' :: 'a' :: 's' :: 's' :: ' ' :: rest =>
    some (String.ofList (rest.takeWhile fun c => c != '(' && c != ':'))
  | _ => none

/-- The names of the classes that a text defines, line by line. -/
def classNames (text : String) : List String :=
  (text.toList.splitOn '\n').filterMap className?

section Lines

/-- Lines are found again in the text that they make up, with an empty one behind them. -/
theorem splitOn_unlines {lines : List String} (free : ∀ line ∈ lines, '\n' ∉ line.toList) :
    (unlines lines).toList.splitOn '\n' = lines.map String.toList ++ [[]] := by
  -- Each line ends with a line end, as all but the last of lines that are joined by one.
  have joined : (unlines lines).toList = ['\n'].intercalate (lines.map String.toList ++ [[]]) := by
    rw [intercalate_concat, unlines, String.toList_join, List.flatMap_map, List.flatMap_map,
      List.append_nil]
    simp
  rw [joined, List.splitOn_intercalate '\n' _ (by simp)]
  simpa [or_imp, forall_and] using free

/-- No two lists of lines make up the same text. -/
theorem unlines_injective {lines others : List String} (free : ∀ line ∈ lines, '\n' ∉ line.toList)
    (otherFree : ∀ line ∈ others, '\n' ∉ line.toList) (same : unlines lines = unlines others) :
    lines = others := by
  have split := congrArg (fun text : String => text.toList.splitOn '\n') same
  simp only [splitOn_unlines free, splitOn_unlines otherFree] at split
  exact List.map_injective_iff.mpr (fun _ _ => String.toList_injective)
    (List.append_cancel_right split)

/-- Texts of lines one behind the other are the text of all lines. -/
theorem unlines_append (lines others : List String) :
    unlines (lines ++ others) = unlines lines ++ unlines others := by
  rw [unlines, List.map_append, String.join_append, unlines, unlines]

/-- The header of a module is made of lines, none of which begins a class. -/
theorem moduleHeader_eq :
    ∃ header, moduleHeader = unlines header ∧ (∀ line ∈ header, '\n' ∉ line.toList) ∧
      header.filterMap (fun line => className? line.toList) = [] := by
  refine ⟨_, rfl, ?_, ?_⟩
  · simp
  · simp [className?]

end Lines

section Names

/-- A name is found behind the word that begins a class, up to the mark that follows it. -/
theorem className?_class {name : String} (bare : Bare name) {mark : Char}
    (is : mark = '(' ∨ mark = ':') (rest : List Char) :
    className? ("class ".toList ++ (name.toList ++ mark :: rest)) = some name := by
  have passes : ∀ c ∈ name.toList, (c != '(' && c != ':') = true := by
    intro c member
    have marks := bare c member
    simp [marks]
  have stops : ¬(mark != '(' && mark != ':') = true := by
    rcases is with rfl | rfl
    · decide
    · decide
  -- The name holds neither mark, so the run ends exactly behind it.
  have run : (name.toList ++ mark :: rest).takeWhile (fun c => c != '(' && c != ':') =
      name.toList := by
    rw [List.takeWhile_append_of_pos passes, List.takeWhile_cons, if_neg stops, List.append_nil]
  change some (String.ofList ((name.toList ++ mark :: rest).takeWhile fun c =>
    c != '(' && c != ':')) = some name
  rw [run, String.ofList_toList]

/-- Of the lines of a shared class, the first behind the lead names it. -/
theorem filterMap_baseLines {base : String} (bare : Bare base) :
    (baseLines base).filterMap (fun line => className? line.toList) = [base] := by
  have named : className? ("class " ++ base ++ ":").toList = some base := by
    simpa using className?_class bare (.inr rfl) []
  have other : className? ("    \"\"\"Base class for all " ++ base ++ " nodes.\"\"\"").toList =
      none := by
    rw [String.toList_append, String.toList_append]
    rfl
  simp only [baseLines, List.filterMap_append, List.filterMap_cons, List.filterMap_nil,
    named, other]
  rfl

/-- Of the lines of the class of a node type, the first behind the lead names it, and its
fields name no class. -/
theorem filterMap_specLines {spec : NodeSpec} (bare : Bare spec.name) (base : String) :
    (specLines base spec).filterMap (fun line => className? line.toList) = [spec.name] := by
  have named : className? ("class " ++ spec.name ++ "(" ++ base ++ "):").toList =
      some spec.name := by
    simpa using className?_class bare (.inl rfl) (base.toList ++ "):".toList)
  -- The lines of fields are indented, so they do not begin a class.
  have other (field : Field) : className? ("    " ++ field.name ++ ": " ++ field.type.text).toList =
      none := by
    rw [String.toList_append, String.toList_append, String.toList_append]
    rfl
  simp only [specLines, List.filterMap_append, List.filterMap_cons, List.filterMap_nil, named,
    List.filterMap_map, Function.comp_def, other, List.filterMap_none, List.append_nil]
  rfl

end Names

/-- No character of a part that can be written ends a line. -/
theorem Lexeme.not_mem_normal {part : Lexeme} (proper : part.Proper) : '\n' ∉ part.normal := by
  cases part with
  | name text => exact fun member => (proper.bare '\n' member).1 rfl
  | colon | comma | opening | closing | ellipsis => decide

/-- No line of a module ends before its end. -/
theorem not_mem_moduleLines {described : Described} (proper : described.Proper) :
    ∀ line ∈ moduleLines described, '\n' ∉ line.toList := by
  -- Names and bases are bare, and the text of a type is made of its parts.
  have typed {type : FieldType} (named : ∀ part ∈ type.lexemes, part.Proper) :
      '\n' ∉ type.text.toList := by
    rw [type.toList_text]
    intro member
    obtain ⟨part, listed, inside⟩ := List.mem_flatMap.mp member
    exact Lexeme.not_mem_normal (named part listed) inside
  have free {text : String} (bare : Bare text) : '\n' ∉ text.toList :=
    fun member => (bare '\n' member).1 rfl
  intro line listed
  obtain ⟨⟨base, specs⟩, member, inFamily⟩ := List.mem_flatMap.mp listed
  have bare := free (proper.bare _ member)
  -- A line is one of the base or one of a node type.
  rcases List.mem_append.mp inFamily with shared | own
  · simp only [baseLines, classLead, List.cons_append, List.nil_append, List.mem_cons,
      List.not_mem_nil, or_false] at shared
    rcases shared with rfl | rfl | rfl | rfl | rfl
    all_goals simp [bare]
  · obtain ⟨spec, among, inClass⟩ := List.mem_flatMap.mp own
    have named := proper.named _ member spec among
    have specBare := free (NodeSpec.isName named).bare
    simp only [specLines, classLead, List.cons_append, List.nil_append, List.mem_cons, List.mem_map]
      at inClass
    rcases inClass with rfl | rfl | rfl | rfl | ⟨field, among, rfl⟩
    · simp
    · simp
    · simp
    · simp [bare, specBare]
    · obtain ⟨fieldNamed, typeProper⟩ := NodeSpec.proper_field named among
      have fieldBare := free fieldNamed.bare
      have typeBare := typed typeProper
      simp [fieldBare, typeBare]

/-- A node type with one field of the given type. -/
def singleSpec (type : FieldType) : NodeSpec :=
  { name := "A", fields := [{ type, name := "z" }] }

/-- The text of such a node type is that of the type with the names around it. -/
theorem singleSpec_text (type : FieldType) :
    (singleSpec type).text = "A : " ++ type.text ++ " z" := by
  rw [singleSpec, NodeSpec.text, List.map_singleton, Field.text, ← String.toList_inj]
  simp

/-- If the type can be written, the node type is described by its text. -/
theorem describes_singleSpec {type : FieldType} (proper : ∀ part ∈ type.lexemes, part.Proper) :
    Describes (singleSpec type).text (singleSpec type) := by
  have first : IsName "A" := ⟨'A', [], rfl, by decide, by simp⟩
  have last : IsName "z" := ⟨'z', [], rfl, by decide, by simp⟩
  refine NodeSpec.describes_text (by simp [singleSpec]) ?_
  rw [NodeSpec.lexemes, singleSpec, List.map_singleton, joined_singleton, Field.lexemes]
  simpa [or_imp, forall_and, Lexeme.Proper, first, last] using proper

/-- No two types that can be written are written the same. -/
theorem FieldType.text_injective {type other : FieldType}
    (proper : ∀ part ∈ type.lexemes, part.Proper)
    (otherProper : ∀ part ∈ other.lexemes, part.Proper) (same : type.text = other.text) :
    type = other := by
  -- One line would describe two node types.
  have first := describes_singleSpec proper
  rw [singleSpec_text, same, ← singleSpec_text] at first
  have specs := first.unique (describes_singleSpec otherProper)
  simpa [singleSpec] using specs

/-- The line of a field in the class of its node type. -/
def fieldLine (field : Field) : String :=
  "    " ++ field.name ++ ": " ++ field.type.text

/-- No two fields that can be written have the same line. -/
theorem fieldLine_injective {field other : Field} (named : IsName field.name)
    (proper : ∀ part ∈ field.type.lexemes, part.Proper) (otherNamed : IsName other.name)
    (otherProper : ∀ part ∈ other.type.lexemes, part.Proper)
    (same : fieldLine field = fieldLine other) : field = other := by
  -- The name ends at the colon.
  have split : field.name.toList ++ ':' :: ' ' :: field.type.text.toList =
      other.name.toList ++ ':' :: ' ' :: other.type.text.toList := by
    simpa [fieldLine, ← String.toList_inj] using same
  obtain ⟨names, rest⟩ :=
    append_inj_of_stops named.isAlphanumeric otherNamed.isAlphanumeric (stops_before (by decide) _)
      (stops_before (by decide) _) split
  have types :=
    FieldType.text_injective proper otherProper (String.toList_inj.mp (by simpa using rest))
  cases field
  cases other
  simp only [Field.mk.injEq]
  exact ⟨types, String.toList_inj.mp names⟩

/-- The lines of the class of a node type: the lead, the line with its name, and its fields. -/
theorem specLines_eq (base : String) (spec : NodeSpec) :
    specLines base spec =
      classLead ++ ("class " ++ spec.name ++ "(" ++ base ++ "):") :: spec.fields.map fieldLine :=
  rfl

/-- Whether lines are none or begin with a blank one, as the lines of every class do. -/
def BlankFirst (lines : List String) : Prop :=
  ∀ line ∈ lines.head?, line = ""

/-- Where the fields of a class end is determined, as are the fields. -/
theorem fields_append_inj {fields others : List Field} {rest otherRest : List String}
    (proper : ∀ field ∈ fields, IsName field.name ∧ ∀ part ∈ field.type.lexemes, part.Proper)
    (otherProper : ∀ field ∈ others, IsName field.name ∧ ∀ part ∈ field.type.lexemes, part.Proper)
    (ends : BlankFirst rest) (otherEnds : BlankFirst otherRest)
    (same : fields.map fieldLine ++ rest = others.map fieldLine ++ otherRest) :
    fields = others ∧ rest = otherRest := by
  -- No line of a field is blank.
  have indented (field : Field) : fieldLine field ≠ "" := by
    simp [fieldLine, ← String.toList_inj]
  induction fields generalizing others with
  | nil =>
    cases others with
    | nil => exact ⟨rfl, same⟩
    | cons other others =>
      rw [List.map_nil, List.nil_append] at same
      exact absurd (ends (fieldLine other) (by simp [same])) (indented other)
  | cons field fields ih =>
    cases others with
    | nil =>
      rw [List.map_nil, List.nil_append] at same
      exact absurd (otherEnds (fieldLine field) (by simp [← same])) (indented field)
    | cons other others =>
      obtain ⟨first, later⟩ := List.cons.inj same
      obtain ⟨named, typed⟩ := proper field (by simp)
      obtain ⟨otherNamed, otherTyped⟩ := otherProper other (by simp)
      obtain rfl := fieldLine_injective named typed otherNamed otherTyped first
      obtain ⟨rfl, rest⟩ := ih (fun field member => proper field (by simp [member]))
        (fun field member => otherProper field (by simp [member])) later
      exact ⟨rfl, rest⟩

/-- The lines of a module begin with a blank one, if there are any. -/
theorem blankFirst_moduleLines (described : Described) : BlankFirst (moduleLines described) := by
  cases described with
  | nil => simp [BlankFirst, moduleLines]
  | cons family described => simp [BlankFirst, moduleLines, baseLines, classLead]

/-- So do those of node types, and what follows them in a module. -/
theorem blankFirst_specs (base : String) (specs : List NodeSpec) (described : Described) :
    BlankFirst (specs.flatMap (specLines base) ++ moduleLines described) := by
  cases specs with
  | nil => exact blankFirst_moduleLines described
  | cons spec specs => simp [BlankFirst, specLines, classLead]

/-- No module begins like the class of a node type, as the first class of a family
is the shared one. -/
theorem moduleLines_ne_specLines {described : Described} (proper : described.Proper) (base : String)
    (spec : NodeSpec) (rest : List String) :
    moduleLines described ≠ specLines base spec ++ rest := by
  intro same
  cases described with
  | nil => simp [moduleLines, specLines, classLead] at same
  | cons family described =>
    -- The first line behind the lead has a bracket in one of them only.
    have heads : "class " ++ family.1 ++ ":" = "class " ++ spec.name ++ "(" ++ base ++ "):" := by
      have fourth := congrArg (fun lines : List String => lines[3]?) same
      simpa [moduleLines, baseLines, specLines, classLead] using fourth
    have bracket : '(' ∈ ("class " ++ family.1 ++ ":").toList := by
      rw [heads]
      simp
    have bare : '(' ∉ family.1.toList :=
      fun member => (proper.bare family (by simp) '(' member).2.1 rfl
    simp [bare] at bracket

/-- Where the node types of a family end is determined, as are the node types. -/
theorem specs_append_inj {base : String} {specs others : List NodeSpec}
    {described otherDescribed : Described}
    (named : ∀ spec ∈ specs, ∀ part ∈ spec.lexemes, part.Proper)
    (otherNamed : ∀ spec ∈ others, ∀ part ∈ spec.lexemes, part.Proper) (proper : described.Proper)
    (otherProper : otherDescribed.Proper)
    (same : specs.flatMap (specLines base) ++ moduleLines described =
      others.flatMap (specLines base) ++ moduleLines otherDescribed) :
    specs = others ∧ moduleLines described = moduleLines otherDescribed := by
  -- A node type and a base begin differently, so both lists end at the same place.
  induction specs generalizing others with
  | nil =>
    cases others with
    | nil => exact ⟨rfl, same⟩
    | cons other others =>
      rw [List.flatMap_cons, List.append_assoc] at same
      exact absurd same (moduleLines_ne_specLines proper base other _)
  | cons spec specs ih =>
    cases others with
    | nil =>
      rw [List.flatMap_cons, List.append_assoc] at same
      exact absurd same.symm (moduleLines_ne_specLines otherProper base spec _)
    | cons other others =>
      -- Behind the lead stands the line with the name, and behind it the fields.
      have parts : spec.name = other.name ∧
          spec.fields.map fieldLine ++ (specs.flatMap (specLines base) ++ moduleLines described) =
            other.fields.map fieldLine ++
              (others.flatMap (specLines base) ++ moduleLines otherDescribed) := by
        simpa [specLines_eq, classLead] using same
      obtain ⟨fields, rest⟩ :=
        fields_append_inj (fun field => NodeSpec.proper_field (named spec (by simp)))
          (fun field => NodeSpec.proper_field (otherNamed other (by simp)))
          (blankFirst_specs base specs described) (blankFirst_specs base others otherDescribed)
          parts.2
      obtain ⟨rfl, later⟩ := ih (fun spec member => named spec (by simp [member]))
        (fun spec member => otherNamed spec (by simp [member])) rest
      obtain rfl : spec = other := by
        cases spec
        cases other
        rw [NodeSpec.mk.injEq]
        exact ⟨parts.1, fields⟩
      exact ⟨rfl, later⟩

/-- The lines of a module tell which node types it was written from. -/
theorem moduleLines_injective {described others : Described} (proper : described.Proper)
    (otherProper : others.Proper) (same : moduleLines described = moduleLines others) :
    described = others := by
  induction described generalizing others with
  | nil =>
    cases others with
    | nil => rfl
    | cons => simp [moduleLines, baseLines, classLead] at same
  | cons family described ih =>
    cases others with
    | nil => simp [moduleLines, baseLines, classLead] at same
    | cons other others =>
      have rest := proper.of_cons
      have otherRest := otherProper.of_cons
      -- The first line behind the lead has the base, and a line that has it again follows.
      have parts : family.1 = other.1 ∧
          family.2.flatMap (specLines family.1) ++ moduleLines described =
            other.2.flatMap (specLines other.1) ++ moduleLines others := by
        rw [moduleLines_cons, moduleLines_cons] at same
        simpa [baseLines, classLead] using same
      obtain ⟨base, specs⟩ := family
      obtain ⟨otherBase, otherSpecs⟩ := other
      obtain ⟨rfl, lines⟩ := parts
      obtain ⟨rfl, later⟩ :=
        specs_append_inj (proper.named _ (List.mem_cons_self ..))
          (otherProper.named _ (List.mem_cons_self ..)) rest otherRest lines
      rw [ih rest otherRest later]

/-- Behind its header, the text of a module is that of its lines. -/
theorem moduleText_eq (described : Described) :
    moduleText described = moduleHeader ++ unlines (moduleLines described) := by
  have families : String.join (described.map fun (base, specs) => renderFamily base specs) =
      unlines (moduleLines described) := by
    induction described with
    | nil => rfl
    | cons family described ih =>
      rw [List.map_cons, String.join_cons, ih, moduleLines_cons, ← List.append_assoc,
        unlines_append]
      rfl
  rw [moduleText, families]

/-- The text of a module tells which node types it was written from. -/
theorem moduleText_injective {described others : Described} (proper : described.Proper)
    (otherProper : others.Proper) (same : moduleText described = moduleText others) :
    described = others := by
  rw [moduleText_eq, moduleText_eq] at same
  have lines : unlines (moduleLines described) = unlines (moduleLines others) := by
    rw [← String.toList_inj] at same ⊢
    simpa using same
  exact moduleLines_injective proper otherProper
    (unlines_injective (not_mem_moduleLines proper) (not_mem_moduleLines otherProper) lines)

/-- The names of all classes of a module: each base, and behind it its node types. -/
def Described.names (described : Described) : List String :=
  described.flatMap fun (base, specs) => base :: specs.map (·.name)

/-- The classes that a text defines are those it was written from, in order. -/
theorem classNames_moduleText {described : Described} (proper : described.Proper) :
    classNames (moduleText described) = described.names := by
  obtain ⟨header, same, free, unnamed⟩ := moduleHeader_eq
  have lines : ∀ line ∈ header ++ moduleLines described, '\n' ∉ line.toList := by
    intro line listed
    rcases List.mem_append.mp listed with first | second
    · exact free line first
    · exact not_mem_moduleLines proper line second
  -- Of the lines of each family, those that begin a class are left.
  have named : (moduleLines described).filterMap (fun line => className? line.toList) =
      described.names := by
    clear lines
    induction described with
    | nil => rfl
    | cons family described ih =>
      have specs : (family.2.flatMap (specLines family.1)).filterMap
          (fun line => className? line.toList) =
          family.2.map (·.name) := by
        rw [List.filterMap_flatMap, List.map_eq_flatMap]
        exact List.flatMap_congr fun spec listed =>
          filterMap_specLines (NodeSpec.isName (proper.named family (by simp) spec listed)).bare
            family.1
      rw [moduleLines_cons, List.filterMap_append, List.filterMap_append,
        filterMap_baseLines (proper.bare family (by simp)), specs, ih proper.of_cons]
      simp [Described.names]
  rw [classNames, moduleText_eq, same, ← unlines_append, splitOn_unlines lines,
    List.filterMap_append, List.filterMap_map]
  change (header ++ moduleLines described).filterMap (fun line => className? line.toList) ++ [] =
    described.names
  rw [List.append_nil, List.filterMap_append, unnamed, named, List.nil_append]

/-- A base and the node types of its family come apart, but for the order. -/
theorem Described.names_perm (described : Described) :
    described.names.Perm (described.map (·.1) ++ (described.flatMap (·.2)).map (·.name)) := by
  have apart :=
    List.flatMap_append_perm described (fun family => [family.1])
      (fun family => family.2.map (·.name))
  rw [← List.map_eq_flatMap, ← List.map_flatMap] at apart
  exact apart.symm

/-- Blameless lines describe node types of different names, none of which is taken before. -/
theorem nodup_of_blameless [Host] {bases before lines : List String} {specs : List NodeSpec}
    (each : List.Forall₂ Describes lines specs) (blameless : Blameless bases (before ++ lines)) :
    (∀ spec ∈ specs, ¬Taken bases before spec.name) ∧ (specs.map (·.name)).Nodup := by
  induction each generalizing before with
  | nil => simp
  | @cons line spec lines specs described _ ih =>
    obtain ⟨others, distinct⟩ := @ih (before ++ [line]) (by simpa using blameless)
    -- A later name is neither the one that this line takes nor one taken before.
    have apart : ∀ other ∈ specs, other.name ≠ spec.name ∧ ¬Taken bases before other.name := by
      intro other listed
      have free := others other listed
      rwa [taken_concat described, not_or] at free
    have innocent := blameless before line lines rfl
    have own : ¬Taken bases before spec.name := by
      intro taken
      by_cases shallow : spec.Shallow
      · exact innocent _ (.taken described shallow taken)
      · exact innocent _ (.deep described shallow)
    constructor
    · intro other listed
      rcases List.mem_cons.mp listed with rfl | later
      · exact own
      · exact (apart other later).2
    · rw [List.map_cons, List.nodup_cons]
      refine ⟨fun again => ?_, distinct⟩
      obtain ⟨other, listed, same⟩ := List.mem_map.mp again
      exact (apart other listed).1 same

end LoxLang.Family
