import Mathlib.Data.List.Basic
import LoxLang.Proofs.Family.Rules
import LoxLang.Proofs.Family.Spacing

/-!
Node types written as texts: what is written is made of the parts that the node type is
derived from.
-/

namespace LoxLang

/-- Letters and digits are no white space. -/
theorem Blank.isBlank_of_isAlphanumeric {c : Char} (is : isAlphanumeric c = true) :
    isBlank c = false := by
  -- All of them lie between two code points that no range of white space reaches into.
  have bounds : 0x30 ≤ c.toNat ∧ c.toNat ≤ 0x7a := by
    simp only [isAlphanumeric, isAlpha, isDigit, Bool.or_eq_true, Bool.and_eq_true,
      decide_eq_true_eq, beq_iff_eq, Char.le_def, UInt32.le_iff_toNat_le] at is
    rcases is with ((⟨low, high⟩ | ⟨low, high⟩) | rfl) | ⟨low, high⟩
    · exact ⟨Nat.le_trans (by decide) low, Nat.le_trans high (by decide)⟩
    · exact ⟨Nat.le_trans (by decide) low, Nat.le_trans high (by decide)⟩
    · decide
    · exact ⟨Nat.le_trans (by decide) low, Nat.le_trans high (by decide)⟩
  have outside : ∀ range ∈ ranges, range.2 < 0x30 ∨ 0x7a < range.1 := by decide
  rw [isBlank, List.any_eq_false]
  intro range listed
  have apart := outside range listed
  simp only [Bool.and_eq_true, decide_eq_true_eq]
  omega

/-- A text that neither begins nor ends with white space is left as it is. -/
theorem Blank.strip_eq_self {cs : List Char} (first : ∀ c ∈ cs.head?, isBlank c = false)
    (last : ∀ c ∈ cs.getLast?, isBlank c = false) : strip cs = cs := by
  -- Nothing is dropped from either end.
  have kept {ds : List Char} (stops : ∀ c ∈ ds.head?, isBlank c = false) :
      ds.dropWhile isBlank = ds := by
    cases ds with
    | nil => rfl
    | cons d ds => rw [List.dropWhile_cons_of_neg (by simp [stops d rfl])]
  rw [strip, kept first, kept (by simpa using last), List.reverse_reverse]

namespace Family

/-- A name is made of letters and digits. -/
theorem IsName.isAlphanumeric {text : String} (is : IsName text) :
    ∀ c ∈ text.toList, isAlphanumeric c = true := by
  obtain ⟨first, more, written, alpha, all⟩ := is
  rw [written]
  simpa [LoxLang.isAlphanumeric, alpha] using all

/-- What begins with a name does not begin with white space. -/
theorem IsName.isBlank_head {text : String} (is : IsName text) {cs : List Char}
    (lead : text.toList <+: cs) :
    ∀ c ∈ cs.head?, Blank.isBlank c = false := by
  have all := is.isAlphanumeric
  obtain ⟨first, more, written, _⟩ := is
  obtain ⟨rest, rfl⟩ := lead
  have blank := Blank.isBlank_of_isAlphanumeric (all first (by simp [written]))
  simpa [written] using blank

/-- What ends with a name does not end with white space. -/
theorem IsName.isBlank_getLast {text : String} (is : IsName text) {cs : List Char}
    (trail : text.toList <:+ cs) :
    ∀ c ∈ cs.getLast?, Blank.isBlank c = false := by
  intro c ends
  obtain ⟨before, rfl⟩ := trail
  -- A name is not empty, so the last character belongs to it.
  have filled : text.toList ≠ [] := by
    obtain ⟨_, _, written, _⟩ := is
    simp [written]
  rw [List.getLast?_append_of_ne_nil _ filled] at ends
  exact Blank.isBlank_of_isAlphanumeric (is.isAlphanumeric c (List.mem_of_getLast? ends))

/-- Whether a text is made of the given parts in front of all that does not continue a name. -/
def Spells (parts : List Lexeme) (cs : List Char) : Prop :=
  ∀ others rest, Spaced others rest → (∀ c ∈ rest.head?, isAlphanumeric c = false) →
    Spaced (parts ++ others) (cs ++ rest)

/-- Nothing but a letter or a digit continues a name. -/
theorem stops_before {c : Char} (other : isAlphanumeric c = false) (rest : List Char) :
    ∀ d ∈ (c :: rest).head?, isAlphanumeric d = false := by
  simpa using other

/-- Texts with a comma and a blank between two are made of the parts of each, with a
comma between two. -/
theorem spells_joined {α : Type} {lexemes : α → List Lexeme} {text : α → List Char} {items : List α}
    (filled : items ≠ []) (each : ∀ item ∈ items, Spells (lexemes item) (text item)) :
    Spells (joined (items.map lexemes)) ([',', ' '].intercalate (items.map text)) := by
  induction items with
  | nil => exact absurd rfl filled
  | cons item items ih =>
    have first := each item (by simp)
    cases items with
    | nil => simpa [joined_singleton] using first
    | cons next items =>
      intro others rest spaced ends
      have later :=
        ih (by simp) (fun item member => each item (by simp [member])) others rest spaced ends
      -- The comma ends the first text, and the blank belongs to nothing.
      have behind :=
        first _ _ (.part .comma trivial trivial (.blank (.inl rfl) later))
          (stops_before (by decide) _)
      rw [List.map_cons, joined_cons _ (by simp)]
      simpa [Lexeme.chars, List.intercalate_cons_cons] using behind

/-- A part as it is written in a type: a blank stands behind a comma, and nowhere else. -/
def Lexeme.normal : Lexeme → List Char
  | comma => [',', ' ']
  | part => part.chars

/-- Between lists of parts in a type stand a comma and a blank. -/
theorem flatMap_normal_joined (items : List (List Lexeme)) :
    (joined items).flatMap Lexeme.normal =
      [',', ' '].intercalate (items.map (·.flatMap Lexeme.normal)) := by
  induction items with
  | nil => rfl
  | cons item items ih =>
    cases items with
    | nil => simp [joined_singleton]
    | cons next items =>
      rw [joined_cons item (by simp), List.flatMap_append, List.flatMap_cons, ih]
      simp [Lexeme.normal, List.intercalate_cons_cons]

namespace FieldType

/-- The texts of several types are those of each in turn. -/
theorem texts_eq_map (types : List FieldType) : texts types = types.map text := by
  induction types with
  | nil => rfl
  | cons first rest ih => rw [texts, ih, List.map_cons]

/-- The arguments of a type are written in brackets, with a comma and a blank between two. -/
theorem toList_text_named (name : String) {arguments : List FieldType} (filled : arguments ≠ []) :
    (named name arguments).text.toList =
      name.toList ++ '[' :: [',', ' '].intercalate (arguments.map (·.text.toList)) ++ [']'] := by
  obtain ⟨first, rest, rfl⟩ := List.exists_cons_of_ne_nil filled
  rw [text, texts_eq_map, ← List.map_cons]
  simp [String.toList_intercalate, Function.comp_def]

/-- The text of a type is its parts in a row, with a blank behind each comma. -/
theorem toList_text (type : FieldType) : type.text.toList = type.lexemes.flatMap Lexeme.normal := by
  induction type with
  | ellipsis => rfl
  | named name arguments ih =>
    by_cases empty : arguments = []
    · subst empty
      simp [text, lexemes, Lexeme.normal, Lexeme.chars]
    · have inner : arguments.map (·.text.toList) =
          (arguments.map lexemes).map (·.flatMap Lexeme.normal) := by
        rw [List.map_map]
        exact List.map_congr_left ih
      rw [toList_text_named name empty, lexemes_named name empty, inner, ← flatMap_normal_joined]
      simp [Lexeme.normal, Lexeme.chars]

/-- The text of a type is made of its parts. -/
theorem spells_text (type : FieldType) (proper : ∀ part ∈ type.lexemes, part.Proper) :
    Spells type.lexemes type.text.toList := by
  induction type with
  | ellipsis => exact fun _ _ spaced _ => .part .ellipsis trivial trivial spaced
  | named name arguments ih =>
    intro others rest spaced ends
    by_cases empty : arguments = []
    · subst empty
      exact .part (.name name) (proper (.name name) (by simp [lexemes])) ends spaced
    · rw [lexemes_named name empty] at proper ⊢
      rw [toList_text_named name empty]
      have all := spells_joined empty fun argument member =>
        ih argument member fun part inside =>
          proper part (by simp [mem_joined (List.mem_map_of_mem member) inside])
      -- From behind: the bracket that closes, the arguments, the bracket that opens, and the name.
      have closing := all _ _ (.part .closing trivial trivial spaced) (stops_before (by decide) _)
      have opening := Spaced.part .opening trivial trivial closing
      have whole :=
        Spaced.part (.name name) (proper (.name name) (by simp))
          (stops_before (by decide) _) opening
      simpa [Lexeme.chars] using whole

end FieldType

/-- A field as it is written: its type, a blank and its name. -/
def Field.text (field : Field) : String :=
  field.type.text ++ " " ++ field.name

/-- A field ends with its name. -/
theorem Field.name_suffix_text (field : Field) : field.name.toList <:+ field.text.toList := by
  rw [text, String.toList_append]
  exact List.suffix_append _ _

/-- A node type as it is written: its name, a colon and its fields, with a comma and
a blank between two. -/
def NodeSpec.text (spec : NodeSpec) : String :=
  spec.name ++ " : " ++ ", ".intercalate (spec.fields.map Field.text)

/-- The text of a field is made of its parts. -/
theorem Field.spells_text (field : Field) (proper : ∀ part ∈ field.lexemes, part.Proper) :
    Spells field.lexemes field.text.toList := by
  intro others rest spaced ends
  -- The blank ends the type.
  have name := Spaced.part (.name field.name) (proper _ (by simp [lexemes])) ends spaced
  have whole :=
    field.type.spells_text (fun part member => proper part (by simp [lexemes, member])) _ _
      (.blank (.inl rfl) name) (stops_before (by decide) _)
  simpa [lexemes, text, Lexeme.chars] using whole

namespace NodeSpec

variable {spec : NodeSpec} (filled : spec.fields ≠ []) (proper : ∀ part ∈ spec.lexemes, part.Proper)

include filled proper

/-- The text of a node type is made of its parts. -/
theorem spaced_text : Spaced spec.lexemes spec.text.toList := by
  have fields := spells_joined filled fun field listed =>
    field.spells_text fun part member => proper part (mem_lexemes listed member)
  have behind := fields [] [] .none (by simp)
  have colon := Spaced.blank (.inl rfl) (.part .colon trivial trivial (.blank (.inl rfl) behind))
  have whole :=
    Spaced.part (.name spec.name) (proper _ (by simp [lexemes])) (stops_before (by decide) _) colon
  simpa [lexemes, text, Lexeme.chars, String.toList_intercalate, Function.comp_def] using whole

/-- The text of a node type has no white space at its ends. -/
theorem strip_text : Blank.strip spec.text.toList = spec.text.toList := by
  -- It begins with the name of the node type, and ends with the name of the last field.
  have named : IsName spec.name := proper (.name spec.name) (by simp [lexemes])
  obtain ⟨before, last, same⟩ := (List.eq_nil_or_concat spec.fields).resolve_left filled
  have listed : last ∈ spec.fields := by simp [same]
  have lastNamed : IsName last.name :=
    proper (.name last.name) (mem_lexemes listed (by simp [Field.lexemes]))
  have lead : spec.name.toList <+: spec.text.toList := by simp [text, List.append_assoc]
  have inFields : last.text.toList <:+ (", ".intercalate (spec.fields.map Field.text)).toList := by
    rw [String.toList_intercalate, same, List.concat_eq_append, List.map_append, List.map_append,
      List.map_singleton, List.map_singleton, intercalate_concat]
    exact List.suffix_append _ _
  have inText : (", ".intercalate (spec.fields.map Field.text)).toList <:+ spec.text.toList := by
    rw [text, String.toList_append]
    exact List.suffix_append _ _
  have trail := last.name_suffix_text.trans (inFields.trans inText)
  exact Blank.strip_eq_self (named.isBlank_head lead) (lastNamed.isBlank_getLast trail)

end NodeSpec

end Family

end LoxLang
