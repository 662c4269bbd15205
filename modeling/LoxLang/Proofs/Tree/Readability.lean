import LoxLang.Proofs.Grammar.Completeness
import LoxLang.Proofs.Grammar.Shape
import LoxLang.Proofs.Json.LineEnds
import LoxLang.Proofs.Session.Verdict
import LoxLang.Proofs.Source.Spelling
import LoxLang.Proofs.Tree.Moving
import LoxLang.Proofs.Tree.Printing
import LoxLang.Proofs.Value.Numerals

/-!
The text of a program is unambiguous: programs with the same text are the same but
for the lines of their tokens.

A text is taken apart into words and parentheses in one way only, and from these the
tree is read back.
-/

namespace LoxLang

/-- A token that is on no line. -/
def Token.lineless (t : Token) : Token :=
  { t with line := 0 }

/-- A token means the same on no line. -/
theorem Token.keepsMeaning_lineless : KeepsMeaning Token.lineless :=
  fun _ => ⟨rfl, rfl, rfl⟩

/-- Whether the text of a literal tells what it is, so that it is no name and no other literal. -/
def Value.isTelling : Value → Bool
  | nil | bool _ => true
  | number x => !x.isUndefined && !x.value.isInf
  | string _ | int _ | null | token .. | garbled _ | loaded _ => false

/-- A literal with a telling text is one that a program can compute with. -/
theorem Value.isProper_of_isTelling {value : Value} (telling : value.isTelling = true) :
    value.isProper = true := by
  cases value with
  | nil | bool | number => rfl
  | string | int | null | token | garbled | loaded => cases telling

section

variable {change : Token → Token}

/-- An exchanged token has the same text. -/
theorem Mark.text_mapToken (keeps : KeepsMeaning change) (mark : Mark) :
    (mark.mapToken change).text = mark.text := by
  cases mark with
  | token t => exact congrArg Text.plain (keeps t).2.1
  | data | stray => rfl

/-- A token is written as what it was read from. -/
theorem Mark.escaped_text_token (t : Token) : (Mark.token t).text.escaped = t.lexeme :=
  rfl

/-- Exchanged tokens do not change how an expression is written. -/
theorem Expr.bracketed_mapTokens (keeps : KeepsMeaning change) (e : Expr) :
    (e.mapTokens change).bracketed = e.bracketed := by
  induction e with
  | literal | unknown => rfl
  | use name => rw [mapTokens, bracketed, bracketed, name.text_mapToken keeps]
  | grouping _ ih => rw [mapTokens, bracketed, bracketed, ih]
  | assign name _ ih | unary name _ ih =>
    rw [mapTokens, bracketed, bracketed, ih, name.text_mapToken keeps]
  | binary _ operator _ leftIh rightIh =>
    rw [mapTokens, bracketed, bracketed, leftIh, rightIh, operator.text_mapToken keeps]

mutual

/-- Exchanged tokens do not change how a statement is written. -/
theorem Stmt.bracketed_mapTokens (keeps : KeepsMeaning change) (stmt : Stmt) :
    (stmt.mapTokens change).bracketed = stmt.bracketed := by
  cases stmt with
  | expression inner | print inner =>
    rw [mapTokens, bracketed, bracketed, inner.bracketed_mapTokens keeps]
  | declare name initial =>
    cases initial with
    | none => rw [mapTokens, bracketed, bracketed, name.text_mapToken keeps]
    | some initial =>
      rw [mapTokens, bracketed, bracketed, name.text_mapToken keeps,
        initial.bracketed_mapTokens keeps]
  | block body => rw [mapTokens, bracketed, bracketed, Stmt.allBracketed_mapAllTokens keeps body]
  | unknown => rfl

/-- Exchanged tokens do not change how statements are written. -/
theorem Stmt.allBracketed_mapAllTokens (keeps : KeepsMeaning change) (program : List Stmt) :
    Stmt.allBracketed (Stmt.mapAllTokens change program) = Stmt.allBracketed program := by
  cases program with
  | nil => rfl
  | cons first rest =>
    rw [Stmt.mapAllTokens, Stmt.allBracketed, Stmt.allBracketed, first.bracketed_mapTokens keeps,
      Stmt.allBracketed_mapAllTokens keeps rest]

end

end

/-- The token that a name is read back as. -/
def nameToken (text : String) : Token :=
  { kind := .identifier, lexeme := text, line := 0 }

/-- The token that an operator is read back as. -/
def operatorToken (text : String) : Token :=
  { kind := (symbols.lookup text.toList).getD .eof, lexeme := text, line := 0 }

namespace Bracketed

/-- The expression that a word is read back as: the values with names come first,
then names, then numbers. -/
noncomputable def wordExpr (text : String) : Expr :=
  if text = "nil" then .literal .nil
  else if text = "true" then .literal (.bool true)
  else if text = "false" then .literal (.bool false)
  else if text.toList.head?.any isAlpha then .use (nameToken text)
  else .literal (.number (.ofFloat (Function.invFun Number.text text)))

/-- The expression that a bracketed text is read back as; the head and the number of items
tell the forms apart. -/
noncomputable def toExpr : Bracketed → Expr
  | word text => wordExpr text
  | node head [inner] =>
    if head = "group" then .grouping inner.toExpr else .unary (operatorToken head) inner.toExpr
  | node head [left, right] =>
    if head = "=" then .assign (nameToken left.text) right.toExpr
    else .binary left.toExpr (operatorToken head) right.toExpr
  | node _ _ => .unknown ""

mutual

/-- The statement that a bracketed text is read back as. -/
noncomputable def toStmt : Bracketed → Stmt
  | node ";" [inner] => .expression inner.toExpr
  | node "print" [inner] => .print inner.toExpr
  | node "var" [name] => .declare (nameToken name.text) none
  | node "var" [name, _, initial] => .declare (nameToken name.text) (some initial.toExpr)
  | node "block" items => .block (toStmts items)
  | _ => .unknown ""

/-- The statements that bracketed texts are read back as. -/
noncomputable def toStmts : List Bracketed → List Stmt
  | [] => []
  | first :: rest => first.toStmt :: toStmts rest

end

end Bracketed

/-- A text is one word if its characters are of a class that joins and ends nothing. -/
theorem Bracketed.bare_of_class {text : String} (accepts : Char → Bool)
    (apart : accepts ' ' = false ∧ accepts '(' = false ∧ accepts ')' = false ∧ accepts '\n' = false)
    (all : ∀ c ∈ text.toList, accepts c = true) : Bare text := by
  refine List.all_eq_true.mpr fun c member => ?_
  have known := all c member
  rw [isBare, decide_eq_true_iff]
  intro joint
  simp only [List.mem_cons, List.not_mem_nil, or_false] at joint
  rcases joint with rfl | rfl | rfl | rfl <;> simp [apart] at known

/-- A name is one word, and is read back as a name. -/
theorem IsNameText.wordExpr_eq {text : String} (name : IsNameText text) :
    Bracketed.Bare text ∧ Bracketed.wordExpr text = .use (nameToken text) := by
  refine ⟨Bracketed.bare_of_class isAlphanumeric ⟨rfl, rfl, rfl, rfl⟩ name.continues, ?_⟩
  -- A name is not the word for a value, and it begins with a letter.
  obtain ⟨first, more, written, alpha⟩ := name.begins
  have other := name.unreserved
  rw [Bracketed.wordExpr, if_neg (other ("nil", .kwNil) (by decide)),
    if_neg (other ("true", .kwTrue) (by decide)), if_neg (other ("false", .kwFalse) (by decide)),
    if_pos (by simp [written, alpha])]

/-- A numeral denotes a defined number. -/
theorem IsNumeral.isNaN {chars : List Char} {x : Float} (written : IsNumeral chars x) :
    x.isNaN = false := by
  cases written <;> exact Number.isNaN_ofScientific ..

/-- A number that is defined and finite is one word, and is read back as that number. -/
theorem Number.wordExpr_text {x : Float} (defined : x.isNaN = false) (finite : x.isInf = false) :
    Bracketed.Bare (text x) ∧ Bracketed.wordExpr (text x) = .literal (.number (.ofFloat x)) := by
  have chars : (text x).toList = chars x := String.toList_ofList
  constructor
  · refine Bracketed.bare_of_class isNumeral ⟨rfl, rfl, rfl, rfl⟩ fun c member => ?_
    cases foreign : isNumeral c with
    | true => rfl
    | false => exact absurd (chars ▸ member) (not_mem_chars foreign x)
  · -- The first character is neither a letter nor that of the word for a value.
    obtain ⟨first, rest, written, sign⟩ := head_chars defined finite
    have noLetter : isAlpha first = false := by
      rcases sign with rfl | digit
      · rfl
      · rw [Bool.eq_false_iff]
        intro alpha
        cases (isDigit_of_isAlpha alpha).symm.trans digit
    have other {word : String} (letter : word.toList.head?.any isAlpha = true) : text x ≠ word := by
      rintro rfl
      rw [chars, written] at letter
      simp [noLetter] at letter
    rw [Bracketed.wordExpr, if_neg (other rfl), if_neg (other rfl), if_neg (other rfl),
      if_neg (by simp [chars, written, noLetter]), Function.leftInverse_invFun text_injective]

/-- A literal with a telling text is one word, and is read back as that literal. -/
theorem Value.wordExpr_literalText {value : Value} (telling : value.isTelling = true) :
    Bracketed.Bare value.literalText.escaped ∧
      Bracketed.wordExpr value.literalText.escaped = .literal value := by
  cases value with
  | nil => exact ⟨rfl, if_pos rfl⟩
  | bool truth =>
    cases truth with
    | true => exact ⟨rfl, (if_neg (by decide)).trans (if_pos rfl)⟩
    | false => exact ⟨rfl, (if_neg (by decide)).trans ((if_neg (by decide)).trans (if_pos rfl))⟩
  -- A telling number is defined, so its value gives it back.
  | number x =>
    simp only [isTelling, Bool.and_eq_true, Bool.not_eq_true'] at telling
    have same : x = .ofFloat x.value := Double.eq_of_value telling.1 rfl
    have read := Number.wordExpr_text telling.1 telling.2
    rwa [← same] at read
  | string | int | null | token | garbled | loaded => cases telling

/-- The token of a name is read back from its lexeme. -/
theorem Token.Spelled.nameToken_lexeme {t : Token} (spelled : t.Spelled)
    (is : t.kind = .identifier) :
    nameToken t.lexeme = t.lineless := by
  have literal := spelled.plain (by rw [is]; rfl)
  rcases t with ⟨kind, lexeme, denoted, line⟩
  obtain rfl : kind = .identifier := is
  obtain rfl : denoted = .null := literal
  rfl

/-- Whether tokens of a kind stand for an operator. -/
def Kind.IsOperator (kind : Kind) : Prop :=
  kind ∈ Grammar.prefixOperators ∨ ∃ level : Grammar.Level, kind ∈ level.operators

/-- An operator is a symbol, one word, and not the sign of an assignment. -/
theorem Kind.IsOperator.exists_symbol {kind : Kind} (is : kind.IsOperator) :
    ∃ entry ∈ symbols, kind = entry.2 ∧ entry.1 ≠ ['='] ∧ entry.1.all Bracketed.isBare = true := by
  have prefixes : ∀ kind ∈ Grammar.prefixOperators,
      ∃ entry ∈ symbols, kind = entry.2 ∧ entry.1 ≠ ['='] ∧
        entry.1.all Bracketed.isBare = true := by decide
  rcases is with front | ⟨level, joins⟩
  · exact prefixes kind front
  · revert kind
    cases level <;> decide

/-- An operator is one word, neither that of an assignment nor that of parentheses, and its
token is read back from it. -/
theorem Token.Spelled.operator {t : Token} (spelled : t.Spelled) (is : t.kind.IsOperator) :
    Bracketed.Bare t.lexeme ∧ t.lexeme ≠ "=" ∧ t.lexeme ≠ "group" ∧
      operatorToken t.lexeme = t.lineless := by
  -- Symbols are looked up by their spelling, which has never as many characters as
  -- the head of parentheses.
  have known : ∀ entry ∈ symbols, symbols.lookup entry.1 = some entry.2 := by decide
  have short : ∀ entry ∈ symbols, entry.1.length ≠ 5 := by decide
  have symbolic : ∀ entry ∈ symbols, entry.2.isPlain = true := by decide
  obtain ⟨entry, listed, kind, unlike, bare⟩ := is.exists_symbol
  have lexeme := spelled.symbol entry listed kind
  have literal := spelled.plain (kind ▸ symbolic entry listed)
  refine ⟨?_, ?_, ?_, ?_⟩
  · rw [Bracketed.Bare, lexeme]
    exact bare
  · intro same
    rw [same] at lexeme
    exact unlike lexeme.symm
  · intro same
    rw [same] at lexeme
    exact short entry listed (congrArg List.length lexeme.symm)
  · rw [operatorToken, lexeme, known entry listed, lineless, literal, kind]
    rfl

/-- Whether an expression is read back from the way in which it is written. -/
def Expr.Legible (e : Expr) : Prop :=
  e.bracketed.Plain ∧ e.bracketed.toExpr = e.mapTokens Token.lineless

/-- Every expression of the language with telling literals is read back. -/
theorem Expr.FormedBy.legible {rule : Grammar.Rule} {e : Expr} (formed : e.FormedBy rule)
    (made : e.MadeOf Token.Spelled (·.isTelling)) : e.Legible := by
  -- The heads of parentheses and assignments are no operators, so each head tells
  -- the form of its expression.
  induction formed with
  | literal =>
    cases made with
    | literal telling =>
      obtain ⟨bare, read⟩ := Value.wordExpr_literalText telling
      exact ⟨.word bare, read⟩
  | use isName =>
    cases made with
    | use spelled =>
      obtain ⟨bare, read⟩ := (spelled.name isName).wordExpr_eq
      rw [spelled.nameToken_lexeme isName] at read
      exact ⟨.word bare, read⟩
  | grouping _ ih =>
    cases made with
    | grouping inner =>
      obtain ⟨plain, read⟩ := ih inner
      refine ⟨.node rfl (by simpa using plain), ?_⟩
      rw [bracketed, Bracketed.toExpr, if_pos rfl, read, mapTokens]
  | assign isName _ ih =>
    cases made with
    | assign spelled value =>
      obtain ⟨plain, read⟩ := ih value
      have bare := (spelled.name isName).wordExpr_eq.1
      refine ⟨.node rfl (by simpa using ⟨.word bare, plain⟩), ?_⟩
      rw [bracketed, Bracketed.toExpr, if_pos rfl, read, Bracketed.text_word,
        Mark.escaped_text_token, spelled.nameToken_lexeme isName]
      rfl
  | unary operates _ _ ih =>
    cases made with
    | unary spelled _ operand =>
      obtain ⟨plain, read⟩ := ih operand
      obtain ⟨bare, _, noGroup, token⟩ := spelled.operator (.inl operates)
      refine ⟨.node bare (by simpa using plain), ?_⟩
      rw [bracketed, Bracketed.toExpr, Mark.escaped_text_token, if_neg noGroup, read, token]
      rfl
  | binary operates _ _ _ _ leftIh rightIh =>
    cases made with
    | binary left spelled _ right =>
      obtain ⟨leftPlain, leftRead⟩ := leftIh left
      obtain ⟨rightPlain, rightRead⟩ := rightIh right
      obtain ⟨bare, noAssign, _, token⟩ := spelled.operator (.inr ⟨_, operates⟩)
      refine ⟨.node bare (by simpa using ⟨leftPlain, rightPlain⟩), ?_⟩
      rw [bracketed, Bracketed.toExpr, Mark.escaped_text_token, if_neg noAssign, leftRead,
        rightRead, token]
      rfl

/-- Whether a statement is read back from the way in which it is written, which is
more than nothing. -/
def Stmt.Legible (stmt : Stmt) : Prop :=
  (stmt.bracketed.Plain ∧ stmt.bracketed.chars ≠ []) ∧
    stmt.bracketed.toStmt = stmt.mapTokens Token.lineless

/-- Statements are read back together if each of them is. -/
theorem Stmt.toStmts_allBracketed {program : List Stmt} (each : ∀ stmt ∈ program, stmt.Legible) :
    (∀ item ∈ Stmt.allBracketed program, item.Plain ∧ item.chars ≠ []) ∧
      Bracketed.toStmts (Stmt.allBracketed program) = Stmt.mapAllTokens Token.lineless program := by
  induction program with
  | nil => exact ⟨by simp [Stmt.allBracketed], rfl⟩
  | cons first rest ih =>
    rw [List.forall_mem_cons] at each
    obtain ⟨⟨written, read⟩, others⟩ := each
    obtain ⟨restWritten, restRead⟩ := ih others
    rw [Stmt.allBracketed, List.forall_mem_cons, Bracketed.toStmts, Stmt.mapAllTokens, read,
      restRead]
    exact ⟨⟨written, restWritten⟩, rfl⟩

/-- Every statement of the language with telling literals is read back. -/
theorem Stmt.WellFormed.legible {stmt : Stmt} (formed : stmt.WellFormed)
    (made : stmt.MadeOf Token.Spelled (·.isTelling)) : stmt.Legible := by
  -- Declarations with and without a value share their head, and differ in the number of items.
  induction formed with
  | expression inner =>
    cases made with
    | expression parts =>
      obtain ⟨plain, read⟩ := inner.legible parts
      refine ⟨⟨.node rfl (by simpa using plain), Bracketed.chars_node_ne_nil _ _⟩, ?_⟩
      rw [bracketed, Bracketed.toStmt, read, mapTokens]
  | print inner =>
    cases made with
    | print parts =>
      obtain ⟨plain, read⟩ := inner.legible parts
      refine ⟨⟨.node rfl (by simpa using plain), Bracketed.chars_node_ne_nil _ _⟩, ?_⟩
      rw [bracketed, Bracketed.toStmt, read, mapTokens]
  | declare isName =>
    cases made with
    | declare spelled =>
      have bare := (spelled.name isName).wordExpr_eq.1
      refine ⟨⟨.node rfl (by simpa using .word bare), Bracketed.chars_node_ne_nil _ _⟩, ?_⟩
      rw [bracketed, Bracketed.toStmt, Bracketed.text_word, Mark.escaped_text_token,
        spelled.nameToken_lexeme isName]
      rfl
  | declareAs isName initial =>
    cases made with
    | declareAs spelled parts =>
      obtain ⟨plain, read⟩ := initial.legible parts
      have bare := (spelled.name isName).wordExpr_eq.1
      refine ⟨⟨.node rfl (by simpa using ⟨.word bare, .word rfl, plain⟩),
        Bracketed.chars_node_ne_nil _ _⟩, ?_⟩
      rw [bracketed, Bracketed.toStmt, Bracketed.text_word, Mark.escaped_text_token,
        spelled.nameToken_lexeme isName, read]
      rfl
  -- The statements of a block are items of one list, read one after the other.
  | block _ ih =>
    cases made with
    | block parts =>
      obtain ⟨written, read⟩ := Stmt.toStmts_allBracketed fun stmt member =>
        ih stmt member (parts stmt member)
      refine ⟨⟨.node rfl fun item member => (written item member).1,
        Bracketed.chars_node_ne_nil _ _⟩, ?_⟩
      rw [bracketed, Bracketed.toStmt, read, mapTokens]

/--
Whether the text of a program tells what the program is.

Its source has no mistake, its literals are neither strings nor beyond the greatest number, and it
is not too deep to print.
-/
structure TextTells [Host] (source : String) : Prop where
  clean : sourceDiagnostics source = []
  unquoted : ∀ t ∈ scanTokens source, t.kind ≠ .string
  finite : ∀ t ∈ scanTokens source, ∀ x, t.literal = .number x → x.value.isInf = false
  shallow : (Node.ofProgram (parseSource source)).height ≤ nestingLimit

namespace TextTells

variable [Host] {source : String} (tells : TextTells source)

include tells

/-- The tokens of the source are spelled as their kinds ask, and stand for telling literals. -/
theorem supplies : Supplies Token.Spelled (·.isTelling) (scanTokens source) := by
  intro t member
  have spelled := spelled_of_mem_scanTokens member
  refine ⟨spelled, fun value stands => ?_⟩
  cases is : t.kind with
  | kwTrue | kwFalse | kwNil =>
    simp only [Token.constant?, is, Option.some.injEq] at stands
    subst stands
    rfl
  | string => exact absurd is (tells.unquoted t member)
  | number =>
    -- A numeral denotes a defined number, so it is telling unless it is infinite.
    obtain ⟨x, written, literal⟩ := spelled.number is
    have defined : (Double.ofFloat x).isUndefined = false := written.isNaN
    simp only [Token.constant?, is, Option.some.injEq] at stands
    subst stands
    rw [literal, Value.isTelling, defined, tells.finite t member _ literal]
    rfl
  | _ => simp [Token.constant?, is] at stands

/-- The statements of the program are read back, and the text is that of the
statements, one on each line. -/
theorem legible :
    (∀ stmt ∈ parseSource source, stmt.Legible) ∧
      Node.renderProgram (parseSource source) =
        "\n".intercalate ((Stmt.allBracketed (parseSource source)).map Bracketed.text) := by
  -- The grammar settles the shape of the statements, and the tokens settle what they are made of.
  obtain ⟨tokens, last, ends, _⟩ := scanTokens_ends source
  have formed := (parseSource_derived tells.clean ends).1.shape.1
  have made := (parseSource_madeOf tells.clean tells.supplies).1
  refine ⟨fun stmt member => (formed stmt member).legible (made stmt member), ?_⟩
  rw [Node.renderProgram, Node.render_ofProgram (fun _ => Value.isProper_of_isTelling) made,
    if_pos tells.shallow]
  rfl

end TextTells

/--
The text of a program is unambiguous.

Two sources that have no mistake, no string and no number beyond the greatest one, and whose
programs are not too deep to print, are printed as the same text exactly if their statements are
the same but for the lines of their tokens.
-/
theorem renderProgram_eq_iff [Host] {source other : String} (tells : TextTells source)
    (otherTells : TextTells other) :
    Node.renderProgram (parseSource source) = Node.renderProgram (parseSource other) ↔
      Stmt.mapAllTokens Token.lineless (parseSource source) =
        Stmt.mapAllTokens Token.lineless (parseSource other) := by
  obtain ⟨legible, text⟩ := tells.legible
  obtain ⟨otherLegible, otherText⟩ := otherTells.legible
  obtain ⟨written, read⟩ := Stmt.toStmts_allBracketed legible
  obtain ⟨otherWritten, otherRead⟩ := Stmt.toStmts_allBracketed otherLegible
  rw [text, otherText]
  constructor
  · intro same
    -- The lines are taken apart in one way only, and the statements are read back from them.
    rw [← read, ← otherRead, Bracketed.eq_of_lines written otherWritten same]
  · intro same
    -- The lines of tokens are not written.
    rw [← Stmt.allBracketed_mapAllTokens Token.keepsMeaning_lineless, same,
      Stmt.allBracketed_mapAllTokens Token.keepsMeaning_lineless]

/-- The tokens of an assignment with two minus signs; those from the second sign on
are on a given line. -/
def differenceTokens (line : Int) : List Token :=
  [{ kind := .identifier, lexeme := "x" }, { kind := .equal, lexeme := "=" },
    { kind := .minus, lexeme := "-" },
    { kind := .number, lexeme := "1", literal := .number (.ofFloat (numberOf ['1'])) },
    { kind := .minus, lexeme := "-", line }, { kind := .kwNil, lexeme := "nil", line },
    { kind := .semicolon, lexeme := ";", line }, { kind := .eof, lexeme := "", line }]

/-- The program of these tokens, in which one sign negates and the other subtracts. -/
def difference (line : Int) : List Stmt :=
  let negated : Expr :=
    .unary (.token { kind := .minus, lexeme := "-" })
      (.literal (.number (.ofFloat (numberOf ['1']))))
  let subtracted : Expr :=
    .binary negated (.token { kind := .minus, lexeme := "-", line }) (.literal .nil)
  [.expression (.assign (.token { kind := .identifier, lexeme := "x" }) subtracted)]

/-- A source with these tokens and no lexical mistake has this program, whose text tells it. -/
theorem textTells_difference {source : String} {line : Int}
    (tokens : scanTokens source = differenceTokens line) (faultless : scanDiagnostics source = []) :
    parseSource source = difference line ∧ TextTells source := by
  have read : parseTokens (differenceTokens line) =
      { result := .ok (difference line), rest := [{ kind := .eof, lexeme := "", line }],
        reports := [] } := by
    -- What the numeral denotes does not matter for reading.
    simp only [differenceTokens, difference]
    generalize Double.ofFloat (numberOf ['1']) = one
    -- The first sign is part of an operand, and the second stands between two operands.
    have negated : Grammar.Derives (.binary .term)
        [{ kind := .minus, lexeme := "-" },
          { kind := .number, lexeme := "1", literal := .number one }] _ :=
      .operand (.operand (.prefixed (by decide) (.primary (.number rfl))))
    have subtracted : Grammar.Derives (.binary .term)
        (_ ++ { kind := .minus, lexeme := "-", line } ::
          [{ kind := .kwNil, lexeme := "nil", line }]) _ :=
      .chain negated (show Kind.minus ∈ [_, _] by decide) (.operand (.primary (.nothing rfl)))
    have assigned : Grammar.Derives .assignment
        ({ kind := .identifier, lexeme := "x" } :: { kind := .equal, lexeme := "=" } :: _) _ :=
      .assign rfl rfl (.equality (.operand (.operand subtracted)))
    have statement : Grammar.Declaration (_ ++ [{ kind := .semicolon, lexeme := ";", line }]) _ :=
      .expression assigned rfl
    have declarations := Grammar.Declarations.more statement .none
    have parsed :=
      @Grammar.parseTokens_complete _ _ { kind := .eof, lexeme := "", line } [] _ declarations
        (show 5 ≤ nestingLimit by decide) rfl
    simpa only [List.cons_append, List.nil_append] using parsed
  have program : parseSource source = difference line := by
    rw [parseSource, tokens, Parsed.statements, read]
  -- No diagnostic, no string, a number that is not infinite, and a tree that is not too deep.
  refine ⟨program, ?_, ?_, ?_, ?_⟩
  · rw [sourceDiagnostics, faultless, tokens, read]
    rfl
  · rw [tokens]
    simp [differenceTokens]
  · have one : (Double.ofFloat (numberOf ['1'])).value.isInf = false := by decide
    rw [tokens]
    simp [differenceTokens, one]
  · rw [program]
    simp [difference, Node.ofProgram, Node.ofStmts, Node.ofStmt, Node.ofExpr, Node.ofMark,
      Node.ofToken, Value.toNode, Node.height, Node.heights, nestingLimit]

/-- Spread over two lines, an assignment is another program with the same text, and that program
differs in lines only. -/
theorem renderProgram_eq_iff_difference :
    TextTells "x = -1 - nil;" ∧ TextTells "x=-1\n-nil;" ∧
      (Node.renderProgram (parseSource "x = -1 - nil;") =
        Node.renderProgram (parseSource "x=-1\n-nil;") ↔
        Stmt.mapAllTokens Token.lineless (parseSource "x = -1 - nil;") =
          Stmt.mapAllTokens Token.lineless (parseSource "x=-1\n-nil;")) ∧
      parseSource "x = -1 - nil;" ≠ parseSource "x=-1\n-nil;" ∧
      Node.renderProgram (parseSource "x = -1 - nil;") =
        Node.renderProgram (parseSource "x=-1\n-nil;") := by
  -- Both texts have the same tokens, the later ones of the second a line further down.
  have tokens : scanTokens "x = -1 - nil;" = differenceTokens 1 := by
    have cut : segments "x = -1 - nil;".toList =
        [⟨.word, ['x']⟩, ⟨.blank, [' ']⟩, ⟨.symbol .equal, ['=']⟩, ⟨.blank, [' ']⟩,
          ⟨.symbol .minus, ['-']⟩, ⟨.number, ['1']⟩, ⟨.blank, [' ']⟩, ⟨.symbol .minus, ['-']⟩,
          ⟨.blank, [' ']⟩, ⟨.word, ['n', 'i', 'l']⟩, ⟨.symbol .semicolon, [';']⟩] := by
      with_unfolding_all rfl
    rw [scanTokens, cut]
    rfl
  have otherTokens : scanTokens "x=-1\n-nil;" = differenceTokens 2 := by
    have cut : segments "x=-1\n-nil;".toList =
        [⟨.word, ['x']⟩, ⟨.symbol .equal, ['=']⟩, ⟨.symbol .minus, ['-']⟩, ⟨.number, ['1']⟩,
          ⟨.blank, ['\n']⟩, ⟨.symbol .minus, ['-']⟩, ⟨.word, ['n', 'i', 'l']⟩,
          ⟨.symbol .semicolon, [';']⟩] := by
      with_unfolding_all rfl
    rw [scanTokens, cut]
    rfl
  obtain ⟨program, tells⟩ := textTells_difference tokens (by with_unfolding_all rfl)
  obtain ⟨otherProgram, otherTells⟩ := textTells_difference otherTokens (by with_unfolding_all rfl)
  -- The texts of the trees decide, and they leave out lines.
  have iff := renderProgram_eq_iff tells otherTells
  refine ⟨tells, otherTells, iff, ?_, iff.mpr ?_⟩
  · rw [program, otherProgram]
    simp [difference]
  · rw [program, otherProgram]
    rfl

end LoxLang
