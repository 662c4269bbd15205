import LoxLang.Proofs.Tree.Brackets
import LoxLang.Proofs.Tree.Codec
import LoxLang.Tree.Printer

/-!
Programs as text: the printer has a text for every program of the language, and it is a
bracketed one.
-/

namespace LoxLang

/-- An expression as a bracketed text; the sign of an assignment comes first. -/
def Expr.bracketed : Expr → Bracketed
  | literal value => .word value.literalText.escaped
  | grouping inner => .node "group" [inner.bracketed]
  | use name => .word name.text.escaped
  | assign name value => .node "=" [.word name.text.escaped, value.bracketed]
  | unary operator operand => .node operator.text.escaped [operand.bracketed]
  | binary left operator right => .node operator.text.escaped [left.bracketed, right.bracketed]
  | unknown typeName => .word typeName

mutual

/-- A statement as a bracketed text. -/
def Stmt.bracketed : Stmt → Bracketed
  | .expression inner => .node ";" [inner.bracketed]
  | .print inner => .node "print" [inner.bracketed]
  | .declare name none => .node "var" [.word name.text.escaped]
  | .declare name (some initial) =>
    .node "var" [.word name.text.escaped, .word "=", initial.bracketed]
  | .block body => .node "block" (Stmt.allBracketed body)
  | .unknown typeName => .word typeName

/-- Statements as bracketed texts. -/
def Stmt.allBracketed : List Stmt → List Bracketed
  | [] => []
  | first :: rest => first.bracketed :: Stmt.allBracketed rest

end

namespace Node

/-- Whether a tree is printed as a bracketed text. -/
def PrintsAs (tree : Node) (written : Bracketed) : Prop :=
  tree.render = .ok (.string written.text)

/-- Lines that are texts are taken as they are. -/
theorem asLines_map_string (index : Nat) (texts : List String) :
    asLines index (texts.map .string) = .ok (texts.map .plain) := by
  induction texts generalizing index with
  | nil => rfl
  | cons first rest ih =>
    -- The number of the line is there for the wording of a failure only.
    rw [List.map_cons, asLines, ih]
    rfl

/-- Strings below one another are a string. -/
theorem joinLines_map_plain (texts : List String) :
    joinLines (texts.map .plain) = .plain ("\n".intercalate texts) := by
  induction texts with
  | nil => rfl
  | cons first rest ih =>
    cases rest with
    | nil => rfl
    | cons second others =>
      rw [List.map_cons, List.map_cons, joinLines, ← List.map_cons, ih,
        String.intercalate_cons_cons]
      · rfl
      · simp

/-- Strings in parentheses are a string. -/
theorem parenthesize_plain (name : String) (parts : List String) :
    parenthesize name (parts.map .plain) =
      .string ("(" ++ name ++ String.join (parts.map (" " ++ ·)) ++ ")") := by
  have joined (done : String) :
      ((parts.map Text.plain).map (Text.plain " " ++ ·)).foldl Text.append (.plain done) =
      .plain ((parts.map (" " ++ ·)).foldl (· ++ ·) done) := by
    induction parts generalizing done with
    | nil => rfl
    | cons first rest ih => exact ih (done ++ (" " ++ first))
  rw [parenthesize, Text.join, joined]
  rfl

/-- The last word of a name is written like the first part. -/
theorem parenthesize_append (name first : String) (rest : List String) :
    parenthesize (.plain (name ++ (" " ++ first))) (rest.map .plain) =
      parenthesize name (.plain first :: rest.map .plain) := by
  rw [← List.map_cons, parenthesize_plain, parenthesize_plain, List.map_cons, String.join_cons]
  simp [String.append_assoc]

/-- Parts between parentheses are written with one blank before each of them. -/
theorem parenthesize_eq (name : String) (items : List Bracketed) :
    parenthesize name ((items.map Bracketed.text).map .plain) =
      .string (Bracketed.node name items).text := by
  have joined : (String.join (items.map fun item => " " ++ item.text)).toList =
      Bracketed.led ' ' items := by
    induction items with
    | nil => rfl
    | cons first rest ih =>
      rw [List.map_cons, String.join_cons, String.toList_append, ih, String.toList_append,
        Bracketed.toList_text]
      rfl
  -- The texts are compared as characters, where the parts have been joined.
  rw [parenthesize_plain, List.map_map]
  congr 1
  apply String.toList_injective
  simp only [Function.comp_def, String.toList_append, joined, Bracketed.toList_text,
    Bracketed.chars]
  simp

/-- A literal that a program can compute with is printed as its text. -/
theorem printsAs_literal {value : Value} (proper : value.isProper = true) :
    (literal value.toNode).PrintsAs (.word value.literalText.escaped) := by
  rw [PrintsAs, Bracketed.text_word]
  cases value with
  | nil | number | string => rfl
  | bool truth => cases truth <;> rfl
  | int | null | token | garbled | loaded => cases proper

/-- A declaration with something for its value is printed with the text of that value. -/
theorem printsAs_declare (name : Token) {initial : Node} {written : Bracketed}
    (present : initial ≠ null) (prints : initial.PrintsAs written) :
    (declare (ofToken name) initial).PrintsAs
      (.node "var" [.word name.lexeme, .word "=", written]) := by
  have text := parenthesize_eq "var" [.word name.lexeme, .word "=", written]
  rw [List.map_cons, List.map_cons, Bracketed.text_word, ← parenthesize_append, List.map_cons,
    List.map_cons, Bracketed.text_word, ← parenthesize_append] at text
  rw [PrintsAs, render, prints]
  · exact congrArg Except.ok text
  · -- The form without a value is meant for nothing but nothing.
    exact present

/-- Statements are printed together if each of them is printed. -/
theorem renderAll_ofStmts {program : List Stmt}
    (each : ∀ stmt ∈ program, (ofStmt stmt).PrintsAs stmt.bracketed) :
    renderAll (ofStmts program) =
        .ok (((Stmt.allBracketed program).map Bracketed.text).map .string) ∧
      renderTexts (ofStmts program) =
        .ok (((Stmt.allBracketed program).map Bracketed.text).map .plain) := by
  induction program with
  | nil => exact ⟨rfl, rfl⟩
  | cons first rest ih =>
    rw [List.forall_mem_cons] at each
    obtain ⟨all, asTexts⟩ := ih each.2
    constructor
    · rw [ofStmts, renderAll, each.1, all]
      rfl
    · rw [ofStmts, renderTexts, each.1, asTexts]
      rfl

section

variable {tokens : Token → Prop} {values : Value → Prop}
  (proper : ∀ value, values value → value.isProper = true)

include proper

/-- Every expression of the language is printed as its bracketed text. -/
theorem printsAs_ofExpr {e : Expr} (made : e.MadeOf tokens values) :
    (ofExpr e).PrintsAs e.bracketed := by
  -- Names and operators are tokens, whose lexemes are texts; the parts are texts by induction.
  induction made with
  | literal constant => exact printsAs_literal (proper _ constant)
  | use =>
    rw [PrintsAs, Expr.bracketed, Bracketed.text_word]
    rfl
  | grouping _ ih =>
    rw [PrintsAs, ofExpr, render, ih]
    exact congrArg Except.ok (parenthesize_eq "group" [_])
  | @assign name value _ _ ih =>
    have written := parenthesize_eq "=" [.word name.lexeme, value.bracketed]
    rw [List.map_cons, List.map_cons, Bracketed.text_word, ← parenthesize_append] at written
    rw [PrintsAs, ofExpr, render, ih]
    exact congrArg Except.ok written
  | @unary operator _ _ _ _ ih =>
    rw [PrintsAs, ofExpr, render, ih]
    exact congrArg Except.ok (parenthesize_eq operator.lexeme [_])
  | @binary _ _ operator _ _ _ _ _ leftIh rightIh =>
    rw [PrintsAs, ofExpr, render, leftIh, rightIh]
    exact congrArg Except.ok (parenthesize_eq operator.lexeme [_, _])

/-- Every statement of the language is printed as its bracketed text. -/
theorem printsAs_ofStmt {stmt : Stmt} (made : stmt.MadeOf tokens values) :
    (ofStmt stmt).PrintsAs stmt.bracketed := by
  induction made with
  | expression inner =>
    rw [PrintsAs, ofStmt, render, printsAs_ofExpr proper inner]
    exact congrArg Except.ok (parenthesize_eq ";" [_])
  | print inner =>
    rw [PrintsAs, ofStmt, render, printsAs_ofExpr proper inner]
    exact congrArg Except.ok (parenthesize_eq "print" [_])
  | @declare name =>
    have text := parenthesize_eq "var" [.word name.lexeme]
    rw [List.map_cons, Bracketed.text_word] at text
    rw [PrintsAs, ofStmt, render]
    exact congrArg Except.ok text
  | declareAs _ initial =>
    exact printsAs_declare _ (ofExpr_ne_null _) (printsAs_ofExpr proper initial)
  | block _ ih =>
    -- The statements of a block are parts of one text, not lines.
    rw [PrintsAs, ofStmt, render, (renderAll_ofStmts ih).2]
    exact congrArg Except.ok (parenthesize_eq "block" _)

/-- Every program of the language is printed as the bracketed texts of its
statements, one on each line. -/
theorem render_ofProgram {program : List Stmt}
    (made : ∀ stmt ∈ program, stmt.MadeOf tokens values) :
    (ofProgram program).render =
      .ok (.string ("\n".intercalate ((Stmt.allBracketed program).map Bracketed.text))) := by
  have all := (renderAll_ofStmts fun stmt member => printsAs_ofStmt proper (made stmt member)).1
  generalize (Stmt.allBracketed program).map Bracketed.text = texts at all ⊢
  rw [ofProgram, render, all]
  show (asLines 0 (texts.map .string) >>= fun lines => Except.ok (Json.ofText (joinLines lines))) =
    _
  rw [asLines_map_string]
  exact congrArg (fun text => Except.ok (Json.ofText text)) (joinLines_map_plain texts)

end

end Node

end LoxLang
