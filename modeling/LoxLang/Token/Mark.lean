import LoxLang.Value

/-! What stands in a tree where a token belongs. -/

namespace LoxLang

/--
What stands in a tree where a token belongs.

Trees of a source text have tokens of the text there. A tree written by hand may have a token
with any data in its fields, or something that is no token.
-/
inductive Mark where
  | token (token : Token)
  | data (kind : Kind) (lexeme literal line : Json)
  /-- Something that is no token, known by the name of its type. -/
  | stray (typeName : String)
deriving DecidableEq, Inhabited

instance : Coe Token Mark := ⟨Mark.token⟩

namespace Mark

/-- The name of the type of what stands there. -/
def typeName : Mark → String
  | token _ | data .. => "Token"
  | stray typeName => typeName

/-- The kind of a mark, if it is a token. -/
def kind? : Mark → Option Kind
  | token t => some t.kind
  | data kind .. => some kind
  | stray _ => none

/-- What a mark was read from, if it is a token. -/
def lexeme? : Mark → Option Json
  | token t => some (.string t.lexeme)
  | data _ lexeme .. => some lexeme
  | stray _ => none

/-- The line of a mark, if it is a token. -/
def line? : Mark → Option Json
  | token t => some (.int t.line)
  | data _ _ _ line => some line
  | stray _ => none

/-- The text of what a mark was read from. -/
def text (mark : Mark) : Text :=
  (mark.lexeme?.map Json.text).getD ""

end Mark

end LoxLang
