import LoxLang.Text.Quoted

/-!
Texts read from data, which may hold halves of pairs.

A pair of code units stands for one character. Escapes can also write one unit of a pair alone:
it is no character, and no channel has a code for it.
-/

namespace LoxLang

/-- One element of a text: a character, or half of a pair, counted from the first half there is. -/
inductive Glyph where
  | char (c : Char)
  | half (number : Fin 0x800)
deriving DecidableEq, Repr

namespace Glyph

/-- The code of the first half of a pair. -/
def firstHalf : Nat := 0xd800

/-- Whether an element is half of a pair. -/
def isHalf : Glyph → Bool
  | char _ => false
  | half _ => true

/-- The character that an element is. -/
def char? : Glyph → Option Char
  | char c => some c
  | half _ => none

/-- The half that an element is. -/
def half? : Glyph → Option (Fin 0x800)
  | char _ => none
  | half number => some number

/-- The element with the given code. -/
def ofCode (code : Nat) : Glyph :=
  if range : firstHalf ≤ code ∧ code < firstHalf + 0x800 then
    half ⟨code - firstHalf, Nat.sub_lt_left_of_lt_add range.1 range.2⟩
  else char (Char.ofNat code)

/-- Half of a pair written as an escape. -/
def escape (number : Fin 0x800) : List Char :=
  '\\' :: 'u' :: Quoted.hex 4 (firstHalf + number)

/-- An element as a channel shows it that writes halves as escapes. -/
def escaped : Glyph → List Char
  | char c => [c]
  | half number => escape number

/-- An element between the given quotes. -/
def quoted (quote : Char) : Glyph → List Char
  | char c => Quoted.encodeChar quote c
  | half number => escape number

end Glyph

/-- A text that cannot be written, as it holds half of a pair. -/
structure Garbled where
  glyphs : List Glyph
  torn : glyphs.any Glyph.isHalf = true
deriving DecidableEq

/-- The halves that keep a text from being written: where the first of them stands, and the
others right behind it. -/
structure Blot where
  position : Nat
  halves : List (Fin 0x800)
deriving DecidableEq, Repr

/-- The wording of the failure to write a text. -/
def Blot.message (blot : Blot) : String :=
  let place :=
    match blot.halves with
    | [number] =>
      "character '" ++ String.ofList (Glyph.escape number) ++ "' in position " ++
        toString blot.position
    | halves =>
      "characters in position " ++ toString blot.position ++ "-" ++
        toString (blot.position + halves.length - 1)
  "'utf-8' codec can't encode " ++ place ++ ": surrogates not allowed"

/-- The first halves in a list of elements. -/
def Glyph.blot (glyphs : List Glyph) : Blot :=
  let fromHalf := glyphs.dropWhile fun glyph => !glyph.isHalf
  { position := glyphs.length - fromHalf.length
    halves := (fromHalf.takeWhile Glyph.isHalf).filterMap Glyph.half? }

/-- A text read from data. -/
inductive Text where
  | plain (text : String)
  | garbled (text : Garbled)
deriving DecidableEq

instance : Coe String Text := ⟨Text.plain⟩

instance : Inhabited Text := ⟨.plain ""⟩

namespace Text

/-- The elements of a text. -/
def glyphs : Text → List Glyph
  | plain text => text.toList.map Glyph.char
  | garbled text => text.glyphs

/-- The text with the given elements. -/
def ofGlyphs (glyphs : List Glyph) : Text :=
  if torn : glyphs.any Glyph.isHalf = true then garbled { glyphs, torn }
  else plain (String.ofList (glyphs.filterMap Glyph.char?))

/-- One text behind another. -/
def append : Text → Text → Text
  | plain first, plain second => plain (first ++ second)
  | first, second => ofGlyphs (first.glyphs ++ second.glyphs)

instance : Append Text := ⟨append⟩

/-- Texts one behind the other. -/
def join (texts : List Text) : Text :=
  texts.foldl append (plain "")

/-- A text as a channel shows it that writes halves as escapes. -/
def escaped : Text → String
  | plain text => text
  | garbled text => String.ofList (text.glyphs.flatMap Glyph.escaped)

/-- A text between quotes. -/
def quoted : Text → String
  | plain text => Quoted.encode text
  | garbled text =>
    let quote := Quoted.quoteFor (text.glyphs.filterMap Glyph.char?)
    String.ofList (quote :: text.glyphs.flatMap (Glyph.quoted quote) ++ [quote])

/-- The elements of a text, each as a text of its own. -/
def pieces (text : Text) : List Text :=
  text.glyphs.map fun glyph => ofGlyphs [glyph]

end Text

end LoxLang
