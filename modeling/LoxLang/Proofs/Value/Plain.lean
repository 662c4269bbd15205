import LoxLang.Proofs.Execution.Laws

/-!
Values that can always be shown: every channel takes their texts, and there is room to make them.
-/

namespace LoxLang

/-- Whether a text holds characters only. -/
def Text.isPlain : Text → Bool
  | plain _ => true
  | garbled _ => false

namespace Glyph

/-- Characters have no half of a pair in front. -/
theorem takeWhile_isHalf_chars (glyphs : List Glyph) (chars : List Char) :
    (glyphs ++ chars.map char).takeWhile isHalf = glyphs.takeWhile isHalf := by
  induction glyphs with
  | nil =>
    cases chars with
    | nil => rfl
    | cons => rfl
  | cons first rest ih => rw [List.cons_append, List.takeWhile_cons, List.takeWhile_cons, ih]

/-- All that stands before the first half of a pair stands before what is behind it. -/
theorem dropWhile_not_isHalf_append {glyphs : List Glyph} (torn : glyphs.any isHalf = true)
    (others : List Glyph) :
    (glyphs ++ others).dropWhile (fun glyph => !glyph.isHalf) =
      glyphs.dropWhile (fun glyph => !glyph.isHalf) ++ others := by
  induction glyphs with
  | nil => cases torn
  | cons first rest ih =>
    cases is : first.isHalf with
    | true => simp [is]
    | false =>
      rw [List.any_cons, is, Bool.false_or] at torn
      simp [is, ih torn]

/-- Characters behind the first half of a pair do not change where the first halves stand. -/
theorem blot_append_chars {glyphs : List Glyph} (torn : glyphs.any isHalf = true)
    (chars : List Char) :
    blot (glyphs ++ chars.map char) = blot glyphs := by
  rw [blot, blot, dropWhile_not_isHalf_append torn, takeWhile_isHalf_chars]
  congr 1
  rw [List.length_append, List.length_append]
  omega

end Glyph

namespace Text

/-- The text with given elements is plain if none of them is half of a pair. -/
theorem isPlain_ofGlyphs (glyphs : List Glyph) :
    (ofGlyphs glyphs).isPlain = !glyphs.any Glyph.isHalf := by
  unfold ofGlyphs
  split
  case isTrue torn => rw [torn, isPlain, Bool.not_true]
  case isFalse whole => rw [eq_false_of_ne_true whole, isPlain, Bool.not_false]

/-- A text has no half of a pair exactly if it is plain. -/
theorem any_isHalf_glyphs (text : Text) : text.glyphs.any Glyph.isHalf = !text.isPlain := by
  cases text with
  | plain text => simp [glyphs, isPlain, Glyph.isHalf]
  | garbled text => exact text.torn

/-- Two texts in a row are plain if both are. -/
@[simp] theorem isPlain_append (first second : Text) :
    (first ++ second).isPlain = (first.isPlain && second.isPlain) := by
  have joined : (ofGlyphs (first.glyphs ++ second.glyphs)).isPlain =
      (first.isPlain && second.isPlain) := by
    rw [isPlain_ofGlyphs, List.any_append, any_isHalf_glyphs, any_isHalf_glyphs]
    simp
  -- Strings are joined at once, and all other texts by their elements.
  cases first with
  | plain =>
    cases second with
    | plain => rfl
    | garbled => exact joined
  | garbled => exact joined

/-- The halves of pairs that keep a text from being written. -/
def blot? : Text → Option Blot
  | plain _ => none
  | garbled text => some (Glyph.blot text.glyphs)

/-- Characters behind a text do not change which halves keep it from being written. -/
@[simp] theorem blot?_append_plain (text : Text) (behind : String) :
    (text ++ plain behind).blot? = text.blot? := by
  cases text with
  | plain => rfl
  | garbled text =>
    have torn : (text.glyphs ++ behind.toList.map Glyph.char).any Glyph.isHalf = true := by
      rw [List.any_append, text.torn, Bool.true_or]
    have joined : garbled text ++ plain behind =
        garbled { glyphs := text.glyphs ++ behind.toList.map Glyph.char, torn } := dif_pos torn
    rw [joined, blot?, blot?, Glyph.blot_append_chars text.torn]

end Text

namespace Value

/-- Whether a value has a text of characters, which there is always room to make. -/
def isPlain : Value → Bool
  | loaded _ => false
  | value => value.display.isPlain

/-- Whatever a program computes with can be shown. -/
theorem isPlain_of_isProper {value : Value} (proper : value.isProper) : value.isPlain := by
  cases value with
  | nil | number | string => rfl
  | bool truth => cases truth <;> rfl
  | int | null | token | garbled | loaded => cases proper

/-- What a plain value adds to a text is plain. -/
theorem isPlain_addend {value : Value} {text : Text} (plain : value.isPlain)
    (adds : Exec.addend? value = some text) : text.isPlain := by
  cases value with
  | number | string =>
    cases adds
    rfl
  | garbled => cases plain
  | nil | bool | int | null | token | loaded => cases adds

end Value

namespace Exec

variable [Host] {a b : Value}

/-- The text of a plain value can be made, and holds characters only. -/
theorem shown_of_isPlain (plain : a.isPlain) : ∃ text : String, shown a = .ok (.plain text) := by
  cases a with
  | loaded => cases plain
  | nil | number | string | int | null => exact ⟨_, rfl⟩
  | bool truth => cases truth <;> exact ⟨_, rfl⟩
  | garbled => cases plain
  | token kind lexeme literal line =>
    unfold Value.isPlain at plain
    rw [shown]
    · cases shows : (Value.token kind lexeme literal line).display with
      | plain text => exact ⟨text, rfl⟩
      | garbled => simp [shows, Text.isPlain] at plain
    · exact fun _ same => by cases same

/-- There is always room to compare a plain value. -/
theorem compared_of_isPlain (plain : a.isPlain) : compared a b = .ok (a.isEqual b) := by
  unfold compared
  split
  · cases plain
  · rfl

/-- A plain value is told about in a debug line that names nothing but characters. -/
theorem mention_of_isPlain (plain : a.isPlain) {line : Text → Text}
    (characters : ∀ text : String, ∃ message : String, line text = .plain message)
    (machine : Machine) :
    ∃ message, mention a line machine = (.ok (), machine.debug 1 message) := by
  obtain ⟨text, isShown⟩ := shown_of_isPlain plain
  obtain ⟨message, same⟩ := characters (text ++ " (" ++ a.typeName ++ ")")
  have told : line (.plain text ++ " (" ++ a.typeName ++ ")") = .plain message := same
  refine ⟨message, ?_⟩
  rw [mention_eq, isShown]
  dsimp only
  rw [told, tell_plain]

/-- A plain value is printed. -/
theorem printValue_of_isPlain (plain : a.isPlain) (machine : Machine) :
    ∃ text, printValue a machine = (.ok (), machine.emit (.printed text)) := by
  obtain ⟨text, isShown⟩ := shown_of_isPlain plain
  refine ⟨text ++ "\n", ?_⟩
  rw [printValue_eq, isShown]

/-- A plain value is written where its name is bound, or the token is blamed. -/
theorem writeVariable_of_isPlain (plain : a.isPlain) (name : Token) (machine : Machine) :
    ∃ message, writeVariable name a machine =
      match machine.forest.owner? machine.current (.word name.lexeme) with
      | some owner =>
        (.ok (),
          { machine with forest := machine.forest.define owner (.word name.lexeme) a }.debug 1
            message)
      | none =>
        (.error (.failed { blamed := name, fault := .undefinedVariable name.lexeme }),
          machine) := by
  rw [writeVariable_of_name (Mark.name_token name)]
  cases machine.forest.owner? machine.current (.word name.lexeme) with
  | some owner => exact mention_of_isPlain plain (fun text => ⟨_, rfl⟩) _
  | none => exact ⟨"", rfl⟩

/-- A plain value is defined in the current scope. -/
theorem defineVariable_of_isPlain (plain : a.isPlain) (name : Token) (machine : Machine) :
    ∃ message, defineVariable name a machine =
      (.ok (),
        { machine with
          forest := machine.forest.define machine.current (.word name.lexeme) a }.debug 1
            message) := by
  obtain ⟨depth, same⟩ := defineVariable_eq name a machine
  rw [same, Mark.name_token]
  exact mention_of_isPlain plain (fun text => ⟨_, rfl⟩) _

end Exec

end LoxLang
