import LoxLang.Proofs.Source.Munch
import LoxLang.Proofs.Source.Tokens
import Mathlib.Data.List.Forall2

/-!
What scanning yields: a token for each lexeme and string of a source text, and a
diagnostic for each mistake.
-/

namespace LoxLang

/-- The reserved words and the kinds of their tokens. -/
def keywords : List (String × Kind) :=
  [("and", .kwAnd), ("class", .kwClass), ("else", .kwElse), ("false", .kwFalse), ("for", .kwFor),
    ("fun", .kwFun), ("if", .kwIf), ("nil", .kwNil), ("or", .kwOr), ("print", .kwPrint),
    ("return", .kwReturn), ("super", .kwSuper), ("this", .kwThis), ("true", .kwTrue),
    ("var", .kwVar), ("while", .kwWhile)]

/-- A word has the kind of a reserved word exactly if it is that word. -/
theorem Kind.ofWord_eq_iff {word : String} {entry : String × Kind} (reserved : entry ∈ keywords) :
    Kind.ofWord word = entry.2 ↔ word = entry.1 := by
  have known : ∀ entry ∈ keywords, Kind.ofWord entry.1 = entry.2 := by decide
  have distinct : ∀ entry ∈ keywords, entry.2 ≠ .identifier ∧
      ∀ other ∈ keywords, entry.2 = other.2 → entry.1 = other.1 := by decide
  have listed : Kind.ofWord word = .identifier ∨ (word, Kind.ofWord word) ∈ keywords := by
    unfold Kind.ofWord
    split <;> simp [keywords]
  constructor
  · intro same
    rcases listed with other | reservedWord
    · exact absurd (same.symm.trans other) (distinct entry reserved).1
    · exact (distinct _ reservedWord).2 entry reserved same
  · rintro rfl
    exact known entry reserved

/-- A word that is not reserved is an identifier. -/
theorem Kind.ofWord_of_unreserved {word : String}
    (unreserved : ∀ entry ∈ keywords, word ≠ entry.1) :
    Kind.ofWord word = .identifier := by
  simp only [keywords, List.forall_mem_cons] at unreserved
  unfold Kind.ofWord
  split <;> simp_all

/-- Whether segments of a class are tokens. -/
def SegmentClass.isToken : SegmentClass → Bool
  | symbol _ | number | word | text => true
  | blank | lineComment | blockComment | openComment | openText | stray => false

/-- Whether segments of a class are mistakes. -/
def SegmentClass.isMistake : SegmentClass → Bool
  | openComment | openText | stray => true
  | symbol _ | number | word | text | blank | lineComment | blockComment => false

/--
Whether characters are the decimal notation of a number.

The number is the double nearest to the whole number that the digits write, or to that over a
power of ten with as many zeros as there are digits behind the point.
-/
inductive IsNumeral : List Char → Float → Prop where
  | whole {digits : List Char} : (∀ c ∈ digits, isDigit c = true) →
    IsNumeral digits (Float.ofScientific (Nat.ofDigitChars 10 digits 0) false 0)
  | fraction {digits places : List Char} : (∀ c ∈ digits, isDigit c = true) → places ≠ [] →
    (∀ c ∈ places, isDigit c = true) →
    IsNumeral (digits ++ '.' :: places)
      (Float.ofScientific (Nat.ofDigitChars 10 (digits ++ places) 0) true places.length)

/-- Whether a token denotes what a segment of its class stands for. -/
def Token.Means (t : Token) (s : Segment) : Prop :=
  match s.cls with
  | .symbol _ => (s.chars, t.kind) ∈ symbols ∧ t.literal = .null
  | .number => t.kind = .number ∧ ∃ x, IsNumeral s.chars x ∧ t.literal = .number (.ofFloat x)
  | .word => ((∀ entry ∈ keywords, t.lexeme ≠ entry.1) → t.kind = .identifier) ∧ t.literal = .null
  | .text => t.kind = .string ∧ ∃ inner, s.chars = '"' :: inner ++ ['"'] ∧
    t.literal = .string (String.ofList inner)
  | .blank | .lineComment | .blockComment | .openComment | .openText | .stray => False

/-- Whether a token is the one that a segment stands for, given the line it ends on. -/
structure Token.Denotes (t : Token) (s : Segment) (line : Nat) : Prop where
  lexeme : t.lexeme.toList = s.chars
  line : t.line = line
  reserved : ∀ entry ∈ keywords, t.kind = entry.2 ↔ t.lexeme = entry.1
  means : t.Means s

/-- Whether a diagnostic is the one that a mistake calls for, given the line it ends on. -/
structure Diagnostic.Blames (d : Diagnostic) (s : Segment) (line : Nat) : Prop where
  line : d.line = line
  place : d.place = .unplaced
  fault : (s.cls, d.fault) ∈
    [(.stray, Fault.unexpectedCharacter), (.openText, .unterminatedString),
      (.openComment, .unterminatedComment)]

/-- Segments from a given line on, each with the line it ends on. -/
def endLines (line : Nat) : List Segment → List (Segment × Nat)
  | [] => []
  | s :: rest => (s, line + s.chars.count '\n') :: endLines (line + s.chars.count '\n') rest

/-- What does not begin with a letter is no reserved word. -/
theorem ne_keyword {c : Char} {more : List Char} (other : isAlpha c = false) :
    ∀ entry ∈ keywords, String.ofList (c :: more) ≠ entry.1 := by
  have letters : ∀ entry ∈ keywords, entry.1.toList.head?.any isAlpha = true := by decide
  intro entry reserved same
  have alpha := letters entry reserved
  rw [← same, String.toList_ofList] at alpha
  simp [other] at alpha

/-- The digits of a number are read as a whole number is. -/
theorem Number.ofDigits_eq (digits : List Char) : ofDigits digits = Nat.ofDigitChars 10 digits 0 :=
  rfl

/-- Digits without a point denote a whole number. -/
theorem isNumeral_digits {digits : List Char} (all : ∀ c ∈ digits, isDigit c = true) :
    IsNumeral digits (numberOf digits) := by
  have parts : numberOf digits = Number.ofParts digits [] 0 := by
    simp [numberOf, List.takeWhile_eq_self_iff.mpr all, List.dropWhile_eq_nil_iff.mpr all]
  rw [parts, Number.ofParts, Number.ofScaled, Number.ofDigits_eq, List.append_nil]
  exact .whole all

/-- Digits on both sides of a point denote a number with a fraction. -/
theorem isNumeral_point {digits places : List Char} (all : ∀ c ∈ digits, isDigit c = true)
    (filled : places ≠ []) (placeDigits : ∀ c ∈ places, isDigit c = true) :
    IsNumeral (digits ++ '.' :: places) (numberOf (digits ++ '.' :: places)) := by
  have point : isDigit '.' = false := by decide
  have parts : numberOf (digits ++ '.' :: places) = Number.ofParts digits places 0 := by
    simp [numberOf, List.takeWhile_append, List.dropWhile_append,
      List.takeWhile_eq_self_iff.mpr all, List.dropWhile_eq_nil_iff.mpr all, point]
  -- There is a digit behind the point, so the power of ten is a divisor.
  have divides : decide ((0 : Int) - places.length < 0) = true := by
    have := List.length_pos_of_ne_nil filled
    rw [decide_eq_true_iff]
    omega
  have power : ((0 : Int) - places.length).natAbs = places.length := by omega
  rw [parts, Number.ofParts, Number.ofScaled, Number.ofDigits_eq, divides, power]
  exact .fraction all filled placeDigits

namespace Segment

/-- A segment that stands by the rules is a token exactly if its class says so, and
the token denotes it. -/
theorem exists_denotes {s : Segment} {rest : List Char} (opens : s.Opens rest)
    (isToken : s.cls.isToken = true) (line : Nat) :
    ∃ t, s.token? line = some t ∧ t.Denotes s line := by
  rcases s with ⟨cls, chars⟩
  -- Everything but a word begins with a character that no reserved word begins with.
  have apart (kind : Kind) {c : Char} {more : List Char} (other : isAlpha c = false)
      (plain : ∀ entry ∈ keywords, kind ≠ entry.2) :
      ∀ entry ∈ keywords, kind = entry.2 ↔ String.ofList (c :: more) = entry.1 :=
    fun entry reserved => iff_of_false (plain entry reserved) (ne_keyword other entry reserved)
  have noAlpha {c : Char} (digit : isDigit c = true) : isAlpha c = false := by
    cases alpha : isAlpha c with
    | false => rfl
    | true => simp [isDigit_of_isAlpha alpha] at digit
  -- What the segment stands for is settled by its rule; the token copies it.
  cases opens with
  | passage is =>
    cases is with
    | @text inner _ free =>
      refine ⟨_, rfl, String.toList_ofList, rfl, apart .string (by decide) (by decide), rfl,
        inner, rfl, ?_⟩
      simp
    | _ => cases isToken
  | lexeme _ is =>
    cases is with
    | @symbol _ kind listed =>
      have letterless : ∀ entry ∈ symbols, entry.1.head?.all (fun c => !isAlpha c) =
          true := by decide
      have plain : ∀ entry ∈ symbols, ∀ word ∈ keywords, entry.2 ≠ word.2 := by decide
      obtain ⟨c, more, rfl, _⟩ := (IsLexeme.symbol listed).exists_cons
      have other : isAlpha c = false := by simpa using letterless _ listed
      exact ⟨_, rfl, String.toList_ofList, rfl, apart kind other (plain _ listed), listed, rfl⟩
    | @whole digits filled all =>
      obtain ⟨c, more, rfl⟩ := List.exists_cons_of_ne_nil filled
      exact ⟨_, rfl, String.toList_ofList, rfl,
        apart .number (noAlpha (all c (by simp))) (by decide), rfl, _, isNumeral_digits all, rfl⟩
    | @fraction digits places filled all present placeDigits =>
      obtain ⟨c, more, rfl⟩ := List.exists_cons_of_ne_nil filled
      exact ⟨_, rfl, String.toList_ofList, rfl,
        apart .number (noAlpha (all c (by simp))) (by decide), rfl, _,
        isNumeral_point all present placeDigits, rfl⟩
    | word alpha all =>
      refine ⟨_, rfl, String.toList_ofList, rfl, fun entry reserved =>
        Kind.ofWord_eq_iff reserved, ?_, rfl⟩
      exact Kind.ofWord_of_unreserved
  | stray => cases isToken

/-- A segment of another class is no token. -/
theorem token?_eq_none {s : Segment} (other : s.cls.isToken = false) (line : Nat) :
    s.token? line = none := by
  rcases s with ⟨cls, chars⟩
  cases cls <;> first | rfl | cases other

/-- A segment is a mistake exactly if its class says so, and its fault is that of the class. -/
theorem exists_blames {s : Segment} (isMistake : s.cls.isMistake = true) (line : Nat) :
    ∃ fault, s.fault? =
      some fault ∧ Diagnostic.Blames { line, place := .unplaced, fault } s line := by
  rcases s with ⟨cls, chars⟩
  cases cls with
  | stray | openText | openComment => exact ⟨_, rfl, rfl, rfl, by simp⟩
  | _ => cases isMistake

/-- A segment of another class is no mistake. -/
theorem fault?_eq_none {s : Segment} (other : s.cls.isMistake = false) : s.fault? = none := by
  rcases s with ⟨cls, chars⟩
  cases cls <;> first | rfl | cases other

end Segment

/-- Segments that are cut by the rules give a token each, as far as they stand for
tokens, and an end token. -/
theorem tokensFrom_denotes {parts : List Segment} (munches : Munches parts) (line : Nat) :
    ∃ tokens, tokensFrom line parts =
      tokens ++ [endToken (line + (parts.flatMap Segment.chars).count '\n')] ∧
      List.Forall₂ (fun part (t : Token) => t.Denotes part.1 part.2)
        ((endLines line parts).filter (·.1.cls.isToken)) tokens := by
  induction parts generalizing line with
  | nil => exact ⟨[], rfl, .nil⟩
  | cons s rest ih =>
    obtain ⟨tokens, same, denotes⟩ := ih munches.2 (line + s.chars.count '\n')
    rw [munches.endLine_cons, tokensFrom, munches.1.lineEnds_eq, endLines]
    -- Only a segment that stands for a token adds to either list.
    cases isToken : s.cls.isToken with
    | true =>
      obtain ⟨t, found, first⟩ :=
        Segment.exists_denotes munches.1 isToken (line + s.chars.count '\n')
      refine ⟨t :: tokens, by simp [found, same], ?_⟩
      rw [List.filter_cons, if_pos isToken]
      exact .cons first denotes
    | false =>
      refine ⟨tokens, by simp [Segment.token?_eq_none isToken, same], ?_⟩
      rw [List.filter_cons, if_neg (by simp [isToken])]
      exact denotes

/-- Segments give a diagnostic each, as far as they are mistakes. -/
theorem diagnosticsFrom_blames {parts : List Segment} (munches : Munches parts) (line : Nat) :
    List.Forall₂ (fun part (d : Diagnostic) => d.Blames part.1 part.2)
      ((endLines line parts).filter (·.1.cls.isMistake)) (diagnosticsFrom line parts) := by
  induction parts generalizing line with
  | nil => exact .nil
  | cons s rest ih =>
    rw [diagnosticsFrom, munches.1.lineEnds_eq, endLines]
    cases isMistake : s.cls.isMistake with
    | true =>
      obtain ⟨fault, found, first⟩ := Segment.exists_blames isMistake (line + s.chars.count '\n')
      rw [List.filter_cons, if_pos isMistake, found]
      exact .cons first (ih munches.2 _)
    | false =>
      rw [List.filter_cons, if_neg (by simp [isMistake]), Segment.fault?_eq_none isMistake]
      exact ih munches.2 _

/-- Whether a text is cut into segments by the rules: nothing is lost, nothing is empty, and
each stands where it may. -/
structure IsCutInto (cs : List Char) (parts : List Segment) : Prop where
  whole : parts.flatMap Segment.chars = cs
  filled : ∀ s ∈ parts, s.chars ≠ []
  munches : Munches parts

/--
Scanning is maximal munch.

A source text is cut into segments by the rules in exactly one way. Its tokens are those that
the segments stand for, one by one and in order, and one end token behind them. Its diagnostics
are those of the unexpected characters and of a string or comment without an end, one by one and
in order.
-/
theorem scan_is_maximal_munch (source : String) :
    ∃ parts, IsCutInto source.toList parts ∧
      (∀ others, IsCutInto source.toList others → others = parts) ∧
      (∃ tokens last, scanTokens source = tokens ++ [last] ∧
        List.Forall₂ (fun part (t : Token) => t.Denotes part.1 part.2)
          ((endLines 1 parts).filter (·.1.cls.isToken)) tokens ∧
        (∀ t ∈ tokens, t.kind ≠ .eof) ∧
        last =
          { kind := .eof, lexeme := "", literal := .null, line := 1 + source.toList.count '\n' }) ∧
      List.Forall₂ (fun part (d : Diagnostic) => d.Blames part.1 part.2)
        ((endLines 1 parts).filter (·.1.cls.isMistake)) (scanDiagnostics source) := by
  have munches := munches_segments source.toList
  have whole := flatMap_chars_segments source.toList
  obtain ⟨tokens, same, denotes⟩ := tokensFrom_denotes munches 1
  rw [whole] at same
  refine ⟨segments source.toList,
    ⟨whole, fun s member => chars_ne_nil_of_mem_segments member, munches⟩, ?_,
    ⟨tokens, _, same, denotes, ?_, ?_⟩, diagnosticsFrom_blames munches 1⟩
  · intro others cut
    rw [← cut.whole]
    exact cut.munches.eq_segments
  · -- The end token that closes the list is the only one.
    obtain ⟨before, last, ends, lawful⟩ := scanTokens_ends source
    rw [show scanTokens source = _ from same] at ends
    obtain ⟨rfl, _⟩ := List.append_inj' ends rfl
    exact fun t member => (lawful t member).2
  · rfl

end LoxLang
