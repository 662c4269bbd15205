import LoxLang.Proofs.Source.Lines
import LoxLang.Proofs.Source.Scanning

/-!
Lexemes are a normal form of source texts: with single blanks between them they are
scanned as the same tokens.
-/

namespace LoxLang

/-- What a token is wherever it stands: its kind, its lexeme and its literal. -/
def Token.content (t : Token) : Kind × String × Value :=
  (t.kind, t.lexeme, t.literal)

/-- The lexemes of a source text in order, with single blanks between them. -/
def respaced (source : String) : String :=
  " ".intercalate (((scanTokens source).filter fun t => t.kind ≠ .eof).map Token.lexeme)

namespace Segment

/-- The segment that a single blank is. -/
def space : Segment :=
  { cls := .blank, chars := [' '] }

/-- What a segment is as a token, if it is one. -/
def content? (s : Segment) : Option (Kind × String × Value) :=
  (s.token? 0).map Token.content

/-- What a segment is as a token does not depend on the line it ends on. -/
theorem map_content_token? (s : Segment) (line : Nat) :
    (s.token? line).map Token.content = s.content? := by
  have moved := s.token?_add 0 line
  rw [Nat.zero_add] at moved
  rw [moved, content?, Option.map_map]
  rfl

/-- A segment that is a token has its characters for a lexeme, and is no mistake. -/
theorem exists_content {s : Segment} (isToken : s.cls.isToken = true) :
    (∃ kind literal, s.content? = some (kind, s.lexeme, literal)) ∧ s.fault? = none := by
  rcases s with ⟨cls, chars⟩
  cases cls with
  | symbol | text | number | word => exact ⟨⟨_, _, rfl⟩, rfl⟩
  | _ => cases isToken

/-- A token that stands at the front of a text stands there as well if nothing follows it. -/
theorem Opens.alone {s : Segment} {rest : List Char} (opens : s.Opens rest)
    (isToken : s.cls.isToken = true) :
    s.Opens [] := by
  rcases s with ⟨cls, chars⟩
  cases opens with
  | passage is =>
    refine .passage ?_
    cases is with
    | text free => exact .text free
    | _ => cases isToken
  | lexeme none_ is _ =>
    obtain ⟨c, more, rfl, _⟩ := is.exists_cons
    refine .lexeme ?_ is fun _ _ _ front => ?_
    · -- With nothing behind it, a slash does not open a comment either.
      obtain ⟨plain, single⟩ := noPassage_iff.mp none_
      rw [List.append_nil]
      refine noPassage_iff.mpr ⟨plain, fun slash d first => single slash d ?_⟩
      cases more with
      | nil => cases first
      | cons => exact first
    · simpa using front.length_le
  | stray => cases isToken

end Segment

/-- Each segment that is cut by the rules stands at the front of some text. -/
theorem Munches.exists_opens {parts : List Segment} (munches : Munches parts) {s : Segment}
    (member : s ∈ parts) :
    ∃ rest, s.Opens rest := by
  induction parts with
  | nil => simp at member
  | cons first others ih =>
    rcases List.mem_cons.mp member with rfl | later
    · exact ⟨_, munches.1⟩
    · exact ih munches.2 later

/-- Tokens with single blanks between them are cut by the rules. -/
theorem munches_intersperse {kept : List Segment}
    (each : ∀ s ∈ kept, s.cls.isToken = true ∧ s.Opens []) :
    Munches (kept.intersperse .space) := by
  induction kept with
  | nil => trivial
  | cons s rest ih =>
    obtain ⟨isToken, alone⟩ := each s (by simp)
    have later := ih fun t member => each t (by simp [member])
    cases rest with
    | nil => exact ⟨alone, trivial⟩
    | cons t rest =>
      rw [List.intersperse_cons_cons]
      refine ⟨?_, .passage (.blank (by simp)), later⟩
      -- The blank ends every token, as tokens are neither comments nor left open.
      have closed : (s.cls ≠ .openText ∧ s.cls ≠ .openComment) ∧ s.cls ≠ .lineComment := by
        refine ⟨⟨?_, ?_⟩, ?_⟩
        all_goals
          intro is
          simp [is, SegmentClass.isToken] at isToken
      exact alone.before_blank (by simp) closed.1 (fun comment => absurd comment closed.2) _

section

variable {kept : List Segment}

/-- The characters of tokens with single blanks between them are their lexemes with
single blanks between them. -/
theorem flatMap_chars_intersperse :
    (kept.intersperse .space).flatMap Segment.chars =
      (" ".intercalate (kept.map Segment.lexeme)).toList := by
  rw [String.toList_intercalate, List.intercalate]
  induction kept with
  | nil => rfl
  | cons s rest ih =>
    cases rest with
    | nil => simp [Segment.lexeme]
    | cons t rest =>
      simp only [List.map_cons, List.intersperse_cons_cons, List.flatMap_cons, List.flatten_cons]
        at ih ⊢
      rw [ih]
      simp [Segment.lexeme, Segment.space]

/-- What is chosen from segments is the same with blanks between them, as long as
blanks are not chosen. -/
theorem filterMap_intersperse {α : Type} {choose : Segment → Option α}
    (skips : choose .space = none) :
    (kept.intersperse .space).filterMap choose = kept.filterMap choose := by
  induction kept with
  | nil => rfl
  | cons s rest ih =>
    -- A blank is put before every segment but the first.
    cases rest with
    | nil => rfl
    | cons t rest =>
      rw [List.intersperse_cons_cons]
      cases chosen : choose s with
      | none =>
        rw [List.filterMap_cons_none chosen, List.filterMap_cons_none skips, ih,
          List.filterMap_cons_none chosen]
      | some a =>
        rw [List.filterMap_cons_some chosen, List.filterMap_cons_none skips, ih,
          List.filterMap_cons_some chosen]

end

/-- The tokens of segments are what the segments are as tokens, and an end token. -/
theorem map_content_tokensFrom (line : Nat) (parts : List Segment) :
    (tokensFrom line parts).map Token.content =
      parts.filterMap Segment.content? ++ [(.eof, "", .null)] := by
  induction parts generalizing line with
  | nil => rfl
  | cons s rest ih =>
    rw [tokensFrom, List.filterMap_cons, ← s.map_content_token? (line + s.lineEnds)]
    cases s.token? (line + s.lineEnds) <;> simp [ih]

/-- The segments of a text that are tokens. -/
def tokenSegments (cs : List Char) : List Segment :=
  (segments cs).filter (·.cls.isToken)

/-- Each of these segments is a token, and stands by the rules where nothing follows it. -/
theorem opens_of_mem_tokenSegments {cs : List Char} :
    ∀ s ∈ tokenSegments cs, s.cls.isToken = true ∧ s.Opens [] := by
  intro s member
  obtain ⟨listed, isToken⟩ := List.mem_filter.mp member
  obtain ⟨rest, opens⟩ := (munches_segments cs).exists_opens listed
  exact ⟨isToken, opens.alone isToken⟩

/-- Scanning makes its tokens of these segments only. -/
theorem map_content_scanTokens (source : String) :
    (scanTokens source).map Token.content =
      (tokenSegments source.toList).filterMap Segment.content? ++ [(.eof, "", .null)] := by
  rw [scanTokens, map_content_tokensFrom, tokenSegments, List.filterMap_filter]
  congr 2
  funext s
  cases isToken : s.cls.isToken with
  | true => simp
  | false => simp [Segment.content?, Segment.token?_eq_none isToken]

/-- The lexemes of a source text are the characters of these segments. -/
theorem respaced_eq (source : String) :
    respaced source = " ".intercalate ((tokenSegments source.toList).map Segment.lexeme) := by
  -- The lexemes are part of what the tokens are, and so is whether a token is the end token.
  obtain ⟨tokens, last, same, lawful⟩ := scanTokens_ends source
  have contents := map_content_scanTokens source
  rw [same, List.map_append] at contents
  obtain ⟨made, _⟩ := List.append_inj' contents rfl
  have kept : (scanTokens source).filter (fun t => t.kind ≠ .eof) = tokens := by
    rw [same, List.filter_append, List.filter_eq_self.mpr
      fun t member => by simpa using (lawful t member).2]
    simp [endToken]
  have lexemes : tokens.map Token.lexeme = (tokens.map Token.content).map (·.2.1) := by
    simp [Token.content]
  rw [respaced, kept, lexemes, made, List.map_filterMap, ← List.filterMap_eq_map]
  congr 1
  refine List.filterMap_congr fun s member => ?_
  obtain ⟨⟨kind, literal, is⟩, _⟩ := Segment.exists_content (opens_of_mem_tokenSegments s member).1
  simp [is]

/--
Lexemes are a faithful normal form.

Whatever a source text is, and whatever mistakes are in it, its lexemes with single blanks
between them are scanned without a mistake, as tokens of the same kinds, lexemes and literals in
the same order.
-/
theorem scan_of_respaced (source : String) :
    scanDiagnostics (respaced source) = [] ∧
      (scanTokens (respaced source)).map Token.content = (scanTokens source).map Token.content := by
  have each := @opens_of_mem_tokenSegments source.toList
  -- By uniqueness the new text is cut into the old tokens and the blanks between them.
  have cut : segments (respaced source).toList =
      (tokenSegments source.toList).intersperse .space := by
    rw [respaced_eq, ← flatMap_chars_intersperse]
    exact (munches_intersperse each).eq_segments.symm
  constructor
  · rw [← List.map_eq_nil_iff (f := Diagnostic.fault), scanDiagnostics, map_fault_diagnosticsFrom,
      cut, filterMap_intersperse rfl, List.filterMap_eq_nil_iff]
    exact fun s member => (Segment.exists_content (each s member).1).2
  · rw [map_content_scanTokens source, scanTokens, map_content_tokensFrom, cut,
      filterMap_intersperse rfl]

end LoxLang
