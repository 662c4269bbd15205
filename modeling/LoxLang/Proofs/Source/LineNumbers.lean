import LoxLang.Proofs.Source.Scanning

/-!
Line numbers are exact: each is one more than the number of line ends before a place in
the source text.
-/

namespace LoxLang

/-- A segment of a text with all that stands before it and behind it. -/
structure Occurrence where
  before : List Char
  segment : Segment
  behind : List Char

namespace Occurrence

/-- Segments in order, each with what stands around it, if a given text stands before them. -/
def ofSegments (before : List Char) : List Segment → List Occurrence
  | [] => []
  | s :: rest =>
    { before, segment := s, behind := rest.flatMap Segment.chars } ::
      ofSegments (before ++ s.chars) rest

/-- The segments of a text where they stand in it. -/
def allIn (cs : List Char) : List Occurrence :=
  ofSegments [] (segments cs)

variable {before : List Char} {parts : List Segment} {place : Occurrence}

/-- A segment and what stands around it are the whole text. -/
theorem whole_of_mem_ofSegments (member : place ∈ ofSegments before parts) :
    place.before ++ place.segment.chars ++ place.behind =
      before ++ parts.flatMap Segment.chars := by
  induction parts generalizing before with
  | nil => simp [ofSegments] at member
  | cons s rest ih =>
    rcases List.mem_cons.mp member with rfl | later
    · simp
    · -- The segment passed over is part of the text before those that follow it.
      simp [ih later]

/-- A segment stands by the rules in front of what is behind it. -/
theorem opens_of_mem_ofSegments (munches : Munches parts)
    (member : place ∈ ofSegments before parts) :
    place.segment.Opens place.behind := by
  induction parts generalizing before with
  | nil => simp [ofSegments] at member
  | cons s rest ih =>
    rcases List.mem_cons.mp member with rfl | later
    · exact munches.1
    · exact ih munches.2 later

/-- Counting on from segment to segment counts all line ends up to the end of each. -/
theorem endLines_eq_map_ofSegments (before : List Char) (parts : List Segment) :
    endLines (1 + before.count '\n') parts =
      (ofSegments before parts).map fun place =>
        (place.segment, 1 + (place.before ++ place.segment.chars).count '\n') := by
  induction parts generalizing before with
  | nil => rfl
  | cons s rest ih =>
    have line :
        1 + before.count '\n' + s.chars.count '\n' = 1 + (before ++ s.chars).count '\n' := by
      rw [List.count_append]
      omega
    rw [endLines, ofSegments, List.map_cons, line, ih]

end Occurrence

/-- A mistake is one character that ends no line, or else nothing stands behind it. -/
theorem Segment.Opens.of_isMistake {s : Segment} {rest : List Char} (opens : s.Opens rest)
    (isMistake : s.cls.isMistake = true) :
    (s.cls = .stray ∧ ∃ c, s.chars = [c] ∧ c ≠ '\n') ∨ (s.cls ≠ .stray ∧ rest = []) := by
  rcases s with ⟨cls, chars⟩
  cases opens with
  | passage is =>
    -- Of strings and comments, those without an end are mistakes, and they take all there is.
    cases is with
    | openText | openComment => exact .inr ⟨by simp, rfl⟩
    | _ => cases isMistake
  | lexeme _ is => cases is <;> cases isMistake
  | @stray c _ none_ =>
    obtain ⟨plain, _⟩ := noPassage_iff.mp none_
    refine .inl ⟨rfl, c, rfl, ?_⟩
    rintro rfl
    simp at plain

/-- A mistake is blamed on the line that it stands on, or on the last line if the rest of
the text belongs to it. -/
theorem Diagnostic.Blames.line_cases {d : Diagnostic} {place : Occurrence} {cs : List Char}
    (blames : d.Blames place.segment (1 + (place.before ++ place.segment.chars).count '\n'))
    (opens : place.segment.Opens place.behind) (isMistake : place.segment.cls.isMistake = true)
    (whole : place.before ++ place.segment.chars ++ place.behind = cs) :
    (d.fault = .unexpectedCharacter ∧ (∃ c, place.segment.chars = [c]) ∧
      d.line = 1 + place.before.count '\n') ∨
      ((d.fault = .unterminatedString ∨ d.fault = .unterminatedComment) ∧
        d.line = 1 + cs.count '\n') := by
  obtain ⟨line, _, fault⟩ := blames
  simp only [List.mem_cons, Prod.mk.injEq, List.not_mem_nil, or_false] at fault
  rcases opens.of_isMistake isMistake with ⟨is, c, single, inLine⟩ | ⟨other, last⟩
  · -- The character itself is no line end, so it makes no difference whether it is counted.
    refine .inl ⟨?_, ⟨c, single⟩, ?_⟩
    · simpa [is] using fault
    · rw [line, single, List.count_append, List.count_singleton]
      simp [inLine]
  · refine .inr ⟨?_, ?_⟩
    · simpa [other] using fault.imp_right (Or.imp And.right And.right)
    · rw [line, ← whole, last, List.append_nil]
      simp

/--
Line numbers are exact.

The line of a token is one more than the number of line ends in the source text before the end
of its lexeme, and the line of the end token one more than the number of all line ends. An
unexpected character is reported on the line that it stands on, and a string or a comment
without an end on the line of the end token.
-/
theorem scan_lines_are_exact (source : String) :
    (∀ place ∈ Occurrence.allIn source.toList,
      place.before ++ place.segment.chars ++ place.behind = source.toList ∧
        place.segment.Opens place.behind) ∧
    ∃ (tokens : List Token) (last : Token), scanTokens source = tokens ++ [last] ∧
      List.Forall₂ (fun (place : Occurrence) (t : Token) =>
          t.lexeme.toList = place.segment.chars ∧
            t.line = 1 + (place.before ++ place.segment.chars).count '\n')
        ((Occurrence.allIn source.toList).filter (·.segment.cls.isToken)) tokens ∧
      last.kind = .eof ∧ last.line = 1 + source.toList.count '\n' ∧
      List.Forall₂ (fun (place : Occurrence) (d : Diagnostic) =>
          (d.fault = .unexpectedCharacter ∧ (∃ c, place.segment.chars = [c]) ∧
            d.line = 1 + place.before.count '\n') ∨
            ((d.fault = .unterminatedString ∨ d.fault = .unterminatedComment) ∧ d.line = last.line))
        ((Occurrence.allIn source.toList).filter (·.segment.cls.isMistake))
          (scanDiagnostics source) := by
  have munches := munches_segments source.toList
  have placed : ∀ place ∈ Occurrence.allIn source.toList,
      place.before ++ place.segment.chars ++ place.behind = source.toList ∧
        place.segment.Opens place.behind := by
    intro place member
    refine ⟨?_, Occurrence.opens_of_mem_ofSegments munches member⟩
    simpa [flatMap_chars_segments] using Occurrence.whole_of_mem_ofSegments member
  -- The lines that segments end on are counted from the start of the text.
  have lines : endLines 1 (segments source.toList) = _ := Occurrence.endLines_eq_map_ofSegments [] _
  obtain ⟨tokens, same, denotes⟩ := tokensFrom_denotes munches 1
  have blames := diagnosticsFrom_blames munches 1
  rw [lines, List.filter_map, List.forall₂_map_left_iff] at denotes blames
  rw [flatMap_chars_segments] at same
  refine ⟨placed, tokens, _, same, ?_, rfl, by simp [endToken], ?_⟩
  · refine denotes.imp fun place t is => ⟨is.lexeme, ?_⟩
    rw [is.line]
    simp
  · -- What is known of the places of all segments holds for the mistakes among them.
    have mistakes :=
      (List.forall₂_and_left _ _).mpr ⟨fun place member => List.mem_filter.mp member, blames⟩
    refine mistakes.imp fun place d ⟨⟨member, isMistake⟩, blamed⟩ => ?_
    obtain ⟨whole, opens⟩ := placed place member
    simpa [endToken] using blamed.line_cases opens isMistake whole

end LoxLang
