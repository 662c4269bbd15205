import LoxLang.Proofs.Source.Munch
import LoxLang.Proofs.Source.Tokens

/-!
A line end keeps two texts apart: each is scanned as if it stood alone, and the second
has later lines.
-/

namespace LoxLang

/-- No lexeme holds a blank. -/
theorem IsLexeme.not_mem_blank {cls : SegmentClass} {chars : List Char} (is : IsLexeme cls chars)
    {c : Char} (blank : c ∈ [' ', '\t', '\r', '\n']) : c ∉ chars := by
  intro member
  -- Apart from symbols, lexemes are made of letters, digits and points.
  have plain : (isAlpha c = false ∧ isDigit c = false ∧ c ≠ '.') ∧ ∀ entry ∈ symbols,
      c ∉ entry.1 := by
    simp only [List.mem_cons, List.not_mem_nil, or_false] at blank
    rcases blank with rfl | rfl | rfl | rfl <;> decide
  obtain ⟨⟨alpha, digit, point⟩, free⟩ := plain
  cases is with
  | symbol listed => exact free _ listed member
  | whole _ digits => simp [digits c member] at digit
  | fraction _ digits _ placeDigits =>
    rcases List.mem_append.mp member with early | late
    · simp [digits c early] at digit
    · rcases List.mem_cons.mp late with same | place
      · exact point same
      · simp [placeDigits c place] at digit
  | word letter all =>
    rcases List.mem_cons.mp member with rfl | later
    · simp [letter] at alpha
    · have continues := all c later
      simp [isAlphanumeric, alpha, digit] at continues

/-- A lexeme in front of a blank stands before it. -/
theorem IsLexeme.prefix_of_blank {cls : SegmentClass} {chars cs more : List Char} {c : Char}
    (is : IsLexeme cls chars) (blank : c ∈ [' ', '\t', '\r', '\n'])
    (front : chars <+: cs ++ c :: more) : chars <+: cs := by
  obtain ⟨rest, same⟩ := front
  rcases List.append_eq_append_iff.mp same with ⟨between, rfl, _⟩ | ⟨between, rfl, later⟩
  · exact List.prefix_append ..
  · -- Otherwise the blank would be part of the lexeme.
    cases between with
    | nil => simp
    | cons d between =>
      obtain ⟨rfl, _⟩ := List.cons.inj later
      exact absurd (by simp) (is.not_mem_blank blank)

/-- A blank behind a text does not make a string, a comment or a blank of its front. -/
theorem NoPassage.before_blank {c d : Char} {cs : List Char} (none_ : NoPassage (c :: cs))
    (blank : d ∈ [' ', '\t', '\r', '\n']) (more : List Char) :
    NoPassage (c :: (cs ++ d :: more)) := by
  obtain ⟨plain, alone⟩ := noPassage_iff.mp none_
  refine noPassage_iff.mpr ⟨plain, fun slash e first => ?_⟩
  cases cs with
  | nil =>
    -- Now the blank stands behind the slash, and no blank opens a comment there.
    obtain rfl : d = e := by simpa using first
    simp only [List.mem_cons, List.not_mem_nil, or_false] at blank
    rcases blank with rfl | rfl | rfl | rfl <;> decide
  | cons => exact alone slash e first

/--
What stands at the front of a text stands there as well if the text goes on after a blank.

A string or a comment without an end would take in what follows, and a line comment
ends at a line end only.
-/
theorem Segment.Opens.before_blank {s : Segment} {rest : List Char} {c : Char}
    (opens : s.Opens rest) (blank : c ∈ [' ', '\t', '\r', '\n'])
    (closed : s.cls ≠ .openText ∧ s.cls ≠ .openComment) (ends : s.cls = .lineComment → c = '\n')
    (more : List Char) : s.Opens (rest ++ c :: more) := by
  -- A passage ends by its own rule; only those that run to the end of the text take in more.
  rcases s with ⟨cls, chars⟩
  cases opens with
  | passage is =>
    refine .passage ?_
    cases is with
    | text free => exact .text free
    | openText => exact absurd rfl closed.1
    | lineComment free stops =>
      refine .lineComment free fun d first => ?_
      cases rest with
      | nil =>
        obtain rfl : c = d := by simpa using first
        exact ends rfl
      | cons => exact stops d first
    | blockComment free => exact .blockComment free
    | openComment => exact absurd rfl closed.2
    | blank member => exact .blank member
  -- A longer lexeme would have to hold the blank, and no lexeme does.
  | lexeme none_ is longest =>
    obtain ⟨d, others, rfl, _⟩ := is.exists_cons
    refine .lexeme ?_ is fun cls chars other front => ?_
    · simpa using NoPassage.before_blank none_ blank more
    · rw [← List.append_assoc] at front
      exact longest cls chars other (other.prefix_of_blank blank front)
  | stray none_ missing =>
    refine .stray (none_.before_blank blank more) fun cls chars other front => ?_
    exact missing cls chars other (other.prefix_of_blank blank front)

/-- The segment that a line end is. -/
def lineEnd : Segment :=
  { cls := .blank, chars := ['\n'] }

/-- A text that closes its strings and comments is cut as if it stood alone when another text
follows on the next line. -/
theorem segments_lineEnd {cs : List Char}
    (closed : ∀ s ∈ segments cs, s.cls ≠ .openText ∧ s.cls ≠ .openComment) (more : List Char) :
    segments (cs ++ '\n' :: more) = segments cs ++ lineEnd :: segments more := by
  -- By uniqueness it is enough that the segments of both texts still stand by the rules.
  have munches : ∀ parts, Munches parts → (∀ s ∈ parts, s.cls ≠ .openText ∧ s.cls ≠ .openComment) →
      Munches (parts ++ lineEnd :: segments more) := by
    intro parts first
    induction parts with
    | nil => exact fun _ => ⟨.passage (.blank (by decide)), munches_segments more⟩
    | cons s rest ih =>
      intro closed
      refine ⟨?_, ih first.2 fun t member => closed t (by simp [member])⟩
      have opens := first.1.before_blank (by decide) (closed s (by simp)) (fun _ => rfl) more
      simpa [flatMap_chars_segments, lineEnd] using opens
  have cut := (munches _ (munches_segments cs) closed).eq_segments
  rw [cut]
  simp [flatMap_chars_segments, lineEnd]

/-- A token that stands so many lines further down. -/
def Token.moved (lines : Nat) (t : Token) : Token :=
  { t with line := t.line + lines }

/-- The token of a segment further down is the same token, further down. -/
theorem Segment.token?_add (s : Segment) (line lines : Nat) :
    s.token? (line + lines) = (s.token? line).map (Token.moved lines) := by
  -- The line is the only thing that a token takes from where its segment stands.
  unfold Segment.token?
  cases s.cls <;> simp [Token.moved]

/-- The tokens of segments further down are the same tokens, further down. -/
theorem tokensFrom_add (line lines : Nat) (parts : List Segment) :
    tokensFrom (line + lines) parts = (tokensFrom line parts).map (Token.moved lines) := by
  induction parts generalizing line with
  | nil => simp [tokensFrom, endToken, Token.moved]
  | cons s rest ih =>
    have later : line + lines + s.lineEnds = line + s.lineEnds + lines := by omega
    rw [tokensFrom, tokensFrom, later, s.token?_add (line + s.lineEnds) lines, ih]
    cases s.token? (line + s.lineEnds) <;> rfl

/-- The tokens of more segments follow those of the first ones, and begin on the
line that those end on. -/
theorem exists_tokensFrom {parts : List Segment} (munches : Munches parts) (line : Nat) :
    ∃ tokens, ∀ others,
      tokensFrom line (parts ++ others) =
        tokens ++ tokensFrom (line + (parts.flatMap Segment.chars).count '\n') others := by
  induction parts generalizing line with
  | nil => exact ⟨[], fun others => rfl⟩
  | cons s rest ih =>
    obtain ⟨tokens, same⟩ := ih munches.2 (line + s.lineEnds)
    refine ⟨(s.token? (line + s.lineEnds)).toList ++ tokens, fun others => ?_⟩
    rw [List.cons_append, tokensFrom, same, munches.endLine_cons]
    cases s.token? (line + s.lineEnds) <;> rfl

/-- A diagnostic that stands so many lines further down. -/
def Diagnostic.moved (lines : Nat) (d : Diagnostic) : Diagnostic :=
  { d with line := d.line + lines }

/-- The diagnostics of segments further down are the same diagnostics, further down. -/
theorem diagnosticsFrom_add (line lines : Nat) (parts : List Segment) :
    diagnosticsFrom (line + lines) parts =
      (diagnosticsFrom line parts).map (Diagnostic.moved lines) := by
  induction parts generalizing line with
  | nil => simp [diagnosticsFrom]
  | cons s rest ih =>
    have later : line + lines + s.lineEnds = line + s.lineEnds + lines := by omega
    rw [diagnosticsFrom, diagnosticsFrom, later, ih]
    cases s.fault? with
    | none => rfl
    | some fault => simp [Diagnostic.moved]

/-- The diagnostics of more segments follow those of the first ones, and begin on
the line that those end on. -/
theorem diagnosticsFrom_append {parts : List Segment} (munches : Munches parts) (line : Nat)
    (others : List Segment) :
    diagnosticsFrom line (parts ++ others) =
      diagnosticsFrom line parts ++
        diagnosticsFrom (line + (parts.flatMap Segment.chars).count '\n') others := by
  induction parts generalizing line with
  | nil => simp [diagnosticsFrom]
  | cons s rest ih =>
    rw [List.cons_append, diagnosticsFrom, diagnosticsFrom, ih munches.2, munches.endLine_cons]
    cases s.fault? <;> simp

/-- The diagnostics tell the mistakes among the segments, in order. -/
theorem map_fault_diagnosticsFrom (line : Nat) (parts : List Segment) :
    (diagnosticsFrom line parts).map Diagnostic.fault = parts.filterMap Segment.fault? := by
  induction parts generalizing line with
  | nil => simp [diagnosticsFrom]
  | cons s rest ih =>
    rw [diagnosticsFrom, List.filterMap_cons]
    cases s.fault? with
    | none => exact ih _
    | some fault => simp [ih]

section

variable {first : String} (second : String)
  (closed : ∀ d ∈ scanDiagnostics first, d.fault ≠ .unterminatedString ∧
    d.fault ≠ .unterminatedComment)

include closed

/-- Two texts on lines of their own are cut one after the other. -/
theorem segments_lines :
    segments (first ++ "\n" ++ second).toList =
      segments first.toList ++ lineEnd :: segments second.toList := by
  -- A string or a comment without an end would have been reported.
  have reported {s : Segment} {fault : Fault} (member : s ∈ segments first.toList)
      (is : s.fault? = some fault) :
      fault ≠ .unterminatedString ∧ fault ≠ .unterminatedComment := by
    have listed : fault ∈ (scanDiagnostics first).map Diagnostic.fault := by
      rw [scanDiagnostics, map_fault_diagnosticsFrom]
      exact List.mem_filterMap.mpr ⟨s, member, is⟩
    obtain ⟨d, found, rfl⟩ := List.mem_map.mp listed
    exact closed d found
  rw [← segments_lineEnd]
  · simp
  · intro s member
    refine ⟨fun open_ => ?_, fun open_ => ?_⟩
    · exact (reported member (by rw [Segment.fault?, open_])).1 rfl
    · exact (reported member (by rw [Segment.fault?, open_])).2 rfl

/-- The tokens of two texts on lines of their own are those of the first, and those
of the second further down. -/
theorem scanTokens_lines :
    ∃ tokens, scanTokens first = tokens ++ [endToken (1 + first.toList.count '\n')] ∧
      scanTokens (first ++ "\n" ++ second) =
        tokens ++ (scanTokens second).map (Token.moved (1 + first.toList.count '\n')) := by
  obtain ⟨tokens, same⟩ := exists_tokensFrom (munches_segments first.toList) 1
  rw [flatMap_chars_segments] at same
  refine ⟨tokens, ?_, ?_⟩
  · simpa [scanTokens, tokensFrom] using same []
  · -- The line end is no token, and the second text starts on the line behind it.
    have below : tokensFrom (1 + first.toList.count '\n') (lineEnd :: segments second.toList) =
        tokensFrom (1 + (1 + first.toList.count '\n')) (segments second.toList) := by
      rw [Nat.add_comm 1 (1 + _)]
      rfl
    rw [scanTokens, segments_lines second closed, same, below, tokensFrom_add]
    rfl

/-- The diagnostics of two texts on lines of their own are those of the first, and those of
the second further down. -/
theorem scanDiagnostics_lines :
    scanDiagnostics (first ++ "\n" ++ second) =
      scanDiagnostics first ++ (scanDiagnostics second).map
        (Diagnostic.moved (1 + first.toList.count '\n')) := by
  -- The line end is no mistake either.
  have below : diagnosticsFrom (1 + first.toList.count '\n') (lineEnd :: segments second.toList) =
      diagnosticsFrom (1 + (1 + first.toList.count '\n')) (segments second.toList) := by
    rw [Nat.add_comm 1 (1 + _)]
    rfl
  rw [scanDiagnostics, segments_lines second closed, diagnosticsFrom_append (munches_segments _),
    flatMap_chars_segments, below, diagnosticsFrom_add]
  rfl

/--
Scanning is compositional at line ends.

If the first text leaves no string and no comment open, the text of both is scanned as if each
stood alone: the end token of the first is left out, and whatever the second yields stands as
many lines further down as the first has, and one more.
-/
theorem scan_of_lines :
    (∃ tokens last, scanTokens first = tokens ++ [last] ∧ last.kind = .eof ∧
      (∀ t ∈ tokens, t.kind ≠ .eof) ∧
      scanTokens (first ++ "\n" ++ second) =
        tokens ++ (scanTokens second).map (Token.moved (1 + first.toList.count '\n'))) ∧
    scanDiagnostics (first ++ "\n" ++ second) =
      scanDiagnostics first ++ (scanDiagnostics second).map
        (Diagnostic.moved (1 + first.toList.count '\n')) := by
  refine ⟨?_, scanDiagnostics_lines second closed⟩
  obtain ⟨tokens, ends, joined⟩ := scanTokens_lines second closed
  refine ⟨tokens, _, ends, rfl, ?_, joined⟩
  -- There is no other end token than the last one.
  obtain ⟨others, last, same, lawful⟩ := scanTokens_ends first
  rw [ends] at same
  obtain ⟨rfl, _⟩ := List.append_inj' same rfl
  exact fun t member => (lawful t member).2

end

/-- An unexpected character, a comment over two lines and half of an operator in front of a
string without an end. -/
theorem scan_of_lines_split_operator :
    (∀ d ∈ scanDiagnostics "# /*\n*/ =", d.fault ≠ .unterminatedString ∧
      d.fault ≠ .unterminatedComment) ∧
    (∃ tokens last, scanTokens "# /*\n*/ =" = tokens ++ [last] ∧ last.kind = .eof ∧
      (∀ t ∈ tokens, t.kind ≠ .eof) ∧
      scanTokens ("# /*\n*/ =" ++ "\n" ++ "= \"open") =
        tokens ++ (scanTokens "= \"open").map (Token.moved 2)) ∧
    scanDiagnostics ("# /*\n*/ =" ++ "\n" ++ "= \"open") =
      scanDiagnostics "# /*\n*/ =" ++ (scanDiagnostics "= \"open").map (Diagnostic.moved 2) := by
  have reported : scanDiagnostics "# /*\n*/ =" =
      [{ line := .ofNat 1, place := .unplaced, fault := .unexpectedCharacter }] := by decide +kernel
  have closed : ∀ d ∈ scanDiagnostics "# /*\n*/ =",
      d.fault ≠ .unterminatedString ∧ d.fault ≠ .unterminatedComment := by
    rw [reported]
    decide
  exact ⟨closed, scan_of_lines "= \"open" closed⟩

end LoxLang
