import LoxLang.Proofs.Source.Munch

/-!
The tokens that scanning makes: one end token, at the end, and literals where there
is something to denote.
-/

namespace LoxLang

/-- Whether a token denotes what its kind asks for: a number, a text, or nothing. -/
def Token.HasLiteral (t : Token) : Prop :=
  match t.kind with
  | .number => ∃ x : Float, t.literal = .number (.ofFloat x)
  | .string => ∃ s, t.literal = .string s
  | _ => t.literal = .null

/-- Whether a kind is that of a symbol: its tokens denote nothing and end nothing. -/
def Kind.isPlain : Kind → Bool
  | .number | .string | .eof => false
  | _ => true

/-- A plain token denotes nothing. -/
theorem Token.hasLiteral_of_isPlain {t : Token} (plain : t.kind.isPlain)
    (empty : t.literal = .null) :
    t.HasLiteral := by
  unfold HasLiteral
  cases is : t.kind <;> simp_all [Kind.isPlain]

/-- Words are plain. -/
theorem Kind.isPlain_ofWord (word : String) : (Kind.ofWord word).isPlain := by
  unfold Kind.ofWord
  split <;> rfl

/-- The symbols that stand alone are plain. -/
theorem isPlain_of_singleSymbol? {c : Char} {kind : Kind} (is : singleSymbol? c = some kind) :
    kind.isPlain := by
  unfold singleSymbol? at is
  split at is <;> cases is <;> rfl

/-- The symbols that an equals sign extends are plain, with it and without it. -/
theorem isPlain_of_extensibleSymbol? {c : Char} {extended alone : Kind}
    (is : extensibleSymbol? c = some (extended, alone)) : extended.isPlain ∧ alone.isPlain := by
  unfold extensibleSymbol? at is
  split at is <;> cases is <;> exact ⟨rfl, rfl⟩

/-- Every symbol that opens a text is plain. -/
theorem isPlain_of_segmentHead {c : Char} {cs : List Char} {kind : Kind}
    (is : (segmentHead c cs).1 = .symbol kind) : kind.isPlain := by
  have headed := headed_segmentHead c cs
  generalize segmentHead c cs = head at headed is
  -- Symbols come from the two tables or are a slash; the other branches give no symbol.
  cases headed with
  | single found =>
    cases is
    exact isPlain_of_singleSymbol? found
  | extended found =>
    cases is
    exact (isPlain_of_extensibleSymbol? found).1
  | alone found =>
    cases is
    exact (isPlain_of_extensibleSymbol? found).2
  | slash =>
    cases is
    rfl
  | lineComment | blockComment | openComment | blank | openText | text | number | word | stray =>
    cases is

/-- Every symbol of a source text is plain. -/
theorem isPlain_of_mem_segments {cs : List Char} {s : Segment} {kind : Kind}
    (member : s ∈ segments cs) (is : s.cls = .symbol kind) : kind.isPlain := by
  -- Each segment opens the text that the ones before it have left.
  fun_induction segments cs with
  | case1 => simp at member
  | case2 c cs head ih =>
    rcases List.mem_cons.mp member with rfl | later
    · exact isPlain_of_segmentHead is
    · exact ih later

/-- The token that a segment is denotes what it should, and does not end the text. -/
theorem Segment.token?_hasLiteral {s : Segment} {line : Nat} {t : Token}
    (is : s.token? line = some t) (symbols : ∀ kind, s.cls = .symbol kind → kind.isPlain) :
    t.HasLiteral ∧ t.kind ≠ .eof := by
  -- Symbols and words denote nothing; numbers and texts carry what they denote.
  have plainly {kind : Kind} (plain : kind.isPlain) :
      Token.HasLiteral { kind, lexeme := s.lexeme, line } ∧ kind ≠ .eof :=
    ⟨Token.hasLiteral_of_isPlain plain rfl, fun ends => by simp [ends, Kind.isPlain] at plain⟩
  unfold Segment.token? at is
  cases cls : s.cls with
  | symbol kind =>
    rw [cls] at is
    cases is
    exact plainly (symbols kind cls)
  | text | number =>
    rw [cls] at is
    cases is
    exact ⟨⟨_, rfl⟩, by rintro ⟨⟩⟩
  | word =>
    rw [cls] at is
    cases is
    exact plainly (Kind.isPlain_ofWord _)
  | blank | lineComment | blockComment | openComment | openText | stray =>
    rw [cls] at is
    cases is

/-- Segments whose symbols are plain give tokens that denote what they should, and
one end token behind them. -/
theorem tokensFrom_ends {parts : List Segment} (line : Nat)
    (symbols : ∀ s ∈ parts, ∀ kind, s.cls = .symbol kind → kind.isPlain) :
    ∃ tokens last, tokensFrom line parts = tokens ++ [endToken last] ∧
      ∀ token ∈ tokens, token.HasLiteral ∧ token.kind ≠ .eof := by
  -- A segment gives one token or none, and moves the line of those behind it.
  induction parts generalizing line with
  | nil => exact ⟨[], line, rfl, by simp⟩
  | cons s rest ih =>
    obtain ⟨tokens, last, same, lawful⟩ := ih (line + s.lineEnds) fun s member =>
      symbols s (by simp [member])
    rw [tokensFrom]
    cases found : s.token? (line + s.lineEnds) with
    | some token =>
      have first := s.token?_hasLiteral found (symbols s (by simp))
      exact ⟨token :: tokens,
        last, by simp only [same, List.cons_append], by simpa using ⟨first, lawful⟩⟩
    | none => exact ⟨tokens, last, same, lawful⟩

/-- The tokens of a source text denote what they should, and one end token stands behind them. -/
theorem scanTokens_ends (source : String) :
    ∃ tokens last, scanTokens source = tokens ++ [endToken last] ∧
      ∀ token ∈ tokens, token.HasLiteral ∧ token.kind ≠ .eof :=
  tokensFrom_ends 1 fun _ member _ is => isPlain_of_mem_segments member is

end LoxLang
