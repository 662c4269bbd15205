import LoxLang.Proofs.Source.Respacing

/-!
How the tokens of a source text are spelled: names are words that are not reserved, and
symbols have one spelling each.
-/

namespace LoxLang

/-- Whether a text is a name: a letter, then letters and digits, and not a reserved word. -/
structure IsNameText (text : String) : Prop where
  begins : ∃ first more, text.toList = first :: more ∧ isAlpha first = true
  continues : ∀ c ∈ text.toList, isAlphanumeric c = true
  unreserved : ∀ entry ∈ keywords, text ≠ entry.1

/-- Whether the lexeme and the literal of a token are those of its kind. -/
structure Token.Spelled (t : Token) : Prop where
  name : t.kind = .identifier → IsNameText t.lexeme
  symbol : ∀ entry ∈ symbols, t.kind = entry.2 → t.lexeme.toList = entry.1
  number : t.kind = .number → ∃ x, IsNumeral t.lexeme.toList x ∧ t.literal = .number (.ofFloat x)
  plain : t.kind.isPlain = true → t.literal = .null

/-- A token of another kind than words and symbols have is spelled as its literal tells. -/
theorem Token.Spelled.of_not_isPlain {t : Token} (other : t.kind.isPlain = false)
    (number : t.kind = .number → ∃ x, IsNumeral t.lexeme.toList x ∧
      t.literal = .number (.ofFloat x)) :
    t.Spelled where
  name is := by simp [is, Kind.isPlain] at other
  symbol entry listed is := by
    have known : ∀ entry ∈ symbols, entry.2.isPlain = true := by decide
    simp [is, known entry listed] at other
  number := number
  plain is := by simp [is] at other

/-- The token that a segment stands for is spelled as its kind asks. -/
theorem Token.Denotes.spelled {t : Token} {s : Segment} {line : Nat} {rest : List Char}
    (denotes : t.Denotes s line) (opens : s.Opens rest) : t.Spelled := by
  rcases s with ⟨cls, chars⟩
  obtain ⟨lexeme, _, reserved, means⟩ := denotes
  dsimp only at lexeme
  cases opens with
  -- A string has a kind of its own; other passages are no tokens.
  | passage is =>
    cases is with
    | text => exact .of_not_isPlain (by rw [means.1]; rfl) fun is => by cases means.1.symm.trans is
    | _ => cases means
  | lexeme _ is =>
    cases is with
    | symbol listed =>
      obtain ⟨written, literal⟩ := means
      -- No two symbols are of one kind, and none is of the kind of names or numbers.
      have once : ∀ entry ∈ symbols, ∀ other ∈ symbols, entry.2 = other.2 →
          entry.1 = other.1 := by decide
      have noName : ∀ entry ∈ symbols, entry.2 ≠ .identifier ∧ entry.2 ≠ .number := by decide
      exact
        { name := fun is => absurd is (noName _ written).1
          symbol := fun entry known is => lexeme.trans (once _ written entry known is)
          number := fun is => absurd is (noName _ written).2
          plain := fun _ => literal }
    | whole | fraction =>
      obtain ⟨is, x, written, literal⟩ := means
      exact .of_not_isPlain (by rw [is]; rfl) fun _ => ⟨x, lexeme ▸ written, literal⟩
    | @word first more alpha all =>
      obtain ⟨unlisted, literal⟩ := means
      -- A word is reserved, which its kind tells, or a name.
      have noSymbol : ∀ word ∈ keywords, ∀ entry ∈ symbols, word.2 ≠ entry.2 := by decide
      have noName : ∀ word ∈ keywords, word.2 ≠ .identifier ∧ word.2 ≠ .number := by decide
      have others : ∀ entry ∈ symbols, entry.2 ≠ .identifier := by decide
      have kinds : t.kind = .identifier ∨ ∃ word ∈ keywords, t.kind = word.2 := by
        by_cases listed : ∀ entry ∈ keywords, t.lexeme ≠ entry.1
        · exact .inl (unlisted listed)
        · push Not at listed
          obtain ⟨word, known, same⟩ := listed
          exact .inr ⟨word, known, (reserved word known).mpr same⟩
      refine
        { name := fun is => ⟨⟨first, more, lexeme, alpha⟩, ?_, ?_⟩
          symbol := ?_
          number := ?_
          plain := fun _ => literal }
      · rw [lexeme, List.forall_mem_cons]
        exact ⟨by simp [isAlphanumeric, alpha], all⟩
      · exact fun entry known same =>
          (noName entry known).1 (((reserved entry known).mpr same).symm.trans is)
      · intro entry listed is
        rcases kinds with name | ⟨word, known, same⟩
        · exact absurd (is.symm.trans name) (others entry listed)
        · exact absurd (same.symm.trans is) (noSymbol word known entry listed)
      · intro is
        rcases kinds with name | ⟨word, known, same⟩
        · cases name.symm.trans is
        · exact absurd (same.symm.trans is) (noName word known).2
  | stray => cases means

/-- The tokens of a source text are spelled as their kinds ask. -/
theorem spelled_of_mem_scanTokens {source : String} {t : Token} (member : t ∈ scanTokens source) :
    t.Spelled := by
  have listed : t.content ∈ (scanTokens source).map Token.content := List.mem_map_of_mem member
  rw [map_content_scanTokens, List.mem_append, List.mem_filterMap, List.mem_singleton] at listed
  rcases listed with ⟨s, known, is⟩ | closes
  · -- The token says what a segment says on some other line.
    obtain ⟨isToken, opens⟩ := opens_of_mem_tokenSegments s known
    obtain ⟨u, found, denotes⟩ := Segment.exists_denotes opens isToken 0
    rw [Segment.content?, found, Option.map_some, Option.some.injEq] at is
    simp only [Token.content, Prod.mk.injEq] at is
    have spelled := denotes.spelled opens
    exact
      { name := is.1 ▸ is.2.1 ▸ spelled.name
        symbol := is.1 ▸ is.2.1 ▸ spelled.symbol
        number := is.1 ▸ is.2.1 ▸ is.2.2 ▸ spelled.number
        plain := is.1 ▸ is.2.2 ▸ spelled.plain }
  · simp only [Token.content, Prod.mk.injEq] at closes
    exact .of_not_isPlain (by rw [closes.1]; rfl) fun is => by cases closes.1.symm.trans is

end LoxLang
