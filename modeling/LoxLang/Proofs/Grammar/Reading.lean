import LoxLang.Grammar.Program

/-! Quiet reading: when a step succeeds without a report, by the way in which the step is built. -/

namespace LoxLang.Parse

variable {α β : Type}

/-- A step reads the front of a token list as a value, leaves the rest and reports nothing. -/
def Reads (step : Parse α) (tokens : List Token) (value : α) (rest : List Token) : Prop :=
  step tokens = { result := .ok value, rest, reports := [] }

/-- Accepting looks at one token. -/
theorem accept?_cons (accepted : Kind → Bool) (token : Token) (later : List Token) :
    accept? accepted (token :: later) =
      if accepted token.kind then { result := .ok (some token), rest := later, reports := [] }
      else { result := .ok none, rest := token :: later, reports := [] } := by
  -- The token that is looked at is the one that is taken.
  show (Parse.bind peek fun token =>
    if accepted token.kind then Parse.bind advance (Parse.pure ∘ some) else Parse.pure none)
      (token :: later) = _
  by_cases fits : accepted token.kind <;> simp [Parse.bind, peek, advance, Parse.pure, fits]

/-- Refusing reports the token it stands at, and leaves it in place. -/
theorem refuse_cons (fault : Fault) (token : Token) (later : List Token) :
    (refuse fault : Parse α) (token :: later) =
      { result := .error .refused, rest := token :: later, reports := [.atToken token fault] } :=
  rfl

/-- Expecting a kind takes a token of that kind and refuses any other. -/
theorem expect_cons (kind : Kind) (fault : Fault) (token : Token) (later : List Token) :
    expect kind fault (token :: later) =
      if token.kind = kind then { result := .ok token, rest := later, reports := [] }
      else
        { result := .error .refused, rest := token :: later,
          reports := [.atToken token fault] } := by
  -- What is not accepted is refused.
  show Parse.bind (accept? (· == kind)) _ (token :: later) = _
  by_cases fits : token.kind = kind
  · simp [Parse.bind, accept?_cons, fits, Pure.pure, Parse.pure]
  · simp [Parse.bind, accept?_cons, fits, refuse_cons]

/-- Nothing can be accepted, refused or expected where no token is. -/
theorem accept?_nil (accepted : Kind → Bool) :
    accept? accepted [] = { result := .error .unended, rest := [], reports := [] } :=
  rfl

/-- A step that takes no token reads nothing. -/
@[simp] theorem reads_pure_iff {value read : α} {tokens rest : List Token} :
    Reads (pure value) tokens read rest ↔ value = read ∧ tokens = rest := by
  show Parse.pure value tokens = _ ↔ _
  simp [Parse.pure]

/-- One step behind another reads quietly exactly if both do. -/
theorem reads_bind_iff {step : Parse α} {next : α → Parse β} {tokens rest : List Token}
    {value : β} :
    Reads (step >>= next) tokens value rest ↔
      ∃ first between, Reads step tokens first between ∧ Reads (next first) between value rest := by
  -- The reports of both steps are joined, so there are none exactly if neither step has any.
  show Parse.bind step next tokens = _ ↔ _
  rcases tried : step tokens with ⟨result, between, reports⟩
  rcases result with stop | first
  · simp [Parse.bind, Reads, tried]
  · rcases followed : next first between with ⟨result', rest', reports'⟩
    simp only [Parse.bind, tried, followed, Reads, Parsed.mk.injEq, List.append_eq_nil_iff,
      Except.ok.injEq]
    constructor
    · rintro ⟨rfl, rfl, rfl, rfl⟩
      exact ⟨first, between, ⟨rfl, rfl, rfl⟩, by rw [followed]⟩
    · rintro ⟨_, _, ⟨rfl, rfl, quiet⟩, read⟩
      rw [followed, Parsed.mk.injEq] at read
      exact ⟨read.1, read.2.1, quiet, read.2.2⟩

/-- A step that stops reads nothing. -/
@[simp] theorem not_reads_stop {cause : Stop} {tokens rest : List Token} {value : α} :
    ¬ Reads (stop cause) tokens value rest := by
  simp [Reads, stop]

/-- A step that reports is not quiet. -/
@[simp] theorem not_reads_report {diagnostic : Diagnostic} {tokens rest : List Token}
    {value : Unit} :
    ¬ Reads (report diagnostic) tokens value rest := by
  simp [Reads, report]

/-- Looking at a token leaves it in place. -/
@[simp] theorem reads_peek_iff {tokens rest : List Token} {token : Token} :
    Reads peek tokens token rest ↔ tokens = rest ∧ ∃ later, tokens = token :: later := by
  cases tokens with
  | nil => simp [Reads, peek, stop]
  | cons first later =>
    simp only [Reads, peek, Parse.pure, Parsed.mk.injEq, Except.ok.injEq, List.cons.injEq]
    constructor
    · rintro ⟨rfl, rfl, _⟩
      exact ⟨rfl, later, rfl, rfl⟩
    · rintro ⟨rfl, _, rfl, _⟩
      exact ⟨rfl, rfl, trivial⟩

/-- Taking a token leaves what stands behind it. -/
@[simp] theorem reads_advance_iff {tokens rest : List Token} {token : Token} :
    Reads advance tokens token rest ↔ tokens = token :: rest := by
  cases tokens with
  | nil => simp [Reads, advance, stop]
  | cons first later => simp [Reads, advance, Parse.pure]

/-- A loop that is stopped reads nothing. -/
@[simp] theorem not_reads_overrun {tokens rest : List Token} {value : α} :
    ¬ Reads overrun tokens value rest := by
  simp [overrun, reads_bind_iff]

/-- A step that refuses reads nothing. -/
@[simp] theorem not_reads_refuse {fault : Fault} {tokens rest : List Token} {value : α} :
    ¬ Reads (refuse fault) tokens value rest := by
  simp [refuse, reads_bind_iff]

/-- Accepting takes a token of an accepted kind, and leaves any other in place. -/
theorem reads_accept?_iff {accepted : Kind → Bool} {tokens rest : List Token}
    {found : Option Token} :
    Reads (accept? accepted) tokens found rest ↔
      ∃ token later, tokens = token :: later ∧
        if accepted token.kind then found = some token ∧ rest = later
        else found = none ∧ rest = tokens := by
  cases tokens with
  | nil => simp [Reads, accept?_nil]
  | cons first later =>
    -- Either way the step is quiet, so only what it gives and leaves is compared.
    rw [Reads, accept?_cons]
    constructor
    · intro read
      refine ⟨first, later, rfl, ?_⟩
      split at read <;> simp_all
    · rintro ⟨token, after, same, taken⟩
      obtain ⟨rfl, rfl⟩ := List.cons.inj same
      split at taken <;> simp_all

/-- Expecting a kind takes a token of that kind. -/
@[simp] theorem reads_expect_iff {kind : Kind} {fault : Fault} {tokens rest : List Token}
    {token : Token} :
    Reads (expect kind fault) tokens token rest ↔ tokens = token :: rest ∧ token.kind = kind := by
  cases tokens with
  | nil => simp [Reads, expect, Bind.bind, Parse.bind, accept?_nil]
  | cons first later =>
    rw [Reads, expect_cons]
    -- A token of another kind is refused with a report, and then nothing is read.
    by_cases fits : first.kind = kind
    · simp only [fits, if_true, Parsed.mk.injEq, Except.ok.injEq, and_true, List.cons.injEq]
      grind
    · simp only [fits, if_false, Parsed.mk.injEq, reduceCtorEq, false_and, List.cons.injEq,
        false_iff]
      grind

/-- Behind a step that reads quietly, only what follows matters. -/
theorem Reads.bind_eq {step : Parse α} {tokens rest : List Token} {value : α}
    (read : Reads step tokens value rest) (next : α → Parse β) :
    (step >>= next) tokens = next value rest := by
  show Parse.bind step next tokens = _
  rw [Reads] at read
  simp [Parse.bind, read]

/-- Behind a step that stops, nothing follows. -/
theorem bind_eq_of_error {step : Parse α} {tokens rest : List Token} {cause : Stop}
    {reports : List Diagnostic} (stopped : step tokens = { result := .error cause, rest, reports })
    (next : α → Parse β) :
    (step >>= next) tokens = { result := .error cause, rest, reports } := by
  show Parse.bind step next tokens = _
  simp [Parse.bind, stopped]

/-- Behind a step with a result, what follows adds its reports. -/
theorem bind_eq_of_ok {step : Parse α} {tokens rest : List Token} {value : α}
    {reports : List Diagnostic} (taken : step tokens = { result := .ok value, rest, reports })
    (next : α → Parse β) :
    (step >>= next) tokens =
      { result := (next value rest).result
        rest := (next value rest).rest
        reports := reports ++ (next value rest).reports } := by
  show Parse.bind step next tokens = _
  simp [Parse.bind, taken]

end LoxLang.Parse
