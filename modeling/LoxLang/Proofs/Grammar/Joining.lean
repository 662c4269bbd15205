import LoxLang.Proofs.Grammar.Completeness

/-!
Expressions with a minus sign between them are one expression, which is read as far as
there is room.
-/

namespace LoxLang

/-- The kinds of token that expressions consist of. -/
def Kind.inExpression : Kind → Bool
  | leftParen | rightParen | minus | plus | slash | star | bang | bangEqual | equal | equalEqual
  | greater | greaterEqual
  | less | lessEqual | identifier | string | number | kwFalse | kwNil | kwTrue => true
  | _ => false

namespace Grammar

/-- Operators belong to expressions. -/
theorem Level.inExpression_of_mem {level : Level} {kind : Kind}
    (operates : kind ∈ level.operators) :
    kind.inExpression = true := by
  revert operates
  cases level <;> cases kind <;> decide

/-- Prefix operators belong to expressions. -/
theorem inExpression_of_prefix {kind : Kind} (operates : kind ∈ prefixOperators) :
    kind.inExpression = true := by
  revert operates
  cases kind <;> decide

/-- An expression consists of tokens that belong to expressions. -/
theorem Derives.inExpression {rule : Rule} {used : List Token} {e : Expr}
    (derived : Derives rule used e) :
    ∀ token ∈ used, token.kind.inExpression = true := by
  -- A rule adds at most an operator, a name or parentheses to what its parts are made of.
  induction derived with
  | equality _ ih | operand _ ih | primary _ ih => exact ih
  | assign isName isEquals _ ih =>
    rintro token (_ | ⟨_, _ | ⟨_, member⟩⟩)
    · rw [isName]
      rfl
    · rw [isEquals]
      rfl
    · exact ih token member
  | chain _ operates _ leftIh rightIh =>
    intro token member
    rcases List.mem_append.mp member with early | late
    · exact leftIh token early
    · rcases List.mem_cons.mp late with rfl | later
      · exact Level.inExpression_of_mem operates
      · exact rightIh token later
  | prefixed operates _ ih =>
    rintro token (_ | ⟨_, member⟩)
    · exact inExpression_of_prefix operates
    · exact ih token member
  | grouping opens _ closes ih =>
    intro token member
    rcases List.mem_append.mp member with early | late
    · rcases List.mem_cons.mp early with rfl | inner
      · rw [opens]
        rfl
      · exact ih token inner
    · rw [List.mem_singleton.mp late, closes]
      rfl
  | truth kind | falsity kind | nothing kind | number kind | string kind | use kind =>
    intro token member
    rw [List.mem_singleton.mp member, kind]
    rfl

/-- A kind that does not belong to expressions is in none. -/
theorem Derives.without {rule : Rule} {used : List Token} {e : Expr} (derived : Derives rule used e)
    {kind : Kind} (outside : kind.inExpression = false) : Without kind used := by
  rintro token member rfl
  simp [derived.inExpression token member] at outside

/-- A chain can begin in another way if its first operand can. -/
theorem Derives.restart {level : Level} {first : Token} {before vs : List Token} {e : Expr}
    (derived : Derives (.binary level) (first :: vs) e)
    (restarts : ∀ us operand, Derives level.operand (first :: us) operand →
      ∃ other, Derives (.binary level) (before ++ us) other) :
    ∃ other, Derives (.binary level) (before ++ vs) other := by
  generalize chained : Rule.binary level = rule, whole : first :: vs = used at derived
  induction derived generalizing vs with
  | operand only =>
    cases chained
    cases whole
    exact restarts vs _ only
  | @chain _ operator ts us _ right shorter operates last ih _ =>
    cases chained
    -- The first token stands in the shorter chain, which begins in the other way.
    obtain ⟨token, more, rfl, _⟩ := shorter.opens
    rw [List.cons_append, List.cons.injEq] at whole
    obtain ⟨rfl, rfl⟩ := whole
    obtain ⟨other, begun⟩ := ih rfl rfl
    refine ⟨.binary other operator right, ?_⟩
    rw [← List.append_assoc]
    exact .chain begun operates last
  | _ => cases chained

section

variable {minus : Token} (isMinus : minus.kind = .minus)

include isMinus

/-- Behind a minus sign that a product begins with stands a product. -/
theorem Derives.behind_minus {vs : List Token} {e : Expr}
    (derived : Derives (.binary .factor) (minus :: vs) e) :
    ∃ other, Derives (.binary .factor) vs other := by
  refine @Derives.restart .factor minus [] vs e derived fun us operand prefixed => ?_
  generalize whole : minus :: us = used at prefixed
  cases prefixed with
  | prefixed _ inner =>
    cases whole
    exact ⟨_, .operand inner⟩
  | primary inner =>
    -- No primary begins with a minus sign.
    obtain ⟨token, more, rfl, unprefixed⟩ := inner.primary_unprefixed
    cases whole
    rw [isMinus] at unprefixed
    cases unprefixed

end

/-- Whether what a rule derives, with a minus sign behind it that more of the same begins
with, is derived as a whole. -/
def Joins (rule : Rule) : Prop :=
  ∀ minus ts vs left right, minus.kind = .minus → Derives rule ts left →
    Derives rule (minus :: vs) right →
    ∃ whole, Derives rule (ts ++ minus :: vs) whole

/-- A sum takes the minus sign as one of its operators. -/
theorem joins_term : Joins (.binary .term) := by
  intro minus ts vs left right isMinus leftDerived rightDerived
  -- Sums associate to the left, so what follows the first product of the right side
  -- is added to the whole.
  have joined : ∃ whole, Derives (.binary .term) (ts ++ [minus] ++ vs) whole := by
    refine rightDerived.restart fun us operand product => ?_
    obtain ⟨other, factor⟩ := product.behind_minus isMinus
    refine ⟨.binary left minus other, ?_⟩
    rw [List.append_assoc, List.singleton_append]
    exact .chain leftDerived (by rw [isMinus]; decide) factor
  simpa using joined

/-- A chain takes the minus sign into its last operand if operands do so. -/
theorem Joins.chain {level : Level} (joins : Joins level.operand) : Joins (.binary level) := by
  intro minus ts vs left right isMinus leftDerived rightDerived
  have joined : ∃ whole, Derives (.binary level) (ts ++ [minus] ++ vs) whole := by
    refine rightDerived.restart fun us operand first => ?_
    rw [List.append_assoc, List.singleton_append]
    -- The last operand on the left and the first one on the right become one operand.
    cases leftDerived with
    | operand only =>
      obtain ⟨whole, derived⟩ := joins minus _ us _ _ isMinus only first
      exact ⟨whole, .operand derived⟩
    | @chain _ operator shorter last left _ shorterDerived operates lastDerived =>
      obtain ⟨whole, derived⟩ := joins minus last us _ _ isMinus lastDerived first
      refine ⟨.binary left operator whole, ?_⟩
      rw [List.append_assoc, List.cons_append]
      exact .chain shorterDerived operates derived
  simpa using joined

/-- An assignment takes the minus sign into its value. -/
theorem joins_assignment : Joins .assignment := by
  have term : Joins (Level.operand .comparison) := joins_term
  have comparison : Joins (Level.operand .equality) := term.chain
  have equality : Joins (.binary .equality) := comparison.chain
  intro minus ts vs left right isMinus leftDerived rightDerived
  generalize whole : Rule.assignment = rule at leftDerived
  induction leftDerived with
  | @assign name equals _ _ isName isEquals _ ih =>
    obtain ⟨value, derived⟩ := ih rfl
    exact ⟨.assign name value, .assign isName isEquals derived⟩
  | equality leftChain =>
    cases rightDerived with
    | assign isName =>
      -- A minus sign is no name.
      rw [isMinus] at isName
      cases isName
    | equality rightChain =>
      obtain ⟨value, derived⟩ := equality minus _ vs _ _ isMinus leftChain rightChain
      exact ⟨value, .equality derived⟩
  | _ => cases whole

end Grammar

namespace Parse

variable {α β : Type}

/-- Whether a step does what another one does, or stops for lack of room with no other
reports than the first of those. -/
def Curtails (step whole : Parse α) : Prop :=
  ∀ tokens, step tokens = whole tokens ∨
    (step tokens).result = .error .nestedTooDeeply ∧
      (step tokens).reports <+: (whole tokens).reports

namespace Curtails

/-- A step does what it does. -/
theorem refl (step : Parse α) : Curtails step step :=
  fun _ => .inl rfl

/-- A step that stops at once reports nothing. -/
theorem nestedTooDeeply (whole : Parse α) : Curtails (Parse.stop .nestedTooDeeply) whole :=
  fun _ => .inr ⟨rfl, List.nil_prefix⟩

/-- Two steps in turn stop where the first of them stops that lacks room. -/
theorem bind {step whole : Parse α} {next wholeNext : α → Parse β} (first : Curtails step whole)
    (second : ∀ value, Curtails (next value) (wholeNext value)) :
    Curtails (step >>= next) (whole >>= wholeNext) := by
  intro tokens
  rcases tried : whole tokens with ⟨wholeResult, wholeRest, wholeReports⟩
  rcases first tokens with same | ⟨deep, told⟩
  · rw [tried] at same
    cases wholeResult with
    | error cause =>
      rw [bind_eq_of_error same, bind_eq_of_error tried]
      exact .inl rfl
    | ok value =>
      rw [bind_eq_of_ok same, bind_eq_of_ok tried]
      -- Both go on from the same place, so what matters is how they go on.
      rcases second value wholeRest with followed | ⟨deep, told⟩
      · rw [followed]
        exact .inl rfl
      · exact .inr ⟨deep, (List.prefix_append_right_inj wholeReports).mpr told⟩
  · rcases short : step tokens with ⟨result, rest, reports⟩
    rw [short] at deep told
    rw [tried] at told
    subst deep
    rw [bind_eq_of_error short]
    refine .inr ⟨rfl, ?_⟩
    cases wholeResult with
    | error cause => rwa [bind_eq_of_error tried]
    | ok value =>
      rw [bind_eq_of_ok tried]
      exact told.trans (List.prefix_append ..)

/-- A chain stops where its operands lack room. -/
theorem chainFrom {operators : Kind → Bool} {operand whole : Parse Expr}
    (curtails : Curtails operand whole) (clock : List Token) (left : Expr) :
    Curtails (Parse.chainFrom operators operand clock left)
      (Parse.chainFrom operators whole clock left) := by
  -- The clock is the same for both, as it counts tokens and not room.
  induction clock generalizing left with
  | nil => exact refl _
  | cons tick clock ih =>
    refine (refl (accept? operators)).bind fun found => ?_
    cases found with
    | none => exact refl _
    | some operator => exact curtails.bind fun right => ih _

/-- A chain stops where its operands lack room, the first one included. -/
theorem chain {operators : Kind → Bool} {operand whole : Parse Expr}
    (curtails : Curtails operand whole) :
    Curtails (Parse.chain operators operand) (Parse.chain operators whole) :=
  curtails.bind fun left tokens => chainFrom curtails tokens left tokens

/-- A primary stops where what stands between its parentheses lacks room. -/
theorem primary {inner whole : Parse Expr} (curtails : Curtails inner whole) :
    Curtails (Parse.primary inner) (Parse.primary whole) := by
  refine (refl peek).bind fun token => ?_
  cases token.kind with
  | leftParen => exact (refl advance).bind fun _ => curtails.bind fun _ => refl _
  | _ => exact refl _

/-- With less room, assignments and operands are read as with more, or stop for lack of it. -/
theorem assignment_and_prefixed (room more : Nat) :
    Curtails (assignment room) (assignment (room + more)) ∧
      Curtails (prefixed room) (prefixed (room + more)) := by
  -- The two call each other with less room, so they are followed together.
  induction room with
  | zero =>
    constructor
    · rw [assignment]
      exact nestedTooDeeply _
    · rw [prefixed]
      exact nestedTooDeeply _
  | succ room ih =>
    rw [Nat.add_right_comm]
    constructor
    · rw [assignment, assignment]
      refine Curtails.bind (ih.2.chain.chain.chain.chain) fun left => (refl _).bind fun found => ?_
      cases found with
      | none => exact refl _
      | some equals => exact ih.1.bind fun value => refl _
    · rw [prefixed, prefixed]
      refine (refl _).bind fun found => ?_
      cases found with
      | none => exact ih.1.primary
      | some operator => exact ih.2.bind fun operand => refl _

end Curtails

/-- An expression of the grammar is read up to its semicolon, or stops before it for
lack of room and in silence. -/
theorem assignment_of_derived {used : List Token} {e : Expr}
    (derived : Grammar.Derives .assignment used e) (room : Nat) {semicolon : Token}
    (closes : semicolon.kind = .semicolon) (rest : List Token) :
    (assignment room).Reads (used ++ semicolon :: rest) e (semicolon :: rest) ∨
      ∃ left, left <:+ used ∧ assignment room (used ++ semicolon :: rest) =
        { result := .error .nestedTooDeeply, rest := left ++ semicolon :: rest,
          reports := [] } := by
  -- With enough room the whole expression is read, and without a report.
  have read :=
    (Grammar.covers_assignment_and_prefixed (room + (e.nesting + 2))).1 used e semicolon
      rest derived (by omega) (by rw [closes]; rfl)
  rcases (Curtails.assignment_and_prefixed room (e.nesting + 2)).1 (used ++ semicolon :: rest) with
    same | ⟨deep, told⟩
  · exact .inl (same.trans read)
  · rw [read, List.prefix_nil] at told
    obtain ⟨seen, _, suffix, taken⟩ :=
      StaysBefore.assignment rfl room used semicolon (derived.without rfl) closes
    have stopped := taken rest
    refine .inr ⟨seen.rest, suffix, ?_⟩
    rw [stopped] at deep told ⊢
    rw [← deep, ← told]

end Parse

end LoxLang
