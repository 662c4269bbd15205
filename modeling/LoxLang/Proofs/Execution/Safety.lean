import LoxLang.Proofs.Execution.Runs
import LoxLang.Proofs.Tree.Parts
import LoxLang.Proofs.Value.Plain

/-!
Programs of the grammar run safely.

They compute with values that can be shown, and fail only with a runtime error.
-/

namespace LoxLang

namespace Exec

variable {α β : Type} {kept : Value → Prop} {tokens : Token → Prop}

/--
How a safe computation may end: with a good result, or with a runtime error that is
blamed on a given token.

The wording of the error is one that every channel takes. Only where it is said to be too deep
may a lack of room get out of it.
-/
inductive EndsSafely (tokens : Token → Prop) (good : α → Prop) (deep : Prop) :
    Except Halt α → Prop where
  | ok {value : α} : good value → EndsSafely tokens good deep (.ok value)
  | failed {token : Token} {fault : RuntimeFault} :
    tokens token → fault.message.isPlain →
      EndsSafely tokens good deep (.error (.failed { blamed := token, fault }))
  | nestedTooDeeply : deep → EndsSafely tokens good deep (.error .nestedTooDeeply)

/-- A good result is so for any weaker notion of good. -/
theorem EndsSafely.imp {good fine : α → Prop} {deep : Prop} {result : Except Halt α}
    (ends : EndsSafely tokens good deep result) (implied : ∀ value, good value → fine value) :
    EndsSafely tokens fine deep result := by
  cases ends with
  | ok known => exact .ok (implied _ known)
  | failed known plain => exact .failed known plain
  | nestedTooDeeply isDeep => exact .nestedTooDeeply isDeep

/-- What is never too deep ends with a value, or with a runtime error that is blamed
on a given token. -/
theorem EndsSafely.exists_ending {good : α → Prop} {result : Except Halt α}
    (ends : EndsSafely tokens good False result) :
    ∃ ending : Except RuntimeError α, result = ending.mapError .failed ∧
      ∀ error, ending = .error error →
        error.fault.message.isPlain ∧ ∃ token, tokens token ∧ error.blamed = .token token := by
  cases ends with
  | @ok value => exact ⟨.ok value, rfl, fun _ same => by cases same⟩
  | @failed token fault known plain =>
    refine ⟨.error { blamed := token, fault }, rfl, fun error same => ?_⟩
    rw [← Except.error.inj same]
    exact ⟨plain, token, known, rfl⟩
  | nestedTooDeeply never => exact never.elim

/-- Whether given values can all be shown, and all that programs compute are among them. -/
structure Sound (kept : Value → Prop) : Prop where
  proper : ∀ value : Value, value.isProper → kept value
  plain : ∀ value, kept value → value.isPlain

/-- The values that programs compute with are such values. -/
theorem sound_isProper : Sound (·.isProper) :=
  ⟨fun _ proper => proper, fun _ => Value.isPlain_of_isProper⟩

/-- All values that can be shown are such values. -/
theorem sound_isPlain : Sound (·.isPlain) :=
  ⟨fun _ => Value.isPlain_of_isProper, fun _ plain => plain⟩

/-- Whether a computation on given values ends safely, and binds nothing but such values. -/
def Safe (kept : Value → Prop) (tokens : Token → Prop) (good : α → Prop) (deep : Prop)
    (body : Exec α) :
    Prop :=
  ∀ machine, machine.forest.Holds kept →
    (body machine).2.forest.Holds kept ∧ EndsSafely tokens good deep (body machine).1

namespace Safe

variable {good : α → Prop} {fine : β → Prop} {deep : Prop}

/-- A good value is safe. -/
theorem pure {value : α} (known : good value) :
    Safe kept tokens good deep (Pure.pure value : Exec α) :=
  fun _ holds => ⟨holds, .ok known⟩

/-- What may be too deep may as well be so for a weaker reason. -/
theorem weaken {body : Exec α} {weaker : Prop} (safe : Safe kept tokens good deep body)
    (implied : deep → weaker) :
    Safe kept tokens good weaker body := by
  intro machine holds
  obtain ⟨kept, ends⟩ := safe machine holds
  refine ⟨kept, ?_⟩
  generalize (body machine).1 = result at ends
  cases ends with
  | ok known => exact .ok known
  | failed known plain => exact .failed known plain
  | nestedTooDeeply isDeep => exact .nestedTooDeeply (implied isDeep)

/-- One safe computation after another is safe. -/
theorem bind {first : Exec α} {next : α → Exec β} (safe : Safe kept tokens good deep first)
    (goesOn : ∀ value, good value → Safe kept tokens fine deep (next value)) :
    Safe kept tokens fine deep (first >>= next) := by
  intro machine holds
  obtain ⟨kept, ends⟩ := safe machine holds
  rw [bind_eq]
  rcases ran : first machine with ⟨result, after⟩
  rw [ran] at kept ends
  -- Only a result lets the second computation start, on a machine that still holds proper values.
  cases ends with
  | @ok value known => exact goesOn value known after kept
  | failed known plain => exact ⟨kept, .failed known plain⟩
  | nestedTooDeeply isDeep => exact ⟨kept, .nestedTooDeeply isDeep⟩

/-- Nothing is too deep where lack of room is blamed on a token. -/
theorem blaming {token : Token} {body : Exec α} {never : Prop} (known : tokens token)
    (safe : Safe kept tokens good deep body) :
    Safe kept tokens good never (Exec.blaming token body) := by
  -- What was a lack of room is a runtime error of the token afterwards.
  intro machine holds
  obtain ⟨kept, ends⟩ := safe machine holds
  rw [blaming_eq]
  rcases ran : body machine with ⟨result, after⟩
  rw [ran] at kept ends
  cases ends with
  | ok good => exact ⟨kept, .ok good⟩
  | failed blamed plain => exact ⟨kept, .failed blamed plain⟩
  | nestedTooDeeply => exact ⟨kept, .failed known rfl⟩

/-- A result that is safe by itself is a safe computation. -/
theorem ofResult {result : Except Halt α} (ends : EndsSafely tokens good deep result) :
    Safe kept tokens good deep (Exec.ofResult result) := by
  intro machine holds
  rw [ofResult_eq]
  exact ⟨holds, ends⟩

/-- Reading a variable is safe. -/
theorem readVariable {name : Token} (known : tokens name) :
    Safe kept tokens kept deep (Exec.readVariable name) := by
  -- The value was bound before, so it is one of those; a name without one is blamed.
  intro machine holds
  rw [readVariable_eq, Forest.read_token]
  refine ⟨holds, ?_⟩
  cases found : machine.forest.get? machine.current (.word name.lexeme) with
  | some value => exact .ok (holds.get? found)
  | none => exact .failed known rfl

section

variable [Host] (sound : Sound kept)

include sound

/-- Writing a variable is safe. -/
theorem writeVariable {name : Token} {value : Value} (known : tokens name) (isKept : kept value) :
    Safe kept tokens (fun _ => True) deep (Exec.writeVariable name value) := by
  intro machine holds
  obtain ⟨message, same⟩ := writeVariable_of_isPlain (sound.plain value isKept) name machine
  rw [same]
  cases machine.forest.owner? machine.current (.word name.lexeme) with
  | some owner =>
    refine ⟨?_, .ok trivial⟩
    rw [Machine.forest_debug]
    exact holds.define owner _ isKept
  | none => exact ⟨holds, .failed known rfl⟩

/-- Defining a variable is safe. -/
theorem defineVariable {name : Token} {value : Value} (isKept : kept value) :
    Safe kept tokens (fun _ => True) deep (Exec.defineVariable name value) := by
  intro machine holds
  obtain ⟨message, same⟩ := defineVariable_of_isPlain (sound.plain value isKept) name machine
  rw [same]
  refine ⟨?_, .ok trivial⟩
  rw [Machine.forest_debug]
  exact holds.define machine.current _ isKept

/-- Printing is safe. -/
theorem printValue {value : Value} (isKept : kept value) :
    Safe kept tokens (fun _ => True) deep (Exec.printValue value) := by
  intro machine holds
  obtain ⟨text, same⟩ := printValue_of_isPlain (sound.plain value isKept) machine
  rw [same]
  exact ⟨holds, .ok trivial⟩

end

/-- A safe computation is safe in a new scope. -/
theorem inNewScope {body : Exec Unit} {good : Unit → Prop}
    (safe : Safe kept tokens good deep body) :
    Safe kept tokens good deep (Exec.inNewScope body) := by
  intro machine holds
  obtain ⟨message, same⟩ := inNewScope_eq body machine
  rw [same]
  refine safe _ ?_
  rw [Machine.forest_entered]
  exact holds.create _

end Safe

section

variable {operator : Token} {deep : Prop} (known : tokens operator)

include known

/-- A prefix operator gives a proper value, or is blamed. -/
theorem endsSafely_applyUnary (isPrefix : operator.kind ∈ Grammar.prefixOperators) (a : Value) :
    EndsSafely tokens (·.isProper) deep (applyUnary operator a) := by
  simp only [Grammar.prefixOperators, List.mem_cons, List.not_mem_nil, or_false] at isPrefix
  rw [applyUnary, Mark.kind_token]
  rcases isPrefix with is | is
  · rw [is]
    exact .ok rfl
  · rw [is]
    cases a with
    | number x => exact .ok rfl
    | nil | bool | string | int | null | token | garbled | loaded => exact .failed known rfl

/-- An operator on numbers gives a proper value if its result is one, or is blamed. -/
theorem endsSafely_arithmetic {result : Double → Double → Value}
    (proper : ∀ x y, (result x y).isProper) (a b : Value) :
    EndsSafely tokens (·.isProper) deep (arithmetic operator a b result) := by
  unfold arithmetic
  split
  · exact .ok (proper _ _)
  · exact .failed known rfl

/-- A sum of plain values is proper, or the operator is blamed. -/
theorem endsSafely_addition [Host] {a b : Value} (plain : a.isPlain) (alsoPlain : b.isPlain) :
    EndsSafely tokens (·.isProper) deep (addition operator a b) := by
  unfold addition
  split
  · exact .ok rfl
  · -- Texts without halves are joined to such a text, and that is a string.
    cases adds : addend? a with
    | none => exact .failed known rfl
    | some s =>
      cases alsoAdds : addend? b with
      | none => exact .failed known rfl
      | some t =>
        have first := Value.isPlain_addend plain adds
        have second := Value.isPlain_addend alsoPlain alsoAdds
        cases s with
        | garbled => cases first
        | plain =>
          cases t with
          | garbled => cases second
          | plain => exact .ok rfl

/-- A binary operator gives a proper value of plain ones, or is blamed. -/
theorem endsSafely_applyBinary [Host] {level : Grammar.Level}
    (isBinary : operator.kind ∈ level.operators) {a b : Value} (plain : a.isPlain)
    (alsoPlain : b.isPlain) :
    EndsSafely tokens (·.isProper) deep (applyBinary operator a b) := by
  rw [applyBinary, Mark.kind_token]
  -- The levels list all operators that can be applied.
  cases level <;>
    simp only [Grammar.Level.operators, List.mem_cons, List.not_mem_nil, or_false] at isBinary
  case equality =>
    rcases isBinary with is | is <;> rw [is, compared_of_isPlain plain] <;> exact .ok rfl
  case comparison =>
    rcases isBinary with is | is | is | is <;> rw [is] <;>
      exact endsSafely_arithmetic known (fun _ _ => rfl) a b
  case term =>
    rcases isBinary with is | is <;> rw [is]
    · exact endsSafely_arithmetic known (fun _ _ => rfl) a b
    · exact endsSafely_addition known plain alsoPlain
  case factor =>
    rcases isBinary with is | is <;> rw [is] <;>
      exact endsSafely_arithmetic known (fun _ _ => rfl) a b

end

section

variable [Host] (sound : Sound kept)

include sound

/--
An expression of the grammar is safe.

It is too deep only if nothing but parentheses takes up its room.
-/
theorem safe_evaluateWithin {e : Expr} (made : e.MadeOf tokens kept) (room : Nat) :
    Safe kept tokens kept (room ≤ e.wraps) (evaluateWithin room e) := by
  induction room generalizing e with
  | zero => exact .ofResult (.nestedTooDeeply (Nat.zero_le _))
  | succ room ih =>
    -- Every form but parentheses blames the lack of room of its operands on a token of its own.
    cases made with
    | literal isKept => exact .pure isKept
    | grouping inner => exact (ih inner).weaken Nat.succ_le_succ
    | use known => exact .readVariable known
    | assign known value =>
      refine (Safe.blaming known (ih value)).bind fun value isKept => ?_
      exact (Safe.writeVariable sound known isKept).bind fun _ _ => .pure isKept
    | unary known isPrefix operand =>
      refine (Safe.blaming known (ih operand)).bind fun operand _ => ?_
      exact .ofResult ((endsSafely_applyUnary known isPrefix operand).imp sound.proper)
    | @binary left right operator level leftMade known isBinary rightMade =>
      -- Both operands may be too deep, and the operator is blamed for either.
      have operands : Safe kept tokens (fun pair => kept pair.1 ∧ kept pair.2) True (do
          let a ← evaluateWithin room left
          let b ← evaluateWithin room right
          return (a, b)) :=
        ((ih leftMade).weaken fun _ => trivial).bind fun a isKept =>
          ((ih rightMade).weaken fun _ => trivial).bind fun b alsoKept => .pure ⟨isKept, alsoKept⟩
      refine (Safe.blaming known operands).bind fun operands both => ?_
      have plain := sound.plain _ both.1
      have alsoPlain := sound.plain _ both.2
      exact .ofResult ((endsSafely_applyBinary known isBinary plain alsoPlain).imp sound.proper)

omit sound in
/-- A list of safe statements is safe. -/
theorem safe_executeAll_of_forall {program : List Stmt}
    (each : ∀ stmt ∈ program, Safe kept tokens (fun _ => True) False (execute stmt)) :
    Safe kept tokens (fun _ => True) False (executeAll program) := by
  induction program with
  | nil => exact .pure trivial
  | cons first rest ih =>
    rw [executeAll]
    exact (each first (by simp)).bind fun _ _ => ih fun stmt member => each stmt (by simp [member])

/-- A statement of the grammar is safe if its expressions nest within the limit. -/
theorem safe_execute {stmt : Stmt} (made : stmt.MadeOf tokens kept)
    (within : stmt.nesting < nestingLimit) :
    Safe kept tokens (fun _ => True) False (execute stmt) := by
  have evaluated {e : Expr} (made : e.MadeOf tokens kept) (within : e.nesting < nestingLimit) :
      Safe kept tokens kept False (evaluate e) := by
    -- Each pair of parentheses takes up twice as much of the limit as it takes room here.
    have wraps := e.two_mul_wraps_le_nesting
    exact (safe_evaluateWithin sound made nestingLimit).weaken fun deep => by omega
  -- The induction is on what the statement is made of, so the statements of a block
  -- are safe already.
  induction made with
  | expression inner =>
    rw [execute]
    exact (evaluated inner within).bind fun _ _ => .pure trivial
  | print inner =>
    rw [execute]
    exact (evaluated inner within).bind fun _ isKept => .printValue sound isKept
  | declare known =>
    rw [execute]
    exact .defineVariable sound (sound.proper .nil rfl)
  | declareAs known initial =>
    rw [execute]
    exact (evaluated initial within).bind fun _ isKept => .defineVariable sound isKept
  | block _ ih =>
    rw [execute]
    refine .inNewScope (safe_executeAll_of_forall fun stmt member => ih stmt member ?_)
    exact Nat.lt_of_le_of_lt (Stmt.nesting_le_nestings member) within

/-- A program of the grammar is safe if it nests within the limit. -/
theorem safe_executeAll {program : List Stmt} (made : ∀ stmt ∈ program, stmt.MadeOf tokens kept)
    (within : WithinNestingLimit program) :
    Safe kept tokens (fun _ => True) False (executeAll program) := by
  refine safe_executeAll_of_forall fun stmt member => safe_execute sound (made stmt member) ?_
  have nested := Stmt.nesting_lt_depth stmt
  have limited := Stmt.depth_le_depths member
  exact Nat.lt_of_lt_of_le (Nat.lt_of_lt_of_le nested limited) within

end

end Exec

end LoxLang
