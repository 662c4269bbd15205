import LoxLang.Proofs.Execution.Framing
import LoxLang.Proofs.Execution.Mirroring

/-! A block that declares nothing of its own does what its statements do without it. -/

namespace LoxLang

open Reference

/-- Whether two stacks of scopes are the same, but for one empty scope so many scopes
further out in the first. -/
inductive Padded : Nat → Sight → Sight → Prop where
  | here {outer : Sight} : Padded 0 (∅ :: outer) outer
  | inside {depth : Nat} {own : Env Value} {seen others : Sight} :
    Padded depth seen others → Padded (depth + 1) (own :: seen) (own :: others)

namespace Padded

variable {depth : Nat} {seen others : Sight}

/-- An empty scope is passed by where a name is looked for. -/
theorem lookup?_eq (padded : Padded depth seen others) (name : Name) :
    lookup? seen name = lookup? others name := by
  induction padded with
  | here => rw [lookup?_cons, Finmap.lookup_empty, Option.none_or]
  | inside _ ih => rw [lookup?_cons, lookup?_cons, ih]

/-- An empty scope is passed by where a name is assigned, and stays empty. -/
theorem assign? (padded : Padded depth seen others) (name : Name) (value : Value) :
    Option.Rel (Padded depth) (Reference.assign? name value seen)
      (Reference.assign? name value others) := by
  induction padded with
  | @here outer =>
    rw [Reference.assign?, if_neg Finmap.notMem_empty]
    cases Reference.assign? name value outer with
    | none => exact .none
    | some changed => exact .some .here
  | @inside _ own seen others further ih =>
    rw [Reference.assign?, Reference.assign?]
    by_cases bound : name ∈ own
    · -- The name is found before the empty scope is reached.
      rw [if_pos bound, if_pos bound]
      exact .some (.inside further)
    · rw [if_neg bound, if_neg bound]
      generalize Reference.assign? name value seen = changed, Reference.assign? name value others =
        other at ih ⊢
      cases ih with
      | none => exact .none
      | some kept => exact .some (.inside kept)

/-- The scopes around an innermost scope that is empty are the others. -/
theorem tail_eq (padded : Padded 0 seen others) : seen.tail = others := by
  cases padded
  rfl

/-- A mark is read alike. -/
theorem readIn_eq (padded : Padded depth seen others) (mark : Mark) :
    mark.readIn others = mark.readIn seen := by
  cases named : mark.name with
  | error halt => rw [Mark.readIn_of_error named, Mark.readIn_of_error named]
  | ok name => rw [Mark.readIn_of_name named, Mark.readIn_of_name named, padded.lookup?_eq]

end Padded

namespace Exec

variable {α β : Type} {depth : Nat}

/-- Whether a computation does the same on machines of which one has an empty scope more, so
many scopes further out. -/
def Unaware (depth : Nat) (body : Exec α) : Prop :=
  ∀ machine mirror, Machine.Alike (Padded depth) machine mirror →
    Machine.Alike (Padded depth) (body machine).2 (body mirror).2 ∧
      (body mirror).1 = (body machine).1

namespace Unaware

/-- A result does not depend on the scopes. -/
theorem ofResult (result : Except Halt α) : Unaware depth (Exec.ofResult result) := by
  intro machine mirror alike
  rw [ofResult_eq, ofResult_eq]
  exact ⟨alike, rfl⟩

/-- Computations in turn do the same if each of them does. -/
theorem bind {first : Exec α} {next : α → Exec β} (unaware : Unaware depth first)
    (goesOn : ∀ value, Unaware depth (next value)) : Unaware depth (first >>= next) := by
  intro machine mirror alike
  obtain ⟨stillAlike, same⟩ := unaware machine mirror alike
  rw [bind_eq, bind_eq]
  rcases ran : first machine with ⟨result, left⟩
  rcases otherRan : first mirror with ⟨otherResult, otherLeft⟩
  rw [ran, otherRan] at stillAlike same
  -- Both runs go on with one value, or both halt where they are.
  cases same
  cases result with
  | ok value => exact goesOn value left otherLeft stillAlike
  | error halt => exact ⟨stillAlike, rfl⟩

/-- Lack of room is blamed on the same mark. -/
theorem blaming (mark : Mark) {body : Exec α} (unaware : Unaware depth body) :
    Unaware depth (Exec.blaming mark body) := by
  intro machine mirror alike
  obtain ⟨stillAlike, same⟩ := unaware machine mirror alike
  rw [blaming_eq, blaming_eq]
  rcases ran : body machine with ⟨result, left⟩
  rcases otherRan : body mirror with ⟨otherResult, otherLeft⟩
  rw [ran, otherRan] at stillAlike same
  cases same
  -- Only a lack of room is looked at, and both runs have the same result.
  rcases result with halt | value
  · cases halt <;> exact ⟨stillAlike, rfl⟩
  · exact ⟨stillAlike, rfl⟩

/-- A variable has one value in both stacks. -/
theorem readVariable (mark : Mark) : Unaware depth (Exec.readVariable mark) := by
  intro machine mirror alike
  rw [readVariable_eq_readIn, readVariable_eq_readIn]
  exact ⟨alike, alike.seen.readIn_eq mark⟩

/-- Changes of what is seen do the same if they keep the empty scope, or halt alike. -/
theorem changing {change : Sight → Except Halt Sight} {body : Exec Unit}
    (changes : Changes change body)
    (kept : ∀ own otherOwn outer others, Padded depth (own :: outer) (otherOwn :: others) →
      (∃ halt, change (own :: outer) = .error halt ∧ change (otherOwn :: others) = .error halt) ∨
      ∃ seen mirrored, change (own :: outer) = .ok seen ∧
      change (otherOwn :: others) = .ok mirrored ∧ Padded depth seen mirrored) :
    Unaware depth body := by
  intro machine mirror alike
  have ran := changes machine alike.inside
  have otherRan := changes mirror alike.otherInside
  have seen := alike.seen
  -- What a machine sees is never empty.
  obtain ⟨own, outer, stack⟩ := machine.exists_stack
  obtain ⟨otherOwn, others, otherStack⟩ := mirror.exists_stack
  rw [stack, otherStack] at seen
  rw [stack] at ran
  rw [otherStack] at otherRan
  obtain ⟨halt, halts, otherHalts⟩ | ⟨_, _, changed, otherChanged, padded⟩ :=
    kept own otherOwn outer others seen
  · rw [halts] at ran
    rw [otherHalts] at otherRan
    rw [ran, otherRan]
    exact ⟨alike, rfl⟩
  · rw [changed] at ran
    rw [otherChanged] at otherRan
    obtain ⟨left, same, inside, rfl, level, texts⟩ := ran
    obtain ⟨otherLeft, otherSame, otherInside, rfl, otherLevel, otherTexts⟩ := otherRan
    rw [same, otherSame]
    refine ⟨⟨inside, otherInside, ?_, ?_, padded⟩, rfl⟩
    · rw [otherLevel, alike.level, level]
    · rw [otherTexts, alike.texts, texts]

/-- A name is assigned in the same scope of both stacks. -/
theorem assignName (mark : Mark) (value : Value) : Unaware depth (Exec.assignName mark value) := by
  refine changing (changes_assignName mark value) fun own otherOwn outer others padded => ?_
  cases named : mark.name with
  | error halt => exact .inl ⟨halt, Mark.writeIn_of_error named .., Mark.writeIn_of_error named ..⟩
  | ok name =>
    have assigned := padded.assign? name value
    rw [Mark.writeIn_of_name named, Mark.writeIn_of_name named]
    -- Both stacks bind the name in scopes that answer to each other, or neither binds it.
    generalize Reference.assign? name value (own :: outer) = seen,
      Reference.assign? name value (otherOwn :: others) = mirrored at assigned ⊢
    cases assigned with
    | none => exact .inl ⟨_, rfl, rfl⟩
    | some further => exact .inr ⟨_, _, rfl, rfl, further⟩

/-- A name is bound alike if the empty scope is not the one that it is bound in. -/
theorem bindName (mark : Mark) (value : Value) :
    Unaware (depth + 1) (Exec.bindName mark value) := by
  refine changing (changes_bindName mark value) ?_
  rintro own _ outer others (_ | further)
  cases named : mark.name with
  | error halt =>
    exact .inl ⟨halt, Mark.defineIn_of_error named .., Mark.defineIn_of_error named ..⟩
  | ok name =>
    exact .inr ⟨_, _, Mark.defineIn_of_name named .., Mark.defineIn_of_name named ..,
      .inside further⟩

section

variable [Host]

/-- A value is told about alike in lines with the same halves of pairs. -/
theorem mention_lines (value : Value) {line otherLine : Text → Text}
    (blots : ∀ text, (otherLine text).blot? = (line text).blot?) {machine mirror : Machine}
    (alike : Machine.Alike (Padded depth) machine mirror) :
    Machine.Alike (Padded depth) (Exec.mention value line machine).2
        (Exec.mention value otherLine mirror).2 ∧
      (Exec.mention value otherLine mirror).1 = (Exec.mention value line machine).1 := by
  rw [mention_eq, mention_eq]
  cases shown value with
  | error halt => exact ⟨alike, rfl⟩
  | ok text =>
    dsimp only
    have both := blots (text ++ " (" ++ value.typeName ++ ")")
    generalize line (text ++ " (" ++ value.typeName ++ ")") = told,
      otherLine (text ++ " (" ++ value.typeName ++ ")") = otherTold at both
    cases told with
    | plain message =>
      cases otherTold with
      | garbled => cases both
      | plain otherMessage =>
        rw [tell_plain, tell_plain]
        exact ⟨alike.debug 1 message otherMessage, rfl⟩
    | garbled message =>
      cases otherTold with
      | plain => cases both
      | garbled otherMessage =>
        -- Both machines tell as much, so both refuse the line, at the same halves,
        -- or both pass it over.
        rw [tell_garbled, tell_garbled, alike.level, Option.some.inj both]
        exact ⟨alike, rfl⟩

/-- A variable is assigned in the same scope of both stacks. -/
theorem writeVariable (mark : Mark) (value : Value) :
    Unaware depth (Exec.writeVariable mark value) :=
  (assignName mark value).bind fun _ _ _ alike => mention_lines value (fun _ => rfl) alike

/-- A variable is declared alike if the empty scope is not the one that it is declared in. -/
theorem defineVariable (mark : Mark) (value : Value) :
    Unaware (depth + 1) (Exec.defineVariable mark value) := by
  refine (bindName mark value).bind fun _ machine mirror alike => ?_
  rw [get_bind_eq, get_bind_eq]
  -- The depth of a scope stands at the end of the line, behind all halves of pairs.
  refine mention_lines value (fun text => ?_) alike
  rw [definitionLine, definitionLine]
  simp only [Text.blot?_append_plain]

/-- One value is printed. -/
theorem printValue (value : Value) : Unaware depth (Exec.printValue value) := by
  intro machine mirror alike
  rw [printValue_eq, printValue_eq]
  cases shown value with
  | error halt => exact ⟨alike, rfl⟩
  | ok text =>
    cases text with
    | garbled text => exact ⟨alike, rfl⟩
    | plain text =>
      refine ⟨⟨alike.inside, alike.otherInside, alike.level, ?_, alike.seen⟩, rfl⟩
      exact congrArg (List.cons (text ++ "\n")) alike.texts

end

/-- In a new scope, the empty scope is one scope further out. -/
theorem inNewScope {body : Exec Unit} (leading : Leading body)
    (unaware : Unaware (depth + 1) body) :
    Unaware depth (Exec.inNewScope body) := by
  intro machine mirror alike
  obtain ⟨message, same⟩ := inNewScope_eq body machine
  obtain ⟨otherMessage, otherSame⟩ := inNewScope_eq body mirror
  rw [same, otherSame]
  have entered : Machine.Alike (Padded (depth + 1)) (machine.entered message)
      (mirror.entered otherMessage) :=
    alike.entered (fun _ _ padded => .inside padded) message otherMessage
  obtain ⟨alikeLeft, results⟩ := unaware _ _ entered
  -- The scope that is left was the innermost one of both, and the empty one is still further out.
  refine ⟨alike.left ?_ (leading _) (leading _) alikeLeft, results⟩
  rintro own _ outer others (_ | further)
  exact further

end Unaware

/-- An empty scope makes no difference to runs, one scope further in with each new scope. -/
theorem unaware_inherited [Host] : Inherited (· + 1) fun depth {_} => Unaware depth where
  ofResult _ := Unaware.ofResult
  bind _ := Unaware.bind
  blaming _ := Unaware.blaming
  readVariable _ := Unaware.readVariable
  printValue _ := Unaware.printValue
  defineVariable _ := Unaware.defineVariable
  inNewScope _ program := Unaware.inNewScope (leading_executeAll program)

/-- An empty scope makes no difference to statements that declare nothing in it. -/
theorem unaware_executeAll [Host] (program : List Stmt)
    (plain : ∀ stmt ∈ program, stmt.declared? = none) :
    Unaware 0 (executeAll program) := by
  refine unaware_inherited.executeAll 0 program (fun mark _ _ => Unaware.writeVariable mark) ?_
  intro stmt member mark declares
  rw [plain stmt member] at declares
  cases declares

/--
A block none of whose own statements is a declaration does what its statements do in its place.

From every machine, both runs end in the same way, with the same error if there is one.
They have printed the same, and they see the same scopes with the same values from
the scope that they started in.
-/
theorem block_without_declarations_is_transparent [Host] {body : List Stmt}
    (plain : ∀ stmt ∈ body, stmt.declared? = none) (machine : Machine)
    (inside : machine.current < machine.forest.size) :
    ∃ result after inPlace, execute (.block body) machine = (result, after) ∧
      executeAll body machine = (result, inPlace) ∧ after.texts = inPlace.texts ∧
      after.current = machine.current ∧ inPlace.current = machine.current ∧
        after.stack = inPlace.stack := by
  obtain ⟨message, same⟩ := inNewScope_eq (executeAll body) machine
  -- The machine in the new scope has that scope more than the machine outside.
  have alike : Machine.Alike (Padded 0) (machine.entered message) machine := by
    refine ⟨by simp, inside, ?_, ?_, ?_⟩
    · rw [Machine.entered, Machine.debugLevel_debug]
    · rw [Machine.entered, Machine.texts_debug]
      rfl
    · rw [Machine.stack_entered inside]
      exact .here
  obtain ⟨alikeLeft, results⟩ := unaware_executeAll body plain _ _ alike
  rw [← execute] at same
  refine ⟨_, _, (executeAll body machine).2, same, Prod.ext results rfl, alikeLeft.texts.symm,
    rfl, ?_, ?_⟩
  · exact (leading_executeAll body machine).current_eq
  · -- Behind the new scope, the block sees what its statements see without it.
    have seen := alikeLeft.seen
    rw [Machine.stack_of_leads_entered inside (leading_executeAll body _)] at seen
    exact seen.tail_eq

/-- Statements that change an outer variable, declare one of its name in a block of their
own, and fail in the end. -/
def overshadowing : List Stmt :=
  let word (text : String) : Mark := .token { kind := .identifier, lexeme := text }
  [.expression (.assign (word "x") (.literal (.string "new"))),
    .block [.declare (word "x") (some (.use (word "x"))),
      .expression (.assign (word "x") (.literal .nil))],
    .print (.use (word "x")), .print (.use (word "y"))]

/-- As a block and without it, the statements print the outer variable that they
changed, and fail alike. -/
theorem block_without_declarations_is_transparent_overshadowing :
    let machine : Machine :=
      { forest := { scopes := #[{ bindings := [(.word "x", .string "old")] }] } }
    ∃ after inPlace,
      execute (.block overshadowing) machine =
        (.error (.failed
          { blamed := .token { kind := .identifier, lexeme := "y" },
            fault := .undefinedVariable "y" }), after) ∧
      executeAll overshadowing machine =
        (.error (.failed
          { blamed := .token { kind := .identifier, lexeme := "y" },
            fault := .undefinedVariable "y" }), inPlace) ∧
      after.texts = ["new\n"] ∧ inPlace.texts = ["new\n"] ∧ after.current = inPlace.current ∧
        after.stack = inPlace.stack := by
  intro machine
  obtain ⟨result, after, inPlace, ran, ranInPlace, texts, current, currentInPlace, stack⟩ :=
    @block_without_declarations_is_transparent _ overshadowing
      (by simp [overshadowing, Stmt.declared?]) machine (by decide)
  -- What the statements do in place, they do as a block.
  have fails : (executeAll overshadowing machine).1 =
      .error (.failed
        { blamed := .token { kind := .identifier, lexeme := "y" },
          fault := .undefinedVariable "y" }) := by
    with_unfolding_all rfl
  have prints : (executeAll overshadowing machine).2.texts = ["new\n"] := by with_unfolding_all rfl
  rw [ranInPlace] at fails prints
  cases fails
  exact ⟨after, inPlace, ran, ranInPlace, texts.trans prints, prints,
    current.trans currentInPlace.symm, stack⟩

end Exec

end LoxLang
