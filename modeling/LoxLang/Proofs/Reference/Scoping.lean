import LoxLang.Proofs.Reference.Refinement
import LoxLang.Proofs.Session.Pieces

/-! Scoping is lexical: where a program uses a name that is not declared is known from its text. -/

namespace LoxLang

/-- The name that a mark shows. -/
def Mark.word (mark : Mark) : Name :=
  match mark.text with
  | .plain text => .word text
  | .garbled text => .garbled text

namespace Reference

/-- The names that are declared in each scope, the innermost first. -/
abbrev Declared := List (Finset Name)

/-- Checks that a name is declared in some scope. -/
def checkName (scopes : Declared) (mark : Mark) : Except Mark Unit :=
  if ∃ names ∈ scopes, mark.word ∈ names then .ok () else .error mark

/-- Checks the names in an expression in the order of evaluation; the first that is not
declared is the error. -/
def checkExpr (scopes : Declared) : Expr → Except Mark Unit
  | .literal _ | .unknown _ => .ok ()
  | .grouping inner => checkExpr scopes inner
  | .use name => checkName scopes name
  -- The value comes first, as it is evaluated before the name is looked for.
  | .assign name value => do
    checkExpr scopes value
    checkName scopes name
  | .unary _ operand => checkExpr scopes operand
  | .binary left _ right => do
    checkExpr scopes left
    checkExpr scopes right

/-- Adds a name to the innermost scope. -/
def declare (mark : Mark) : Declared → Declared
  | [] => []
  | inner :: outer => insert mark.word inner :: outer

mutual

/-- Checks the names in a statement, and gives what is declared after it. -/
def checkStmt (scopes : Declared) : Stmt → Except Mark Declared
  | .expression inner | .print inner => do
    checkExpr scopes inner
    return scopes
  | .declare name none => return declare name scopes
  -- The name of a declaration is not declared yet in its own value.
  | .declare name (some initial) => do
    checkExpr scopes initial
    return declare name scopes
  | .block body => do
    let left ← checkStmts (∅ :: scopes) body
    return left.tail
  | .unknown _ => return scopes

/-- Checks the names in statements in turn, and gives what is declared after them. -/
def checkStmts (scopes : Declared) : List Stmt → Except Mark Declared
  | [] => return scopes
  | first :: rest => do
    let after ← checkStmt scopes first
    checkStmts after rest

end

section

variable {α : Type}

/-- The names that scopes bind. -/
def names (scopes : List (Env α)) : Declared :=
  scopes.map Finmap.keys

/-- A scope that binds one more name has one more name. -/
theorem keys_insert (scope : Env α) (name : Name) (value : α) :
    (scope.insert name value).keys = insert name scope.keys := by
  ext other
  rw [Finmap.mem_keys, Finmap.mem_insert, Finset.mem_insert, Finmap.mem_keys]

/-- A name is found on the stack if it is declared in some scope. -/
theorem isSome_lookup?_iff {scopes : List (Env α)} {name : Name} :
    (lookup? scopes name).isSome ↔ ∃ known ∈ names scopes, name ∈ known := by
  simp [lookup?, names, List.findSome?_isSome_iff, Finmap.lookup_isSome, Finmap.mem_keys]

/-- The check of a name foresees whether it is found. -/
theorem checkName_eq_lookup (scopes : List (Env α)) (name : Token) :
    checkName (names scopes) name =
      if (lookup? scopes (.word name.lexeme)).isSome then .ok () else .error (.token name) := by
  simp only [isSome_lookup?_iff]
  rfl

/-- The check of a name foresees whether it can be assigned. -/
theorem checkName_eq_assign (scopes : List (Env α)) (name : Token) (value : α) :
    checkName (names scopes) name =
      if (assign? (.word name.lexeme) value scopes).isSome then .ok ()
      else .error (.token name) := by
  rw [isSome_assign?, checkName_eq_lookup]

/-- An assignment declares nothing. -/
theorem names_of_assign? {scopes after : List (Env α)} {name : Name} {value : α}
    (assigned : assign? name value scopes = some after) : names after = names scopes := by
  induction scopes generalizing after with
  | nil => cases assigned
  | cons inner outer ih =>
    rw [assign?] at assigned
    split at assigned
    case isTrue bound =>
      -- The scope has the name already, so adding it changes nothing.
      cases assigned
      rw [names, List.map_cons, keys_insert, Finset.insert_eq_of_mem (Finmap.mem_keys.mpr bound)]
      rfl
    case isFalse =>
      obtain ⟨rest, further, rfl⟩ := Option.map_eq_some_iff.mp assigned
      exact congrArg (List.cons _) (ih further)

/-- Scopes that match bind the same names. -/
theorem Match.names_eq {β : Type} {related : α → β → Prop} {scopes : List (Env α)}
    {others : List (Env β)} (matched : Match related scopes others) :
    names scopes = names others := by
  induction matched with
  | nil => rfl
  | @cons own other _ _ inner _ ih =>
    have keys : own.keys = other.keys := by
      ext name
      rw [Finmap.mem_keys, Finmap.mem_keys]
      exact inner.mem_iff name
    rw [names, List.map_cons, keys]
    exact congrArg (List.cons _) ih

end

/--
How a check of names foresees the end of a run.

If the run comes to its end, the check passes and finds what is declared then. If the run ends
at an undefined variable, the check ends there as well. A run that ends with another error has
not come as far as the check, which may end in any way.
-/
inductive Foresees {σ α : Type} (found : σ) : Except Mark σ → Except RuntimeError α → Prop where
  | passes (value : α) : Foresees found (.ok found) (.ok value)
  | undefined (name : Token) :
    Foresees found (.error (.token name)) (.error (Reference.undefined name))
  | otherwise (verdict : Except Mark σ) {error : RuntimeError} :
    (∀ name, error.fault ≠ .undefinedVariable name) → Foresees found verdict (.error error)

namespace Foresees

variable {σ τ α β : Type} {found other : σ} {verdict : Except Mark σ}
  {ending : Except RuntimeError α}

/-- The check of what runs to its end passes. -/
theorem eq_ok {value : α} (foreseen : Foresees found verdict (.ok value)) :
    verdict = .ok found := by
  cases foreseen
  rfl

/-- What is checked after the point where a run ends does not matter. -/
theorem andThen {error : RuntimeError}
    (foreseen : Foresees found verdict (.error error : Except RuntimeError α)) (further : τ)
    (next : σ → Except Mark τ) :
    Foresees further (verdict >>= next) (.error error : Except RuntimeError β) := by
  cases foreseen with
  | undefined name => exact .undefined name
  | otherwise _ other => exact .otherwise _ other

/-- Where the check passes, the run ends at no undefined variable. -/
theorem fault_ne (foreseen : Foresees found (.ok other) ending) {error : RuntimeError}
    (failed : ending = .error error) (name : Text) : error.fault ≠ .undefinedVariable name := by
  cases foreseen with
  | passes => cases failed
  | otherwise _ others => exact Except.error.inj failed ▸ others name

/-- Where the check fails, the run ends with an error, and at the same name if at any. -/
theorem exists_error {mark : Mark} (foreseen : Foresees found (.error mark) ending) :
    ∃ error, ending = .error error ∧ ∀ name, error.fault = .undefinedVariable name →
      ∃ token, mark = .token token ∧ error = Reference.undefined token := by
  cases foreseen with
  | undefined token => exact ⟨_, rfl, fun _ _ => ⟨token, rfl, rfl⟩⟩
  | otherwise _ others => exact ⟨_, rfl, fun name same => (others name same).elim⟩

end Foresees

/-- A check of names passes where an operator is applied, whatever comes of it. -/
theorem foresees_blamedOn (operator : Token) {result : Except RuntimeFault Datum}
    (other : ∀ fault, result = .error fault → ∀ name, fault ≠ .undefinedVariable name) :
    Foresees () (.ok ()) (blamedOn operator result) := by
  cases result with
  | ok value => exact .passes value
  | error fault => exact .otherwise _ (other fault rfl)

/-- The check of an expression foresees its evaluation, which declares nothing. -/
theorem Evaluates.foreseen {before after : Scopes} {e : Expr} {result : Except RuntimeError Datum}
    (evaluated : Evaluates before e result after) :
    names after = names before ∧ Foresees () (checkExpr (names before) e) result := by
  -- The check goes through the parts in the order of the rules, with the names that are
  -- there before and after.
  induction evaluated with
  | literal => exact ⟨rfl, .passes _⟩
  | grouping _ ih => exact ih
  | use found =>
    rw [checkExpr, checkName_eq_lookup, found]
    exact ⟨rfl, .passes _⟩
  | useUndefined missing =>
    -- What is not found is not declared, and the check ends at this very name.
    rw [checkExpr, checkName_eq_lookup, missing, if_neg Bool.noConfusion]
    exact ⟨rfl, .undefined _⟩
  | @assign _ between _ name _ value _ assigned ih =>
    -- The value passes, and leaves the names as the name of the assignment is
    -- looked for among them.
    rw [checkExpr, ih.2.eq_ok, ← ih.1, names_of_assign? assigned]
    show _ ∧ Foresees () (checkName (names between) name) _
    rw [checkName_eq_assign between name value, assigned]
    exact ⟨rfl, .passes _⟩
  | @assignUndefined _ between name _ value _ missing ih =>
    rw [checkExpr, ih.2.eq_ok, ← ih.1]
    show _ ∧ Foresees () (checkName (names between) name) _
    rw [checkName_eq_assign between name value, missing, if_neg Bool.noConfusion]
    exact ⟨rfl, .undefined _⟩
  | assignFailed _ ih => exact ⟨ih.1, ih.2.andThen _ _⟩
  | @unary _ _ operator _ _ _ _ turned ih =>
    -- The check has passed all names by now, and an operator fails for other reasons.
    rw [checkExpr, ih.2.eq_ok]
    refine ⟨ih.1, foresees_blamedOn operator fun fault failed name => ?_⟩
    rw [turned.fault_eq failed]
    exact RuntimeFault.noConfusion
  | unaryFailed _ ih => exact ih
  | @binary _ _ _ _ _ operator _ _ _ _ _ joined leftIh rightIh =>
    rw [checkExpr, leftIh.2.eq_ok, ← leftIh.1]
    show _ ∧ Foresees () (checkExpr _ _) _
    rw [rightIh.2.eq_ok]
    refine ⟨rightIh.1, foresees_blamedOn operator fun fault failed name => ?_⟩
    rcases joined.fault_cases failed with same | same <;> rw [same] <;>
      exact RuntimeFault.noConfusion
  | leftFailed _ ih => exact ⟨ih.1, ih.2.andThen _ _⟩
  | rightFailed _ _ leftIh rightIh =>
    -- The left operand passes, and declares nothing that the right one could use.
    rw [checkExpr, leftIh.2.eq_ok, ← leftIh.1]
    exact ⟨rightIh.1, rightIh.2⟩

mutual

/-- The check of a statement foresees its execution, and what is declared after it. -/
theorem Executes.foreseen {before after : Scopes} {stmt : Stmt} {ending : Except RuntimeError Unit}
    {printed : List String} (executed : Executes before stmt ending after printed) :
    Foresees (names after) (checkStmt (names before) stmt) ending := by
  cases executed with
  | expression inner | print inner _ =>
    rw [checkStmt, inner.foreseen.2.eq_ok, inner.foreseen.1]
    exact .passes ()
  | @declare own outer name =>
    rw [checkStmt, names, names, List.map_cons, List.map_cons, keys_insert]
    exact .passes ()
  | @declareAs _ outer own name _ value initial =>
    -- The names before are those at the end of the value, which the new name is added to.
    rw [checkStmt, initial.foreseen.2.eq_ok, ← initial.foreseen.1, names, names, List.map_cons,
      List.map_cons, keys_insert]
    exact .passes ()
  | expressionFailed inner | printFailed inner | declareFailed inner =>
    rw [checkStmt]
    exact inner.foreseen.2.andThen _ _
  | @block _ _ own _ ending _ body =>
    have foreseen := body.foreseen
    rw [checkStmt]
    cases ending with
    | ok =>
      -- The names of the block are dropped, and those around it are what they were.
      rw [show ∅ :: names before = names (∅ :: before) from rfl, foreseen.eq_ok]
      exact .passes ()
    | error error => exact foreseen.andThen _ _

/-- The check of statements foresees their execution, and what is declared after them. -/
theorem ExecutesAll.foreseen {before after : Scopes} {program : List Stmt}
    {ending : Except RuntimeError Unit} {printed : List String}
    (executed : ExecutesAll before program ending after printed) :
    Foresees (names after) (checkStmts (names before) program) ending := by
  cases executed with
  | done => exact .passes ()
  | next head tail =>
    -- What the check finds declared after the first statement is what is declared
    -- when the others run.
    rw [checkStmts, head.foreseen.eq_ok]
    exact tail.foreseen
  | failed head =>
    rw [checkStmts]
    exact head.foreseen.andThen _ _

end

end Reference

open Reference

/-- The check of a program foresees how it ends, even at the nesting limit. -/
theorem Exec.foreseen_executeAll [Host] {tokens : Token → Prop} {program : List Stmt}
    (made : ∀ stmt ∈ program, stmt.MadeOf tokens (·.isProper)) {machine after : Machine}
    (inside : machine.current < machine.forest.size) {scopes : Scopes}
    (denoted : Match Value.Denotes machine.stack scopes) {ending : Except RuntimeError Unit}
    (ran : executeAll program machine = (ending.mapError .failed, after)) :
    Foresees (names after.stack) (checkStmts (names machine.stack) program) ending := by
  by_cases overflows : Overflows (ending.mapError Halt.failed)
  · -- The rules say nothing of the nesting limit, but hitting it is another error.
    cases ending with
    | ok => exact overflows.elim
    | error error =>
      have fault : error.fault = .nestedTooDeeply := overflows
      exact .otherwise _ fun name => fault ▸ RuntimeFault.noConfusion
  · have obeys := obeys_executeAll made machine scopes inside denoted
    rw [ran] at obeys
    obtain ⟨reached, left, printed, stands, executed, still, _⟩ := obeys overflows
    have same : ending = reached := by
      cases ending <;> cases stands <;> rfl
    rw [same, Match.names_eq denoted, Match.names_eq still]
    exact executed.foreseen

namespace Session

/--
Scoping is lexical: the text of a program decides where a name is undefined.

A text without a diagnostic is run from no variables to its end or to one runtime error, which
is what is reported. If all names pass the check, that error is no undefined variable. If they
do not, there is an error; if it is an undefined variable, it is blamed on the first name that
fails the check.
-/
theorem scoping_is_lexical [Host] (debugLevel : Nat) {source : String}
    (clean : sourceDiagnostics source = []) :
    ∃ ended ending, (start debugLevel []).run source = (ended, none) ∧
      (Exec.executeAll (parseSource source) ((start debugLevel []).parse source).1.machine).1 =
        ending.mapError .failed ∧
      Event.errors ended.drain.2 = Notice.texts (reportsOf ending) ∧
      match checkStmts [∅] (parseSource source) with
      | .ok _ => ∀ error, ending = .error error → ∀ name, error.fault ≠ .undefinedVariable name
      | .error mark =>
        ∃ error, ending = .error error ∧ ∀ name, error.fault = .undefinedVariable name →
          ∃ token, mark = .token token ∧ error = undefined token := by
  -- Reading the text reports nothing, and leaves one scope without a name.
  have read := Tells.parse (start debugLevel []) source
  rw [clean] at read
  have unflagged : ((start debugLevel []).parse source).1.flags.hadError = false := by
    rw [read.flags]
    rfl
  rw [run_eq, if_neg (by simp [unflagged])]
  generalize ((start debugLevel []).parse source).1 = parsed at read ⊢
  have inside : parsed.machine.current < parsed.machine.forest.size := by
    rw [read.forest, read.current]
    exact Nat.one_pos
  have unbound : parsed.machine.stack = [∅] := by
    rw [Machine.stack, read.forest, read.current]
    exact Forest.stack_root []
  -- The run is that of the program, which reports its error only.
  obtain ⟨made, _⟩ := parseSource_madeOf clean (supplies_proper source)
  have plain : parsed.machine.forest.Holds (·.isPlain) := by
    rw [read.forest]
    exact .root (by simp)
  obtain ⟨ending, after, ran, writable, _⟩ := executeAll_parseSource clean plain
  obtain ⟨ended, interpreted, told⟩ := interpret_tells ran writable
  have leads := Exec.leading_executeAll (parseSource source) parsed.machine
  rw [ran] at leads
  -- The check walks through the program as the run does, from the same empty scope.
  have foreseen :=
    Exec.foreseen_executeAll made inside (by rw [unbound]; exact .cons .empty .nil) ran
  have undeclared : names parsed.machine.stack = [∅] := congrArg names unbound
  rw [undeclared] at foreseen
  refine ⟨ended, ending, interpreted, congrArg Prod.fst ran, ?_, ?_⟩
  · rw [errors_drain, told.notices, leads.notices_eq, read.notices]
    simp [start, Machine.notices]
  · split <;> rename_i same <;> rw [same] at foreseen
    · exact fun error => foreseen.fault_ne
    · exact foreseen.exists_error

/-- A program that uses a name, in an inner scope and behind another assignment,
before it is declared. -/
def declaringLate : List Stmt :=
  let word (name : String) (line : Nat) : Mark :=
    .token { kind := .identifier, lexeme := name, line := .ofNat line }
  [.declare (word "a" 1) none,
    .block [.declare (word "b" 2) (some (.use (word "a" 2))),
      .expression (.assign (word "a" 2) (.assign (word "c" 2) (.use (word "b" 2))))],
    .declare (word "c" 3) none]

set_option maxRecDepth 20000 in
/-- A name that is declared too late is the first to fail the check, and the one
that the run ends at. -/
theorem scoping_is_lexical_declared_late :
    sourceDiagnostics "var a;\n{ var b = a; a = c = b; }\nvar c;" = [] ∧
      ∃ c : Token, c.lexeme = "c" ∧
        checkStmts [∅] (parseSource "var a;\n{ var b = a; a = c = b; }\nvar c;") =
          .error (.token c) ∧
        ∃ ended, (start 0 []).run "var a;\n{ var b = a; a = c = b; }\nvar c;" = (ended, none) ∧
          Event.errors ended.drain.2 = Notice.texts [(undefined c).notice] := by
  let c : Token := { kind := .identifier, lexeme := "c", line := .ofNat 2 }
  have read : sourceDiagnostics "var a;\n{ var b = a; a = c = b; }\nvar c;" = [] ∧
      parseSource "var a;\n{ var b = a; a = c = b; }\nvar c;" = declaringLate :=
        ⟨by with_unfolding_all rfl, by with_unfolding_all rfl⟩
  have fails : checkStmts [∅] declaringLate = .error (.token c) := rfl
  have ends : (Exec.executeAll declaringLate (start 0 []).machine).1 =
      .error (.failed (undefined c)) := by decide +kernel
  obtain ⟨ended, ending, ran, result, reported, foretold⟩ := scoping_is_lexical 0 read.1
  rw [parse_of_silent rfl read.1, read.2, ends] at result
  rw [read.2, fails] at foretold
  obtain ⟨error, rfl, blamed⟩ := foretold
  -- The run ends at an undefined variable, so it is the one that fails the check.
  have isUndefined : error.fault = .undefinedVariable "c" :=
    Halt.failed.inj (Except.error.inj result) ▸ rfl
  obtain ⟨token, same, rfl⟩ := blamed "c" isUndefined
  refine ⟨read.1, c, rfl, by rw [read.2, fails], ended, ran, ?_⟩
  rw [reported, Mark.token.inj same]
  rfl

end Session

end LoxLang
