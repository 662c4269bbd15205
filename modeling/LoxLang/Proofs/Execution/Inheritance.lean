import LoxLang.Proofs.Execution.Laws
import LoxLang.Proofs.Tree.Names

/-! Properties that whole runs have because the operations that they are made of have them. -/

namespace LoxLang.Exec

variable [Host]

/--
Whether a property of computations is handed on from the operations of a run to
whatever is made of them.

The property may be another one inside a new scope; there every variable can be defined.
-/
structure Inherited {σ : Type} (inner : σ → σ) (holds : σ → ∀ {α : Type}, Exec α → Prop) :
    Prop where
  ofResult : ∀ place {α : Type} (result : Except Halt α), holds place (Exec.ofResult result)
  bind : ∀ place {α β : Type} {first : Exec α} {next : α → Exec β},
    holds place first → (∀ value, holds place (next value)) → holds place (first >>= next)
  blaming : ∀ place {α : Type} (mark : Mark) {body : Exec α}, holds place body →
    holds place (Exec.blaming mark body)
  readVariable : ∀ place mark, holds place (Exec.readVariable mark)
  printValue : ∀ place value, holds place (Exec.printValue value)
  defineVariable : ∀ place mark value, holds (inner place) (Exec.defineVariable mark value)
  inNewScope : ∀ place program,
    holds (inner place) (executeAll program) → holds place (Exec.inNewScope (executeAll program))

namespace Inherited

variable {σ : Type} {inner : σ → σ} {holds : σ → ∀ {α : Type}, Exec α → Prop}
  (inherited : Inherited inner holds)

include inherited

/-- Evaluation has the property if the assignments in the expression have it. -/
theorem evaluateWithin (place : σ) {e : Expr}
    (writes : ∀ mark ∈ e.targets, ∀ value, holds place (Exec.writeVariable mark value))
    (room : Nat) :
    holds place (Exec.evaluateWithin room e) := by
  -- The operands of every form have less room, so the induction is on the room and not on the tree.
  induction room generalizing e with
  | zero => exact inherited.ofResult place (.error .nestedTooDeeply)
  | succ room ih =>
    cases e with
    | literal value => exact inherited.ofResult place (.ok value)
    | grouping inside => exact ih writes
    | use name => exact inherited.readVariable place name
    | assign name value =>
      -- The name is assigned last, and may be blamed for a value that is too deep.
      have valueHolds := @ih value fun mark member => writes mark (by simp [Expr.targets, member])
      refine inherited.bind place (inherited.blaming place name valueHolds) fun value => ?_
      refine inherited.bind place (writes name (by simp [Expr.targets]) value) fun _ => ?_
      exact inherited.ofResult place (.ok value)
    | unary operator operand =>
      refine inherited.bind place (inherited.blaming place operator (@ih operand writes)) fun _ =>
        ?_
      exact inherited.ofResult place _
    | binary left operator right =>
      have leftHolds := @ih left fun mark member => writes mark (by simp [Expr.targets, member])
      have rightHolds := @ih right fun mark member => writes mark (by simp [Expr.targets, member])
      refine inherited.bind place (inherited.blaming place operator ?_) fun _ =>
        inherited.ofResult place _
      refine inherited.bind place leftHolds fun a => inherited.bind place rightHolds fun b => ?_
      exact inherited.ofResult place (.ok (a, b))
    | unknown typeName =>
      exact inherited.ofResult place (.error (.unsupported (.expression typeName)))

mutual

/-- Executing a statement has the property if its assignments and its own declaration have it. -/
theorem execute (place : σ) (stmt : Stmt)
    (writes : ∀ mark ∈ stmt.targets, ∀ elsewhere value,
      holds elsewhere (Exec.writeVariable mark value))
    (defines : ∀ mark, stmt.declared? = some mark → ∀ value,
      holds place (Exec.defineVariable mark value)) :
    holds place (Exec.execute stmt) := by
  cases stmt with
  | expression inside =>
    rw [Exec.execute]
    have evaluation :=
      inherited.evaluateWithin place (fun mark member => writes mark member place) nestingLimit
    exact inherited.bind place evaluation fun _ => inherited.ofResult place (.ok ())
  | print inside =>
    rw [Exec.execute]
    have evaluation :=
      inherited.evaluateWithin place (fun mark member => writes mark member place) nestingLimit
    exact inherited.bind place evaluation fun value => inherited.printValue place value
  | declare name initial =>
    cases initial with
    | none =>
      rw [Exec.execute]
      exact defines name rfl .nil
    | some initial =>
      rw [Exec.execute]
      have evaluation :=
        inherited.evaluateWithin place (fun mark member => writes mark member place) nestingLimit
      exact inherited.bind place evaluation fun value => defines name rfl value
  | block body =>
    -- What the statements of the block declare is defined in its own scope.
    rw [Exec.execute]
    apply inherited.inNewScope
    exact executeAll (inner place) body writes fun _ _ mark _ value =>
      inherited.defineVariable place mark value
  | unknown typeName =>
    rw [Exec.execute]
    exact inherited.ofResult place (.error (.unsupported (.statement typeName)))

/-- Executing statements has the property if their assignments and their own
declarations have it. -/
theorem executeAll (place : σ) (program : List Stmt)
    (writes : ∀ mark ∈ Stmt.targetsOf program, ∀ elsewhere value,
      holds elsewhere (Exec.writeVariable mark value))
    (defines : ∀ stmt ∈ program, ∀ mark, stmt.declared? = some mark →
      ∀ value, holds place (Exec.defineVariable mark value)) :
    holds place (Exec.executeAll program) := by
  cases program with
  | nil =>
    rw [Exec.executeAll]
    exact inherited.ofResult place (.ok ())
  | cons first rest =>
    rw [Exec.executeAll]
    -- Statements in a row stand in one scope, so the property is the same one for all of them.
    refine inherited.bind place ?_ fun _ => ?_
    · exact execute place first (fun mark member => writes mark (by simp [Stmt.targetsOf, member]))
        (defines first (by simp))
    · exact executeAll place rest
        (fun mark member => writes mark (by simp [Stmt.targetsOf, member]))
        fun stmt member => defines stmt (by simp [member])

end

end Inherited

end LoxLang.Exec
