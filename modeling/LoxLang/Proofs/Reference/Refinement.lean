import LoxLang.Proofs.Execution.Views
import LoxLang.Proofs.Reference.Rules
import LoxLang.Proofs.Session.Telling
import LoxLang.Proofs.Tree.Parts

/-! Running a program on the forest of its scopes does what the rules over a stack of scopes say. -/

namespace LoxLang

open Reference

namespace Reference

/-- An error that is reported names a token, in words that every channel takes. -/
theorem Reports.isPlain {error : RuntimeError} {text : String} (reports : Reports error text) :
    error.debugLine.isPlain := by
  cases reports <;> exact Session.isPlain_debugLine rfl rfl

/-- The error of an operator is reported as the rules say. -/
theorem reports_of_blamedOn {operator : Token} {error : RuntimeError}
    {result : Except RuntimeFault Datum} (failed : blamedOn operator result = .error error)
    (each : ∀ fault, result = .error fault →
      Reports ⟨operator, fault⟩ (Notice.text (RuntimeError.notice ⟨operator, fault⟩))) :
    Reports error error.notice.text := by
  cases result with
  | ok => cases failed
  | error fault =>
    obtain rfl := Except.error.inj failed
    exact each fault rfl

/-- The error of an expression is reported as the rules say. -/
theorem Evaluates.reports {before after : Scopes} {e : Expr} {result : Except RuntimeError Datum}
    (evaluated : Evaluates before e result after) {error : RuntimeError}
    (failed : result = .error error) :
    Reports error error.notice.text := by
  -- Most errors are those of a part; names and operators have their own.
  induction evaluated with
  | literal | use | assign => cases failed
  | grouping _ ih | assignFailed _ ih | unaryFailed _ ih | leftFailed _ ih => exact ih failed
  | rightFailed _ _ _ ih => exact ih failed
  | useUndefined | assignUndefined =>
    obtain rfl := Except.error.inj failed
    exact .undefined _
  | unary _ turned =>
    refine reports_of_blamedOn failed fun fault is => ?_
    obtain rfl := turned.fault_eq is
    exact .operandNotNumber _
  | binary _ _ joined =>
    refine reports_of_blamedOn failed fun fault is => ?_
    rcases joined.fault_cases is with rfl | rfl
    · exact .operandsNotNumbers _
    · exact .operandsNotAddable _

mutual

/-- The error of a statement is reported as the rules say. -/
theorem Executes.reports {before after : Scopes} {stmt : Stmt} {error : RuntimeError}
    {printed : List String} (executed : Executes before stmt (.error error) after printed) :
    Reports error error.notice.text := by
  cases executed with
  | expressionFailed inner | printFailed inner | declareFailed inner => exact inner.reports rfl
  | block body => exact body.reports

/-- The error of statements in turn is reported as the rules say. -/
theorem ExecutesAll.reports {before after : Scopes} {program : List Stmt} {error : RuntimeError}
    {printed : List String} (executed : ExecutesAll before program (.error error) after printed) :
    Reports error error.notice.text := by
  cases executed with
  | next _ tail => exact tail.reports
  | failed head => exact head.reports

end

end Reference

namespace Exec

open Value

variable {α β δ ε : Type}

/-- Whether a result comes of hitting the nesting limit. -/
def Overflows : Except Halt α → Prop
  | .error .nestedTooDeeply => True
  | .error (.failed error) => error.fault = .nestedTooDeeply
  | .error (.unsupported _) | .error (.unwritable ..) | .ok _ => False

/-- A rule: how a computation may end, from which scopes to which, and with which texts printed. -/
abbrev Rule (δ : Type) := Scopes → Except RuntimeError δ → Scopes → List String → Prop

namespace Rule

/-- A rule, and then one that depends on the value; an error ends it early. -/
def andThen (first : Rule δ) (next : δ → Rule ε) : Rule ε := fun before ending after printed =>
  (∃ value between early late, first before (.ok value) between early ∧
    next value between ending after late ∧
    printed = early ++ late) ∨
  ∃ error, ending = .error error ∧ first before (.error error) after printed

/-- The rule of a result alone. -/
def gives (result : Except RuntimeError δ) : Rule δ := fun before ending after printed =>
  ending = result ∧ after = before ∧ printed = []

/-- The rule of an operation with one of given results, the fault of which is blamed
on its operator. -/
def applies (operator : Token) (results : Except RuntimeFault Datum → Prop) : Rule Datum :=
  fun before ending after printed => ∃ result, results result ∧
    gives (blamedOn operator result) before ending after printed

/-- The rule of giving a name a new value, where it is bound. -/
def writes (name : Token) (value : Datum) : Rule Unit := fun before ending after printed =>
  printed = [] ∧
    (assign? (.word name.lexeme) value before = some after ∧ ending = .ok () ∨
      assign? (.word name.lexeme) value before = none ∧ ending = .error (undefined name) ∧
        after = before)

/-- The rule of binding a name in the innermost scope. -/
def defines (name : Token) (value : Datum) : Rule Unit := fun before ending after printed =>
  ∃ inner outer, before = inner :: outer ∧ ending = .ok () ∧
    after = inner.insert (.word name.lexeme) value :: outer ∧ printed = []

/-- The rule of printing a value. -/
def prints (value : Datum) : Rule Unit := fun before ending after printed =>
  ∃ text, value.Shows text ∧ ending = .ok () ∧ after = before ∧ printed = [text ++ "\n"]

/-- The rule that an expression follows: it prints nothing. -/
def evaluates (e : Expr) : Rule Datum := fun before ending after printed =>
  Evaluates before e ending after ∧ printed = []

variable {before after : Scopes} {ending : Except RuntimeError Datum} {printed : List String}

/-- A value that is found and then written is assigned. -/
theorem evaluates_assign {name : Token} {expr : Expr}
    (followed : ((evaluates expr).andThen fun value => (writes name value).andThen fun _ =>
      gives (.ok value)) before ending after printed) :
    evaluates (.assign name expr) before ending after printed := by
  rcases followed with ⟨value, between, _, _, ⟨evaluated, rfl⟩, written, rfl⟩ |
    ⟨error, rfl, failed, rfl⟩
  · -- The name is looked for in the scopes that the value has left.
    rcases written with ⟨_, _, _, _, ⟨rfl, assigned⟩, ⟨rfl, rfl, rfl⟩, rfl⟩ |
      ⟨error, rfl, rfl, assigned⟩
    · have found : assign? (.word name.lexeme) value between = some after := by simpa using assigned
      exact ⟨.assign evaluated found, rfl⟩
    · obtain ⟨missing, same, rfl⟩ : assign? (.word name.lexeme) value between = none ∧
          error = undefined name ∧ after = between := by simpa using assigned
      exact ⟨same ▸ .assignUndefined evaluated missing, rfl⟩
  · exact ⟨.assignFailed failed, rfl⟩

/-- An operand and then a prefix operator are an operation. -/
theorem evaluates_unary {operator : Token} {operand : Expr}
    (followed : ((evaluates operand).andThen fun a => applies operator (Turns operator.kind a))
      before ending after printed) :
    evaluates (.unary operator operand) before ending after printed := by
  rcases followed with ⟨a, _, _, _, ⟨evaluated, rfl⟩, ⟨result, turned, rfl, rfl, rfl⟩, rfl⟩ |
    ⟨error, rfl, failed, rfl⟩
  · exact ⟨.unary evaluated turned, rfl⟩
  · exact ⟨.unaryFailed failed, rfl⟩

/-- The operands of a binary operator, the left one first. -/
def operands (left right : Expr) : Rule (Datum × Datum) :=
  (evaluates left).andThen fun a => (evaluates right).andThen fun b => gives (.ok (a, b))

/-- Both operands have their values if there is no error. -/
theorem evaluates_of_operands {left right : Expr} {a b : Datum}
    (followed : operands left right before (.ok (a, b)) after printed) :
    ∃ between, Evaluates before left (.ok a) between ∧ Evaluates between right (.ok b) after ∧
      printed = [] := by
  rcases followed with ⟨_, between, _, _, ⟨leftEvaluated, rfl⟩, rest, rfl⟩ | ⟨_, same, _⟩
  · rcases rest with ⟨_, _, _, _, ⟨rightEvaluated, rfl⟩, ⟨same, rfl, rfl⟩, rfl⟩ | ⟨_, same, _⟩
    · cases same
      exact ⟨between, leftEvaluated, rightEvaluated, rfl⟩
    · cases same
  · cases same

/-- An error is that of the left operand, or else of the right one. -/
theorem failed_of_operands {left right : Expr} {error : RuntimeError}
    (followed : operands left right before (.error error) after printed) :
    printed = [] ∧ (Evaluates before left (.error error) after ∨
      ∃ a between, Evaluates before left (.ok a) between ∧
        Evaluates between right (.error error) after) := by
  rcases followed with ⟨a, between, _, _, ⟨leftEvaluated, rfl⟩, rest, rfl⟩ |
    ⟨_, same, leftFailed, rfl⟩
  · rcases rest with ⟨_, _, _, _, _, ⟨same, _⟩, _⟩ | ⟨_, same, rightFailed, rfl⟩
    · cases same
    · cases same
      exact ⟨rfl, .inr ⟨a, between, leftEvaluated, rightFailed⟩⟩
  · cases same
    exact ⟨rfl, .inl leftFailed⟩

/-- Two operands and then a binary operator are an operation. -/
theorem evaluates_binary {operator : Token} {left right : Expr}
    (followed : ((operands left right).andThen fun pair =>
      applies operator (Joins operator.kind pair.1 pair.2)) before ending after printed) :
    evaluates (.binary left operator right) before ending after printed := by
  rcases followed with
    ⟨⟨a, b⟩, _, _, _, evaluated, ⟨result, joined, rfl, rfl, rfl⟩, rfl⟩ | ⟨error, rfl, failed⟩
  · obtain ⟨between, leftEvaluated, rightEvaluated, rfl⟩ := evaluates_of_operands evaluated
    exact ⟨.binary leftEvaluated rightEvaluated joined, rfl⟩
  · obtain ⟨rfl, leftFailed | ⟨a, between, leftEvaluated, rightFailed⟩⟩ := failed_of_operands failed
    · exact ⟨.leftFailed leftFailed, rfl⟩
    · exact ⟨.rightFailed leftEvaluated rightFailed, rfl⟩

end Rule

/--
Whether a computation follows a rule unless it overflows.

It starts from scopes that stand for those of the rule, and what it gives stands for
what the rule gives.
-/
def Obeys (related : α → δ → Prop) (rule : Rule δ) (body : Exec α) : Prop :=
  ∀ (machine : Machine) (before : Scopes), machine.current < machine.forest.size →
    Match Denotes machine.stack before → ¬Overflows (body machine).1 →
    ∃ ending after printed, Stands related (body machine).1 ending ∧
      rule before ending after printed ∧
      Match Denotes (body machine).2.stack after ∧
        (body machine).2.texts = printed.reverse ++ machine.texts

namespace Obeys

variable {related : α → δ → Prop} {rule : Rule δ}

/-- What follows a rule follows any that it implies. -/
theorem imp {weaker : Rule δ} {body : Exec α} (obeys : Obeys related rule body)
    (implied : ∀ before ending after printed, rule before ending after printed →
      weaker before ending after printed) :
    Obeys related weaker body := by
  intro machine before inside denoted shallow
  obtain ⟨ending, after, printed, stands, follows, rest⟩ :=
    obeys machine before inside denoted shallow
  exact ⟨ending, after, printed, stands, implied _ _ _ _ follows, rest⟩

/-- A value follows the rule that it is the value. -/
theorem pure {value : α} {datum : δ} (stands : related value datum) :
    Obeys related (Rule.gives (.ok datum)) (Pure.pure value : Exec α) :=
  fun _ _ _ denoted _ => ⟨_, _, [], .ok stands, ⟨rfl, rfl, rfl⟩, denoted, rfl⟩

/-- A result follows the rule that it is the result. -/
theorem ofResult {result : Except Halt α} {ending : Except RuntimeError δ}
    (stands : Stands related result ending) :
    Obeys related (Rule.gives ending) (Exec.ofResult result) := by
  intro machine before _ denoted _
  rw [ofResult_eq]
  exact ⟨ending, before, [], stands, ⟨rfl, rfl, rfl⟩, denoted, rfl⟩

/-- Computations in turn follow their rules in turn. -/
theorem bind {others : β → ε → Prop} {first : Exec α} {next : α → Exec β} {rules : δ → Rule ε}
    (obeys : Obeys related rule first) (leading : Leading first)
    (goesOn : ∀ value datum, related value datum → Obeys others (rules datum) (next value)) :
    Obeys others (rule.andThen rules) (first >>= next) := by
  intro machine before inside denoted shallow
  have leads := leading machine
  have follows := obeys machine before inside denoted
  rw [bind_eq] at shallow ⊢
  rcases ran : first machine with ⟨result, between⟩
  rw [ran] at leads follows shallow
  cases result with
  | ok value =>
    obtain ⟨ending, scopes, early, stands, ruled, still, texts⟩ := follows (by simp [Overflows])
    cases stands with
    | @ok _ datum stands =>
      -- The second computation starts in the same scope of a forest that is no smaller.
      have stillInside : between.current < between.forest.size :=
        leads.current_eq ▸ Nat.lt_of_lt_of_le inside leads.size_le
      obtain ⟨ending, after, late, stands, further, ended, more⟩ :=
        goesOn value datum stands between scopes stillInside still shallow
      refine ⟨ending, after, early ++ late, stands,
        .inl ⟨datum, scopes, early, late, ruled, further, rfl⟩, ended, ?_⟩
      rw [more, texts, List.reverse_append, List.append_assoc]
  | error halt =>
    -- A halt of the first computation is the halt of both.
    have stillShallow : ¬Overflows (.error halt : Except Halt α) := by
      cases halt <;> exact shallow
    obtain ⟨ending, after, printed, stands, ruled, still, texts⟩ := follows stillShallow
    cases stands with
    | failed error =>
      exact ⟨.error error, after, printed, .failed error, .inr ⟨error, rfl, ruled⟩, still, texts⟩

/-- Where lack of room is blamed, there is none unless the blamed computation overflows. -/
theorem blaming {token : Token} {body : Exec α} (obeys : Obeys related rule body) :
    Obeys related rule (Exec.blaming token body) := by
  -- Blame changes a lack of room only, and then the result still counts as an overflow.
  intro machine before inside denoted shallow
  have follows := obeys machine before inside denoted
  rw [blaming_eq] at shallow ⊢
  rcases ran : body machine with ⟨result, after⟩
  rw [ran] at follows shallow
  cases result with
  | ok value => exact follows shallow
  | error halt =>
    cases halt with
    | nestedTooDeeply => exact absurd rfl shallow
    | failed | unsupported | unwritable => exact follows shallow

/-- A variable is read from the innermost scope that binds it. -/
theorem readVariable (name : Token) :
    Obeys Denotes (Rule.evaluates (.use name)) (Exec.readVariable name) := by
  intro machine before _ denoted _
  have both := denoted.lookup? (.word name.lexeme)
  rw [readVariable_eq, Forest.read_token, Forest.get?_eq_lookup?]
  change Option.Rel Denotes (lookup? (machine.forest.stack machine.current) _) _ at both
  generalize lookup? (machine.forest.stack machine.current) _ = found at both ⊢
  generalize looked : lookup? before _ = sought at both
  cases both with
  | some stands => exact ⟨_, before, [], .ok stands, ⟨.use looked, rfl⟩, denoted, rfl⟩
  | none =>
    exact ⟨_, before, [], .failed (undefined name), ⟨.useUndefined looked, rfl⟩, denoted, rfl⟩

/-- A variable is written to the innermost scope that binds it. -/
theorem writeVariable [Host] (name : Token) {value : Value} {datum : Datum}
    (stands : value.Denotes datum) :
    Obeys (· = ·) (Rule.writes name datum) (Exec.writeVariable name value) := by
  -- The forest is changed where the owner is found, and the stack where the name is.
  intro machine before _ denoted _
  obtain ⟨message, same⟩ := writeVariable_of_isPlain stands.isPlain name machine
  have both := denoted.assign? stands (.word name.lexeme)
  have assigned := Forest.stack_assign machine.forest machine.current (.word name.lexeme) value
  rw [same]
  rw [Machine.stack, ← assigned] at both
  generalize sought : assign? (.word name.lexeme) datum before = changed at both
  cases found : machine.forest.owner? machine.current (.word name.lexeme) with
  | none =>
    rw [found] at both
    cases both
    exact ⟨_, before, [], .failed (undefined name), ⟨rfl, .inr ⟨sought, rfl, rfl⟩⟩, denoted, rfl⟩
  | some owner =>
    rw [found] at both
    cases both with
    | @some _ after still =>
      refine ⟨.ok (), after, [], .ok rfl, ⟨rfl, .inl ⟨sought, rfl⟩⟩, ?_, Machine.texts_debug ..⟩
      rw [Machine.stack_debug]
      exact still

/-- A variable is defined in the innermost scope. -/
theorem defineVariable [Host] (name : Token) {value : Value} {datum : Datum}
    (stands : value.Denotes datum) :
    Obeys (· = ·) (Rule.defines name datum) (Exec.defineVariable name value) := by
  -- The current scope is the innermost one that is seen.
  intro machine before inside denoted _
  obtain ⟨message, same⟩ := defineVariable_of_isPlain stands.isPlain name machine
  obtain ⟨own, others, seen⟩ := machine.exists_stack
  have first : (machine.forest.bindingsOf machine.current).toEnv = own := by
    rw [Machine.stack, Forest.stack] at seen
    exact (List.cons.inj seen).1
  rw [seen] at denoted
  cases denoted with
  | @cons _ inner _ outer matched rest =>
    rw [same]
    refine ⟨.ok (), _, [], .ok rfl, ⟨inner, outer, rfl, rfl, rfl, rfl⟩, ?_, Machine.texts_debug ..⟩
    rw [Machine.stack_debug, Machine.stack, Forest.stack_define_self inside, first]
    change Match Denotes (_ :: machine.stack.tail) _
    rw [seen]
    exact .cons (matched.insert stands _) rest

/-- Printing adds the text that a value shows. -/
theorem printValue [Host] {value : Value} {datum : Datum} (stands : value.Denotes datum) :
    Obeys (· = ·) (Rule.prints datum) (Exec.printValue value) := by
  intro machine before _ denoted _
  obtain ⟨text, shown, shows⟩ := stands.shown
  rw [printValue_eq, shown]
  exact ⟨.ok (), before, [text ++ "\n"], .ok rfl, ⟨text, shows, rfl, rfl, rfl⟩, denoted, rfl⟩

/-- A computation in a new scope finds it empty, and leaves it behind. -/
theorem inNewScope {rule : Rule Unit} {body : Exec Unit} (obeys : Obeys (· = ·) rule body)
    (leading : Leading body) :
    Obeys (· = ·)
      (fun before ending after printed =>
        ∃ own, rule (∅ :: before) ending (own :: after) printed)
      (Exec.inNewScope body) := by
  intro machine before inside denoted shallow
  obtain ⟨message, same⟩ := inNewScope_eq body machine
  rw [same] at shallow ⊢
  -- The new scope is empty on both sides.
  have entered : Match Denotes (machine.entered message).stack (∅ :: before) := by
    rw [Machine.stack_entered inside]
    exact .cons .empty denoted
  obtain ⟨ending, after, printed, stands, follows, still, texts⟩ :=
    obeys _ _ (by simp) entered shallow
  -- It is dropped on leaving, with what the body put into it.
  rw [Machine.stack_of_leads_entered inside (leading _)] at still
  cases still with
  | @cons _ own _ outer _ rest =>
    exact ⟨ending, outer, printed, stands, ⟨own, follows⟩, rest,
      texts.trans (by rw [Machine.entered, Machine.texts_debug]; rfl)⟩

/-- Applying a prefix operator follows the rules for it. -/
theorem applyUnary {operator : Token} (isPrefix : operator.kind ∈ Grammar.prefixOperators)
    {a : Value} {datum : Datum} (stands : a.Denotes datum) :
    Obeys Denotes (Rule.applies operator (Turns operator.kind datum))
      (Exec.ofResult (Exec.applyUnary operator a)) := by
  obtain ⟨result, turned, same⟩ := turns_applyUnary isPrefix stands
  exact (ofResult same).imp fun _ _ _ _ found => ⟨result, turned, found⟩

/-- Applying a binary operator follows the rules for it. -/
theorem applyBinary [Host] {operator : Token} {level : Grammar.Level}
    (isBinary : operator.kind ∈ level.operators) {a b : Value} {first second : Datum}
    (left : a.Denotes first) (right : b.Denotes second) :
    Obeys Denotes (Rule.applies operator (Joins operator.kind first second))
      (Exec.ofResult (Exec.applyBinary operator a b)) := by
  obtain ⟨result, joined, same⟩ := joins_applyBinary left right isBinary
  exact (ofResult same).imp fun _ _ _ _ found => ⟨result, joined, found⟩

end Obeys

section

variable [Host] {tokens : Token → Prop}

/-- The expressions of the language follow their rules. -/
theorem obeys_evaluateWithin {e : Expr} (made : e.MadeOf tokens (·.isProper)) (room : Nat) :
    Obeys Denotes (Rule.evaluates e) (evaluateWithin room e) := by
  -- The induction is on the room; without any, the computation overflows and no
  -- rule has to be followed.
  induction room generalizing e with
  | zero => exact fun _ _ _ _ shallow => absurd trivial shallow
  | succ room ih =>
    cases made with
    | literal proper =>
      obtain ⟨datum, stands⟩ := exists_denotes proper
      refine (Obeys.pure stands).imp ?_
      rintro before ending after printed ⟨rfl, rfl, rfl⟩
      exact ⟨.literal stands, rfl⟩
    | grouping inner =>
      exact (ih inner).imp fun _ _ _ _ evaluated => ⟨.grouping evaluated.1, evaluated.2⟩
    | use => exact .readVariable _
    | @assign name expr _ made =>
      have followed :=
        (Obeys.blaming (ih made)).bind (.blaming name (leading_evaluateWithin room expr))
          fun value datum stands =>
            (Obeys.writeVariable name stands).bind (.writeVariable name value) fun _ _ _ =>
              .pure stands
      exact followed.imp fun _ _ _ _ => Rule.evaluates_assign
    | @unary operator operand _ isPrefix made =>
      have followed :=
        (Obeys.blaming (ih made)).bind (.blaming operator (leading_evaluateWithin room operand))
          fun _ _ => Obeys.applyUnary isPrefix
      exact followed.imp fun _ _ _ _ => Rule.evaluates_unary
    | @binary left right operator level leftMade _ isBinary rightMade =>
      -- Both operands are evaluated before the operator is blamed for anything.
      have leading : Leading (do
          let a ← evaluateWithin room left
          let b ← evaluateWithin room right
          return (a, b)) :=
        (leading_evaluateWithin room left).bind fun a =>
          (leading_evaluateWithin room right).bind fun b =>
          .ofResult (.ok (a, b))
      have operands : Obeys (fun (pair : Value × Value) (data : Datum × Datum) =>
          pair.1.Denotes data.1 ∧ pair.2.Denotes data.2) (Rule.operands left right) (do
          let a ← evaluateWithin room left
          let b ← evaluateWithin room right
          return (a, b)) :=
        (ih leftMade).bind (leading_evaluateWithin room left) fun a first stands =>
          (ih rightMade).bind (leading_evaluateWithin room right) fun b second others =>
            .pure ⟨stands, others⟩
      have followed := (Obeys.blaming operands).bind (.blaming operator leading)
        fun _ _ both => Obeys.applyBinary isBinary both.1 both.2
      exact followed.imp fun _ _ _ _ => Rule.evaluates_binary

/-- Statements that follow their rules one by one follow them in turn. -/
theorem obeys_executeAll_of_forall {program : List Stmt}
    (each : ∀ stmt ∈ program, Obeys (· = ·) (fun before => Executes before stmt) (execute stmt)) :
    Obeys (· = ·) (fun before => ExecutesAll before program) (executeAll program) := by
  -- What the first statement leaves, the others start from; an error of it is the end of all.
  induction program with
  | nil =>
    rw [executeAll]
    refine (Obeys.pure rfl).imp ?_
    rintro before ending after printed ⟨rfl, rfl, rfl⟩
    exact .done
  | cons first rest ih =>
    rw [executeAll]
    refine ((each first (by simp)).bind (leading_execute first) fun _ _ _ => ih fun stmt member =>
      each stmt (by simp [member])).imp ?_
    rintro before ending after printed (⟨_, _, _, _, head, tail, rfl⟩ | ⟨error, rfl, failed⟩)
    · exact .next head tail
    · exact .failed failed

/-- The statements of the language follow their rules. -/
theorem obeys_execute {stmt : Stmt} (made : stmt.MadeOf tokens (·.isProper)) :
    Obeys (· = ·) (fun before => Executes before stmt) (execute stmt) := by
  -- Every form is an expression and what is done with its value, apart from blocks.
  induction made with
  | @expression inner made =>
    rw [execute]
    refine ((obeys_evaluateWithin made nestingLimit).bind
      (leading_evaluateWithin nestingLimit inner) fun _ _ _ => .pure rfl).imp ?_
    rintro before ending after printed
      (⟨_, _, _, _, ⟨evaluated, rfl⟩, ⟨rfl, rfl, rfl⟩, rfl⟩ | ⟨_, rfl, failed, rfl⟩)
    · exact .expression evaluated
    · exact .expressionFailed failed
  | @print inner made =>
    rw [execute]
    refine ((obeys_evaluateWithin made nestingLimit).bind
      (leading_evaluateWithin nestingLimit inner) fun _ _ => .printValue).imp ?_
    rintro before ending after printed
      (⟨_, _, _, _, ⟨evaluated, rfl⟩, ⟨_, shows, rfl, rfl, rfl⟩, rfl⟩ | ⟨_, rfl, failed, rfl⟩)
    · exact .print evaluated shows
    · exact .printFailed failed
  | @declare name =>
    rw [execute]
    refine (Obeys.defineVariable name .nil).imp ?_
    rintro before ending after printed ⟨inner, outer, rfl, rfl, rfl, rfl⟩
    exact .declare
  | @declareAs name initial _ made =>
    rw [execute]
    refine ((obeys_evaluateWithin made nestingLimit).bind
      (leading_evaluateWithin nestingLimit initial) fun _ _ => .defineVariable name).imp ?_
    rintro before ending after printed
      (⟨_, _, _, _, ⟨evaluated, rfl⟩, ⟨inner, outer, rfl, rfl, rfl, rfl⟩, rfl⟩ |
        ⟨_, rfl, failed, rfl⟩)
    · exact .declareAs evaluated
    · exact .declareFailed failed
  -- A block is the only form that changes how many scopes there are.
  | @block body _ ih =>
    rw [execute]
    refine ((obeys_executeAll_of_forall ih).inNewScope (leading_executeAll body)).imp ?_
    rintro before ending after printed ⟨own, executed⟩
    exact .block executed

/-- The programs of the language follow their rules. -/
theorem obeys_executeAll {program : List Stmt}
    (made : ∀ stmt ∈ program, stmt.MadeOf tokens (·.isProper)) :
    Obeys (· = ·) (fun before => ExecutesAll before program) (executeAll program) :=
  obeys_executeAll_of_forall fun stmt member => obeys_execute (made stmt member)

end

end Exec

/-- Variables with values that programs compute with stand for data. -/
theorem Bindings.exists_matches {globals : Bindings}
    (proper : ∀ binding ∈ globals, binding.2.isProper) :
    ∃ data : Env Datum, Env.Matches Value.Denotes globals.toEnv data := by
  induction globals with
  | nil => exact ⟨∅, .empty⟩
  | cons first rest ih =>
    obtain ⟨data, matched⟩ := ih fun binding member =>
      proper binding (List.mem_cons_of_mem _ member)
    obtain ⟨datum, stands⟩ := Value.exists_denotes (proper first List.mem_cons_self)
    refine ⟨data.insert first.1 datum, ?_⟩
    rw [toEnv, List.map_cons, Finmap.toFinmap_cons]
    exact matched.insert stands first.1

namespace Session

/-- A program that does not overflow runs as the rules say, from any variables of
the outermost scope. -/
theorem runs_of_executeAll [Host] {tokens : Token → Prop} {debugLevel : Nat} {globals : Bindings}
    {initial : Env Datum} (matched : Env.Matches Value.Denotes globals.toEnv initial)
    {program : List Stmt} (made : ∀ stmt ∈ program, stmt.MadeOf tokens (·.isProper))
    {result : Except Halt Unit} {after : Machine}
    (ran : Exec.executeAll program (start debugLevel globals).machine = (result, after))
    (shallow : ¬Exec.Overflows result) :
    ∃ ending final printed, result = ending.mapError .failed ∧
      ExecutesAll [initial] program ending [final] printed ∧
      Env.Matches Value.Denotes (after.forest.bindingsOf globalScope).toEnv final ∧
        after.texts = printed.reverse := by
  -- The rules speak of what is seen from the outermost scope, before the run and after it.
  have before : (start debugLevel globals).machine.stack = [globals.toEnv] :=
    Forest.stack_root globals
  have obeys := Exec.obeys_executeAll made (start debugLevel globals).machine [initial] Nat.one_pos
    (by rw [before]; exact .cons matched .nil)
  have leads := Exec.leading_executeAll program (start debugLevel globals).machine
  rw [ran] at obeys leads
  obtain ⟨ending, scopes, printed, stands, executed, still, texts⟩ := obeys shallow
  -- The outermost scope is current again, and nothing stands around it.
  have outermost : after.forest.parentOf? globalScope = none := leads.parentOf?_eq Nat.one_pos
  have final : after.stack = [(after.forest.bindingsOf globalScope).toEnv] := by
    rw [Machine.stack, leads.current_eq]
    exact Forest.stack_of_no_parent outermost
  rw [final] at still
  cases still with
  | cons own rest =>
    cases rest
    refine ⟨ending, _, printed, ?_, executed, own, by simpa [start, Machine.texts] using texts⟩
    cases stands <;> rfl

/--
Running a program on the forest of its scopes refines the rules over a stack of scopes.

From any variables, a program that does not hit the nesting limit ends as the rules say, with
the same error or none, the same output and variables that stand for the same data; the rules
allow nothing else.
-/
theorem interpret_refines_rules [Host] (debugLevel : Nat) {globals : Bindings}
    (proper : ∀ binding ∈ globals, binding.2.isProper) {program : List Stmt}
    (made : ∀ stmt ∈ program, stmt.MadeOf (fun _ => True) (·.isProper))
    (shallow : ¬Exec.Overflows (Exec.executeAll program (start debugLevel globals).machine).1) :
    ∃ (ended : Session) (ending : Except RuntimeError Unit) (initial final : Env Datum),
      (start debugLevel globals).interpret program = (ended, none) ∧
      (Exec.executeAll program (start debugLevel globals).machine).1 = ending.mapError .failed ∧
      (match ending with
        | .ok () => Event.errors ended.drain.2 = ""
        | .error error => Reports error (Event.errors ended.drain.2)) ∧
      Env.Matches Value.Denotes globals.toEnv initial ∧
        Env.Matches Value.Denotes ended.globals.toEnv final ∧
      ∀ reached data output, Runs initial program reached data output ↔
        reached = ending ∧ data = final ∧ output = Event.output ended.drain.2 := by
  rcases ran : Exec.executeAll program (start debugLevel globals).machine with ⟨result, after⟩
  rw [ran] at shallow
  -- The run of the statements follows the rules; what is left is what the session makes of it.
  obtain ⟨initial, matched⟩ := Bindings.exists_matches proper
  obtain ⟨ending, final, printed, rfl, executed, still, texts⟩ :=
    runs_of_executeAll matched made ran shallow
  have plain (error : RuntimeError) (failed : ending = .error error) : error.debugLine.isPlain := by
    subst failed
    exact executed.reports.isPlain
  obtain ⟨ended, interpreted, told⟩ := interpret_tells ran plain
  have reported : after.notices = [] := by
    have leads := Exec.leading_executeAll program (start debugLevel globals).machine
    rw [ran] at leads
    exact leads.notices_eq
  -- Nothing was reported before, so the channels hold the error and the printed texts.
  have errors : Event.errors ended.drain.2 = Notice.texts (reportsOf ending) := by
    rw [errors_drain, told.notices, reported, List.append_nil, List.reverse_reverse]
  have output : Event.output ended.drain.2 = String.join printed := by
    rw [output_drain, told.texts, texts, List.reverse_reverse]
  have runs : Runs initial program ending final (Event.output ended.drain.2) :=
    ⟨printed, executed, output⟩
  have globals : ended.globals = after.forest.bindingsOf globalScope := by
    rw [Session.globals, told.forest]
  refine ⟨ended, ending, initial, final, interpreted, rfl, ?_, matched, globals ▸ still,
    fun reached data output => ⟨fun also => ?_, ?_⟩⟩
  · cases ending with
    | ok => exact errors
    | error error =>
      have text : Notice.texts (reportsOf (.error error)) = error.notice.text := by
        simp [reportsOf, Notice.texts, String.join]
      rw [errors, text]
      exact executed.reports
  · -- The rules are deterministic, so they allow nothing but this run.
    exact also.unique runs
  · rintro ⟨rfl, rfl, rfl⟩
    exact runs

/-- A program in which an inner variable hides an outer one, and a name is missing
before the last statement. -/
def shadowing : List Stmt :=
  let a : Token := { kind := .identifier, lexeme := "a" }
  let b : Token := { kind := .identifier, lexeme := "b" }
  let extended : Expr :=
    .binary (.use a) (.token { kind := .plus, lexeme := "+" }) (.literal (.string "ner"))
  [.block [.declare a (some (.literal (.string "in"))),
    .block [.expression (.assign a extended), .print (.use a)]],
    .print (.use a), .print (.use b), .print (.use a)]

/-- The run of a program that hides a variable ends at the missing name, as the rules say. -/
theorem interpret_refines_rules_shadowing :
    (∀ binding ∈ ([(.word "a", .string "out")] : Bindings), binding.2.isProper) ∧
      (∀ stmt ∈ shadowing, stmt.MadeOf (fun _ => True) (·.isProper)) ∧
      ¬Exec.Overflows (Exec.executeAll shadowing (start 0 [(.word "a", .string "out")]).machine).1 ∧
      ∃ (ended : Session) (initial final : Env Datum),
        (start 0 [(.word "a", .string "out")]).interpret shadowing = (ended, none) ∧
        Env.Matches Value.Denotes (Bindings.toEnv [(.word "a", .string "out")]) initial ∧
        Event.errors ended.drain.2 = "Undefined variable 'b'.\n[line 1]\n" ∧
        Runs initial shadowing (.error (undefined { kind := .identifier, lexeme := "b" })) final
          (Event.output ended.drain.2) := by
  have isTerm : Kind.plus ∈ Grammar.Level.term.operators := by decide
  have proper : ∀ binding ∈ ([(.word "a", .string "out")] : Bindings), binding.2.isProper := by
    simp [Value.isProper]
  -- Every mark of the program is a token and every literal a value of the language.
  have made : ∀ stmt ∈ shadowing, stmt.MadeOf (fun _ => True) (·.isProper) := by
    simp only [shadowing, List.forall_mem_cons]
    refine ⟨.block ?_, .print (.use trivial), .print (.use trivial), .print (.use trivial), by simp⟩
    simp only [List.forall_mem_cons]
    refine ⟨.declareAs trivial (.literal rfl), .block ?_, by simp⟩
    simp only [List.forall_mem_cons]
    exact ⟨.expression (.assign trivial (.binary (.use trivial) trivial isTerm (.literal rfl))),
      .print (.use trivial), by simp⟩
  -- The run itself ends at the missing name and does not nest too deeply.
  have result : (Exec.executeAll shadowing (start 0 [(.word "a", .string "out")]).machine).1 =
      .error (.failed (undefined { kind := .identifier, lexeme := "b" })) := by decide +kernel
  have shallow : ¬Exec.Overflows
      (Exec.executeAll shadowing (start 0 [(.word "a", .string "out")]).machine).1 := by
    rw [result]
    rintro ⟨⟩
  refine ⟨proper, made, shallow, ?_⟩
  -- So the rules end there as well, and only there.
  obtain ⟨ended, ending, initial, final, interpreted, same, reported, matched, _, runs⟩ :=
    interpret_refines_rules 0 proper made shallow
  rw [result] at same
  obtain rfl : ending = .error (undefined { kind := .identifier, lexeme := "b" }) := by
    cases ending with
    | ok => cases same
    | error error => rw [Halt.failed.inj (Except.error.inj same)]
  refine ⟨ended, initial, final, interpreted, matched, ?_, (runs _ _ _).mpr ⟨rfl, rfl, rfl⟩⟩
  generalize Event.errors ended.drain.2 = errors at reported
  cases reported
  rfl

end Session

end LoxLang
