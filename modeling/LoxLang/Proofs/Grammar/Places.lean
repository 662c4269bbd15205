import LoxLang.Proofs.Grammar.Barrier

/-!
Where mistakes are reported: every diagnostic of a step names a token that the step was given.
-/

namespace LoxLang

/-- Whether a diagnostic names one of the given tokens. -/
def Diagnostic.IsAt (given : List Token) (diagnostic : Diagnostic) : Prop :=
  ∃ token ∈ given, ∃ fault, diagnostic = .atToken token fault

namespace Parse

variable {α β : Type} {given : List Token} {good : α → Prop} {fine : β → Prop}

/--
Whether a step stays among the given tokens.

It leaves none but those, every diagnostic of it names one of them, and what it gives is good.
-/
def KeepsTo (given : List Token) (good : α → Prop) (step : Parse α) : Prop :=
  ∀ tokens, tokens ⊆ given →
    (step tokens).rest ⊆ given ∧ (∀ diagnostic ∈ (step tokens).reports, diagnostic.IsAt given) ∧
      ∀ value, (step tokens).result = .ok value → good value

namespace KeepsTo

/-- A good value needs no token. -/
theorem pure {value : α} (known : good value) : KeepsTo given good (Pure.pure value) := by
  intro tokens within
  exact ⟨within, nofun, fun found same => Except.ok.inj same ▸ known⟩

/-- A step that stops takes no token. -/
theorem stop (cause : Stop) : KeepsTo given good (Parse.stop cause) :=
  fun _ within => ⟨within, nofun, nofun⟩

/-- Two steps that stay among the given tokens do so one after the other. -/
theorem bind {step : Parse α} {next : α → Parse β} (first : KeepsTo given good step)
    (second : ∀ value, good value → KeepsTo given fine (next value)) :
    KeepsTo given fine (step >>= next) := by
  intro tokens within
  obtain ⟨left, named, known⟩ := first tokens within
  rcases tried : step tokens with ⟨result, rest, reports⟩
  rw [tried] at left named known
  cases result with
  | error cause =>
    rw [bind_eq_of_error tried]
    exact ⟨left, named, nofun⟩
  | ok value =>
    -- The second step starts from what the first one leaves, which are given tokens as well.
    obtain ⟨left', named', known'⟩ := second value (known value rfl) rest left
    rw [bind_eq_of_ok tried]
    refine ⟨left', fun diagnostic member => ?_, known'⟩
    rcases List.mem_append.mp member with early | late
    · exact named diagnostic early
    · exact named' diagnostic late

/-- A loop that is stopped takes no token. -/
theorem overrun : KeepsTo given good (Parse.overrun) := by
  intro tokens within
  cases tokens with
  | nil => exact stop .unended [] within
  | cons token later => exact stop .outOfRounds (token :: later) within

/-- A report at a given token stays among them. -/
theorem report {token : Token} (member : token ∈ given) (fault : Fault) :
    KeepsTo given (fun _ => True) (Parse.report (.atToken token fault)) := by
  intro tokens within
  refine ⟨within, fun diagnostic reported => ?_, fun _ _ => trivial⟩
  exact ⟨token, member, fault, List.mem_singleton.mp reported⟩

/-- A refusal names the token it stands at. -/
theorem refuse (fault : Fault) : KeepsTo given good (Parse.refuse fault) := by
  intro tokens within
  cases tokens with
  | nil => exact ⟨within, nofun, nofun⟩
  | cons token later =>
    rw [refuse_cons]
    refine ⟨within, fun diagnostic reported => ?_, nofun⟩
    exact ⟨token, within (by simp), fault, List.mem_singleton.mp reported⟩

/-- A token that is accepted is a given one. -/
theorem accept? (accepted : Kind → Bool) :
    KeepsTo given (fun found => ∀ token, found = some token → token ∈ given)
      (Parse.accept? accepted) := by
  intro tokens within
  cases tokens with
  | nil => exact ⟨within, nofun, fun _ same => nomatch same⟩
  | cons token later =>
    have here : token ∈ given := within (by simp)
    rw [accept?_cons]
    -- Accepted or not, what is left is part of what was given.
    split
    · refine ⟨fun t member => within (by simp [member]), nofun, ?_⟩
      rintro found same t rfl
      cases same
      exact here
    · refine ⟨within, nofun, ?_⟩
      rintro found same t rfl
      cases same

/-- A token that is not the expected one is named. -/
theorem expect (kind : Kind) (fault : Fault) :
    KeepsTo given (fun _ => True) (Parse.expect kind fault) := by
  refine bind (accept? _) fun found _ => ?_
  cases found with
  | none => exact refuse fault
  | some token => exact pure trivial

/-- A chain stays among the tokens that its operands stay among. -/
theorem chain {operators : Kind → Bool} {operand : Parse Expr}
    (keeps : KeepsTo given (fun _ => True) operand) :
    KeepsTo given (fun _ => True) (Parse.chain operators operand) := by
  -- The loop ends with its clock, so the induction is on that.
  have loop (clock : List Token) (left : Expr) :
      KeepsTo given (fun _ => True) (chainFrom operators operand clock left) := by
    induction clock generalizing left with
    | nil => exact overrun
    | cons tick clock ih =>
      rw [chainFrom]
      refine bind (accept? _) fun found _ => ?_
      cases found with
      | none => exact pure trivial
      | some operator => exact bind keeps fun right _ => ih _
  exact bind keeps fun first _ tokens => loop tokens first tokens

/-- A primary stays among the tokens that what its parentheses hold stays among. -/
theorem primary {inner : Parse Expr} (keeps : KeepsTo given (fun _ => True) inner) :
    KeepsTo given (fun _ => True) (Parse.primary inner) := by
  intro tokens within
  cases tokens with
  | nil => exact ⟨within, nofun, nofun⟩
  | cons token later =>
    have behind : later ⊆ given := fun t member => within (by simp [member])
    by_cases paren : token.kind = .leftParen
    · have grouped : KeepsTo given (fun _ => True)
          (inner >>= fun e => Parse.expect .rightParen .unclosedGrouping >>= fun _ =>
            Pure.pure (Expr.grouping e)) :=
        bind keeps fun e _ => bind (expect _ _) fun _ _ => pure trivial
      rw [primary_cons, paren]
      exact grouped later behind
    · -- Any other token is taken alone, or refused and named.
      rcases primary_alone inner paren with ⟨e, read⟩ | refused
      · rw [read]
        exact ⟨behind, nofun, fun _ _ => trivial⟩
      · rw [refused]
        refine ⟨within, fun diagnostic reported => ?_, nofun⟩
        exact ⟨token, within (by simp), _, List.mem_singleton.mp reported⟩

/-- Assignments and operands stay among the given tokens. -/
theorem assignment_and_prefixed (room : Nat) :
    KeepsTo given (fun _ => True) (assignment room) ∧
      KeepsTo given (fun _ => True) (prefixed room) := by
  -- The induction is on the room, which assignments and operands share.
  induction room with
  | zero => exact ⟨by rw [assignment]; exact stop _, by rw [prefixed]; exact stop _⟩
  | succ room ih =>
    constructor
    · rw [assignment]
      have operands : KeepsTo given (fun _ => True) (equality (prefixed room)) :=
        chain (chain (chain (chain ih.2)))
      refine bind operands fun left _ => bind (accept? _) fun found taken => ?_
      cases found with
      | none => exact pure trivial
      | some equals =>
        refine bind ih.1 fun value _ => ?_
        cases left with
        | use name => exact pure trivial
        -- The sign before which there is no target was taken from the given tokens.
        | _ => exact bind (report (taken equals rfl) _) fun _ _ => pure trivial
    · rw [prefixed]
      refine bind (accept? _) fun found _ => ?_
      cases found with
      | none => exact primary ih.1
      | some operator => exact bind ih.2 fun _ _ => pure trivial

/-- An expression and the semicolon behind it stay among the given tokens. -/
theorem finished (next : Expr → Stmt) (room : Nat) (fault : Fault) : KeepsTo given (fun _ => True)
    (assignment room >>= fun e => Parse.expect .semicolon fault >>= fun _ => Pure.pure (next e)) :=
  bind (assignment_and_prefixed room).1 fun _ _ => bind (expect _ _) fun _ _ => pure trivial

/-- What follows the word that declares a variable stays among the given tokens. -/
theorem variableDeclaration (room : Nat) :
    KeepsTo given (fun _ => True) (Parse.variableDeclaration room) := by
  refine bind (expect _ _) fun name _ => bind (accept? _) fun found _ => ?_
  cases found with
  | none => exact bind (expect _ _) fun _ _ => pure trivial
  | some equals => exact finished _ _ _

end KeepsTo

end Parse

end LoxLang
