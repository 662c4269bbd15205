import LoxLang.Report

/-! Parsing steps: what they take from a token list, what they report, and how they stop. -/

namespace LoxLang

/-- Why a step gives no result. -/
inductive Stop where
  /-- A mistake was found, and has been reported. -/
  | refused
  /-- The input nests too deeply. -/
  | nestedTooDeeply
  /-- The token list ended without an end token. -/
  | unended
  /-- A loop went on for more rounds than there are tokens. -/
  | outOfRounds
deriving DecidableEq, Repr

/-- What came of a step: its result, the tokens it left and the diagnostics it reported. -/
structure Parsed (α : Type) where
  result : Except Stop α
  rest : List Token
  reports : List Diagnostic

/-- A step that reads the front of a token list. -/
def Parse (α : Type) := List Token → Parsed α

namespace Parse

/-- A step that takes no token. -/
protected def pure {α : Type} (value : α) : Parse α := fun tokens =>
  { result := .ok value, rest := tokens, reports := [] }

/-- One step, then another that depends on its result. -/
protected def bind {α β : Type} (step : Parse α) (next : α → Parse β) : Parse β := fun tokens =>
  let first := step tokens
  match first.result with
  | .ok value =>
    let second := next value first.rest
    { second with reports := first.reports ++ second.reports }
  | .error stop => { result := .error stop, rest := first.rest, reports := first.reports }

instance : Monad Parse where
  pure := Parse.pure
  bind := Parse.bind

/-- Stops where it stands. -/
def stop {α : Type} (cause : Stop) : Parse α := fun tokens =>
  { result := .error cause, rest := tokens, reports := [] }

/-- Reports a diagnostic and goes on. -/
def report (diagnostic : Diagnostic) : Parse Unit := fun tokens =>
  { result := .ok (), rest := tokens, reports := [diagnostic] }

/-- The next token, which is left in place. -/
def peek : Parse Token := fun tokens =>
  match tokens with
  | [] => stop .unended []
  | token :: _ => Parse.pure token tokens

/-- Takes the next token, whatever it is. -/
def advance : Parse Token := fun tokens =>
  match tokens with
  | [] => stop .unended []
  | token :: rest => Parse.pure token rest

/-- Stops a loop whose clock has run down, be it at the end of the list or before it. -/
def overrun {α : Type} : Parse α := do
  let _ ← peek
  stop .outOfRounds

/-- Reports a fault at the next token, and stops. -/
def refuse {α : Type} (fault : Fault) : Parse α := do
  let token ← peek
  report (.atToken token fault)
  stop .refused

/-- Takes the next token if it is of an accepted kind. -/
def accept? (accepted : Kind → Bool) : Parse (Option Token) := do
  let token ← peek
  if accepted token.kind then some <$> advance else return none

/-- Takes the next token, which must be of a given kind. -/
def expect (kind : Kind) (fault : Fault) : Parse Token := do
  match ← accept? (· == kind) with
  | some token => return token
  | none => refuse fault

/-- Skips tokens until one follows a semicolon or begins a statement; none if the list runs out. -/
def skipFrom (previous : Kind) : List Token → Option (List Token)
  | [] => none
  | token :: rest =>
    if token.kind = .eof ∨ previous = .semicolon ∨ token.kind.startsStatement then
      some (token :: rest)
    else skipFrom token.kind rest

/-- Where reading goes on after a mistake: past the token at fault, then at the next
place a statement can begin. -/
def resume : List Token → Option (List Token)
  | [] => none
  | token :: rest => if token.kind = .eof then some (token :: rest) else skipFrom token.kind rest

/-- Goes on after a mistake, without a result. -/
def recovered {α : Type} (reports : List Diagnostic) (tokens : List Token) : Parsed (Option α) :=
  match resume tokens with
  | some rest => { result := .ok none, rest, reports }
  | none => { result := .error .unended, rest := [], reports }

/-- A step whose mistakes are skipped over. -/
def recovering {α : Type} (step : Parse α) : Parse (Option α) := fun tokens =>
  let tried := step tokens
  match tried.result with
  | .ok value => { result := .ok (some value), rest := tried.rest, reports := tried.reports }
  | .error .refused => recovered tried.reports tried.rest
  | .error .nestedTooDeeply =>
    -- The limit is reported only here, at the token that was reached.
    match tried.rest with
    | [] => { result := .error .unended, rest := [], reports := tried.reports }
    | token :: rest =>
      recovered (tried.reports ++ [.atToken token .nestedTooDeeply]) (token :: rest)
  | .error other => { result := .error other, rest := tried.rest, reports := tried.reports }

end Parse

end LoxLang
