import LoxLang.Execution

/-! What each operation of a run does to the machine, as equations. -/

namespace LoxLang

namespace Mark

/-- A token stands for the word it was read from. -/
@[simp] theorem name_token (token : Token) : (Mark.token token).name = .ok (.word token.lexeme) :=
  rfl

/-- A token has a kind. -/
@[simp] theorem kind_token (token : Token) : (Mark.token token).kind = .ok token.kind :=
  rfl

/-- The text of a token's mark is what the token was read from. -/
@[simp] theorem text_token (token : Token) : (Mark.token token).text = token.lexeme :=
  rfl

end Mark

namespace Forest

section

variable {mark : Mark} {name : Name}

/-- A mark is read as the value of its name. -/
theorem read_of_name (named : mark.name = .ok name) (forest : Forest) (scope : Nat) :
    forest.read scope mark =
      match forest.get? scope name with
      | some value => .ok value
      | none => .error (mark.blame (.undefinedVariable mark.text)) := by
  rw [read, named]
  rfl

/-- Writing to a mark changes the value of its name, where that is bound. -/
theorem write_of_name (named : mark.name = .ok name) (forest : Forest) (scope : Nat)
    (value : Value) :
    forest.write scope mark value =
      match forest.owner? scope name with
      | some owner => .ok (forest.define owner name value)
      | none => .error (mark.blame (.undefinedVariable mark.text)) := by
  simp only [write, named, assign?, Bind.bind, Except.bind]
  cases forest.owner? scope name <;> rfl

end

/-- A token is read as the value of its word. -/
theorem read_token (forest : Forest) (scope : Nat) (token : Token) :
    forest.read scope token =
      match forest.get? scope (.word token.lexeme) with
      | some value => .ok value
      | none => .error (.failed { blamed := token, fault := .undefinedVariable token.lexeme }) :=
  read_of_name rfl forest scope

/-- Writing to a token changes the value of its word, where that is bound. -/
theorem write_token (forest : Forest) (scope : Nat) (token : Token) (value : Value) :
    forest.write scope token value =
      match forest.owner? scope (.word token.lexeme) with
      | some owner => .ok (forest.define owner (.word token.lexeme) value)
      | none => .error (.failed { blamed := token, fault := .undefinedVariable token.lexeme }) :=
  write_of_name rfl forest scope value

/-- What is written goes to the scope that binds the name. -/
theorem exists_owner_of_write {forest changed : Forest} {scope : Nat} {mark : Mark} {value : Value}
    (written : forest.write scope mark value = .ok changed) :
    ∃ name owner, forest.owner? scope name = some owner ∧
      changed = forest.define owner name value := by
  -- Neither a mark without a name nor a name without an owner lets anything be written.
  unfold write at written
  cases named : mark.name with
  | error halt =>
    rw [named] at written
    cases written
  | ok name =>
    cases found : forest.owner? scope name with
    | none => simp [named, assign?, found, Bind.bind, Except.bind] at written
    | some owner =>
      simp [named, assign?, found, Bind.bind, Except.bind, Pure.pure, Except.pure] at written
      exact ⟨name, owner, found, written.symm⟩

end Forest

namespace Machine

/-- A debug line changes nothing but the events. -/
@[simp] theorem forest_debug (machine : Machine) (level : Nat) (message : String) :
    (machine.debug level message).forest = machine.forest := by
  unfold debug
  split <;> rfl

/-- A debug line leaves the current scope as it is. -/
@[simp] theorem current_debug (machine : Machine) (level : Nat) (message : String) :
    (machine.debug level message).current = machine.current := by
  unfold debug
  split <;> rfl

/-- A debug line does not change how much is told. -/
@[simp] theorem debugLevel_debug (machine : Machine) (level : Nat) (message : String) :
    (machine.debug level message).debugLevel = machine.debugLevel := by
  unfold debug
  split <;> rfl

/-- The machine in a new scope inside its current one, with a debug line about it. -/
def entered (machine : Machine) (message : String) : Machine :=
  { machine with
    forest := machine.forest.create (some machine.current)
    current := machine.forest.size }.debug 2 message

/-- Entering a scope creates it inside the current one. -/
@[simp] theorem forest_entered (machine : Machine) (message : String) :
    (machine.entered message).forest = machine.forest.create (some machine.current) :=
  forest_debug ..

/-- The scope that is entered is the newest one. -/
@[simp] theorem current_entered (machine : Machine) (message : String) :
    (machine.entered message).current = machine.forest.size :=
  current_debug ..

end Machine

namespace Exec

variable {α β : Type}

/-- A computation behind another starts from the machine that the first one leaves. -/
theorem bind_eq (first : Exec α) (next : α → Exec β) (machine : Machine) :
    (first >>= next) machine =
      match first machine with
      | (.ok value, after) => next value after
      | (.error halt, after) => (.error halt, after) := by
  -- A halt passes by what follows, and keeps what the machine has become.
  show ExceptT.bind first next machine = _
  simp only [ExceptT.bind, ExceptT.mk, ExceptT.bindCont, Bind.bind, StateT.bind]
  rcases first machine with ⟨result, after⟩
  cases result <;> rfl

/-- A computation that looks at the machine first starts from that machine. -/
theorem get_bind_eq (next : Machine → Exec α) (machine : Machine) :
    ((get : Exec Machine) >>= next) machine = next machine machine :=
  rfl

/-- A result as a computation leaves the machine as it is. -/
@[simp] theorem ofResult_eq (result : Except Halt α) (machine : Machine) :
    ofResult result machine = (result, machine) := by
  cases result <;> rfl

/-- Reading a variable leaves the machine as it is. -/
@[simp] theorem readVariable_eq (name : Mark) (machine : Machine) :
    readVariable name machine = (machine.forest.read machine.current name, machine) := by
  unfold readVariable
  rw [get_bind_eq, ofResult_eq]

/-- Assigning changes the forest, and nothing if the variable is not there. -/
theorem assignName_eq (mark : Mark) (value : Value) (machine : Machine) :
    assignName mark value machine =
      match machine.forest.write machine.current mark value with
      | .ok forest => (.ok (), { machine with forest })
      | .error halt => (.error halt, machine) := by
  unfold assignName
  rw [get_bind_eq, bind_eq, ofResult_eq]
  cases machine.forest.write machine.current mark value <;> rfl

/-- Binding changes the current scope, and nothing if the mark has no name. -/
theorem bindName_eq (mark : Mark) (value : Value) (machine : Machine) :
    bindName mark value machine =
      match mark.name with
      | .ok name =>
        (.ok (), { machine with forest := machine.forest.define machine.current name value })
      | .error halt => (.error halt, machine) := by
  unfold bindName
  rw [bind_eq, ofResult_eq]
  cases mark.name <;> rfl

/-- A line of characters is told by a machine that tells that much. -/
@[simp] theorem tell_plain (level : Nat) (message : String) (machine : Machine) :
    tell level (.plain message) machine = (.ok (), machine.debug level message) := by
  unfold tell Machine.debug
  split <;> rfl

/-- A line with half of a pair is refused by a machine that would tell it, and
passed over by others. -/
@[simp] theorem tell_garbled (level : Nat) (text : Garbled) (machine : Machine) :
    tell level (.garbled text) machine =
      (if level ≤ machine.debugLevel then .error (.unwritable .debug (Glyph.blot text.glyphs))
        else .ok (), machine) := by
  unfold tell
  split <;> rfl

section

variable [Host]

/-- Lack of room to show a value is no runtime error. -/
theorem shown_ne_failed (value : Value) (error : RuntimeError) :
    shown value ≠ .error (.failed error) := by
  unfold shown
  split
  · split <;> rintro ⟨⟩
  · rintro ⟨⟩

/-- Lack of room to compare two values is no runtime error. -/
theorem compared_ne_failed (a b : Value) (error : RuntimeError) :
    compared a b ≠ .error (.failed error) := by
  unfold compared
  split
  · split <;> rintro ⟨⟩
  · rintro ⟨⟩

/-- Telling about a value depends on whether there is room to show it. -/
theorem mention_eq (value : Value) (line : Text → Text) (machine : Machine) :
    mention value line machine =
      match shown value with
      | .ok text => tell 1 (line (text ++ " (" ++ value.typeName ++ ")")) machine
      | .error halt => (.error halt, machine) := by
  unfold mention
  rw [bind_eq, ofResult_eq]
  cases shown value <;> rfl

/-- Telling about a value adds a debug line at most, and nothing if it ends early. -/
theorem mention_cases (value : Value) (line : Text → Text) (machine : Machine) :
    (∃ message, mention value line machine = (.ok (), machine.debug 1 message)) ∨
      mention value line machine = (.ok (), machine) ∨
      ∃ halt, mention value line machine = (.error halt, machine) := by
  rw [mention_eq]
  cases shown value with
  | error halt => exact .inr (.inr ⟨halt, rfl⟩)
  | ok text =>
    dsimp only
    cases line (text ++ " (" ++ value.typeName ++ ")") with
    | plain message => exact .inl ⟨message, tell_plain ..⟩
    | garbled text =>
      rw [tell_garbled]
      split
      · exact .inr (.inr ⟨_, rfl⟩)
      · exact .inr (.inl rfl)

/-- Telling about a value changes nothing but the events. -/
theorem exists_snd_mention (value : Value) (line : Text → Text) (machine : Machine) :
    ∃ events, (mention value line machine).2 = { machine with events } := by
  rcases mention_cases value line machine with ⟨message, same⟩ | same | ⟨halt, same⟩
  · rw [same, Machine.debug]
    split
    · exact ⟨_, rfl⟩
    · exact ⟨_, rfl⟩
  · rw [same]
    exact ⟨_, rfl⟩
  · rw [same]
    exact ⟨_, rfl⟩

/-- Writing a variable changes the forest, and nothing if the variable is not there. -/
theorem writeVariable_eq (mark : Mark) (value : Value) (machine : Machine) :
    writeVariable mark value machine =
      match machine.forest.write machine.current mark value with
      | .ok forest => mention value (assignmentLine mark) { machine with forest }
      | .error halt => (.error halt, machine) := by
  -- The forest changes before anything is told, and neither happens without an owner.
  unfold writeVariable
  rw [bind_eq, assignName_eq]
  cases machine.forest.write machine.current mark value <;> rfl

/-- Writing to a mark changes the forest where its name is bound, or blames the mark. -/
theorem writeVariable_of_name {mark : Mark} {name : Name} (named : mark.name = .ok name)
    (value : Value) (machine : Machine) :
    writeVariable mark value machine =
      match machine.forest.owner? machine.current name with
      | some owner =>
        mention value (assignmentLine mark)
          { machine with forest := machine.forest.define owner name value }
      | none => (.error (mark.blame (.undefinedVariable mark.text)), machine) := by
  rw [writeVariable_eq, Forest.write_of_name named]
  cases machine.forest.owner? machine.current name <;> rfl

/-- Defining a variable binds its name in the current scope, if it has one. -/
theorem defineVariable_eq (mark : Mark) (value : Value) (machine : Machine) :
    ∃ depth, defineVariable mark value machine =
      match mark.name with
      | .ok name =>
        mention value (definitionLine mark depth)
          { machine with forest := machine.forest.define machine.current name value }
      | .error halt => (.error halt, machine) := by
  unfold defineVariable
  rw [bind_eq, bindName_eq]
  cases mark.name with
  | ok name => exact ⟨_, get_bind_eq _ _⟩
  | error halt => exact ⟨0, rfl⟩

/-- Printing depends on whether there is room to show the value, and on the
characters of its text. -/
theorem printValue_eq (value : Value) (machine : Machine) :
    printValue value machine =
      match shown value with
      | .ok (.plain text) => (.ok (), machine.emit (.printed (text ++ "\n")))
      | .ok (.garbled text) => (.error (.unwritable .output (Glyph.blot text.glyphs)), machine)
      | .error halt => (.error halt, machine) := by
  unfold printValue
  rw [bind_eq, ofResult_eq]
  cases shown value with
  | ok text => cases text <;> rfl
  | error halt => rfl

/-- Printing adds a line to the output, or nothing if it ends early. -/
theorem printValue_cases (value : Value) (machine : Machine) :
    (∃ text, printValue value machine = (.ok (), machine.emit (.printed text))) ∨
      ∃ halt, printValue value machine = (.error halt, machine) := by
  rw [printValue_eq]
  cases shown value with
  | ok text =>
    cases text with
    | plain text => exact .inl ⟨_, rfl⟩
    | garbled text => exact .inr ⟨_, rfl⟩
  | error halt => exact .inr ⟨halt, rfl⟩

end

/-- Blame turns lack of room into a failure at the mark, and leaves all else as it is. -/
theorem blaming_eq (mark : Mark) (body : Exec α) (machine : Machine) :
    blaming mark body machine =
      match body machine with
      | (.error .nestedTooDeeply, after) => (.error (mark.blame .nestedTooDeeply), after)
      | other => other := by
  -- The handler passes on every other halt.
  show ExceptT.tryCatch body _ machine = _
  simp only [ExceptT.tryCatch, ExceptT.mk, Bind.bind, StateT.bind]
  rcases body machine with ⟨result, after⟩
  match result with
  | .ok value => rfl
  | .error (.failed _) => rfl
  | .error (.unsupported _) => rfl
  | .error (.unwritable ..) => rfl
  | .error .nestedTooDeeply => rfl

/-- Blame leaves the machine as the computation leaves it. -/
theorem snd_blaming (mark : Mark) (body : Exec α) (machine : Machine) :
    (blaming mark body machine).2 = (body machine).2 := by
  rw [blaming_eq]
  rcases body machine with ⟨result, after⟩
  cases result with
  | ok => rfl
  | error halt => cases halt <;> rfl

/-- A computation in a new scope is run there, and the old scope is current again afterwards. -/
theorem inNewScope_eq (body : Exec Unit) (machine : Machine) :
    ∃ message, inNewScope body machine =
      ((body (machine.entered message)).1,
        { (body (machine.entered message)).2 with current := machine.current }) :=
  ⟨_, rfl⟩

/-- Programs in a row are executed in turn. -/
theorem executeAll_append [Host] (program others : List Stmt) :
    executeAll (program ++ others) = executeAll program >>= fun _ => executeAll others := by
  induction program with
  | nil => rfl
  | cons first rest ih => rw [List.cons_append, executeAll, executeAll, ih, bind_assoc]

end Exec

end LoxLang
