import LoxLang.Proofs.Execution.Views
import LoxLang.Proofs.Tree.Names
import LoxLang.Proofs.Value.Plain

/-!
Two runs side by side: a relation between the scopes that they see is kept, and they
print and end alike.
-/

namespace LoxLang

open Reference

/--
Whether two halts look the same from outside.

They are one, or runtime errors with one fault on one line, or the debug channel
refuses one line or another.
-/
inductive Halt.Alike : Halt → Halt → Prop where
  | refl (halt : Halt) : Alike halt halt
  | failed {error other : RuntimeError} :
    other.fault = error.fault → other.line = error.line → Alike (.failed error) (.failed other)
  | refused (blot other : Blot) : Alike (.unwritable .debug blot) (.unwritable .debug other)

/-- Blame looks the same on marks of one type with one line. -/
theorem Mark.blame_alike {mark other : Mark} (lines : other.line? = mark.line?)
    (types : other.typeName = mark.typeName) (fault : RuntimeFault) :
    Halt.Alike (mark.blame fault) (other.blame fault) := by
  cases found : mark.line? with
  | none =>
    -- What has no line cannot be blamed, and only its type is told.
    have same : other.blame fault = mark.blame fault := by simp [blame, field, lines, found, types]
    exact same ▸ .refl _
  | some line =>
    -- Both marks are blamed, and the reports show the line only.
    simp only [blame, field, lines, found]
    exact .failed rfl (by simp [RuntimeError.line, lines])

namespace Mark

/-- The value that a mark has in given scopes; the mark is blamed if its name is not bound. -/
def readIn (mark : Mark) (scopes : Sight) : Except Halt Value := do
  match lookup? scopes (← mark.name) with
  | some value => return value
  | none => .error (mark.blame (.undefinedVariable mark.text))

/-- The scopes with a new value for a mark; the mark is blamed if its name is not bound. -/
def writeIn (mark : Mark) (value : Value) (scopes : Sight) : Except Halt (Sight) := do
  match assign? (← mark.name) value scopes with
  | some changed => return changed
  | none => .error (mark.blame (.undefinedVariable mark.text))

/-- The scopes with the name of a mark bound in the innermost one. -/
def defineIn (mark : Mark) (value : Value) (scopes : Sight) : Except Halt (Sight) := do
  let name ← mark.name
  match scopes with
  | [] => return []
  | own :: outer => return own.insert name value :: outer

section

variable {mark : Mark} {name : Name}

/-- A mark with a name is looked up by it. -/
theorem readIn_of_name (named : mark.name = .ok name) (scopes : Sight) :
    mark.readIn scopes =
      match lookup? scopes name with
      | some value => .ok value
      | none => .error (mark.blame (.undefinedVariable mark.text)) := by
  rw [readIn, named]
  rfl

/-- A mark with a name is assigned by it. -/
theorem writeIn_of_name (named : mark.name = .ok name) (value : Value) (scopes : Sight) :
    mark.writeIn value scopes =
      match assign? name value scopes with
      | some changed => .ok changed
      | none => .error (mark.blame (.undefinedVariable mark.text)) := by
  rw [writeIn, named]
  rfl

/-- A mark with a name is bound by it. -/
theorem defineIn_of_name (named : mark.name = .ok name) (value : Value) (own : Env Value)
    (outer : Sight) :
    mark.defineIn value (own :: outer) = .ok (own.insert name value :: outer) := by
  rw [defineIn, named]
  rfl

variable {halt : Halt} (unnamed : mark.name = .error halt)

include unnamed

/-- A mark without a name cannot be read. -/
theorem readIn_of_error (scopes : Sight) : mark.readIn scopes = .error halt := by
  rw [readIn, unnamed]
  rfl

/-- A mark without a name cannot be written. -/
theorem writeIn_of_error (value : Value) (scopes : Sight) :
    mark.writeIn value scopes = .error halt := by
  rw [writeIn, unnamed]
  rfl

/-- A mark without a name cannot be defined. -/
theorem defineIn_of_error (value : Value) (scopes : Sight) :
    mark.defineIn value scopes = .error halt := by
  rw [defineIn, unnamed]
  rfl

end

end Mark

/-- Whether two machines tell as much, have printed the same, and see scopes that
stand in a relation. -/
structure Machine.Alike (scopes : Sight → Sight → Prop) (machine other : Machine) : Prop where
  inside : machine.current < machine.forest.size
  otherInside : other.current < other.forest.size
  level : other.debugLevel = machine.debugLevel
  texts : other.texts = machine.texts
  seen : scopes machine.stack other.stack

/-- Machines that are alike are so up to any weaker relation. -/
theorem Machine.Alike.imp {scopes weaker : Sight → Sight → Prop} {machine other : Machine}
    (alike : Machine.Alike scopes machine other)
    (implied : ∀ seen mirrored, scopes seen mirrored → weaker seen mirrored) :
    Machine.Alike weaker machine other :=
  ⟨alike.inside, alike.otherInside, alike.level, alike.texts, implied _ _ alike.seen⟩

section

variable {scopes inner changed : Sight → Sight → Prop} {machine mirror : Machine}
  (alike : Machine.Alike scopes machine mirror)

include alike

/-- Machines that are alike stay so when they add debug lines. -/
theorem Machine.Alike.debug (level : Nat) (message otherMessage : String) :
    Machine.Alike scopes (machine.debug level message) (mirror.debug level otherMessage) := by
  refine ⟨?_, ?_, ?_, ?_, ?_⟩
  · rw [Machine.current_debug, Machine.forest_debug]
    exact alike.inside
  · rw [Machine.current_debug, Machine.forest_debug]
    exact alike.otherInside
  · rw [Machine.debugLevel_debug, Machine.debugLevel_debug]
    exact alike.level
  · rw [Machine.texts_debug, Machine.texts_debug]
    exact alike.texts
  · rw [Machine.stack_debug, Machine.stack_debug]
    exact alike.seen

/-- Machines that are alike enter new scopes alike; what they tell about it may differ. -/
theorem Machine.Alike.entered
    (enter : ∀ outer mirrored, scopes outer mirrored → inner (∅ :: outer) (∅ :: mirrored))
    (message otherMessage : String) :
    Machine.Alike inner (machine.entered message) (mirror.entered otherMessage) := by
  refine ⟨by simp, by simp, ?_, ?_, ?_⟩
  · rw [Machine.entered, Machine.entered, Machine.debugLevel_debug, Machine.debugLevel_debug]
    exact alike.level
  · rw [Machine.entered, Machine.entered, Machine.texts_debug, Machine.texts_debug]
    exact alike.texts
  · rw [Machine.stack_entered alike.inside, Machine.stack_entered alike.otherInside]
    exact enter _ _ alike.seen

/-- Machines that leave the scopes they entered see those around them again. -/
theorem Machine.Alike.left {message otherMessage : String} {left otherLeft : Machine}
    (leave : ∀ own otherOwn outer mirrored, inner (own :: outer) (otherOwn :: mirrored) →
      changed outer mirrored)
    (leads : Machine.Leads (machine.entered message) left)
    (otherLeads : Machine.Leads (mirror.entered otherMessage) otherLeft)
    (alikeLeft : Machine.Alike inner left otherLeft) :
    Machine.Alike changed { left with current := machine.current }
      { otherLeft with current := mirror.current } := by
  -- The scopes that were entered stay behind in the forests.
  have seen := alikeLeft.seen
  rw [Machine.stack_of_leads_entered alike.inside leads,
    Machine.stack_of_leads_entered alike.otherInside otherLeads] at seen
  have inside := Nat.lt_of_lt_of_le alike.inside (Machine.size_le_of_leads_entered leads)
  have otherInside :=
    Nat.lt_of_lt_of_le alike.otherInside (Machine.size_le_of_leads_entered otherLeads)
  exact ⟨inside, otherInside, alikeLeft.level, alikeLeft.texts, leave _ _ _ _ seen⟩

end

namespace Exec

variable {α β : Type}

/-- A variable is read from what the machine sees. -/
theorem readVariable_eq_readIn (mark : Mark) (machine : Machine) :
    readVariable mark machine = (mark.readIn machine.stack, machine) := by
  -- The machine stays as it is, so only the results are compared.
  rw [readVariable_eq]
  congr 1
  cases named : mark.name with
  | error halt =>
    rw [Mark.readIn_of_error named, Forest.read, named]
    rfl
  | ok name =>
    rw [Mark.readIn_of_name named, Forest.read_of_name named, Forest.get?_eq_lookup?]
    rfl

/-- Whether a computation does nothing but change what a machine sees, or halts and does nothing. -/
def Changes (change : Sight → Except Halt Sight) (body : Exec Unit) : Prop :=
  ∀ machine : Machine, machine.current < machine.forest.size →
    match change machine.stack with
    | .ok scopes => ∃ after, body machine = (.ok (), after) ∧ after.current < after.forest.size ∧
        after.stack = scopes ∧ after.debugLevel = machine.debugLevel ∧ after.texts = machine.texts
    | .error halt => body machine = (.error halt, machine)

/-- Assigning changes a variable where it is seen. -/
theorem changes_assignName (mark : Mark) (value : Value) :
    Changes (mark.writeIn value) (assignName mark value) := by
  intro machine inside
  cases named : mark.name with
  | error halt =>
    rw [Mark.writeIn_of_error named, assignName_eq, Forest.write, named]
    rfl
  | ok name =>
    -- The forest is changed where the owner is found, and the stack where the name is.
    rw [Mark.writeIn_of_name named, assignName_eq, Forest.write_of_name named, Machine.stack,
      ← Forest.stack_assign]
    cases machine.forest.owner? machine.current name with
    | none => rfl
    | some owner =>
      refine ⟨_, rfl, ?_, rfl, rfl, rfl⟩
      rw [Forest.size_define]
      exact inside

/-- Binding adds a variable to the innermost scope that is seen. -/
theorem changes_bindName (mark : Mark) (value : Value) :
    Changes (mark.defineIn value) (bindName mark value) := by
  intro machine inside
  rw [bindName_eq]
  cases named : mark.name with
  | error halt => rw [Mark.defineIn_of_error named]
  | ok name =>
    -- The current scope is the innermost one that is seen.
    rw [Machine.stack, Forest.stack, Mark.defineIn_of_name named]
    refine ⟨_, rfl, ?_, ?_, rfl, rfl⟩
    · rw [Forest.size_define]
      exact inside
    · rw [Machine.stack, Forest.stack_define_self inside, Forest.stack, List.tail_cons]

/-- Whether two results are values that stand in a relation, or halts that look the same. -/
inductive Agree (related : α → α → Prop) : Except Halt α → Except Halt α → Prop where
  | ok {value other : α} : related value other → Agree related (.ok value) (.ok other)
  | error {halt other : Halt} : Halt.Alike halt other → Agree related (.error halt) (.error other)

/-- A result agrees with itself. -/
theorem Agree.refl (result : Except Halt α) : Agree (· = ·) result result := by
  cases result with
  | ok value => exact .ok rfl
  | error halt => exact .error (.refl halt)

/-- Results in turn agree if the second ones do so after values that are related. -/
theorem Agree.bind {related : α → α → Prop} {further : β → β → Prop} {result other : Except Halt α}
    {next otherNext : α → Except Halt β} (agree : Agree related result other)
    (goesOn : ∀ value mirrored, related value mirrored →
      Agree further (next value) (otherNext mirrored)) :
    Agree further (result >>= next) (other >>= otherNext) := by
  cases agree with
  | ok same => exact goesOn _ _ same
  | error same => exact .error same

/-- Whether two computations print the same and lead from one relation between scopes to another,
with related results. -/
def Mirrors (before after : Sight → Sight → Prop) (related : α → α → Prop) (body other : Exec α) :
    Prop :=
  ∀ machine mirror, Machine.Alike before machine mirror →
    Machine.Alike after (body machine).2 (other mirror).2 ∧
      Agree related (body machine).1 (other mirror).1

namespace Mirrors

variable {before between after kept : Sight → Sight → Prop} {related : α → α → Prop}
  {body other : Exec α}

/-- Results that agree are computations that mirror each other. -/
theorem ofResult {result mirrored : Except Halt α} (agree : Agree related result mirrored) :
    Mirrors kept kept related (Exec.ofResult result) (Exec.ofResult mirrored) := by
  intro machine mirror alike
  rw [ofResult_eq, ofResult_eq]
  exact ⟨alike, agree⟩

/-- Computations mirror each other up to any weaker relation. -/
theorem imp (mirrors : Mirrors before between related body other)
    (implied : ∀ seen mirrored, between seen mirrored → after seen mirrored) :
    Mirrors before after related body other :=
  fun machine mirror alike => (mirrors machine mirror alike).imp_left fun left => left.imp implied

section

variable {further : β → β → Prop} {next otherNext : α → Exec β}

/-- Computations in turn mirror each other if the second ones do so after values
that are related. -/
theorem andThen (mirrors : Mirrors before between related body other)
    (goesOn : ∀ value mirrored, related value mirrored →
      Mirrors between after further (next value) (otherNext mirrored))
    (early : ∀ seen mirrored, between seen mirrored → after seen mirrored) :
    Mirrors before after further (body >>= next) (other >>= otherNext) := by
  intro machine mirror alike
  obtain ⟨stillAlike, agree⟩ := mirrors machine mirror alike
  rw [bind_eq, bind_eq]
  rcases ran : body machine with ⟨result, left⟩
  rcases otherRan : other mirror with ⟨otherResult, otherLeft⟩
  rw [ran, otherRan] at stillAlike agree
  -- Both computations go on, or both halt where they are.
  cases agree with
  | ok same => exact goesOn _ _ same left otherLeft stillAlike
  | error same => exact ⟨stillAlike.imp early, .error same⟩

/-- Computations in turn keep a relation that each of them keeps. -/
theorem bind (mirrors : Mirrors kept kept related body other)
    (goesOn : ∀ value mirrored, related value mirrored →
      Mirrors kept kept further (next value) (otherNext mirrored)) :
    Mirrors kept kept further (body >>= next) (other >>= otherNext) :=
  mirrors.andThen goesOn fun _ _ seen => seen

end

/-- Lack of room is blamed alike on marks of one type with one line. -/
theorem blaming {mark otherMark : Mark} (lines : otherMark.line? = mark.line?)
    (types : otherMark.typeName = mark.typeName)
    (mirrors : Mirrors before after related body other) :
    Mirrors before after related (Exec.blaming mark body) (Exec.blaming otherMark other) := by
  intro machine mirror alike
  obtain ⟨stillAlike, agree⟩ := mirrors machine mirror alike
  rw [blaming_eq, blaming_eq]
  rcases ran : body machine with ⟨result, left⟩
  rcases otherRan : other mirror with ⟨otherResult, otherLeft⟩
  rw [ran, otherRan] at stillAlike agree
  -- Blame changes one kind of halt only, and on both sides alike.
  cases agree with
  | ok same => exact ⟨stillAlike, .ok same⟩
  | @error halt _ same =>
    cases same with
    | failed faults errorLines => exact ⟨stillAlike, .error (.failed faults errorLines)⟩
    | refused blot other => exact ⟨stillAlike, .error (.refused blot other)⟩
    | refl =>
      cases halt with
      | failed | unsupported | unwritable => exact ⟨stillAlike, .error (.refl _)⟩
      | nestedTooDeeply => exact ⟨stillAlike, .error (Mark.blame_alike lines types _)⟩

section

variable {scopes changed : Sight → Sight → Prop}

/-- A variable is read alike if it is so in scopes that are related. -/
theorem readVariable {related : Value → Value → Prop} {mark otherMark : Mark}
    (agree : ∀ seen mirrored, scopes seen mirrored →
      Agree related (mark.readIn seen) (otherMark.readIn mirrored)) :
    Mirrors scopes scopes related (Exec.readVariable mark)
      (Exec.readVariable otherMark) := by
  intro machine mirror alike
  rw [readVariable_eq_readIn, readVariable_eq_readIn]
  exact ⟨alike, agree _ _ alike.seen⟩

/-- Changes of what is seen mirror each other if they agree on scopes that are related. -/
theorem changing {change otherChange : Sight → Except Halt (Sight)} {body other : Exec Unit}
    (changes : Changes change body) (otherChanges : Changes otherChange other)
    (agree : ∀ own otherOwn outer mirrored, scopes (own :: outer) (otherOwn :: mirrored) →
      Agree changed (change (own :: outer)) (otherChange (otherOwn :: mirrored)))
    (early : ∀ seen mirrored halt, scopes seen mirrored → change seen = .error halt →
      changed seen mirrored) :
    Mirrors scopes changed (· = ·) body other := by
  intro machine mirror alike
  have ran := changes machine alike.inside
  have otherRan := otherChanges mirror alike.otherInside
  have agreed : Agree changed (change machine.stack) (otherChange mirror.stack) := by
    -- What a machine sees is never empty.
    have seen := alike.seen
    obtain ⟨own, outer, same⟩ := machine.exists_stack
    obtain ⟨otherOwn, mirrored, otherSame⟩ := mirror.exists_stack
    rw [same, otherSame] at seen ⊢
    exact agree _ _ _ _ seen
  have halted := fun halt => early machine.stack mirror.stack halt alike.seen
  generalize change machine.stack = result, otherChange mirror.stack =
    otherResult at ran otherRan agreed halted
  cases agreed with
  | ok related =>
    obtain ⟨left, same, inside, rfl, level, texts⟩ := ran
    obtain ⟨otherLeft, otherSame, otherInside, rfl, otherLevel, otherTexts⟩ := otherRan
    rw [same, otherSame]
    refine ⟨⟨inside, otherInside, ?_, ?_, related⟩, .ok rfl⟩
    · rw [otherLevel, alike.level, level]
    · rw [otherTexts, alike.texts, texts]
  | error same =>
    -- Neither machine has changed.
    rw [ran, otherRan]
    exact ⟨⟨alike.inside, alike.otherInside, alike.level, alike.texts, halted _ rfl⟩, .error same⟩

section

variable [Host] {value mirrored : Value} (shows : shown mirrored = shown value)

include shows

/-- Values with one text are printed alike. -/
theorem printValue :
    Mirrors scopes scopes (· = ·) (Exec.printValue value) (Exec.printValue mirrored) := by
  intro machine mirror alike
  rw [printValue_eq, printValue_eq, shows]
  cases shown value with
  | error halt => exact ⟨alike, .error (.refl halt)⟩
  | ok text =>
    cases text with
    | garbled text => exact ⟨alike, .error (.refl _)⟩
    | plain text =>
      refine ⟨⟨alike.inside, alike.otherInside, alike.level, ?_, alike.seen⟩, .ok rfl⟩
      exact congrArg (List.cons (text ++ "\n")) alike.texts

/-- Values with one text are told about alike in lines that both can be written or both not. -/
theorem mention (types : mirrored.typeName = value.typeName) {line otherLine : Text → Text}
    (lines : ∀ text, (otherLine text).isPlain = (line text).isPlain) :
    Mirrors scopes scopes (· = ·) (Exec.mention value line) (Exec.mention mirrored otherLine) := by
  intro machine mirror alike
  rw [mention_eq, mention_eq, shows, types]
  cases shown value with
  | error halt => exact ⟨alike, .error (.refl halt)⟩
  | ok text =>
    dsimp only
    have both := lines (text ++ " (" ++ value.typeName ++ ")")
    generalize line (text ++ " (" ++ value.typeName ++ ")") = told,
      otherLine (text ++ " (" ++ value.typeName ++ ")") = otherTold at both
    cases told with
    | plain message =>
      cases otherTold with
      | garbled => cases both
      | plain otherMessage =>
        rw [tell_plain, tell_plain]
        exact ⟨alike.debug 1 message otherMessage, .ok rfl⟩
    | garbled message =>
      cases otherTold with
      | plain => cases both
      | garbled otherMessage =>
        -- Both machines tell as much, so both refuse the line or both pass it over.
        rw [tell_garbled, tell_garbled, alike.level]
        split
        · exact ⟨alike, .error (.refused _ _)⟩
        · exact ⟨alike, .ok rfl⟩

/-- Values with one text are told about alike where marks are bound to them, at whatever depths. -/
theorem mentionDefinition (types : mirrored.typeName = value.typeName) {mark otherMark : Mark}
    (texts : otherMark.text.isPlain = mark.text.isPlain) :
    Mirrors scopes scopes (· = ·)
      (do
        let machine ← get
        Exec.mention value (definitionLine mark (machine.forest.depth machine.current)))
      (do
        let machine ← get
        Exec.mention mirrored
          (definitionLine otherMark (machine.forest.depth machine.current))) := by
  intro machine mirror alike
  rw [get_bind_eq, get_bind_eq]
  refine Mirrors.mention shows types (fun text => ?_) machine mirror alike
  -- A depth is written in characters, so it does not matter which it is.
  rw [definitionLine, definitionLine]
  simp only [Text.isPlain_append, texts]
  rfl

end

/-- Computations in new scopes mirror each other if they do so where both see an
empty scope in front. -/
theorem inNewScope {entered left : Sight → Sight → Prop} {body other : Exec Unit}
    (enter : ∀ outer mirrored, scopes outer mirrored → entered (∅ :: outer) (∅ :: mirrored))
    (leave : ∀ own otherOwn outer mirrored, left (own :: outer) (otherOwn :: mirrored) →
      changed outer mirrored)
    (leading : Leading body) (otherLeading : Leading other)
    (mirrors : Mirrors entered left (· = ·) body other) :
    Mirrors scopes changed (· = ·) (Exec.inNewScope body) (Exec.inNewScope other) := by
  intro machine mirror alike
  obtain ⟨message, same⟩ := inNewScope_eq body machine
  obtain ⟨otherMessage, otherSame⟩ := inNewScope_eq other mirror
  rw [same, otherSame]
  obtain ⟨alikeLeft, agree⟩ := mirrors _ _ (alike.entered enter message otherMessage)
  exact ⟨alike.left leave (leading _) (otherLeading _) alikeLeft, agree⟩

end

end Mirrors

/-- Whether values that stand in a relation can take each other's place in every operation. -/
structure Interchangeable [Host] (alike : Value → Value → Prop) : Prop where
  refl : ∀ value, alike value value
  shows : ∀ {a b}, alike a b → shown b = shown a
  typeName : ∀ {a b}, alike a b → b.typeName = a.typeName
  unary : ∀ operator {a b}, alike a b → Agree alike (applyUnary operator a) (applyUnary operator b)
  binary : ∀ operator {a b c d}, alike a b → alike c d →
    Agree alike (applyBinary operator a c) (applyBinary operator b d)

/-- Every value can take its own place. -/
theorem Interchangeable.eq [Host] : Interchangeable (· = ·) where
  refl _ := rfl
  shows := by rintro a _ rfl; rfl
  typeName := by rintro a _ rfl; rfl
  unary := by rintro operator a _ rfl; exact .refl _
  binary := by rintro operator a _ c _ rfl rfl; exact .refl _

/-- Whether a mark and another do the same in scopes that are related, and keep them so. -/
structure Respects (alike : Value → Value → Prop) (scopes : Sight → Sight → Prop)
    (mark other : Mark) :
    Prop where
  line : other.line? = mark.line?
  typeName : other.typeName = mark.typeName
  text : other.text.isPlain = mark.text.isPlain
  reads : ∀ seen mirrored, scopes seen mirrored →
    Agree alike (mark.readIn seen) (other.readIn mirrored)
  writes : ∀ a b seen mirrored, alike a b → scopes seen mirrored →
    Agree scopes (mark.writeIn a seen) (other.writeIn b mirrored)

/-- Whether a mark and another can also be declared alike. -/
structure Replaces (alike : Value → Value → Prop) (scopes : Sight → Sight → Prop)
    (mark other : Mark) : Prop extends Respects alike scopes mark other where
  defines : ∀ a b own otherOwn outer mirrored, alike a b →
    scopes (own :: outer) (otherOwn :: mirrored) →
    Agree scopes (mark.defineIn a (own :: outer)) (other.defineIn b (otherOwn :: mirrored))

/-- Where scopes match that are seen, every mark is its own replacement. -/
theorem Replaces.self (alike : Value → Value → Prop) (mark : Mark) :
    Replaces alike (Match alike) mark mark := by
  -- A mark without a name halts the same way in every scope.
  cases named : mark.name with
  | error halt =>
    constructor
    · refine ⟨rfl, rfl, rfl, fun _ _ _ => ?_, fun _ _ _ _ _ _ => ?_⟩
      · rw [Mark.readIn_of_error named, Mark.readIn_of_error named]
        exact .error (.refl halt)
      · rw [Mark.writeIn_of_error named, Mark.writeIn_of_error named]
        exact .error (.refl halt)
    · intro _ _ _ _ _ _ _ _
      rw [Mark.defineIn_of_error named, Mark.defineIn_of_error named]
      exact .error (.refl halt)
  -- With a name, matching scopes hold it at the same depth or both do not hold it.
  | ok name =>
    constructor
    · refine ⟨rfl, rfl, rfl, fun seen mirrored matched =>
        ?_, fun a b seen mirrored same matched => ?_⟩
      · rw [Mark.readIn_of_name named, Mark.readIn_of_name named]
        have both := matched.lookup? name
        generalize lookup? seen name = found at both ⊢
        generalize lookup? mirrored name = other at both ⊢
        cases both with
        | none => exact .error (.refl _)
        | some same => exact .ok same
      · rw [Mark.writeIn_of_name named, Mark.writeIn_of_name named]
        have both := matched.assign? same name
        generalize assign? name a seen = changed at both ⊢
        generalize assign? name b mirrored = other at both ⊢
        cases both with
        | none => exact .error (.refl _)
        | some matched => exact .ok matched
    · intro a b own otherOwn outer mirrored same matched
      rw [Mark.defineIn_of_name named, Mark.defineIn_of_name named]
      cases matched with
      | cons inner around => exact .ok (.cons (inner.insert same name) around)

/-- Whether relations between scopes, one for each depth, lead to each other where a
scope is entered or left. -/
structure Layered (scopes : Nat → Sight → Sight → Prop) : Prop where
  enter : ∀ depth outer mirrored, scopes depth outer mirrored →
    scopes (depth + 1) (∅ :: outer) (∅ :: mirrored)
  leave : ∀ depth own otherOwn outer mirrored,
    scopes (depth + 1) (own :: outer) (otherOwn :: mirrored) → scopes depth outer mirrored

section

variable [Host] {alike : Value → Value → Prop} {change : Mark → Mark}

section

variable (interchangeable : Interchangeable alike)

include interchangeable

section

variable {scopes : Sight → Sight → Prop} {mark other : Mark} {a b : Value} (same : alike a b)

include same

/-- Values that can take each other's place are assigned alike to names that do the same. -/
theorem mirrors_writeVariable (respected : Respects alike scopes mark other) :
    Mirrors scopes scopes (· = ·) (writeVariable mark a) (writeVariable other b) := by
  have assigned : Mirrors scopes scopes (· = ·) (assignName mark a) (assignName other b) :=
    .changing (changes_assignName mark a) (changes_assignName other b)
      (fun _ _ _ _ => respected.writes a b _ _ same) fun _ _ _ seen _ => seen
  refine assigned.bind fun _ _ _ => ?_
  refine .mention (interchangeable.shows same) (interchangeable.typeName same) fun text => ?_
  rw [assignmentLine, assignmentLine]
  simp only [Text.isPlain_append, respected.text]

/-- Values that can take each other's place are declared alike under names that can
replace each other. -/
theorem mirrors_defineVariable (replaced : Replaces alike scopes mark other) :
    Mirrors scopes scopes (· = ·) (defineVariable mark a) (defineVariable other b) := by
  have bound : Mirrors scopes scopes (· = ·) (bindName mark a) (bindName other b) :=
    .changing (changes_bindName mark a) (changes_bindName other b)
      (fun _ _ _ _ => replaced.defines a b _ _ _ _ same) fun _ _ _ seen _ => seen
  exact bound.bind fun _ _ _ =>
    .mentionDefinition (interchangeable.shows same) (interchangeable.typeName same) replaced.text

end

/-- An expression is evaluated alike under other names if they do the same as the old ones. -/
theorem mirrors_evaluateWithin {scopes : Sight → Sight → Prop} {e : Expr}
    (respected : ∀ mark ∈ e.names, Respects alike scopes mark (change mark)) (room : Nat) :
    Mirrors scopes scopes alike (evaluateWithin room e)
      (evaluateWithin room (e.mapNames change)) := by
  -- The induction is on the room, as every operand has less of it.
  induction room generalizing e with
  | zero => exact .ofResult (.error (.refl .nestedTooDeeply))
  | succ room ih =>
    cases e with
    | literal value => exact .ofResult (.ok (interchangeable.refl value))
    | grouping inner => exact ih respected
    | use name => exact .readVariable (respected name (by simp [Expr.names])).reads
    | assign name value =>
      -- The name may be blamed for a value that is too deep, and is looked for once
      -- the value is there.
      have nameRespected := respected name (by simp [Expr.names])
      have valueMirrors := @ih value fun mark member =>
        respected mark (by simp [Expr.names, member])
      refine (Mirrors.blaming nameRespected.line nameRespected.typeName valueMirrors).bind ?_
      intro a b same
      refine (mirrors_writeVariable interchangeable same nameRespected).bind fun _ _ _ => ?_
      exact .ofResult (.ok same)
    | unary operator operand =>
      refine (Mirrors.blaming rfl rfl (@ih operand respected)).bind fun a b same => ?_
      exact .ofResult (interchangeable.unary operator same)
    | binary left operator right =>
      have leftMirrors := @ih left fun mark member => respected mark (by simp [Expr.names, member])
      have rightMirrors := @ih right fun mark member =>
        respected mark (by simp [Expr.names, member])
      have operands :
          Mirrors scopes scopes (fun pair others => alike pair.1 others.1 ∧ alike pair.2 others.2)
          (do
            let a ← evaluateWithin room left
            let b ← evaluateWithin room right
            return (a, b))
          (do
            let a ← evaluateWithin room (left.mapNames change)
            let b ← evaluateWithin room (right.mapNames change)
            return (a, b)) :=
        leftMirrors.bind fun a c first => rightMirrors.bind fun b d second =>
          .ofResult (.ok ⟨first, second⟩)
      -- Operators stay as they are, so they make the same of the same operands.
      refine (Mirrors.blaming rfl rfl operands).bind fun pair others same => ?_
      exact .ofResult (interchangeable.binary operator same.1 same.2)
    | unknown typeName => exact .ofResult (.error (.refl (.unsupported (.expression typeName))))

end

variable {scopes : Nat → Sight → Sight → Prop}

mutual

/-- A statement is executed alike under names that can replace the old ones, however
deep they stand. -/
theorem mirrors_execute (interchangeable : Interchangeable alike) (layered : Layered scopes)
    (stmt : Stmt)
    (replaced : ∀ mark ∈ stmt.names, ∀ depth, Replaces alike (scopes depth) mark (change mark))
    (depth : Nat) :
    Mirrors (scopes depth) (scopes depth) (· = ·) (execute stmt)
      (execute (stmt.mapNames change)) := by
  -- An expression is evaluated in the scope it stands in, so only blocks go further inside.
  match stmt with
  | .expression inner =>
    rw [Stmt.mapNames, execute, execute]
    have evaluated := mirrors_evaluateWithin interchangeable
      (fun mark member => (replaced mark member depth).toRespects) nestingLimit
    exact evaluated.bind fun _ _ _ => .ofResult (.ok rfl)
  | .print inner =>
    rw [Stmt.mapNames, execute, execute]
    have evaluated := mirrors_evaluateWithin interchangeable
      (fun mark member => (replaced mark member depth).toRespects) nestingLimit
    exact evaluated.bind fun a b same => .printValue (interchangeable.shows same)
  | .declare name none =>
    rw [Stmt.mapNames, execute, execute]
    exact mirrors_defineVariable interchangeable (interchangeable.refl .nil)
      (replaced name (by simp [Stmt.names]) depth)
  | .declare name (some initial) =>
    rw [Stmt.mapNames, execute, execute]
    have evaluated := @mirrors_evaluateWithin _ alike change interchangeable (scopes depth) initial
      (fun mark member => (replaced mark (by simp [Stmt.names, member]) depth).toRespects)
        nestingLimit
    refine evaluated.bind fun a b same => ?_
    exact mirrors_defineVariable interchangeable same (replaced name (by simp [Stmt.names]) depth)
  | .block body =>
    -- The statements of the block run one scope further inside.
    rw [Stmt.mapNames, execute, execute]
    exact .inNewScope (layered.enter depth) (layered.leave depth) (leading_executeAll _)
      (leading_executeAll _) (mirrors_executeAll interchangeable layered body replaced (depth + 1))
  | .unknown typeName =>
    rw [Stmt.mapNames, execute]
    exact .ofResult (.error (.refl (.unsupported (.statement typeName))))

/-- Statements are executed alike under names that can replace the old ones, however
deep they stand. -/
theorem mirrors_executeAll (interchangeable : Interchangeable alike) (layered : Layered scopes)
    (program : List Stmt)
    (replaced : ∀ mark ∈ Stmt.namesOf program, ∀ depth,
      Replaces alike (scopes depth) mark (change mark))
    (depth : Nat) :
    Mirrors (scopes depth) (scopes depth) (· = ·) (executeAll program)
      (executeAll (Stmt.mapAllNames change program)) := by
  match program with
  | [] =>
    rw [Stmt.mapAllNames, executeAll]
    exact .ofResult (.ok rfl)
  | first :: rest =>
    -- The names of a list are those of its first statement and of the rest.
    rw [Stmt.mapAllNames, executeAll, executeAll]
    have head := mirrors_execute interchangeable layered first
      (fun mark member => replaced mark (by simp [Stmt.namesOf, member])) depth
    exact head.bind fun _ _ _ =>
      mirrors_executeAll interchangeable layered rest
        (fun mark member => replaced mark (by simp [Stmt.namesOf, member])) depth

end

end

/-- An expression is evaluated alike on machines that see the same. -/
theorem mirrors_evaluate_self [Host] (e : Expr) :
    Mirrors (· = ·) (· = ·) (· = ·) (evaluate e) (evaluate e) := by
  -- This is the case in which every name is its own replacement.
  have respected : ∀ mark ∈ e.names, Respects (· = ·) (Match (· = ·)) mark (id mark) :=
    fun mark _ => (Replaces.self _ mark).toRespects
  have mirrors := mirrors_evaluateWithin .eq respected nestingLimit
  rwa [Expr.mapNames_id, match_eq] at mirrors

/-- Statements are executed alike on machines that see values which can take each other's place. -/
theorem mirrors_executeAll_self [Host] {alike : Value → Value → Prop}
    (interchangeable : Interchangeable alike) (program : List Stmt) :
    Mirrors (Match alike) (Match alike) (· = ·) (executeAll program) (executeAll program) := by
  have layered : Layered fun _ => Match alike := by
    constructor
    · exact fun _ outer mirrored matched => .cons .empty matched
    · rintro _ own otherOwn outer mirrored (_ | ⟨_, matched⟩)
      exact matched
  have mirrors := mirrors_executeAll interchangeable layered program
    (fun mark _ _ => Replaces.self alike (id mark)) 0
  rwa [Stmt.mapAllNames_id] at mirrors

end Exec

end LoxLang
