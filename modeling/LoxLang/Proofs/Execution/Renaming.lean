import LoxLang.Proofs.Execution.Mirroring

/-! A variable of a block can be given another name, and nothing outside the block can tell. -/

namespace LoxLang

open Reference

/-- Only texts are words. -/
theorem Name.ofData?_eq_word_iff {data : Json} {word : String} :
    ofData? data = some (.word word) ↔ data = .string word := by
  cases data <;> simp [ofData?]

/-- A name with another in the place of one. -/
def Name.renamed (name old new : Name) : Name :=
  if name = old then new else name

namespace Mark

/-- Whether a mark was read from a word. -/
def Reads (mark : Mark) (word : String) : Prop :=
  mark.lexeme? = some (.string word)

instance (mark : Mark) (word : String) : Decidable (mark.Reads word) :=
  inferInstanceAs (Decidable (_ = _))

/-- A mark with another word in the place of one. -/
def renamed (old new : String) : Mark → Mark
  | token t => token (if t.lexeme = old then { t with lexeme := new } else t)
  | data kind lexeme denoted line =>
    data kind (if lexeme = .string old then .string new else lexeme) denoted line
  | stray typeName => stray typeName

/-- A mark names a variable by a word if it was read from it. -/
theorem name_eq_word_iff {mark : Mark} {word : String} :
    mark.name = .ok (.word word) ↔ mark.Reads word := by
  unfold Reads name
  cases mark.lexeme? with
  | none => simp [field, Bind.bind, Except.bind]
  | some lexeme =>
    -- What the mark was read from is a name, or it is none; only in the first case
    -- can it be the word.
    rw [Option.some_inj, ← Name.ofData?_eq_word_iff]
    cases found : Name.ofData? lexeme <;>
      simp [field, found, Bind.bind, Except.bind, Pure.pure, Except.pure]

variable {mark : Mark} {old new : String}

/-- A mark with another word stays on its line. -/
theorem line?_renamed (mark : Mark) : (mark.renamed old new).line? = mark.line? := by
  cases mark with
  | token t =>
    rw [renamed, line?]
    split <;> rfl
  | data | stray => rfl

/-- A mark with another word is still of its type. -/
theorem typeName_renamed (mark : Mark) : (mark.renamed old new).typeName = mark.typeName := by
  cases mark <;> rfl

/-- Words hold characters only, so a mark with another word can be written if it could be before. -/
theorem isPlain_text_renamed (mark : Mark) :
    (mark.renamed old new).text.isPlain = mark.text.isPlain := by
  cases mark with
  | token t =>
    rw [renamed]
    split <;> rfl
  | data kind lexeme denoted line =>
    rw [renamed]
    split
    case isTrue is =>
      rw [is]
      rfl
    case isFalse => rfl
  | stray => rfl

/-- A mark is read from the new word after the old one was replaced. -/
theorem Reads.renamed (reads : mark.Reads old) : (mark.renamed old new).Reads new := by
  cases mark <;> simp_all [Reads, lexeme?, Mark.renamed]

/-- A mark that was not read from the old word is not changed. -/
theorem renamed_of_not_reads (other : ¬mark.Reads old) : mark.renamed old new = mark := by
  cases mark <;> simp_all [Reads, lexeme?, Mark.renamed]

/-- A mark with another word has another name, or none as before. -/
theorem name_renamed (old new : String) (mark : Mark) :
    (mark.renamed old new).name = mark.name.map (·.renamed (.word old) (.word new)) := by
  by_cases reads : mark.Reads old
  · rw [name_eq_word_iff.mpr reads, name_eq_word_iff.mpr reads.renamed, Except.map, Name.renamed,
      if_pos rfl]
  · -- Neither the mark nor its name changes.
    rw [renamed_of_not_reads reads]
    cases named : mark.name with
    | error halt => rfl
    | ok name =>
      have other : name ≠ .word old := by
        rintro rfl
        exact reads (name_eq_word_iff.mp named)
      rw [Except.map, Name.renamed, if_neg other]

end Mark

/-- Whether a scope binds all names but the new one as another does, with the new name in
the place of the old one. -/
def Swaps (old new : Name) (own mirrored : Env Value) : Prop :=
  ∀ name, name ≠ new → mirrored.lookup (name.renamed old new) = own.lookup name

namespace Swaps

variable {old new : Name} {own mirrored : Env Value}

/-- Two empty scopes bind nothing. -/
theorem empty : Swaps old new ∅ ∅ := by
  intro name _
  rw [Finmap.lookup_empty, Finmap.lookup_empty]

variable {name : Name} (swaps : Swaps old new own mirrored) (known : name ≠ new)

include swaps known

/-- A name is bound in both scopes or in neither. -/
theorem mem_iff : name.renamed old new ∈ mirrored ↔ name ∈ own := by
  rw [← Finmap.lookup_isSome, ← Finmap.lookup_isSome, swaps name known]

/-- Binding a name in both scopes keeps them as they are to each other. -/
theorem insert (value : Value) :
    Swaps old new (own.insert name value) (mirrored.insert (name.renamed old new) value) := by
  intro other alsoKnown
  by_cases same : other = name
  · rw [same, Finmap.lookup_insert, Finmap.lookup_insert]
  · -- Only the new name could get in the way of another one.
    have apart : other.renamed old new ≠ name.renamed old new := by
      grind [Name.renamed]
    rw [Finmap.lookup_insert_of_ne _ apart, Finmap.lookup_insert_of_ne _ same,
      swaps other alsoKnown]

end Swaps

/--
Whether two stacks of scopes are seen under the old name and under the new one, so many
scopes inside the block.

The innermost scopes bind the same, but for the name. The outermost of them is that of the
block: it binds the name, and all scopes around it are the same.
-/
inductive Renamed (old new : Name) : Nat → Sight → Sight → Prop where
  | block {own mirrored : Env Value} {outer : Sight} :
    Swaps old new own mirrored → old ∈ own → Renamed old new 0 (own :: outer) (mirrored :: outer)
  | inside {depth : Nat} {own mirrored : Env Value} {seen others : Sight} :
    Swaps old new own mirrored → Renamed old new depth seen others →
      Renamed old new (depth + 1) (own :: seen) (mirrored :: others)

namespace Renamed

variable {old new name : Name} {depth : Nat} {seen others : Sight}

/-- Entering a scope and leaving it again lead between depths. -/
theorem layered (old new : Name) : Exec.Layered (Renamed old new) where
  enter _ _ _ renamed := .inside .empty renamed
  leave _ _ _ _ _ renamed := by
    cases renamed with
    | inside _ outer => exact outer

/-- The old name is always found. -/
theorem exists_lookup? (renamed : Renamed old new depth seen others) :
    ∃ value, lookup? seen old = some value := by
  induction renamed with
  | block _ bound =>
    obtain ⟨value, found⟩ := Option.isSome_iff_exists.mp (Finmap.lookup_isSome.mpr bound)
    exact ⟨value, by rw [lookup?_cons, found, Option.some_or]⟩
  | @inside _ own _ _ _ _ _ ih =>
    -- The scope of the block is reached at the latest.
    obtain ⟨value, found⟩ := ih
    rw [lookup?_cons, found]
    cases own.lookup old with
    | none => exact ⟨value, rfl⟩
    | some nearer => exact ⟨nearer, rfl⟩

/-- A name has one value in both stacks. -/
theorem lookup?_eq (renamed : Renamed old new depth seen others) (known : name ≠ new) :
    lookup? others (name.renamed old new) = lookup? seen name := by
  induction renamed with
  | @block own _ _ swaps bound =>
    rw [lookup?_cons, lookup?_cons, swaps name known]
    cases missing : own.lookup name with
    | some value => rfl
    | none =>
      -- What the block does not bind is another name, which is looked for further out.
      have other : name ≠ old := by
        rintro rfl
        rw [Finmap.lookup_eq_none] at missing
        exact missing bound
      rw [Name.renamed, if_neg other]
  | inside swaps _ ih => rw [lookup?_cons, lookup?_cons, swaps name known, ih]

/-- A name is assigned in the same place of both stacks, if in any. -/
theorem assign? (renamed : Renamed old new depth seen others) (known : name ≠ new) (value : Value) :
    Option.Rel (Renamed old new depth) (Reference.assign? name value seen)
      (Reference.assign? (name.renamed old new) value others) := by
  induction renamed with
  | @block own _ outer swaps bound =>
    -- Both names are bound in the scope of the block, or neither is.
    rw [Reference.assign?, Reference.assign?]
    by_cases found : name ∈ own
    · rw [if_pos found, if_pos ((swaps.mem_iff known).mpr found)]
      exact .some (.block (swaps.insert known value) (Finmap.mem_insert.mpr (.inr bound)))
    · have other : name ≠ old := fun same => found (same ▸ bound)
      rw [if_neg found, if_neg (mt (swaps.mem_iff known).mp found), Name.renamed, if_neg other]
      -- The name is assigned further out, where both stacks are the same.
      cases Reference.assign? name value outer with
      | none => exact .none
      | some changed => exact .some (.block swaps bound)
  | @inside _ own _ seen others swaps outer ih =>
    rw [Reference.assign?, Reference.assign?]
    by_cases found : name ∈ own
    · rw [if_pos found, if_pos ((swaps.mem_iff known).mpr found)]
      exact .some (.inside (swaps.insert known value) outer)
    · rw [if_neg found, if_neg (mt (swaps.mem_iff known).mp found)]
      generalize Reference.assign? name value seen = changed,
        Reference.assign? (name.renamed old new) value others = mirrored at ih ⊢
      cases ih with
      | none => exact .none
      | some further => exact .some (.inside swaps further)

/-- A name is defined in the innermost scope of both stacks. -/
theorem define {own mirrored : Env Value}
    (renamed : Renamed old new depth (own :: seen) (mirrored :: others)) (known : name ≠ new)
    (value : Value) :
    Renamed old new depth (own.insert name value :: seen)
      (mirrored.insert (name.renamed old new) value :: others) := by
  cases renamed with
  | block swaps bound =>
    exact .block (swaps.insert known value) (Finmap.mem_insert.mpr (.inr bound))
  | inside swaps outer => exact .inside (swaps.insert known value) outer

section

variable {old new : String} {mark : Mark}

/-- What is not found was not read from the old word. -/
theorem renamed_eq_of_missing (renamed : Renamed (.word old) (.word new) depth seen others)
    (named : mark.name = .ok name) (missing : lookup? seen name = none) :
    mark.renamed old new = mark := by
  -- The old word would have been found, at the latest in the scope of the block.
  refine Mark.renamed_of_not_reads fun reads => ?_
  rw [Mark.name_eq_word_iff.mpr reads] at named
  cases named
  obtain ⟨value, found⟩ := renamed.exists_lookup?
  rw [missing] at found
  cases found

variable (fresh : ¬mark.Reads new)

include fresh

/-- A mark has another name after the old word was replaced, but it had not the new one before. -/
theorem agree_name :
    Exec.Agree (fun name other => mark.name = .ok name ∧ name ≠ .word new ∧
        other = name.renamed (.word old) (.word new))
      mark.name (mark.renamed old new).name := by
  rw [mark.name_renamed old new]
  cases named : mark.name with
  | error halt => exact .error (.refl halt)
  | ok name =>
    refine .ok ⟨rfl, ?_, rfl⟩
    rintro rfl
    exact fresh (Mark.name_eq_word_iff.mp named)

/-- A mark with the new word in the place of the old one does the same, if it was not read
from the new word before. -/
theorem replaces (depth : Nat) :
    Exec.Replaces (· = ·) (Renamed (.word old) (.word new) depth) mark (mark.renamed old new) where
  line := mark.line?_renamed
  typeName := mark.typeName_renamed
  text := mark.isPlain_text_renamed
  reads seen others renamed := by
    refine (agree_name fresh).bind ?_
    rintro name _ ⟨named, known, rfl⟩
    rw [renamed.lookup?_eq known]
    -- A name that is not found is complained about by its word, which then is not the old one.
    cases missing : lookup? seen name with
    | some value => exact .ok rfl
    | none =>
      rw [renamed.renamed_eq_of_missing named missing]
      exact .refl _
  writes value _ seen others same renamed := by
    subst same
    refine (agree_name fresh).bind ?_
    rintro name _ ⟨named, known, rfl⟩
    have assigned := renamed.assign? known value
    have found := isSome_assign? name value seen
    generalize Reference.assign? name value seen = changed,
      Reference.assign? (name.renamed (.word old) (.word new)) value others = mirrored
        at assigned found ⊢
    cases assigned with
    | some further => exact .ok further
    | none =>
      -- What cannot be assigned is not found either.
      have missing : lookup? seen name = none :=
        Option.not_isSome_iff_eq_none.mp (by simp [← found])
      rw [renamed.renamed_eq_of_missing named missing]
      exact .error (.refl _)
  defines value _ own otherOwn seen others same renamed := by
    subst same
    refine (agree_name fresh).bind ?_
    rintro name _ ⟨_, known, rfl⟩
    exact .ok (renamed.define known value)

end

/-- A scope in which the new name is bound in the place of the old one starts the block. -/
theorem of_insert (old new : Name) (own : Env Value) (value : Value) (outer : Sight) :
    Renamed old new 0 (own.insert old value :: outer) (own.insert new value :: outer) := by
  refine .block ?_ (Finmap.mem_insert.mpr (.inl rfl))
  -- All other names are bound as they were before the declaration.
  intro name known
  by_cases same : name = old
  · rw [Name.renamed, if_pos same, same, Finmap.lookup_insert, Finmap.lookup_insert]
  · rw [Name.renamed, if_neg same, Finmap.lookup_insert_of_ne _ known,
      Finmap.lookup_insert_of_ne _ same]

/-- The scopes around the block are the same. -/
theorem tail_eq {old new : Name} {seen others : Sight} (renamed : Renamed old new 0 seen others) :
    seen.tail = others.tail := by
  cases renamed
  rfl

end Renamed

namespace Exec

/-- Whether two stacks have the same scopes around their innermost ones. -/
def SameAround (seen mirrored : Sight) : Prop :=
  seen.tail = mirrored.tail

section

variable {old new : String} {declared : Mark} (reads : declared.Reads old) {body : List Stmt}
  (fresh : ∀ mark ∈ Stmt.namesOf body, ¬mark.Reads new)

include reads fresh

/-- After a variable is declared under either name, what follows runs alike. -/
theorem mirrors_defineVariable_renamed [Host] (value : Value) :
    Mirrors (· = ·) SameAround (· = ·)
      (defineVariable declared value >>= fun _ => executeAll body)
      (defineVariable (declared.renamed old new) value >>=
        fun _ => executeAll (Stmt.mapAllNames (Mark.renamed old new) body)) := by
  have named := Mark.name_eq_word_iff.mpr reads
  have otherNamed :=
    Mark.name_eq_word_iff.mpr (reads.renamed : (declared.renamed old new).Reads new)
  have around (seen others : Sight) (renamed : Renamed (.word old) (.word new) 0 seen others) :
      SameAround seen others :=
    renamed.tail_eq
  have bound : Mirrors (· = ·) (Renamed (.word old) (.word new) 0) (· = ·)
      (bindName declared value) (bindName (declared.renamed old new) value) := by
    refine .changing (changes_bindName declared value) (changes_bindName _ value) ?_ ?_
    · rintro own _ outer _ ⟨⟩
      rw [Mark.defineIn_of_name named, Mark.defineIn_of_name otherNamed]
      exact .ok (.of_insert ..)
    · -- What has a name can always be declared.
      intro seen _ halt _ failed
      rw [Mark.defineIn, named] at failed
      cases seen <;> cases failed
  have defined : Mirrors (· = ·) (Renamed (.word old) (.word new) 0) (· = ·)
      (defineVariable declared value) (defineVariable (declared.renamed old new) value) :=
    bound.andThen (fun _ _ _ => .mentionDefinition rfl rfl declared.isPlain_text_renamed)
      fun _ _ seen => seen
  -- From then on the two stacks stay as they are to each other, and the scopes
  -- around the block stay the same.
  have followed := mirrors_executeAll .eq (Renamed.layered (.word old) (.word new)) body
    (fun mark member => Renamed.replaces (fresh mark member)) 0
  exact defined.andThen (fun _ _ _ => followed.imp around) around

/-- A block that starts with a variable runs alike under another name. -/
theorem mirrors_block_renamed [Host] (initial : Option Expr) :
    Mirrors (· = ·) (· = ·) (· = ·)
      (execute (.block (.declare declared initial :: body)))
      (execute (.block (.declare (declared.renamed old new) initial ::
        Stmt.mapAllNames (Mark.renamed old new) body))) := by
  have inside : Mirrors (· = ·) SameAround (· = ·)
      (executeAll (.declare declared initial :: body))
      (executeAll (.declare (declared.renamed old new) initial ::
        Stmt.mapAllNames (Mark.renamed old new) body)) := by
    cases initial with
    | none =>
      rw [executeAll, executeAll, execute, execute]
      exact mirrors_defineVariable_renamed reads fresh .nil
    | some initial =>
      -- The value is found before the name is bound, so it is one and the same.
      rw [executeAll, executeAll, execute, execute, bind_assoc, bind_assoc]
      refine (mirrors_evaluate_self initial).andThen ?_ fun _ _ same => congrArg List.tail same
      rintro value _ rfl
      exact mirrors_defineVariable_renamed reads fresh value
  rw [execute, execute]
  exact .inNewScope (fun _ _ same => congrArg _ same) (fun _ _ _ _ around => around)
    (leading_executeAll _) (leading_executeAll _) inside

end

/--
Renaming a variable of a block is unobservable.

The block starts with a declaration, and a word that names no variable behind it takes the place
of the declared one. It does so in the declaration and in all that follows, but not in the
initial value. Then both blocks print the same and end alike, with one fault on one line or
none, from any scope of any machine. They leave the same variables in all scopes around them,
even if those bind either name themselves.
-/
theorem renaming_a_local_is_unobservable [Host] (machine : Machine)
    (inside : machine.current < machine.forest.size) {old new : String} {declared : Mark}
    (reads : declared.Reads old) (initial : Option Expr) {body : List Stmt}
    (fresh : ∀ mark ∈ Stmt.namesOf body, ¬mark.Reads new) :
    ∃ result after otherResult otherAfter,
      execute (.block (.declare declared initial :: body)) machine = (result, after) ∧
      execute (.block (.declare (declared.renamed old new) initial ::
        Stmt.mapAllNames (Mark.renamed old new) body)) machine = (otherResult, otherAfter) ∧
      Agree (· = ·) result otherResult ∧ otherAfter.texts = after.texts ∧
        otherAfter.stack = after.stack := by
  obtain ⟨alike, agree⟩ := mirrors_block_renamed reads fresh initial machine machine
    ⟨inside, inside, rfl, rfl, rfl⟩
  rcases ran : execute (.block (.declare declared initial :: body)) machine with ⟨result, after⟩
  rcases otherRan : execute (.block (.declare (declared.renamed old new) initial ::
    Stmt.mapAllNames (Mark.renamed old new) body)) machine with ⟨otherResult, otherAfter⟩
  rw [ran, otherRan] at alike agree
  exact ⟨result, after, otherResult, otherAfter, rfl, rfl, agree, alike.texts, alike.seen.symm⟩

/-- Statements that hide a variable behind another of its name, use the hidden one
again, and fail in the end. -/
def shadowed : List Stmt :=
  let word (text : String) : Mark := .token { kind := .identifier, lexeme := text }
  [.block [.declare (word "x") (some (.use (word "x"))),
    .expression (.assign (word "x") (.literal .nil))],
    .print (.use (word "x")), .expression (.assign (word "z") (.use (word "x")))]

/-- Both names are bound outside, and the block prints the outer value and fails
under either of them. -/
theorem renaming_a_local_is_unobservable_shadowed :
    let word (text : String) : Mark := .token { kind := .identifier, lexeme := text }
    let machine : Machine :=
      { forest := .root [(.word "x", .string "out"), (.word "y", .string "far")] }
    let renamed := Stmt.mapAllNames (Mark.renamed "x" "y") shadowed
    (∀ mark ∈ Stmt.namesOf shadowed, ¬mark.Reads "y") ∧
      ∃ after otherAfter,
        execute (.block (.declare (word "x") (some (.use (word "x"))) :: shadowed)) machine =
          (.error (.failed { blamed := word "z", fault := .undefinedVariable "z" }), after) ∧
        execute (.block (.declare (word "y") (some (.use (word "x"))) :: renamed)) machine =
          (.error (.failed { blamed := word "z", fault := .undefinedVariable "z" }), otherAfter) ∧
        after.texts = ["out\n"] ∧ otherAfter.texts = after.texts ∧
          otherAfter.stack = after.stack := by
  intro word machine renamed
  have fresh : ∀ mark ∈ Stmt.namesOf shadowed, ¬mark.Reads "y" := by decide
  obtain ⟨_, _, _, _, ran, otherRan, _, texts, stack⟩ :=
    renaming_a_local_is_unobservable machine (by decide)
      (rfl : (word "x").Reads "x") (some (.use (word "x"))) fresh
  have prints :
      (execute (.block (.declare (word "x") (some (.use (word "x"))) :: shadowed))
      machine).2.texts =
      ["out\n"] := by decide +kernel
  have fails :
      (execute (.block (.declare (word "x") (some (.use (word "x"))) :: shadowed)) machine).1 =
      .error (.failed { blamed := word "z", fault := .undefinedVariable "z" }) := by decide +kernel
  have otherFails :
      (execute (.block (.declare (word "y") (some (.use (word "x"))) :: renamed)) machine).1 =
      .error (.failed { blamed := word "z", fault := .undefinedVariable "z" }) := by decide +kernel
  have renamedWord : (word "x").renamed "x" "y" = word "y" := rfl
  rw [renamedWord] at otherRan
  rw [ran] at prints fails
  rw [otherRan] at otherFails
  exact ⟨fresh, _, _, ran.trans (congrArg (·, _) fails),
    otherRan.trans (congrArg (·, _) otherFails), prints, texts, stack⟩

end Exec

end LoxLang
