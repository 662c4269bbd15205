import LoxLang.Proofs.Grammar.Joining
import LoxLang.Proofs.Grammar.Progress
import LoxLang.Proofs.Grammar.Recovery

/-!
Reading from inside open blocks: nothing is reported exactly if the tokens close those
blocks and end the program.
-/

namespace LoxLang.Grammar

/-- What stands before the expression of a statement, what is reported if its semicolon is
missing, and its tree. -/
inductive Lead : List Token → Fault → (Expr → Stmt) → Prop where
  | expression : Lead [] .unfinishedExpression .expression
  | print {word : Token} : word.kind = .kwPrint → Lead [word] .unfinishedPrint .print
  | declare {word name equals : Token} :
    word.kind = .kwVar → name.kind = .identifier → equals.kind = .equal →
      Lead [word, name, equals] .unfinishedDeclaration fun e => .declare name (some e)

/-- The tokens of a statement that is no block, up to its semicolon, with an expression that
fits into so much room. -/
inductive Sentence (room : Nat) : List Token → Prop where
  | bare {word name : Token} : word.kind = .kwVar → name.kind = .identifier →
    Sentence room [word, name]
  | spelled {lead ts : List Token} {fault : Fault} {make : Expr → Stmt} {e : Expr} :
    Lead lead fault make → Derives .assignment ts e → e.nesting + 2 ≤ room →
      Sentence room (lead ++ ts)

/-- The kinds of token that such a statement can begin with. -/
def opensSentence : Kind → Bool
  | .kwVar | .kwPrint => true
  | kind => opensExpression kind

namespace Sentence

variable {room : Nat} {used : List Token} (sentence : Sentence room used)

include sentence

/-- Behind its first token, a statement has only tokens that belong to expressions. -/
theorem opens :
    ∃ first more, used = first :: more ∧ opensSentence first.kind = true ∧
      ∀ token ∈ more, token.kind.inExpression = true := by
  cases sentence with
  | bare isWord isName =>
    exact ⟨_, _, rfl, by rw [isWord]; rfl, by simp [isName, Kind.inExpression]⟩
  | spelled lead derived _ =>
    have inside := derived.inExpression
    cases lead with
    | expression =>
      -- What opens an expression opens a statement too.
      obtain ⟨token, more, rfl, opens⟩ := derived.opens
      refine ⟨token, more, rfl, ?_, fun other member => inside other (by simp [member])⟩
      revert opens
      cases token.kind <;> decide
    | print isWord => exact ⟨_, _, rfl, by rw [isWord]; rfl, inside⟩
    | declare isWord isName isEquals =>
      refine ⟨_, _, rfl, by rw [isWord]; rfl, ?_⟩
      rintro token (_ | ⟨_, _ | ⟨_, member⟩⟩)
      · rw [isName]
        rfl
      · rw [isEquals]
        rfl
      · exact inside token member

/-- A kind that neither begins statements nor belongs to expressions is in none. -/
theorem without {kind : Kind} (first : opensSentence kind = false)
    (later : kind.inExpression = false) :
    Without kind used := by
  obtain ⟨token, more, rfl, opens, inside⟩ := sentence.opens
  rintro other (_ | ⟨_, member⟩) rfl
  · simp [first] at opens
  · simp [inside other member] at later

/-- With its semicolon, a statement is a declaration of the grammar. -/
theorem declaration {semicolon : Token} (closes : semicolon.kind = .semicolon) :
    ∃ stmt, Declaration (used ++ [semicolon]) stmt ∧ stmt.depth ≤ room + 1 := by
  cases sentence with
  | bare isWord isName => exact ⟨_, .declare isWord isName closes, by simp [Stmt.depth]⟩
  | spelled lead derived bounded =>
    have fits := Nat.succ_le_succ bounded
    cases lead with
    | expression => exact ⟨_, .expression derived closes, fits⟩
    | print isWord => exact ⟨_, .print isWord derived closes, fits⟩
    | declare isWord isName isEquals =>
      exact ⟨_, .declareAs isWord isName isEquals derived closes, fits⟩

/-- A statement and its semicolon are read where there is room for the expression inside. -/
theorem read {semicolon : Token} (closes : semicolon.kind = .semicolon) (rest : List Token) :
    ∃ stmt, (Parse.declaration (room + 1)).Reads (used ++ semicolon :: rest) (some stmt) rest := by
  obtain ⟨stmt, derived, shallow⟩ := sentence.declaration closes
  have read := covers_declaration (room + 1) _ stmt rest derived shallow
  rw [List.append_assoc, List.singleton_append] at read
  exact ⟨stmt, read⟩

end Sentence

/-- A declaration that does not begin with a brace is a statement and its semicolon. -/
theorem Declaration.sentence {used : List Token} {stmt : Stmt} (derived : Declaration used stmt)
    {room : Nat} (shallow : stmt.depth ≤ room + 1)
    (unbraced : ∀ token ∈ used.head?, token.kind ≠ .leftBrace) :
    ∃ front semicolon, used = front ++ [semicolon] ∧ Sentence room front ∧
      semicolon.kind = .semicolon := by
  cases derived with
  | declare isWord isName closes => exact ⟨[_, _], _, rfl, .bare isWord isName, closes⟩
  | declareAs isWord isName isEquals derived closes =>
    exact ⟨_, _, rfl, .spelled (.declare isWord isName isEquals) derived
      (Nat.le_of_succ_le_succ shallow), closes⟩
  | print isWord derived closes =>
    exact ⟨_, _, rfl, .spelled (.print isWord) derived (Nat.le_of_succ_le_succ shallow), closes⟩
  | expression derived closes =>
    exact ⟨_, _, rfl, .spelled .expression derived (Nat.le_of_succ_le_succ shallow), closes⟩
  | block opens => exact absurd opens (unbraced _ rfl)

/--
Tokens that complete a program from inside so many open blocks, with room for so many more.

They are statements, braces that open and close blocks, and an end token once all blocks are closed.
-/
inductive Completes : Nat → Nat → List Token → Prop where
  | ended {room : Nat} {last : Token} {tail : List Token} : last.kind = .eof →
    Completes 0 room (last :: tail)
  | sentence {depth room : Nat} {used rest : List Token} {semicolon : Token} :
    Sentence room used → semicolon.kind = .semicolon → Completes depth (room + 1) rest →
      Completes depth (room + 1) (used ++ semicolon :: rest)
  | opened {depth room : Nat} {opening : Token} {rest : List Token} :
    opening.kind = .leftBrace → Completes (depth + 1) room rest →
      Completes depth (room + 1) (opening :: rest)
  | closed {depth room : Nat} {closing : Token} {rest : List Token} :
    closing.kind = .rightBrace → Completes depth (room + 1) rest →
      Completes (depth + 1) room (closing :: rest)

/-- How many tokens of a kind there are. -/
def count (kind : Kind) (tokens : List Token) : Nat :=
  tokens.countP (·.kind == kind)

/-- There is one more token of a kind if the first one is of it. -/
theorem count_cons (kind : Kind) (token : Token) (later : List Token) :
    count kind (token :: later) = count kind later + if token.kind = kind then 1 else 0 := by
  simp [count, List.countP_cons]

/-- Tokens are counted in both parts of a list. -/
theorem count_append (kind : Kind) (tokens others : List Token) :
    count kind (tokens ++ others) = count kind tokens + count kind others :=
  List.countP_append

/-- What is not in a list is not counted. -/
theorem count_eq_zero {kind : Kind} {tokens : List Token} (free : Without kind tokens) :
    count kind tokens = 0 := by
  rw [count, List.countP_eq_zero]
  intro token member
  simpa using free token member

/-- A statement and its semicolon have no braces. -/
theorem Sentence.count_eq_zero {room : Nat} {used : List Token} (sentence : Sentence room used)
    {semicolon : Token} (closes : semicolon.kind = .semicolon) {kind : Kind}
    (brace : kind = .leftBrace ∨ kind = .rightBrace) :
    count kind (used ++ [semicolon]) = 0 := by
  have free : Without kind used := by
    rcases brace with rfl | rfl <;> exact sentence.without rfl rfl
  rw [count_append, Grammar.count_eq_zero free, count_cons, closes]
  rcases brace with rfl | rfl <;> rfl

namespace Completes

variable {depth room : Nat} {tokens : List Token}

/-- What completes a program holds its end token. -/
theorem isEnded (completes : Completes depth room tokens) : Ended tokens := by
  induction completes with
  | ended isEnd => exact ⟨_, by simp, isEnd⟩
  | sentence _ _ _ ih => exact (ih.append [_]).append _
  | opened _ _ ih | closed _ _ ih => exact ih.append [_]

/-- Before the end token, the open blocks and those that are opened are closed. -/
theorem count_braces (completes : Completes depth room tokens) :
    depth + count .leftBrace (tokens.takeWhile (·.kind != .eof)) =
      count .rightBrace (tokens.takeWhile (·.kind != .eof)) := by
  induction completes with
  | ended isEnd => simp [isEnd, count]
  | @sentence depth room used rest semicolon sentence closes _ ih =>
    -- A statement has neither an end token nor a brace.
    have endless : Without .eof used := sentence.without rfl rfl
    have before : ∀ token ∈ used ++ [semicolon], (token.kind != .eof) = true := by
      intro token member
      rcases List.mem_append.mp member with inside | last
      · simpa using endless token inside
      · rw [List.mem_singleton.mp last, closes]
        rfl
    rw [← List.singleton_append, ← List.append_assoc, List.takeWhile_append_of_pos before,
      count_append _ (used ++ _), count_append _ (used ++ _),
      sentence.count_eq_zero closes (.inl rfl), sentence.count_eq_zero closes (.inr rfl)]
    omega
  | opened brace _ ih | closed brace _ ih =>
    rw [List.takeWhile_cons_of_pos (by rw [brace]; rfl), count_cons, count_cons, brace]
    simp only [reduceCtorEq, if_true, if_false]
    omega

/-- Tokens complete a program from inside one number of blocks only. -/
theorem depth_unique {otherDepth otherRoom : Nat} (completes : Completes depth room tokens)
    (otherwise : Completes otherDepth otherRoom tokens) : depth = otherDepth := by
  have counted := completes.count_braces
  have otherCounted := otherwise.count_braces
  omega

end Completes

end LoxLang.Grammar

namespace LoxLang

/-- Whether one outcome is like another but for the value, with given reports in front. -/
structure Parsed.Echoes {α β : Type} (told : List Diagnostic) (parsed : Parsed α)
    (other : Parsed β) : Prop where
  result : (parsed.result.map fun _ => ()) = other.result.map fun _ => ()
  rest : parsed.rest = other.rest
  reports : parsed.reports = told ++ other.reports

namespace Parse

variable {α β γ δ : Type} {told : List Diagnostic} {tokens others : List Token}

/-- An outcome is like itself. -/
theorem echoes_refl (parsed : Parsed α) : Parsed.Echoes [] parsed parsed :=
  ⟨rfl, rfl, rfl⟩

section

variable {step : Parse α} {other : Parse β}
  (echoes : Parsed.Echoes told (step tokens) (other others))

include echoes

/-- Steps whose outcomes are alike are followed alike. -/
theorem echoes_bind {next : α → Parse γ} {otherNext : β → Parse δ}
    (goesOn : ∀ value mirrored rest, Parsed.Echoes [] (next value rest) (otherNext mirrored rest)) :
    Parsed.Echoes told ((step >>= next) tokens) ((other >>= otherNext) others) := by
  rcases tried : step tokens with ⟨result, rest, reports⟩
  rcases otherTried : other others with ⟨otherResult, otherRest, otherReports⟩
  rw [tried, otherTried] at echoes
  obtain ⟨results, rests, reported⟩ := echoes
  simp only at results rests reported
  subst rests reported
  -- Both steps halt, or both go on from one place; what was told before is told first.
  cases result with
  | error cause =>
    cases otherResult with
    | ok value => cases results
    | error otherCause =>
      cases results
      rw [bind_eq_of_error tried, bind_eq_of_error otherTried]
      exact ⟨rfl, rfl, rfl⟩
  | ok value =>
    cases otherResult with
    | error cause => cases results
    | ok mirrored =>
      obtain ⟨results, rests, reported⟩ := goesOn value mirrored rest
      rw [bind_eq_of_ok tried, bind_eq_of_ok otherTried]
      exact ⟨results, rests, by rw [reported, List.nil_append, List.append_assoc]⟩

/-- Mistakes are skipped over alike. -/
theorem echoes_recovering :
    Parsed.Echoes told (recovering step tokens) (recovering other others) := by
  rcases tried : step tokens with ⟨result, rest, reports⟩
  rcases otherTried : other others with ⟨otherResult, otherRest, otherReports⟩
  rw [tried, otherTried] at echoes
  obtain ⟨results, rests, reported⟩ := echoes
  simp only at results rests reported
  subst rests reported
  -- Where skipping ends depends on the tokens that are left, not on the reports.
  have skipped (more : List Diagnostic) (left : List Token) :
      Parsed.Echoes told (recovered (told ++ more) left : Parsed (Option α))
        (recovered more left : Parsed (Option β)) := by
    rw [recovered, recovered]
    cases resume left <;> exact ⟨rfl, rfl, rfl⟩
  simp only [recovering, tried, otherTried]
  -- The results are of one kind, and so are the ways to go on.
  cases result with
  | ok value =>
    cases otherResult with
    | error cause => cases results
    | ok mirrored => exact ⟨rfl, rfl, rfl⟩
  | error cause =>
    cases otherResult with
    | ok value => cases results
    | error otherCause =>
      cases results
      cases cause with
      | refused => exact skipped _ _
      | unended | outOfRounds => exact ⟨rfl, rfl, rfl⟩
      | nestedTooDeeply =>
        cases rest with
        | nil => exact ⟨rfl, rfl, rfl⟩
        | cons token later =>
          have limited :=
            skipped (otherReports ++ [.atToken token .nestedTooDeeply]) (token :: later)
          rwa [← List.append_assoc] at limited

end

/-- The kinds of token that close the innermost of so many blocks, or the program
outside of all blocks. -/
def closer : Nat → Kind → Bool
  | 0 => (· == .eof)
  | _ + 1 => closesBlock

/-- The end token closes everything. -/
theorem closer_eof (depth : Nat) : closer depth .eof = true := by
  cases depth <;> rfl

/-- What a declaration can begin with closes nothing. -/
theorem closer_eq_false {depth : Nat} {kind : Kind}
    (goesOn : Grammar.closesDeclarations kind = false) :
    closer depth kind = false := by
  cases depth with
  | zero => exact goesOn_of_closers (by intro kind; cases kind <;> decide) goesOn
  | succ => exact @goesOn_of_closers closesBlock (by intro kind; cases kind <;> decide) kind goesOn

/-- Reading from inside so many blocks: the rest of the innermost one first, and then the
rest of those around it. -/
def outward : Nat → Nat → Parse (List Stmt)
  | 0, room => declarations (closer 0) (declaration room)
  | depth + 1, room => do
    let _ ← recovering (blockBody (declaration room))
    outward depth (room + 1)

/-- Where the innermost block is read alike, so are those around it. -/
theorem echoes_outward {depth room : Nat}
    (echoes : Parsed.Echoes told (declarations (closer depth) (declaration room) tokens)
      (declarations (closer depth) (declaration room) others)) :
    Parsed.Echoes told (outward depth room tokens) (outward depth room others) := by
  cases depth with
  | zero => exact echoes
  | succ depth =>
    -- Behind the block both go on from the same place, with nothing told.
    have body : Parsed.Echoes told (blockBody (declaration room) tokens)
        (blockBody (declaration room) others) := by
      refine echoes_bind echoes fun _ _ rest => echoes_bind (echoes_refl _) fun _ _ rest => ?_
      exact ⟨rfl, rfl, rfl⟩
    exact echoes_bind (echoes_recovering body) fun _ _ rest => echoes_refl _

section

variable {depth room : Nat} {token : Token} {later : List Token}

/-- A declaration in the innermost block comes before everything else. -/
theorem reports_outward_cons {rest : List Token} {first : Option Stmt} {reports : List Diagnostic}
    (goesOn : closer depth token.kind = false)
    (taken : declaration room (token :: later) = { result := .ok first, rest, reports })
    (suffix : rest <:+ later) (ended : Grammar.Ended rest) :
    (outward depth room (token :: later)).reports =
      reports ++ (outward depth room rest).reports := by
  have read :=
    declarations_cons (closer_eof depth) (Proceeds.declaration room) goesOn taken suffix ended
  refine (echoes_outward ?_).reports
  rw [read]
  rcases declarations (closer depth) (declaration room) rest with ⟨result, left, told⟩
  cases result <;> exact ⟨rfl, rfl, rfl⟩

/-- Behind a brace that opens a block, reading goes on inside of it. -/
theorem reports_outward_opening (opens : token.kind = .leftBrace) (ended : Grammar.Ended later) :
    (outward depth (room + 1) (token :: later)).reports =
      (outward (depth + 1) room later).reports := by
  obtain ⟨found, ok, suffix, still⟩ :=
    declaration_proceeds (Nat.succ_pos room) (by rw [opens]; decide) ended
  rcases taken : declaration (room + 1) (token :: later) with ⟨result, rest, reports⟩
  rw [taken] at ok suffix still
  subst ok
  have goesOn : closer depth token.kind = false := closer_eq_false (by rw [opens]; rfl)
  rw [reports_outward_cons goesOn taken suffix still]
  -- The block is read in the same way whether or not it is made a statement in the end.
  have block : declarationOver room (declaration room) (token :: later) =
      (blockBody (declaration room) >>= fun body => Pure.pure (Stmt.block body)) later := by
    rw [declarationOver_cons, if_neg (by simp [opens]), if_neg (by simp [opens]), if_pos opens]
  have body : Parsed.Echoes [] (blockBody (declaration room) later)
      (declarationOver room (declaration room) (token :: later)) := by
    rw [block]
    rcases held : blockBody (declaration room) later with ⟨result, left, told⟩
    cases result with
    | error cause =>
      rw [bind_eq_of_error held]
      exact ⟨rfl, rfl, rfl⟩
    | ok value =>
      rw [bind_eq_of_ok held]
      exact ⟨rfl, rfl, by simp [Pure.pure, Parse.pure]⟩
  -- Recovery and what follows the block do not tell the two apart either.
  have recovers : Parsed.Echoes [] (recovering (blockBody (declaration room)) later)
      (declaration (room + 1) (token :: later)) := echoes_recovering body
  have whole : Parsed.Echoes [] (outward (depth + 1) room later)
      ((declaration (room + 1) >>= fun _ => outward depth (room + 1)) (token :: later)) :=
    echoes_bind recovers fun _ _ left => echoes_refl _
  rw [whole.reports, bind_eq_of_ok taken, List.nil_append]

/-- Behind a brace that closes a block, reading goes on around it. -/
theorem outward_closing (closes : token.kind = .rightBrace) :
    outward (depth + 1) room (token :: later) = outward depth (room + 1) later := by
  -- The brace ends the innermost block with nothing more in it.
  have empty : Reads (declarations closesBlock (declaration room)) (token :: later) []
      (token :: later) := by
    rw [Reads, declarations, declarationsUntil_cons, if_pos (by rw [closes]; rfl)]
  have held : Reads (blockBody (declaration room)) (token :: later) [] later :=
    reads_bind_iff.mpr ⟨_, _, empty, reads_bind_iff.mpr
      ⟨token, later, reads_expect_iff.mpr ⟨rfl, closes⟩, reads_pure_iff.mpr ⟨rfl, rfl⟩⟩⟩
  have recovers : Reads (recovering (blockBody (declaration room))) (token :: later) (some [])
      later := by
    rw [Reads] at held
    simp [Reads, recovering, held]
  exact recovers.bind_eq _

/-- Outside of all blocks, the end token is no mistake. -/
theorem reports_outward_end (isEnd : token.kind = .eof) :
    (outward 0 room (token :: later)).reports = [] := by
  rw [outward, declarations, declarationsUntil_cons, if_pos (by rw [isEnd]; rfl)]

/-- Inside a block, the end token is a mistake. -/
theorem reports_outward_end_ne_nil (isEnd : token.kind = .eof) :
    (outward (depth + 1) room (token :: later)).reports ≠ [] := by
  have empty : Reads (declarations closesBlock (declaration room)) (token :: later) []
      (token :: later) := by
    rw [Reads, declarations, declarationsUntil_cons, if_pos (by rw [isEnd]; rfl)]
  have unclosed : expect .rightBrace .unclosedBlock (token :: later) =
      { result := .error .refused, rest := token :: later,
        reports := [.atToken token .unclosedBlock] } := by
    rw [expect_cons, if_neg (by simp [isEnd])]
  have held : blockBody (declaration room) (token :: later) =
      { result := .error .refused, rest := token :: later,
        reports := [.atToken token .unclosedBlock] } := by
    rw [show blockBody (declaration room) (token :: later) = _ from empty.bind_eq _,
      bind_eq_of_error unclosed]
  -- Recovery does not go past the end, and what is read around the block cannot
  -- take the report back.
  have recovers : recovering (blockBody (declaration room)) (token :: later) =
      { result := .ok none, rest := token :: later,
        reports := [.atToken token .unclosedBlock] } := by
    simp [recovering, held, recovered, resume, isEnd]
  rw [outward, bind_eq_of_ok recovers]
  simp

/-- Inside a block without room for a statement, every token is a mistake that does
not close the block. -/
theorem reports_outward_lacking_ne_nil (goesOn : closer (depth + 1) token.kind = false) :
    (outward (depth + 1) 0 (token :: later)).reports ≠ [] := by
  have lacking : declarations closesBlock (declaration 0) (token :: later) =
      { result := .error .nestedTooDeeply, rest := token :: later, reports := [] } := by
    have stays : ¬ closesBlock token.kind = true := by
      rw [show closesBlock token.kind = false from goesOn]
      decide
    rw [declarations, declarationsUntil_cons, if_neg stays]
    rfl
  have held : blockBody (declaration 0) (token :: later) =
      { result := .error .nestedTooDeeply, rest := token :: later, reports := [] } :=
    bind_eq_of_error lacking _
  -- The block reports its token, and what is read around it cannot take the report back.
  have recovers : (recovering (blockBody (declaration 0)) (token :: later)).reports =
      [.atToken token .nestedTooDeeply] := by
    simp only [recovering, held, recovered]
    cases resume (token :: later) <;> rfl
  rw [outward]
  rcases tried : recovering (blockBody (declaration 0)) (token :: later)
    with ⟨result, rest, reports⟩
  rw [tried] at recovers
  obtain rfl : reports = [.atToken token .nestedTooDeeply] := recovers
  cases result with
  | ok found =>
    rw [bind_eq_of_ok tried]
    simp
  | error cause =>
    rw [bind_eq_of_error tried]
    simp

end

end Parse

namespace Grammar

open Parse (outward closer)

/-- Where a statement begins, no block is closed. -/
theorem closer_of_opensSentence {depth : Nat} {kind : Kind} (opens : opensSentence kind = true) :
    closer depth kind = false := by
  apply Parse.closer_eq_false
  revert opens
  cases kind <;> decide

/-- A statement and its semicolon are read without a report, in however many blocks. -/
theorem Sentence.reports_outward {room : Nat} {used rest : List Token} {semicolon : Token}
    (sentence : Sentence room used) (closes : semicolon.kind = .semicolon) (ended : Ended rest)
    (depth : Nat) :
    (outward depth (room + 1) (used ++ semicolon :: rest)).reports =
      (outward depth (room + 1) rest).reports := by
  obtain ⟨stmt, read⟩ := sentence.read closes rest
  obtain ⟨token, more, rfl, opens, _⟩ := sentence.opens
  have suffix : rest <:+ more ++ semicolon :: rest :=
    (List.suffix_cons semicolon rest).trans (List.suffix_append ..)
  exact Parse.reports_outward_cons (closer_of_opensSentence opens) read suffix ended

/-- From inside open blocks, tokens that complete the program are read without a report. -/
theorem Completes.quiet {depth room : Nat} {tokens : List Token}
    (completes : Completes depth room tokens) :
    (outward depth room tokens).reports = [] := by
  induction completes with
  | ended isEnd => exact Parse.reports_outward_end isEnd
  | sentence sentence closes rest ih => rw [sentence.reports_outward closes rest.isEnded, ih]
  | opened opens rest ih => rw [Parse.reports_outward_opening opens rest.isEnded, ih]
  | closed closes _ ih => rw [Parse.outward_closing closes, ih]

/-- Without a report, the first thing that is read is a declaration, and the rest is read
without a report as well. -/
theorem declaration_of_quiet {depth room : Nat} {token : Token} {later : List Token}
    (goesOn : closer depth token.kind = false) (ended : Ended later) (within : 0 < depth + room)
    (quiet : (outward depth room (token :: later)).reports = []) :
    ∃ used rest stmt, token :: later = used ++ rest ∧ Declaration used stmt ∧ stmt.depth ≤ room ∧
      rest <:+ later ∧ Ended rest ∧ (outward depth room rest).reports = [] := by
  have inside : token.kind ≠ .eof := by
    intro isEnd
    rw [isEnd, Parse.closer_eof] at goesOn
    cases goesOn
  -- Lack of room would have been reported, in a block at least.
  have roomy : 0 < room := by
    cases room with
    | succ room => exact Nat.succ_pos room
    | zero =>
      obtain ⟨depth, rfl⟩ := Nat.exists_eq_succ_of_ne_zero (Nat.ne_of_gt within)
      exact absurd quiet (Parse.reports_outward_lacking_ne_nil goesOn)
  obtain ⟨found, ok, suffix, still⟩ := declaration_proceeds roomy inside ended
  rcases taken : Parse.declaration room (token :: later) with ⟨result, rest, reports⟩
  rw [taken] at ok suffix still
  subst ok
  rw [Parse.reports_outward_cons goesOn taken suffix still, List.append_eq_nil_iff] at quiet
  obtain ⟨rfl, quiet⟩ := quiet
  -- What is read without a report is derived, by soundness.
  obtain ⟨stmt, used, _, same, derived, shallow⟩ :=
    declares_declaration room (token :: later) found rest (ended.append [token]) taken
  exact ⟨used, rest, stmt, same, derived, shallow, suffix, still, quiet⟩

/-- What is read without a report from inside open blocks completes the program. -/
theorem completes_of_quiet {depth room : Nat} {tokens : List Token} (ended : Ended tokens)
    (within : 0 < depth + room) (quiet : (outward depth room tokens).reports = []) :
    Completes depth room tokens := by
  -- Whatever is read first takes a token, so the induction is on how many there are.
  induction size : tokens.length using Nat.strongRecOn generalizing depth room tokens with
  | ind size ih =>
    subst size
    obtain ⟨token, later, rfl⟩ := ended.exists_cons
    by_cases isEnd : token.kind = .eof
    · cases depth with
      | zero => exact .ended isEnd
      | succ depth => exact absurd quiet (Parse.reports_outward_end_ne_nil isEnd)
    have still : Ended later := ended.tail isEnd
    -- Braces are told apart first: they change how many blocks are open and how much room is left.
    by_cases opens : token.kind = .leftBrace
    · cases room with
      | zero =>
        -- Without room not even a block is read.
        obtain ⟨_, _, stmt, _, _, shallow, _⟩ :=
          declaration_of_quiet (Parse.closer_eq_false (by rw [opens]; rfl)) still within quiet
        have positive := stmt.depth_pos
        omega
      | succ room =>
        rw [Parse.reports_outward_opening opens still] at quiet
        exact .opened opens (ih later.length (by simp) still (by omega) quiet rfl)
    by_cases closes : token.kind = .rightBrace
    · cases depth with
      | succ depth =>
        rw [Parse.outward_closing closes] at quiet
        exact .closed closes (ih later.length (by simp) still (by omega) quiet rfl)
      | zero =>
        -- No declaration begins with a brace that closes.
        obtain ⟨used, rest, _, same, derived, _⟩ :=
          declaration_of_quiet (by rw [closes]; rfl) still within quiet
        obtain ⟨first, more, rfl, other⟩ := derived.opens
        cases same
        simp [closes, closesDeclarations] at other
    -- Anything else begins a declaration, which ends with its semicolon as it is no block.
    have goesOn : closesDeclarations token.kind = false := by
      cases kind : token.kind <;> simp_all [closesDeclarations]
    obtain ⟨used, rest, stmt, same, derived, shallow, suffix, stillEnded, quiet⟩ :=
      declaration_of_quiet (Parse.closer_eq_false goesOn) still within quiet
    obtain ⟨room, rfl⟩ : ∃ less, room = less + 1 := ⟨room - 1, by have := stmt.depth_pos; omega⟩
    have unbraced : ∀ first ∈ used.head?, first.kind ≠ .leftBrace := by
      intro first isFirst
      obtain ⟨more, rfl⟩ := List.head?_eq_some_iff.mp isFirst
      cases same
      exact opens
    obtain ⟨front, semicolon, rfl, sentence, isSemicolon⟩ := derived.sentence shallow unbraced
    have shorter := suffix.length_le
    rw [same, List.append_assoc, List.singleton_append]
    exact .sentence sentence isSemicolon
      (ih rest.length (by simp only [List.length_cons]; omega) stillEnded within quiet rfl)

end Grammar

end LoxLang
