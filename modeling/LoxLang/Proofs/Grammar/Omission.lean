import LoxLang.Proofs.Grammar.Unwinding

/-!
What a missing semicolon does: it is one mistake, unless recovery skips braces that do
not belong together.
-/

namespace LoxLang.Grammar

open Parse (outward)

/-- What belongs to expressions does not begin a statement that recovery looks for. -/
theorem startsStatement_eq_false {kind : Kind} (inside : kind.inExpression = true) :
    kind.startsStatement = false := by
  revert inside
  cases kind <;> decide

/-- A statement and its semicolon are skipped as a whole. -/
theorem Sentence.resume {room : Nat} {used rest : List Token} {semicolon : Token}
    (sentence : Sentence room used) (closes : semicolon.kind = .semicolon) (ended : Ended rest) :
    Parse.resume (used ++ semicolon :: rest) = some rest := by
  obtain ⟨next, tail, rfl⟩ := ended.exists_cons
  refine Parse.resume_behind closes (sentence.without rfl rfl) (sentence.without rfl rfl) ?_
    next tail
  obtain ⟨first, more, rfl, _, inside⟩ := sentence.opens
  exact fun token member => startsStatement_eq_false (inside token member)

/-- Whether the rest completes the program from inside the blocks that are open
behind skipped tokens. -/
def CompletesBehind (depth room : Nat) (skipped rest : List Token) : Prop :=
  ∃ inner left, Completes inner left rest ∧ inner + left = depth + room ∧
    depth + count .leftBrace skipped = inner + count .rightBrace skipped

namespace CompletesBehind

variable {depth room : Nat} {skipped rest : List Token} {token : Token}

/-- Where nothing is skipped, the same blocks are open. -/
theorem nil (completes : Completes depth room rest) : CompletesBehind depth room [] rest :=
  ⟨depth, room, completes, rfl, rfl⟩

/-- A brace that opens a block is skipped, and its block is one more. -/
theorem opened (opens : token.kind = .leftBrace)
    (completes : CompletesBehind (depth + 1) room skipped rest) :
    CompletesBehind depth (room + 1) (token :: skipped) rest := by
  obtain ⟨inner, left, completes, same, counted⟩ := completes
  refine ⟨inner, left, completes, by omega, ?_⟩
  rw [count_cons, count_cons, opens]
  simp only [reduceCtorEq, if_true, if_false]
  omega

/-- A brace that closes a block is skipped, and its block is one less. -/
theorem closed (closes : token.kind = .rightBrace)
    (completes : CompletesBehind depth (room + 1) skipped rest) :
    CompletesBehind (depth + 1) room (token :: skipped) rest := by
  obtain ⟨inner, left, completes, same, counted⟩ := completes
  refine ⟨inner, left, completes, by omega, ?_⟩
  rw [count_cons, count_cons, closes]
  simp only [reduceCtorEq, if_true, if_false]
  omega

/-- A statement is skipped, and the same blocks are open. -/
theorem sentence {fit : Nat} {used : List Token} (sentence : Sentence fit used)
    (closes : token.kind = .semicolon) (completes : Completes depth room rest) :
    CompletesBehind depth room (used ++ [token]) rest := by
  refine ⟨depth, room, completes, rfl, ?_⟩
  rw [sentence.count_eq_zero closes (.inl rfl), sentence.count_eq_zero closes (.inr rfl)]

end CompletesBehind

/-- What stands before a semicolon begins with the token that comes first, if that
is no semicolon. -/
theorem exists_cons_of_append_eq {before after tail : List Token} {semicolon first : Token}
    (whole : before ++ semicolon :: after = first :: tail) (other : semicolon.kind ≠ first.kind) :
    ∃ more, before = first :: more ∧ more ++ semicolon :: after = tail := by
  rcases List.append_eq_cons_iff.mp whole with ⟨rfl, same⟩ | ⟨more, rfl, rfl⟩
  · cases same
    exact absurd rfl other
  · exact ⟨more, rfl, rfl⟩

namespace Completes

variable {depth room : Nat} {tokens : List Token}

/-- Skipping ends where the rest completes the program from inside the blocks that
are open there. -/
theorem skipFrom (completes : Completes depth room tokens) (previous : Kind) :
    ∃ skipped rest, tokens = skipped ++ rest ∧ Parse.skipFrom previous tokens = some rest ∧
      CompletesBehind depth room skipped rest := by
  induction completes generalizing previous with
  | ended isEnd =>
    refine ⟨[], _, rfl, ?_, .nil (.ended isEnd)⟩
    rw [Parse.skipFrom, if_pos (.inl isEnd)]
  | @sentence depth room used rest semicolon sentence closes completes _ =>
    obtain ⟨first, more, rfl, opens, inside⟩ := sentence.opens
    by_cases stops : previous = .semicolon ∨ first.kind.startsStatement = true
    · refine ⟨[], _, rfl, ?_, .nil (.sentence sentence closes completes)⟩
      exact if_pos (.inr stops)
    · -- No word begins the statement, so it is an expression, which is skipped
      -- together with its semicolon.
      rw [not_or, Bool.not_eq_true] at stops
      obtain ⟨next, tail, rfl⟩ := completes.isEnded.exists_cons
      refine ⟨first :: more ++ [semicolon],
        next :: tail, by simp, ?_, .sentence sentence closes completes⟩
      refine Parse.skipFrom_behind closes (sentence.without rfl rfl) (sentence.without rfl rfl) ?_
        stops.1 next tail
      rintro token (_ | ⟨_, member⟩)
      · exact stops.2
      · exact startsStatement_eq_false (inside token member)
  -- A brace that is skipped changes how many blocks are open behind it.
  | @opened _ _ brace _ opens completes ih =>
    by_cases stops : previous = .semicolon
    · refine ⟨[], _, rfl, ?_, .nil (.opened opens completes)⟩
      rw [Parse.skipFrom, if_pos (.inr (.inl stops))]
    · obtain ⟨skipped, rest, rfl, further, behind⟩ := ih brace.kind
      refine ⟨brace :: skipped, rest, rfl, ?_, behind.opened opens⟩
      rw [Parse.skipFrom, if_neg (by simp [opens, stops, Kind.startsStatement]), further]
  | @closed _ _ brace _ closes completes ih =>
    by_cases stops : previous = .semicolon
    · refine ⟨[], _, rfl, ?_, .nil (.closed closes completes)⟩
      rw [Parse.skipFrom, if_pos (.inr (.inl stops))]
    · obtain ⟨skipped, rest, rfl, further, behind⟩ := ih brace.kind
      refine ⟨brace :: skipped, rest, rfl, ?_, behind.closed closes⟩
      rw [Parse.skipFrom, if_neg (by simp [closes, stops, Kind.startsStatement]), further]

/--
After a mistake, reading goes on where the rest completes the program from inside
the blocks that are open there.

These are the same blocks if no brace stands at the mistake.
-/
theorem resume (completes : Completes depth room tokens) :
    ∃ skipped rest, tokens = skipped ++ rest ∧ Parse.resume tokens = some rest ∧
      CompletesBehind depth room skipped rest ∧
      ((∀ token ∈ tokens.head?, token.kind ≠ .leftBrace ∧ token.kind ≠ .rightBrace) →
        Completes depth room rest) := by
  cases completes with
  | ended isEnd =>
    refine ⟨[], _, rfl, ?_, .nil (.ended isEnd), fun _ => .ended isEnd⟩
    rw [Parse.resume, if_pos isEnd]
  | @sentence _ _ used rest semicolon sentence closes completes =>
    exact ⟨used ++ [semicolon], rest, by simp, sentence.resume closes completes.isEnded,
      .sentence sentence closes completes, fun _ => completes⟩
  | @opened _ _ brace _ opens completes =>
    -- The brace itself is skipped in any case.
    obtain ⟨skipped, rest, rfl, further, behind⟩ := completes.skipFrom brace.kind
    refine ⟨brace :: skipped, rest, rfl, ?_, behind.opened opens, fun unbraced =>
      absurd opens (unbraced brace rfl).1⟩
    rw [Parse.resume, if_neg (by simp [opens]), further]
  | @closed _ _ brace _ closes completes =>
    obtain ⟨skipped, rest, rfl, further, behind⟩ := completes.skipFrom brace.kind
    refine ⟨brace :: skipped, rest, rfl, ?_, behind.closed closes, fun unbraced =>
      absurd closes (unbraced brace rfl).2⟩
    rw [Parse.resume, if_neg (by simp [closes]), further]

/-- What completes a program does not go on with an expression before it, unless by a minus sign. -/
theorem opens (completes : Completes depth room tokens) :
    ∃ next later, tokens = next :: later ∧ next.kind ≠ .semicolon ∧ next.kind ≠ .equal ∧
      (Rule.assignment.goesOn next.kind = true → next.kind = .minus) := by
  cases completes with
  | ended kind | opened kind | closed kind =>
    exact ⟨_, _, rfl, by simp [kind], by simp [kind], by rw [kind]; decide⟩
  | sentence sentence =>
    obtain ⟨first, more, rfl, opens, _⟩ := sentence.opens
    refine ⟨first, _, rfl, ?_⟩
    revert opens
    cases first.kind <;> decide

/-- A semicolon stands behind a statement, up to which everything is read without a report. -/
theorem locate {before after : List Token} {semicolon : Token}
    (closes : semicolon.kind = .semicolon) (endless : Without .eof before)
    (completes : Completes depth room (before ++ semicolon :: after)) :
    ∃ front used inner left, before = front ++ used ∧ Sentence left used ∧
      Completes inner (left + 1) after ∧
      ∀ others, Ended others →
        (outward depth room (front ++ others)).reports =
          (outward inner (left + 1) others).reports := by
  -- The derivation is followed until the statement that the semicolon ends is reached.
  generalize whole : before ++ semicolon :: after = tokens at completes
  induction completes generalizing before with
  | ended isEnd =>
    obtain ⟨more, rfl, _⟩ := exists_cons_of_append_eq whole (by simp [closes, isEnd])
    exact absurd isEnd (endless _ (by simp))
  | @sentence depth room used rest last sentence isSemicolon completes ih =>
    have unfinished : Without .semicolon used := sentence.without rfl rfl
    rcases List.append_eq_append_iff.mp whole with ⟨more, rfl, later⟩ | ⟨more, rfl, later⟩
    · -- The semicolon is not in the statement, so it is the one behind it.
      cases more with
      -- The statement ends earlier, so the semicolon is found behind it.
      | cons first others =>
        cases later
        exact absurd closes (unfinished semicolon (by simp))
      | nil =>
        cases later
        refine ⟨[], before, depth, room, rfl, ?_, completes, fun _ _ => rfl⟩
        rwa [List.append_nil] at sentence
    · cases more with
      | nil =>
        cases later
        exact ⟨[], used, depth, room, by simp, sentence, completes, fun _ _ => rfl⟩
      | cons first others =>
        rw [List.cons_append, List.cons.injEq] at later
        obtain ⟨rfl, rfl⟩ := later
        have endlessToo : Without .eof others :=
          endless.of_suffix ((List.suffix_cons last others).trans (List.suffix_append used _))
        obtain ⟨front, found, inner, left, rfl, foundSentence, still, same⟩ := ih endlessToo rfl
        refine ⟨used ++ last :: front, found, inner,
          left, by simp, foundSentence, still, fun others ended => ?_⟩
        rw [List.append_assoc, List.cons_append,
          sentence.reports_outward isSemicolon (ended.append front), same others ended]
  | @opened depth room brace rest opens completes ih =>
    obtain ⟨more, rfl, further⟩ := exists_cons_of_append_eq whole (by simp [closes, opens])
    obtain ⟨front, used, inner, left, rfl, sentence, still, same⟩ :=
      ih (endless.of_suffix (List.suffix_cons ..)) further
    refine ⟨brace :: front, used, inner, left, rfl, sentence, still, fun others ended => ?_⟩
    rw [List.cons_append, Parse.reports_outward_opening opens (ended.append front),
      same others ended]
  | @closed depth room brace rest isBrace completes ih =>
    obtain ⟨more, rfl, further⟩ := exists_cons_of_append_eq whole (by simp [closes, isBrace])
    obtain ⟨front, used, inner, left, rfl, sentence, still, same⟩ :=
      ih (endless.of_suffix (List.suffix_cons ..)) further
    refine ⟨brace :: front, used, inner, left, rfl, sentence, still, fun others ended => ?_⟩
    rw [List.cons_append, Parse.outward_closing isBrace, same others ended]

end Completes

/-- What stands before an expression leads to it. -/
theorem Lead.declarationOver {lead ts : List Token} {fault : Fault} {make : Expr → Stmt} {e : Expr}
    (leads : Lead lead fault make) (derived : Derives .assignment ts e) (room : Nat)
    (item : Parse (Option Stmt)) (later : List Token) :
    Parse.declarationOver room item (lead ++ ts ++ later) =
      (Parse.assignment room >>= fun e => Parse.expect .semicolon fault >>= fun _ => pure (make e))
        (ts ++ later) := by
  cases leads with
  | expression =>
    -- No word and no brace opens an expression, so the other statements are passed over.
    obtain ⟨token, more, rfl, opens⟩ := derived.opens
    have unlike (kind : Kind) (other : opensExpression kind = false) : ¬token.kind = kind := by
      rintro rfl
      simp [other] at opens
    rw [List.nil_append, List.cons_append, Parse.declarationOver_cons, if_neg (unlike _ rfl),
      if_neg (unlike _ rfl), if_neg (unlike _ rfl)]
    rfl
  | print isWord =>
    rw [List.cons_append, List.nil_append, List.cons_append, Parse.declarationOver_cons,
      if_neg (by simp [isWord]), if_pos isWord]
    rfl
  | @declare word name equals isWord isName isEquals =>
    have named : (Parse.expect .identifier .missingVariableName).Reads
        (name :: equals :: (ts ++ later)) name
        (equals :: (ts ++ later)) := Parse.reads_expect_iff.mpr ⟨rfl, isName⟩
    have valued : (Parse.accept? (· == .equal)).Reads (equals :: (ts ++ later)) (some equals)
        (ts ++ later) :=
      Parse.reads_accept?_iff.mpr ⟨equals, _, rfl, by simp [isEquals]⟩
    simp only [List.cons_append, List.nil_append]
    rw [Parse.declarationOver_cons, if_pos isWord, Parse.variableDeclaration, named.bind_eq,
      valued.bind_eq]

/-- What declares a variable without a value is refused at the token in the place of
its semicolon. -/
theorem refused_bare {word name next : Token} (isWord : word.kind = .kwVar)
    (isName : name.kind = .identifier) (other : next.kind ≠ .semicolon)
    (unequal : next.kind ≠ .equal) (room : Nat) (item : Parse (Option Stmt)) (later : List Token) :
    Parse.declarationOver room item ([word, name] ++ next :: later) =
      { result := .error .refused, rest := next :: later,
        reports := [.atToken next .unfinishedDeclaration] } := by
  -- The name is read, no equals sign follows, and the semicolon is missed.
  have named : (Parse.expect .identifier .missingVariableName).Reads (name :: next :: later) name
      (next :: later) :=
    Parse.reads_expect_iff.mpr ⟨rfl, isName⟩
  have unvalued : (Parse.accept? (· == .equal)).Reads (next :: later) none (next :: later) :=
    Parse.reads_accept?_iff.mpr ⟨next, later, rfl, by simp [unequal]⟩
  have refused : Parse.expect .semicolon .unfinishedDeclaration (next :: later) =
      { result := .error .refused, rest := next :: later,
        reports := [.atToken next .unfinishedDeclaration] } := by
    rw [Parse.expect_cons, if_neg other]
  simp only [List.cons_append, List.nil_append]
  rw [Parse.declarationOver_cons, if_pos isWord, Parse.variableDeclaration, named.bind_eq,
    unvalued.bind_eq]
  exact Parse.bind_eq_of_error refused _

/-- A statement is refused at the token in the place of its semicolon, if that does not go
on with its expression. -/
theorem Lead.refused {lead ts : List Token} {fault : Fault} {make : Expr → Stmt} {e : Expr}
    (leads : Lead lead fault make) (derived : Derives .assignment ts e) {room : Nat}
    (bounded : e.nesting + 2 ≤ room) {next : Token} (other : next.kind ≠ .semicolon)
    (stops : Rule.assignment.goesOn next.kind = false) (item : Parse (Option Stmt))
    (later : List Token) :
    Parse.declarationOver room item (lead ++ ts ++ next :: later) =
      { result := .error .refused, rest := next :: later, reports := [.atToken next fault] } := by
  have read : (Parse.assignment room).Reads (ts ++ next :: later) e (next :: later) :=
    (covers_assignment_and_prefixed room).1 ts e next later derived bounded stops
  have refused : Parse.expect .semicolon fault (next :: later) =
      { result := .error .refused, rest := next :: later, reports := [.atToken next fault] } := by
    rw [Parse.expect_cons, if_neg other]
  rw [leads.declarationOver derived, read.bind_eq]
  exact Parse.bind_eq_of_error refused _

/-- A statement is read up to its semicolon however deep it nests; if there is no room for
it, that is reported once. -/
theorem Lead.finished {lead ts rest : List Token} {fault : Fault} {make : Expr → Stmt} {e : Expr}
    (leads : Lead lead fault make) (derived : Derives .assignment ts e) {semicolon : Token}
    (closes : semicolon.kind = .semicolon) (ended : Ended rest) (room : Nat) :
    ∃ found reports, Parse.declaration (room + 1) (lead ++ ts ++ semicolon :: rest) =
      { result := .ok found, rest, reports } ∧
      reports.length ≤ 1 := by
  rcases Parse.assignment_of_derived derived room closes rest with read | ⟨left, suffix, stopped⟩
  · have finished : Parse.declarationOver room (Parse.declaration room)
        (lead ++ ts ++ semicolon :: rest) =
        { result := .ok (make e), rest, reports := [] } := by
      rw [leads.declarationOver derived, read.bind_eq]
      exact Parse.reads_bind_iff.mpr ⟨semicolon, rest, Parse.reads_expect_iff.mpr ⟨rfl, closes⟩,
        Parse.reads_pure_iff.mpr ⟨rfl, rfl⟩⟩
    refine ⟨some (make e), [], ?_, by simp⟩
    simp only [Parse.declaration, Parse.recovering, finished]
  · -- Reading stops somewhere in the expression, and goes on right behind the semicolon.
    have stopped : Parse.declarationOver room (Parse.declaration room)
        (lead ++ ts ++ semicolon :: rest) =
        { result := .error .nestedTooDeeply, rest := left ++ semicolon :: rest,
          reports := [] } := by
      rw [leads.declarationOver derived, Parse.bind_eq_of_error stopped]
    have unstarted : ∀ token ∈ left.tail, token.kind.startsStatement = false := fun token member =>
      startsStatement_eq_false
        (derived.inExpression token (suffix.subset (List.mem_of_mem_tail member)))
    obtain ⟨next, tail, rfl⟩ := ended.exists_cons
    have resumed := Parse.resume_behind closes ((derived.without rfl).of_suffix suffix)
      ((derived.without rfl).of_suffix suffix) unstarted next tail
    obtain ⟨reached, more, same⟩ : ∃ reached more, left ++ semicolon :: next :: tail =
        reached :: more :=
      List.exists_cons_of_ne_nil (by simp)
    rw [same] at stopped resumed
    refine ⟨none, [.atToken reached .nestedTooDeeply], ?_, by simp⟩
    simp only [Parse.declaration, Parse.recovering, stopped, Parse.recovered, resumed,
      List.nil_append]

/-- A statement that begins with a minus sign is an expression. -/
theorem Sentence.derived {room : Nat} {minus : Token} {vs : List Token}
    (sentence : Sentence room (minus :: vs)) (isMinus : minus.kind = .minus) :
    ∃ e, Derives .assignment (minus :: vs) e := by
  -- No word stands first, so the statement has nothing in front of its expression.
  generalize whole : minus :: vs = used at sentence
  cases sentence with
  | bare isWord =>
    cases whole
    simp [isMinus] at isWord
  | spelled leads derived _ =>
    cases leads with
    | expression => exact ⟨_, derived⟩
    | print isWord | declare isWord =>
      cases whole
      simp [isMinus] at isWord

/-- At a minus sign, a program is completed by an expression first. -/
theorem Completes.derived {depth room : Nat} {minus : Token} {later : List Token}
    (completes : Completes depth room (minus :: later)) (isMinus : minus.kind = .minus) :
    ∃ vs semicolon rest fit e, later = vs ++ semicolon :: rest ∧ Sentence fit (minus :: vs) ∧
      Derives .assignment (minus :: vs) e ∧ semicolon.kind = .semicolon ∧
        Completes depth room rest := by
  generalize whole : minus :: later = tokens at completes
  -- Neither the end nor a brace is a minus sign.
  cases completes with
  | ended kind | opened kind | closed kind =>
    cases whole
    simp [isMinus] at kind
  | sentence sentence closes rest =>
    obtain ⟨first, more, rfl, _⟩ := sentence.opens
    cases whole
    obtain ⟨e, derived⟩ := sentence.derived isMinus
    exact ⟨more, _, _, _, e, rfl, sentence, derived, closes, rest⟩

/--
What is read of a statement without its semicolon, in front of tokens that complete the program.

At most one mistake is reported, and then reading goes on as after a mistake at the first of
those tokens. Nothing is reported only if a minus sign stands there, which makes one statement
of two.
-/
theorem Sentence.unfinished {depth room : Nat} {used after : List Token}
    (sentence : Sentence room used) (completes : Completes depth (room + 1) after) :
    ∃ found rest reports,
      Parse.declaration (room + 1) (used ++ after) = { result := .ok found, rest, reports } ∧
      Parse.resume after = some rest ∧ reports.length ≤ 1 ∧
        (reports = [] → Completes depth (room + 1) rest) := by
  obtain ⟨next, later, rfl, other, unequal, goesOn⟩ := completes.opens
  have refuse {fault : Fault}
      (refused : Parse.declarationOver room (Parse.declaration room) (used ++ next :: later) =
      { result := .error .refused, rest := next :: later, reports := [.atToken next fault] }) :
      ∃ found rest reports,
        Parse.declaration (room + 1) (used ++ next :: later) =
          { result := .ok found, rest, reports } ∧
        Parse.resume (next :: later) = some rest ∧ reports.length ≤ 1 ∧
        (reports = [] → Completes depth (room + 1) rest) := by
    obtain ⟨_, rest, _, resumed, _⟩ := completes.resume
    refine ⟨none, rest, [.atToken next fault], ?_, resumed, by simp, by simp⟩
    simp [Parse.declaration, Parse.recovering, refused, Parse.recovered, resumed]
  cases sentence with
  | bare isWord isName => exact refuse (refused_bare isWord isName other unequal room _ later)
  | @spelled lead ts fault make e leads derived bounded =>
    cases stops : Rule.assignment.goesOn next.kind with
    | false => exact refuse (leads.refused derived bounded other stops _ later)
    | true =>
      -- The expression goes on at the minus sign, and takes the next statement into itself.
      have isMinus := goesOn stops
      obtain ⟨vs, semicolon, rest, _, other, rfl, following, followingDerived, closes, still⟩ :=
        completes.derived isMinus
      obtain ⟨whole, joined⟩ := joins_assignment next ts vs e other isMinus derived followingDerived
      obtain ⟨found, reports, read, once⟩ := leads.finished joined closes still.isEnded room
      refine ⟨found, rest, reports, ?_, following.resume closes still.isEnded, once, fun _ => still⟩
      rw [← read]
      simp

/-- Where a semicolon is missing, at most one mistake is reported exactly if as many braces open as
close in what is skipped. -/
theorem Sentence.reports_unfinished {depth room : Nat} {used after : List Token}
    (sentence : Sentence room used) (completes : Completes depth (room + 1) after) :
    ∃ skipped rest, after = skipped ++ rest ∧ Parse.resume after = some rest ∧
      ((outward depth (room + 1) (used ++ after)).reports.length ≤ 1 ↔
        count .leftBrace skipped = count .rightBrace skipped) ∧
      ((∀ token ∈ after.head?, token.kind ≠ .leftBrace ∧ token.kind ≠ .rightBrace) →
        (outward depth (room + 1) (used ++ after)).reports.length ≤ 1) := by
  obtain ⟨skipped, rest, same, resumed, ⟨inner, left, behind, sum, counted⟩, unbraced⟩ :=
    completes.resume
  obtain ⟨found, _, reports, read, alsoResumed, once, silent⟩ := sentence.unfinished completes
  cases resumed.symm.trans alsoResumed
  have told : (outward depth (room + 1) (used ++ after)).reports =
      reports ++ (outward depth (room + 1) rest).reports := by
    obtain ⟨token, more, rfl, opens, _⟩ := sentence.opens
    have suffix : rest <:+ more ++ after :=
      (Parse.suffix_of_resume resumed).trans (List.suffix_append ..)
    exact Parse.reports_outward_cons (closer_of_opensSentence opens) read suffix behind.isEnded
  rw [told, List.length_append]
  refine ⟨skipped, rest, same, resumed, ⟨?_, ?_⟩, ?_⟩
  · intro few
    by_cases quiet : (outward depth (room + 1) rest).reports = []
    · -- The rest is read without a report, so the blocks around it are those it was read in.
      have unique := (completes_of_quiet behind.isEnded (by omega) quiet).depth_unique behind
      omega
    · -- Otherwise the statement itself is not reported, and its neighbour is taken into it.
      have positive := List.length_pos_iff.mpr quiet
      have unreported : reports = [] := List.length_eq_zero_iff.mp (by omega)
      exact absurd (silent unreported).quiet quiet
  · intro balanced
    obtain rfl : inner = depth := by omega
    obtain rfl : left = room + 1 := by omega
    rw [behind.quiet]
    exact once
  · intro plain
    rw [(unbraced plain).quiet]
    exact once

end LoxLang.Grammar

namespace LoxLang

open Grammar (count)

/--
A semicolon is taken out of a token list that is read without a diagnostic.

What is left is read to a program. Behind an end token, the semicolon does not matter. Elsewhere
at most one diagnostic is reported exactly if recovery, from the token behind the semicolon on,
skips as many braces that open blocks as braces that close them; and so wherever no brace stands
behind the semicolon.
-/
theorem parseTokens_without_a_semicolon [Host] {before after : List Token} {semicolon : Token}
    (closes : semicolon.kind = .semicolon) (ended : Grammar.Ended (before ++ semicolon :: after))
    (quiet : (parseTokens (before ++ semicolon :: after)).reports = []) :
    (∃ program, (parseTokens (before ++ after)).result = .ok program) ∧
    (¬Without .eof before → (parseTokens (before ++ after)).reports = []) ∧
    (Without .eof before → ∃ skipped rest, after = skipped ++ rest ∧
      Parse.resume after = some rest ∧
      ((parseTokens (before ++ after)).reports.length ≤ 1 ↔
        count .leftBrace skipped = count .rightBrace skipped) ∧
      ((∀ token ∈ after.head?, token.kind ≠ .leftBrace ∧ token.kind ≠ .rightBrace) →
        (parseTokens (before ++ after)).reports.length ≤ 1)) := by
  refine ⟨?_, ?_, ?_⟩
  · -- The end token is still there.
    obtain ⟨last, member, isLast⟩ := ended
    have still : last ∈ before ++ after := by
      rcases List.mem_append.mp member with early | late
      · exact List.mem_append_left _ early
      · rcases List.mem_cons.mp late with rfl | late
        · simp [closes] at isLast
        · exact List.mem_append_right _ late
    obtain ⟨front, last, tail, same, closed, free⟩ := cut_at_first ⟨last, still, isLast⟩
    obtain ⟨program, reports, read⟩ := parseTokens_at_end free closed
    exact ⟨program, by rw [same, read]⟩
  -- Reading stops before the semicolon is reached.
  · intro holdsEnd
    obtain ⟨last, member, isLast⟩ : ∃ last ∈ before, last.kind = .eof := by
      simpa [Without] using holdsEnd
    obtain ⟨front, last, tail, rfl, closed, free⟩ := cut_at_first ⟨last, member, isLast⟩
    obtain ⟨program, reports, read⟩ := parseTokens_at_end free closed
    rw [List.append_assoc, List.cons_append, read] at quiet ⊢
    exact quiet
  · intro endless
    -- The statement that the semicolon ended is found, and is now unfinished.
    have completes : Grammar.Completes 0 nestingLimit (before ++ semicolon :: after) :=
      Grammar.completes_of_quiet ended (by have := nestingLimit_pos; omega) quiet
    obtain ⟨front, used, inner, left, rfl, sentence, still, same⟩ := completes.locate closes endless
    have told : (parseTokens (front ++ used ++ after)).reports =
        (Parse.outward inner (left + 1) (used ++ after)).reports := by
      rw [List.append_assoc]
      exact same (used ++ after) (still.isEnded.append used)
    rw [told]
    exact sentence.reports_unfinished still

/-- A block that prints nil, up to the semicolon of its statement. -/
def unfinishedBlock : List Token :=
  [{ kind := .leftBrace, lexeme := "\x7b" }, { kind := .kwPrint, lexeme := "print" },
    { kind := .kwNil, lexeme := "nil" }]

/-- The brace that closes the block, and the end. -/
def blockEnd : List Token :=
  [{ kind := .rightBrace, lexeme := "\x7d" }, { kind := .eof, lexeme := "" }]

set_option maxRecDepth 20000 in
/-- A semicolon that is missing before a brace is reported twice: recovery skips the brace,
and the block is not closed. -/
theorem parseTokens_without_a_semicolon_before_brace :
    (parseTokens
        (unfinishedBlock ++ { kind := .semicolon, lexeme := ";" } :: blockEnd)).reports = [] ∧
      (parseTokens (unfinishedBlock ++ blockEnd)).reports =
        [.atToken { kind := .rightBrace, lexeme := "\x7d" } .unfinishedPrint,
          .atToken { kind := .eof, lexeme := "" } .unclosedBlock] ∧
      ¬(parseTokens (unfinishedBlock ++ blockEnd)).reports.length ≤ 1 := by
  have quiet : (parseTokens
      (unfinishedBlock ++ { kind := .semicolon, lexeme := ";" } :: blockEnd)).reports = [] := rfl
  have ended :
      Grammar.Ended (unfinishedBlock ++ { kind := .semicolon, lexeme := ";" } :: blockEnd) :=
    ⟨{ kind := .eof, lexeme := "" }, by simp [blockEnd], rfl⟩
  obtain ⟨_, _, reported⟩ := parseTokens_without_a_semicolon rfl ended quiet
  obtain ⟨skipped, rest, same, resumed, once, _⟩ := reported (by decide)
  refine ⟨quiet, rfl, fun few => ?_⟩
  -- Recovery stops at the end token only, so the brace is all that is skipped.
  cases Option.some.inj
    (resumed.symm.trans (rfl : Parse.resume blockEnd = some [{ kind := .eof, lexeme := "" }]))
  obtain rfl : [{ kind := .rightBrace, lexeme := "\x7d" }] = skipped :=
    List.append_cancel_right same
  exact absurd (once.mp few) (by decide)

end LoxLang
