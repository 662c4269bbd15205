import LoxLang.Proofs.Grammar.Completeness
import LoxLang.Proofs.Grammar.Places

/-!
Recovery: a statement with a mistake is left behind at its semicolon, and what stands
around it is read as ever.
-/

namespace LoxLang

/--
Tokens that are no declaration, and the semicolon behind them.

They hold no semicolon of their own, do not open with a brace, and no word among
them begins another statement.
-/
structure Mistake (tokens : List Token) (semicolon : Token) : Prop where
  unfinished : Without .semicolon tokens
  endless : Without .eof tokens
  unbraced : ∀ token ∈ tokens.head?, token.kind ≠ .leftBrace ∧ token.kind ≠ .rightBrace
  unstarted : ∀ token ∈ tokens.tail, token.kind.startsStatement = false
  closes : semicolon.kind = .semicolon
  underived : ∀ stmt, ¬Grammar.Declaration (tokens ++ [semicolon]) stmt

/-- What comes of reading up to a semicolon: everything is taken, or the step stops
before it with a cause. -/
def Parsed.UpTo {α : Type} (tokens : List Token) (last : Token) (seen : Parsed α) : Prop :=
  seen.IsOrderly ∧
    ((∃ value, seen.result = .ok value) ∧ seen.rest = [] ∨
      (∃ cause, seen.result = .error cause) ∧ ∃ left, left <:+ tokens ∧ seen.rest = left ++ [last])

/-- What stops in the end of a list stops in the whole of it. -/
theorem Parsed.UpTo.of_suffix {α : Type} {later tokens : List Token} {last : Token}
    {seen : Parsed α} (reached : seen.UpTo later last) (suffix : later <:+ tokens) :
    seen.UpTo tokens last := by
  refine ⟨reached.1, reached.2.imp id ?_⟩
  rintro ⟨stopped, left, inside, same⟩
  exact ⟨stopped, left, inside.trans suffix, same⟩

namespace Parse

variable {α β : Type}

/-- A step that takes the first semicolon last; what stands behind it does not
matter to the step. -/
def Finishes (step : Parse α) : Prop :=
  ∀ tokens last, Without .semicolon tokens → last.kind = .semicolon →
    ∃ seen : Parsed α, seen.UpTo tokens last ∧
      ∀ tail, step (tokens ++ last :: tail) = { seen with rest := seen.rest ++ tail }

namespace Finishes

/-- A step that finishes does so behind one that stays before the semicolon. -/
theorem bind {step : Parse α} {next : α → Parse β} (first : StaysBefore .semicolon step)
    (second : ∀ value, Finishes (next value)) : Finishes (step >>= next) := by
  intro tokens last free closed
  obtain ⟨seen, orderly, suffix, taken⟩ := first tokens last free closed
  rcases seen with ⟨result, left, reports⟩
  have suffix : left <:+ tokens := suffix
  cases result with
  | error cause =>
    -- The second step is not reached, so the semicolon is still there.
    refine ⟨{ result := .error cause, rest := left ++ [last], reports },
      ⟨by simpa [Parsed.IsOrderly] using orderly, .inr ⟨⟨cause, rfl⟩, left, suffix, rfl⟩⟩,
        fun tail => ?_⟩
    rw [bind_eq_of_error (taken tail), List.append_assoc, List.singleton_append]
  | ok value =>
    obtain ⟨seen', reached, taken'⟩ := second value left last (free.of_suffix suffix) closed
    have reached := reached.of_suffix suffix
    refine ⟨{ seen' with reports := reports ++ seen'.reports },
      ⟨⟨reached.1.1, reached.1.2.1, fun refused => ?_⟩, reached.2⟩,
      fun tail => ?_⟩
    · simp [reached.1.2.2 refused]
    · rw [bind_eq_of_ok (taken tail), taken']

/-- What is made of a result takes no token. -/
theorem andReturn {step : Parse α} (finishes : Finishes step) (result : α → β) :
    Finishes (step >>= fun value => Pure.pure (result value)) := by
  intro tokens last free closed
  obtain ⟨seen, ⟨orderly, ends⟩, taken⟩ := finishes tokens last free closed
  rcases seen with ⟨outcome, rest, reports⟩
  -- A failure is passed on as it is; a result was reached with all tokens taken.
  cases outcome with
  | error cause =>
    have stopped : ∃ left, left <:+ tokens ∧ rest = left ++ [last] := by simpa using ends
    exact ⟨{ result := .error cause, rest, reports },
      ⟨by simpa [Parsed.IsOrderly] using orderly, .inr ⟨⟨cause, rfl⟩, stopped⟩⟩,
      fun tail => bind_eq_of_error (taken tail) _⟩
  | ok value =>
    have all : rest = [] := by simpa using ends
    refine ⟨{ result := .ok (result value), rest, reports },
      ⟨by simp [Parsed.IsOrderly], .inl ⟨⟨_, rfl⟩, all⟩⟩,
      fun tail => ?_⟩
    rw [bind_eq_of_ok (taken tail)]
    simp [Pure.pure, Parse.pure]

/-- An expected semicolon is taken if it stands first, and otherwise the token
before it is refused. -/
theorem expect (fault : Fault) : Finishes (Parse.expect .semicolon fault) := by
  intro tokens last free closed
  -- No semicolon stands among the tokens, so it is found only if there are none.
  cases tokens with
  | nil =>
    refine ⟨{ result := .ok last, rest := [], reports := [] },
      ⟨by simp [Parsed.IsOrderly], .inl ⟨⟨_, rfl⟩, rfl⟩⟩,
      fun tail => ?_⟩
    rw [List.nil_append, expect_cons, if_pos closed]
    rfl
  | cons token later =>
    have other : token.kind ≠ .semicolon := free token (by simp)
    refine
      ⟨{ result := .error .refused, rest := token :: later ++ [last]
         reports := [.atToken token fault] },
        ⟨by simp [Parsed.IsOrderly], .inr ⟨⟨_, rfl⟩, token :: later, List.suffix_rfl, rfl⟩⟩,
        fun tail => ?_⟩
    rw [List.cons_append, expect_cons, if_neg other]
    simp

/-- An expression and the semicolon behind it finish there. -/
theorem finished (next : Expr → Stmt) (room : Nat) (fault : Fault) :
    Finishes (assignment room >>= fun e => Parse.expect .semicolon fault >>= fun _ =>
      Pure.pure (next e)) :=
  bind (StaysBefore.assignment rfl room) fun _ => (expect fault).andReturn _

/-- What follows the word that declares a variable finishes at the semicolon. -/
theorem variableDeclaration (room : Nat) : Finishes (Parse.variableDeclaration room) := by
  refine bind (StaysBefore.expect (by decide) _) fun name =>
    bind (StaysBefore.accept? rfl) fun found => ?_
  cases found with
  | none => exact (expect _).andReturn _
  | some equals => exact finished _ _ _

end Finishes

/-- A mistake is read up to its semicolon, whatever follows and whatever blocks would hold; its
reports name its tokens. -/
theorem declarationOver_of_mistake {tokens : List Token} {semicolon : Token}
    (mistake : Mistake tokens semicolon) (room : Nat) :
    ∃ seen : Parsed Stmt, seen.UpTo tokens semicolon ∧
      (∀ diagnostic ∈ seen.reports, diagnostic.IsAt (tokens ++ [semicolon])) ∧
      ∀ item tail, declarationOver room item (tokens ++ semicolon :: tail) =
        { seen with rest := seen.rest ++ tail } := by
  -- Whichever statement it is taken for, reading it finishes at the semicolon.
  have read {step : Parse Stmt} (finishes : Finishes step)
      (keeps : KeepsTo (tokens ++ [semicolon]) (fun _ => True) step) {later : List Token}
        (suffix : later <:+ tokens) :
      ∃ seen : Parsed Stmt, seen.UpTo tokens semicolon ∧
        (∀ diagnostic ∈ seen.reports, diagnostic.IsAt (tokens ++ [semicolon])) ∧
        ∀ tail, step (later ++ semicolon :: tail) = { seen with rest := seen.rest ++ tail } := by
    obtain ⟨seen, reached, taken⟩ :=
      finishes later semicolon (mistake.unfinished.of_suffix suffix) mistake.closes
    have given : later ++ [semicolon] ⊆ tokens ++ [semicolon] :=
      (suffix.sublist.append_right _).subset
    have named := (keeps (later ++ [semicolon]) given).2.1
    rw [taken []] at named
    exact ⟨seen, reached.of_suffix suffix, named, taken⟩
  -- The first token decides for which statement it is taken.
  cases tokens with
  | nil =>
    obtain ⟨seen, reached, named, taken⟩ :=
      read (Finishes.finished .expression room .unfinishedExpression)
        (KeepsTo.finished _ _ _) List.suffix_rfl
    refine ⟨seen, reached, named, fun item tail => ?_⟩
    rw [List.nil_append, declarationOver_cons, mistake.closes]
    exact taken tail
  | cons token later =>
    have unbraced : token.kind ≠ .leftBrace := (mistake.unbraced token rfl).1
    by_cases declares : token.kind = .kwVar
    · obtain ⟨seen, reached, named, taken⟩ :=
        read (Finishes.variableDeclaration room) (KeepsTo.variableDeclaration room)
          (List.suffix_cons token later)
      refine ⟨seen, reached, named, fun item tail => ?_⟩
      rw [List.cons_append, declarationOver_cons, if_pos declares]
      exact taken tail
    · by_cases prints : token.kind = .kwPrint
      · obtain ⟨seen, reached, named, taken⟩ :=
          read (Finishes.finished .print room .unfinishedPrint)
            (KeepsTo.finished _ _ _) (List.suffix_cons token later)
        refine ⟨seen, reached, named, fun item tail => ?_⟩
        rw [List.cons_append, declarationOver_cons, if_neg declares, if_pos prints]
        exact taken tail
      · obtain ⟨seen, reached, named, taken⟩ :=
          read (Finishes.finished .expression room .unfinishedExpression)
            (KeepsTo.finished _ _ _) List.suffix_rfl
        refine ⟨seen, reached, named, fun item tail => ?_⟩
        rw [List.cons_append, declarationOver_cons, if_neg declares, if_neg prints, if_neg unbraced]
        exact taken tail

/-- Skipping goes on up to a semicolon, and ends right behind it. -/
theorem skipFrom_behind {semicolon : Token} (closes : semicolon.kind = .semicolon)
    {left : List Token} (unfinished : Without .semicolon left) (endless : Without .eof left)
    (unstarted : ∀ token ∈ left, token.kind.startsStatement = false) {previous : Kind}
    (open_ : previous ≠ .semicolon) (next : Token) (tail : List Token) :
    skipFrom previous (left ++ semicolon :: next :: tail) = some (next :: tail) := by
  -- No token before the semicolon is one that skipping would stop at.
  induction left generalizing previous with
  | nil => simp [skipFrom, closes, open_, Kind.startsStatement]
  | cons token later ih =>
    have stays :
        ¬(token.kind = .eof ∨ previous = .semicolon ∨ token.kind.startsStatement = true) := by
      simp [endless token (by simp), open_, unstarted token (by simp)]
    rw [List.cons_append, skipFrom, if_neg stays]
    exact ih (unfinished.of_suffix (List.suffix_cons ..)) (endless.of_suffix (List.suffix_cons ..))
      (fun t member => unstarted t (by simp [member])) (unfinished token (by simp))

/-- Tokens of which only the first may begin a statement are left behind at the
semicolon that follows them. -/
theorem resume_behind {semicolon : Token} (closes : semicolon.kind = .semicolon) {left : List Token}
    (unfinished : Without .semicolon left) (endless : Without .eof left)
    (unstarted : ∀ token ∈ left.tail, token.kind.startsStatement = false) (next : Token)
    (tail : List Token) :
    resume (left ++ semicolon :: next :: tail) = some (next :: tail) := by
  cases left with
  | nil => simp [resume, closes, skipFrom]
  | cons token later =>
    rw [List.cons_append, resume, if_neg (endless token (by simp))]
    exact skipFrom_behind closes (unfinished.of_suffix (List.suffix_cons ..))
      (endless.of_suffix (List.suffix_cons ..)) unstarted (unfinished token (by simp)) next tail

/-- Wherever a mistake is found, reading goes on right behind its semicolon. -/
theorem resume_of_mistake {tokens left : List Token} {semicolon : Token}
    (mistake : Mistake tokens semicolon) (suffix : left <:+ tokens) (next : Token)
    (tail : List Token) :
    resume (left ++ semicolon :: next :: tail) = some (next :: tail) := by
  refine resume_behind mistake.closes (mistake.unfinished.of_suffix suffix)
    (mistake.endless.of_suffix suffix) ?_ next tail
  -- Only the first token of all may begin a statement, and here that is taken or
  -- stands further ahead.
  intro token member
  apply mistake.unstarted
  obtain ⟨front, rfl⟩ := suffix
  cases front with
  | nil => exact member
  | cons first others => exact List.mem_append_right _ (List.mem_of_mem_tail member)

/-- A quiet reading of a mistake would be a derivation of it. -/
theorem reports_ne_nil_of_mistake {tokens : List Token} {semicolon : Token} {room : Nat}
    {stmt : Stmt} {reports : List Diagnostic} (mistake : Mistake tokens semicolon)
    (read : ∀ item tail, declarationOver room item (tokens ++ semicolon :: tail) =
      { result := .ok stmt, rest := tail, reports }) :
    reports ≠ [] := by
  rintro rfl
  let last : Token := { kind := .eof, lexeme := "" }
  obtain ⟨used, same, derived, _⟩ :=
    Grammar.declarationOver_sound (Proceeds.declaration room).staysBefore
      (Grammar.declares_declaration room) ⟨last, by simp, rfl⟩ (read (declaration room) [last])
  have joined : (tokens ++ [semicolon]) ++ [last] = used ++ [last] := by
    rw [← same]
    simp
  exact mistake.underived stmt (List.append_cancel_right joined ▸ derived)

/-- Whether a declaration goes on right behind a semicolon, with something kept and
reported, whatever follows. -/
def LeavesBehind (room : Nat) (tokens : List Token) (semicolon : Token) (kept : Option Stmt)
    (reports : List Diagnostic) : Prop :=
  ∀ next tail, declaration room (tokens ++ semicolon :: next :: tail) =
    { result := .ok kept, rest := next :: tail, reports }

/-- Where there is room, a mistake is left behind at its semicolon; something is
reported, at its own tokens. -/
theorem leavesBehind_of_mistake {tokens : List Token} {semicolon : Token}
    (mistake : Mistake tokens semicolon) (room : Nat) :
    ∃ kept reports, LeavesBehind (room + 1) tokens semicolon kept reports ∧ reports ≠ [] ∧
      ∀ diagnostic ∈ reports, diagnostic.IsAt (tokens ++ [semicolon]) := by
  obtain ⟨seen, ⟨orderly, ends⟩, named, taken⟩ := declarationOver_of_mistake mistake room
  rcases seen with ⟨result, rest, reports⟩
  match result with
  | .ok stmt =>
    -- All is taken, so the mistake is one that does not stop the parser.
    obtain rfl : rest = [] := by simpa using ends
    refine ⟨some stmt, reports, fun next tail => ?_, reports_ne_nil_of_mistake mistake taken, named⟩
    simp [declaration, recovering, taken]
  | .error .refused =>
    obtain ⟨left, suffix, rfl⟩ : ∃ left, left <:+ tokens ∧ rest = left ++ [semicolon] := by
      simpa using ends
    refine ⟨none, reports, fun next tail => ?_, orderly.2.2 rfl, named⟩
    simp [declaration, recovering, taken, recovered, resume_of_mistake mistake suffix]
  | .error .nestedTooDeeply =>
    -- The limit is reported at the token that was reached, which is the semicolon at the latest.
    obtain ⟨left, suffix, rfl⟩ : ∃ left, left <:+ tokens ∧ rest = left ++ [semicolon] := by
      simpa using ends
    obtain ⟨reached, later, same⟩ : ∃ reached later, left ++ [semicolon] = reached :: later :=
      List.exists_cons_of_ne_nil (by simp)
    have member : reached ∈ tokens ++ [semicolon] :=
      (suffix.sublist.append_right [semicolon]).subset (by simp [same])
    refine ⟨none, reports ++ [.atToken reached .nestedTooDeeply], fun next tail => ?_, by simp, ?_⟩
    · have resumed := resume_of_mistake mistake suffix next tail
      rw [← List.singleton_append, ← List.append_assoc, same, List.cons_append] at resumed
      simp [declaration, recovering, taken, recovered, same, resumed]
    · intro diagnostic reported
      rcases List.mem_append.mp reported with early | late
      · exact named diagnostic early
      · exact ⟨reached, member, _, List.mem_singleton.mp late⟩
  | .error .unended => exact absurd rfl orderly.1
  | .error .outOfRounds => exact absurd rfl orderly.2.1

/-- All declarations up to a token that closes them. -/
def declarations (closing : Kind → Bool) (item : Parse (Option Stmt)) :
    Parse (List Stmt) := fun tokens =>
  declarationsUntil closing item tokens tokens

end Parse

/-- What is read behind given statements, of which something was reported. -/
def Parsed.behind (parsed : Parsed (List Stmt)) (front : List Stmt) (told : List Diagnostic) :
    Parsed (List Stmt) :=
  { result := parsed.result.map (front ++ ·), rest := parsed.rest,
    reports := told ++ parsed.reports }

/-- Behind nothing, there is only what is read. -/
theorem Parsed.behind_nil (parsed : Parsed (List Stmt)) : parsed.behind [] [] = parsed := by
  rcases parsed with ⟨result, rest, reports⟩
  cases result <;> rfl

/-- What is read behind two lists of statements is read behind both together. -/
theorem Parsed.behind_behind (parsed : Parsed (List Stmt)) (near far : List Stmt)
    (toldNear toldFar : List Diagnostic) :
    (parsed.behind near toldNear).behind far toldFar =
      parsed.behind (far ++ near) (toldFar ++ toldNear) := by
  rcases parsed with ⟨result, rest, reports⟩
  cases result <;> simp [behind, Except.map]

namespace Parse

/-- Declarations are read one by one: behind the first, the others are read as if
they stood alone. -/
theorem declarations_cons {closing : Kind → Bool} {item : Parse (Option Stmt)}
    (ends : closing .eof = true)
    {lacking : Prop} (proceeds : Proceeds lacking item) {token : Token} {later rest : List Token}
    {first : Option Stmt} {reports : List Diagnostic} (goesOn : closing token.kind = false)
    (taken : item (token :: later) = { result := .ok first, rest, reports })
    (suffix : rest <:+ later) (ended : Grammar.Ended rest) :
    declarations closing item (token :: later) =
      (declarations closing item rest).behind first.toList reports := by
  obtain ⟨before, last, tail, rfl, closed, free⟩ := cut_at_first ended
  obtain ⟨⟨result, left, told⟩, _, _, read⟩ :=
    declarationsUntil_before_end closing ends proceeds before last free closed
  -- Both clocks are long enough for what is left, the old one and that of the rest alone.
  have shorter := suffix.length_le
  have clocked :=
    read tail later (by simp only [List.length_append, List.length_cons] at shorter; omega)
  have alone := read tail (before ++ last :: tail) (by simp)
  unfold declarations
  rw [declarationsUntil_cons, goesOn, if_neg (by simp), bind_eq_of_ok taken, alone]
  cases result with
  | ok found =>
    rw [bind_eq_of_ok clocked]
    simp [Parsed.behind, Except.map, Pure.pure, Parse.pure]
  | error cause =>
    rw [bind_eq_of_error clocked]
    rfl

section

variable {closing : Kind → Bool}
  (closers : ∀ kind, closing kind = true → Grammar.closesDeclarations kind = true)
  (ends : closing .eof = true) {rest : List Token} (ended : Grammar.Ended rest)

include closers in
/-- What does not close declarations in general does not close these. -/
theorem goesOn_of_closers {kind : Kind} (other : Grammar.closesDeclarations kind = false) :
    closing kind = false := by
  cases closes : closing kind with
  | false => rfl
  | true => simp [closers kind closes] at other

include closers ends ended

/-- Declarations of the grammar are read in front of whatever follows. -/
theorem declarations_append {room : Nat} {used : List Token} {found : List Stmt}
    (derived : Grammar.Declarations used found) (shallow : Stmt.depths found ≤ room) :
    declarations closing (declaration room) (used ++ rest) =
      (declarations closing (declaration room) rest).behind found [] := by
  -- The induction is on the trees, as the derivation has one step for each of them.
  induction found generalizing used with
  | nil =>
    cases derived
    exact (Parsed.behind_nil _).symm
  | cons first others ih =>
    cases derived with
    | @more ts us _ _ firstDerived othersDerived =>
      simp only [Stmt.depths] at shallow
      have read := Grammar.covers_declaration room ts first (us ++ rest) firstDerived (by omega)
      obtain ⟨token, more, rfl, opens⟩ := firstDerived.opens
      rw [Reads, List.cons_append] at read
      have head :=
        declarations_cons ends (Proceeds.declaration room) (goesOn_of_closers closers opens) read
          (List.suffix_append ..) (ended.append us)
      rw [ih othersDerived (by omega), Parsed.behind_behind] at head
      simpa using head

/-- A mistake among declarations is left behind at its semicolon. -/
theorem declarations_of_mistake {tokens : List Token} {semicolon : Token}
    (mistake : Mistake tokens semicolon) {room : Nat} {kept : Option Stmt}
    {reports : List Diagnostic} (left : LeavesBehind room tokens semicolon kept reports) :
    declarations closing (declaration room) (tokens ++ semicolon :: rest) =
      (declarations closing (declaration room) rest).behind kept.toList reports := by
  obtain ⟨next, tail, rfl⟩ := ended.exists_cons
  have read := left next tail
  have proceeds := Proceeds.declaration room
  cases tokens with
  | nil =>
    have goesOn : closing semicolon.kind = false :=
      goesOn_of_closers closers (by rw [mistake.closes]; rfl)
    exact declarations_cons ends proceeds goesOn read List.suffix_rfl ended
  | cons token later =>
    -- Neither a brace nor the end token stands first.
    have other : Grammar.closesDeclarations token.kind = false := by
      have unbraced := (mistake.unbraced token rfl).2
      have endless := mistake.endless token (by simp)
      cases kind : token.kind <;> simp_all [Grammar.closesDeclarations]
    exact declarations_cons ends proceeds (goesOn_of_closers closers other) read
      ((List.suffix_cons semicolon _).trans (List.suffix_append later _)) ended

end

/-- A block around a mistake holds what is kept of it, between the declarations
before it and those behind it. -/
theorem declaration_block_of_mistake {tokens : List Token} {semicolon : Token}
    (mistake : Mistake tokens semicolon) {room : Nat} {kept : Option Stmt}
    {reports : List Diagnostic} (left : LeavesBehind room tokens semicolon kept reports)
    {before after : List Token} {earlier later : List Stmt}
    (derived : Grammar.Declarations before earlier) (shallow : Stmt.depths earlier ≤ room)
    (derivedAfter : Grammar.Declarations after later) (shallowAfter : Stmt.depths later ≤ room)
    {opening closing : Token} (opens : opening.kind = .leftBrace)
    (closes : closing.kind = .rightBrace) {rest : List Token} (ended : Grammar.Ended rest) :
    declaration (room + 1)
      (opening :: (before ++ (tokens ++ semicolon :: (after ++ closing :: rest)))) =
      { result := .ok (some (.block (earlier ++ kept.toList ++ later))), rest, reports } := by
  have closers : ∀ kind, closesBlock kind = true → Grammar.closesDeclarations kind = true := by
    intro kind
    cases kind <;> decide
  have still : Grammar.Ended (after ++ closing :: rest) := (ended.append [closing]).append after
  have stillBefore : Grammar.Ended (tokens ++ semicolon :: (after ++ closing :: rest)) :=
    (still.append [semicolon]).append tokens
  -- The declarations behind the mistake end at the brace, and those before it lead up to it.
  have readAfter : declarations closesBlock (declaration room) (after ++ closing :: rest) =
      { result := .ok later, rest := closing :: rest, reports := [] } :=
    Grammar.declarationsUntil_complete closers (Grammar.covers_declaration room) derivedAfter
      shallowAfter (by rw [closes]; rfl) (Nat.le_refl _)
  have body : declarations closesBlock (declaration room)
      (before ++ (tokens ++ semicolon :: (after ++ closing :: rest))) =
      { result := .ok (earlier ++ kept.toList ++ later), rest := closing :: rest, reports } := by
    rw [declarations_append closers rfl stillBefore derived shallow,
      declarations_of_mistake closers rfl still mistake left, readAfter]
    simp [Parsed.behind, Except.map]
  -- The brace closes the body, and the body is the block.
  have brace : (expect .rightBrace .unclosedBlock).Reads (closing :: rest) closing rest :=
    reads_expect_iff.mpr ⟨rfl, closes⟩
  have held : blockBody (declaration room)
      (before ++ (tokens ++ semicolon :: (after ++ closing :: rest))) =
      { result := .ok (earlier ++ kept.toList ++ later), rest, reports } := by
    show (declarations closesBlock (declaration room) >>= fun body =>
      expect .rightBrace .unclosedBlock >>= fun _ => pure body) _ = _
    rw [bind_eq_of_ok body, brace.bind_eq]
    simp [Pure.pure, Parse.pure]
  show recovering (declarationOver room (declaration room)) _ = _
  have whole : declarationOver room (declaration room)
      (opening :: (before ++ (tokens ++ semicolon :: (after ++ closing :: rest)))) =
      { result := .ok (.block (earlier ++ kept.toList ++ later)), rest, reports } := by
    rw [declarationOver_cons, if_neg (by simp [opens]), if_neg (by simp [opens]), if_pos opens,
      bind_eq_of_ok held]
    simp [Pure.pure, Parse.pure]
  simp [recovering, whole]

end Parse

section

variable [Host]

/-- Whether a token list is read as given statements, with given diagnostics. -/
def ReadAs (tokens : List Token) (program : List Stmt) (reports : List Diagnostic) : Prop :=
  (parseTokens tokens).result = .ok program ∧ (parseTokens tokens).reports = reports

/-- Statements that are read behind others, with an end token at the end, are read
as what they are. -/
theorem ReadAs.of_behind {tokens following : List Token} {last : Token} {front : List Stmt}
    {told : List Diagnostic} (free : Without .eof following) (closed : last.kind = .eof)
    (whole : parseTokens tokens = (parseTokens (following ++ [last])).behind front told) :
    ReadAs tokens (front ++ (parseTokens (following ++ [last])).statements)
      (told ++ (parseTokens (following ++ [last])).reports) := by
  -- With an end token there is always a result, whatever the mistakes are.
  obtain ⟨seen, program, ok, _, taken⟩ := parseTokens_before_end free closed
  rw [ReadAs, whole, taken []]
  simp [Parsed.behind, Parsed.statements, ok, Except.map]

/-- Tokens that are read without a diagnostic are declarations of the grammar. -/
theorem ReadAs.derived {tokens : List Token} {last : Token} {program : List Stmt}
    (free : Without .eof tokens) (closed : last.kind = .eof)
    (read : ReadAs (tokens ++ [last]) program []) :
    Grammar.Declarations tokens program ∧ WithinNestingLimit program := by
  obtain ⟨found, same, derived, within⟩ := Grammar.parseTokens_sound free closed read.2
  have found_eq : found = program := by
    rw [ReadAs, same] at read
    exact Except.ok.inj read.1
  exact found_eq ▸ ⟨derived, within⟩

/--
A statement with a mistake does not damage its neighbours.

What is kept of it is one statement at most, and what is reported of it is reported at its own
tokens. Declarations before it stay what they are, and whatever tokens stand behind it are read
as if they stood alone. Inside a block the same holds of the declarations around it, as long as
they leave room for the block.
-/
theorem parseTokens_around_mistake {mistaken : List Token} {semicolon : Token}
    (mistake : Mistake mistaken semicolon) :
    (∃ (kept : Option Stmt) (reports : List Diagnostic), reports ≠ [] ∧
      (∀ diagnostic ∈ reports, diagnostic.IsAt (mistaken ++ [semicolon])) ∧
      ∀ before after last earlier, Without .eof before → Without .eof after → last.kind = .eof →
        ReadAs (before ++ [last]) earlier [] →
          ReadAs (before ++ mistaken ++ [semicolon] ++ after ++ [last])
            (earlier ++ kept.toList ++ (parseTokens (after ++ [last])).statements)
            (reports ++ (parseTokens (after ++ [last])).reports)) ∧
    ∃ (kept : Option Stmt) (reports : List Diagnostic), reports ≠ [] ∧
      (∀ diagnostic ∈ reports, diagnostic.IsAt (mistaken ++ [semicolon])) ∧
      ∀ before after following opening closing last earlier later,
        Without .eof before → Without .eof after → Without .eof following →
        opening.kind = .leftBrace → closing.kind = .rightBrace → last.kind = .eof →
        ReadAs (before ++ [last]) earlier [] → ReadAs (after ++ [last]) later [] →
        Stmt.depths earlier < nestingLimit → Stmt.depths later < nestingLimit →
          ReadAs ([opening] ++ before ++ mistaken ++ [semicolon] ++ after ++ [closing] ++
            following ++ [last])
            (.block (earlier ++ kept.toList ++ later) ::
              (parseTokens (following ++ [last])).statements)
            (reports ++ (parseTokens (following ++ [last])).reports) := by
  have ended {last : Token} (closed : last.kind = .eof) (tokens : List Token) :
      Grammar.Ended (tokens ++ [last]) :=
    ⟨last, by simp, closed⟩
  -- Both the program and a block of it have room for a statement.
  obtain ⟨inner, limit⟩ : ∃ inner, nestingLimit = inner + 1 + 1 :=
    ⟨nestingLimit - 2, by have := one_lt_nestingLimit; omega⟩
  constructor
  · -- The declarations before the mistake are read first, and then the mistake is left behind.
    obtain ⟨kept, reports, left, reported, named⟩ :=
      Parse.leavesBehind_of_mistake mistake (inner + 1)
    refine ⟨kept, reports, reported, named, ?_⟩
    intro before after last earlier freeBefore freeAfter closed readBefore
    obtain ⟨derived, within⟩ := readBefore.derived freeBefore closed
    have closers : ∀ kind, (kind == .eof) = true → Grammar.closesDeclarations kind = true := by
      intro kind
      cases kind <;> decide
    rw [← limit] at left
    have front :=
      Parse.declarations_append closers rfl (ended closed (mistaken ++ semicolon :: after))
        derived within
    have behind : Parse.declarations (· == .eof) (Parse.declaration nestingLimit)
        (mistaken ++ semicolon :: (after ++ [last])) =
          (parseTokens (after ++ [last])).behind kept.toList reports :=
      Parse.declarations_of_mistake closers rfl (ended closed after) mistake left
    rw [List.append_assoc, List.cons_append, behind, Parsed.behind_behind] at front
    have read := ReadAs.of_behind freeAfter closed front
    simpa using read
  · -- The block is one declaration, and it is read in the room that is left inside it.
    obtain ⟨kept, reports, left, reported, named⟩ := Parse.leavesBehind_of_mistake mistake inner
    refine ⟨kept, reports, reported, named, ?_⟩
    intro before after following opening closing last earlier later freeBefore freeAfter
      freeFollowing opens closes closed readBefore readAfter roomBefore roomAfter
    obtain ⟨derived, _⟩ := readBefore.derived freeBefore closed
    obtain ⟨derivedAfter, _⟩ := readAfter.derived freeAfter closed
    have block :=
      Parse.declaration_block_of_mistake mistake left derived (by omega) derivedAfter
        (by omega) opens closes (ended closed following)
    rw [← limit] at block
    -- What follows the block is read behind it as if it stood alone.
    have suffix : following ++ [last] <:+
        before ++ (mistaken ++ semicolon :: (after ++ closing :: (following ++ [last]))) :=
      ((List.suffix_cons closing _).trans (List.suffix_append after _)).trans
        ((List.suffix_cons semicolon _).trans
          ((List.suffix_append mistaken _).trans (List.suffix_append before _)))
    have goesOn : (opening.kind == .eof) = false := by
      rw [opens]
      rfl
    have front :=
      @Parse.declarations_cons (· == .eof) _ rfl _ (Parse.Proceeds.declaration nestingLimit)
        _ _ _ _ _ goesOn block suffix (ended closed following)
    have read := ReadAs.of_behind freeFollowing closed front
    simpa using read

end

/-- A word that prints nothing is left behind between a declaration and a sum without an
operand, and inside a block. -/
theorem parseTokens_around_lone_print :
    Mistake [{ kind := .kwPrint, lexeme := "print" }] { kind := .semicolon, lexeme := ";" } ∧
    (∃ (kept : Option Stmt) (reports : List Diagnostic), reports ≠ [] ∧
      ReadAs
        ([{ kind := .kwVar, lexeme := "var" }, { kind := .identifier, lexeme := "a" },
            { kind := .semicolon, lexeme := ";" }] ++ [{ kind := .kwPrint, lexeme := "print" }] ++
          [{ kind := .semicolon, lexeme := ";" }] ++ [{ kind := .plus, lexeme := "+" }] ++
            [{ kind := .eof, lexeme := "" }])
        ([.declare (.token { kind := .identifier, lexeme := "a" }) none] ++ kept.toList ++ [])
        (reports ++ [.atToken { kind := .plus, lexeme := "+" } .missingExpression])) ∧
    ∃ (kept : Option Stmt) (reports : List Diagnostic), reports ≠ [] ∧
      ReadAs
        ([{ kind := .leftBrace, lexeme := "\x7b" }] ++
          [{ kind := .kwVar, lexeme := "var" }, { kind := .identifier, lexeme := "a" },
            { kind := .semicolon, lexeme := ";" }] ++ [{ kind := .kwPrint, lexeme := "print" }] ++
          [{ kind := .semicolon, lexeme := ";" }] ++
          [{ kind := .kwNil, lexeme := "nil" }, { kind := .semicolon, lexeme := ";" }] ++
          [{ kind := .rightBrace, lexeme := "\x7d" }] ++ [] ++ [{ kind := .eof, lexeme := "" }])
        [.block ([.declare (.token { kind := .identifier, lexeme := "a" }) none] ++ kept.toList ++
          [.expression (.literal .nil)])] (reports ++ []) := by
  have mistake : Mistake [{ kind := .kwPrint, lexeme := "print" }]
      { kind := .semicolon, lexeme := ";" } := by
    refine ⟨by decide, by decide, by decide, by decide, rfl, fun stmt derived => ?_⟩
    -- Nothing stands between the word and the semicolon, so there is no expression to print.
    rw [List.singleton_append] at derived
    generalize whole : ([_, _] : List Token) = used at derived
    cases derived with
    | declare => simp at whole
    | declareAs isWord | block isWord =>
      rw [List.cons_append] at whole
      cases (List.cons.inj whole).1
      cases isWord
    | print _ inner =>
      obtain ⟨token, more, rfl, _⟩ := inner.opens
      simp at whole
    | expression inner =>
      obtain ⟨token, more, rfl, opens⟩ := inner.opens
      rw [List.cons_append] at whole
      cases (List.cons.inj whole).1
      cases opens
  obtain ⟨⟨kept, reports, reported, _, around⟩, keptInside, reportsInside, reportedInside, _,
      inside⟩ :=
    parseTokens_around_mistake mistake
  refine ⟨mistake, ⟨kept, reports, reported, ?_⟩, keptInside, reportsInside, reportedInside, ?_⟩
  · exact around _ _ _ _ (by decide) (by decide) rfl ⟨rfl, rfl⟩
  · exact inside _ _ _ _ _ _ _ _ (by decide) (by decide) (by decide) rfl rfl rfl ⟨rfl, rfl⟩
      ⟨rfl, rfl⟩ (by decide) (by decide)

/-- A host with room for a variable on its own, but not inside a block. -/
@[reducible] def Host.narrow : Host where
  nestingLimit := 3
  one_lt_nestingLimit := by decide
  canShow _ := true
  canCompare _ _ := true
  undefinedSign _ _ _ := false

/-- A variable and the semicolon behind it. -/
def plainUse : List Token :=
  [{ kind := .identifier, lexeme := "x" }, { kind := .semicolon, lexeme := ";" }]

/--
A declaration that nests as deep as the limit is damaged by the block around it.

Alone it is read without a diagnostic. Before a mistake in a block it is not kept, and the first
diagnostic is at its own token.
-/
theorem block_has_no_room_for_neighbour :
    @ReadAs Host.narrow (plainUse ++ [{ kind := .eof, lexeme := "" }])
        [.expression (.use (.token { kind := .identifier, lexeme := "x" }))] [] ∧
      @ReadAs Host.narrow
        ([{ kind := .leftBrace, lexeme := "\x7b" }] ++ plainUse ++
          [{ kind := .rightParen, lexeme := ")" }] ++
          [{ kind := .semicolon, lexeme := ";" }] ++ [] ++
            [{ kind := .rightBrace, lexeme := "\x7d" }] ++ [] ++
          [{ kind := .eof, lexeme := "" }])
        [.block []]
        [.atToken { kind := .identifier, lexeme := "x" } .nestedTooDeeply,
          .atToken { kind := .rightParen, lexeme := ")" } .nestedTooDeeply] :=
  ⟨⟨rfl, rfl⟩, rfl, rfl⟩

end LoxLang
