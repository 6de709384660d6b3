import ApiDocs.Proofs.Comment.Tag
import ApiDocs.Proofs.Example.Declaration
import Mathlib.Data.List.Infix

/-!
# Which imports of assertions are seen

An example that makes assertions gets an import for them unless it has one.  An import
declaration is seen if the first name that it binds is the one for assertions, alone or for the
whole module, or if it imports from the module for assertions.  A declaration that binds the name
otherwise is not seen, so that the name is bound a second time.

Nothing is added to an example that makes no assertions, or to one that was completed before.
-/

namespace ApiDocs.Example

open Text (isBlank isBlankText isWordChar)

/-! ## Declarations that are seen -/

/--
Whether the first binding of a clause, alone or for a whole module, is the one for assertions.
-/
def Clause.startsWithAssert : Clause → Bool
  | .first binding | .both binding _ _ _ | .others (.whole _ _ binding) =>
    Example.startsWithAssert binding.text
  | .others (.list _ _) => false

/-- Whether a declaration is seen as an import of assertions. -/
def ImportDeclaration.isSeen (declaration : ImportDeclaration) : Bool :=
  declaration.clause.startsWithAssert || declaration.specifier == "assert"

/-! ## How a declaration begins -/

theorem isWordChar_of_isBlank {symbol : Symbol} (blank : isBlank symbol = true) :
    isWordChar symbol = false :=
  (Bool.or_eq_false_iff.mp (Comment.isTagChar_of_isBlank blank)).1

theorem afterBlanks?_append_cons {blanks rest : Text} {symbol : Symbol}
    (areBlank : isBlankText blanks = true) (nonempty : blanks ≠ [])
    (solid : isBlank symbol = false) :
    afterBlanks? (blanks ++ symbol :: rest) = some (symbol :: rest) := by
  obtain ⟨first, others, rfl⟩ := List.exists_cons_of_ne_nil nonempty
  obtain ⟨blank, others⟩ := Bool.and_eq_true_iff.mp areBlank
  rw [List.cons_append, afterBlanks?, if_pos blank, Text.trimStart_append_cons others solid]

theorem Gap.afterBlanks? (gap : Gap) {rest : Text} {symbol : Symbol}
    (solid : isBlank symbol = false) :
    Example.afterBlanks? (gap.text ++ symbol :: rest) = some (symbol :: rest) :=
  afterBlanks?_append_cons gap.isBlankText_text gap.nonempty solid

theorem exists_of_afterBlanks? {text rest : Text} (found : afterBlanks? text = some rest) :
    ∃ blanks, isBlankText blanks = true ∧ blanks ≠ [] ∧ text = blanks ++ rest := by
  unfold afterBlanks? at found
  split at found
  · rename_i first others
    split at found
    · rename_i blank
      cases found
      refine ⟨first :: others.takeWhile isBlank, ?_, List.cons_ne_nil _ _, ?_⟩
      · refine Text.isBlankText_iff.mpr (List.forall_mem_cons.mpr ⟨blank, fun symbol => ?_⟩)
        exact List.mem_takeWhile_imp
      · exact congrArg (List.cons first) List.takeWhile_append_dropWhile.symm
    · cases found
  · cases found

theorem startsWithAssert_append_cons {name rest : Text} {symbol : Symbol}
    (ends : isWordChar symbol = false) :
    startsWithAssert (name ++ symbol :: rest) = startsWithAssert name := by
  have absent : symbol ∉ (("assert" : Text)) := by
    intro member
    have word : ∀ letter ∈ ("assert" : Text), isWordChar letter = true := by decide +kernel
    rw [word symbol member] at ends
    cases ends
  rw [startsWithAssert, startsWithAssert, Text.afterPrefix?_append_cons absent]
  cases Text.afterPrefix? "assert" name with
  | none => rfl
  | some behind =>
      cases behind with
      | nil => simp [Text.atWordEnd, ends]
      | cons first others => rfl

/-- Whether the text of a clause begins with the name for assertions, alone or for a module. -/
def seesAssert (clause : Text) : Bool :=
  startsWithAssert clause ||
    match ((Text.afterPrefix? "*" clause).bind afterBlanks?).bind
        (Text.afterPrefix? "as") |>.bind afterBlanks? with
    | none => false
    | some name => startsWithAssert name

theorem Identifier.exists_cons (name : Identifier) :
    ∃ symbol rest, name.text = symbol :: rest ∧ isBlank symbol = false ∧ symbol ≠ '*' := by
  obtain ⟨symbol, rest, same⟩ := List.exists_cons_of_ne_nil name.nonempty
  have isName := name.isNameSymbol_text symbol (same ▸ List.mem_cons_self)
  simp only [isNameSymbol, Bool.and_eq_true, Bool.not_eq_true'] at isName
  refine ⟨symbol, rest, same, isName.1.1, ?_⟩
  rintro rfl
  cases isName.2

/-- A name in front of the end of a word is the one for assertions exactly if it is seen. -/
theorem Identifier.seesAssert_append (name : Identifier) {rest : Text} {symbol : Symbol}
    (ends : isWordChar symbol = false) :
    seesAssert (name.text ++ symbol :: rest) = startsWithAssert name.text := by
  obtain ⟨first, others, same, -, noStar⟩ := name.exists_cons
  have noModule : Text.afterPrefix? "*" (name.text ++ symbol :: rest) = none := by
    rw [same]
    exact if_neg (Ne.symm noStar)
  rw [seesAssert, startsWithAssert_append_cons ends, noModule]
  exact Bool.or_false _

/-- In front of a comma or blanks a word ends. -/
theorem Space.exists_append_comma (space : Space) (rest : Text) :
    ∃ symbol others, space.text ++ (Text.ofString "," ++ rest) = symbol :: others ∧
      isWordChar symbol = false := by
  have areBlank := space.isBlankText_text
  cases same : space.text with
  | nil => exact ⟨',', rest, rfl, by decide +kernel⟩
  | cons first others =>
      rw [same] at areBlank
      exact ⟨first, _, rfl, isWordChar_of_isBlank (Bool.and_eq_true_iff.mp areBlank).1⟩

theorem Clause.seesAssert_append (clause : Clause) {rest : Text} {symbol : Symbol}
    (blank : isBlank symbol = true) :
    seesAssert (clause.text ++ symbol :: rest) = clause.startsWithAssert := by
  have ends := isWordChar_of_isBlank blank
  cases clause with
  | first binding => exact binding.seesAssert_append ends
  | both binding before after bindings =>
      obtain ⟨mark, others, same, ends⟩ :=
        before.exists_append_comma (after.text ++ (bindings.text ++ symbol :: rest))
      have cut : (Clause.both binding before after bindings).text ++ symbol :: rest =
          binding.text ++ mark :: others := by
        simp only [Clause.text, ← same, List.append_assoc]
      rw [cut]
      exact binding.seesAssert_append ends
  | others bindings =>
      cases bindings with
      | list listed ending => rfl
      | whole before after binding =>
          obtain ⟨first, others, same, solid, -⟩ := binding.exists_cons
          have cut : (Clause.others (.whole before after binding)).text ++ symbol :: rest =
              "*" ++ (before.text ++ ("as" ++ (after.text ++ (binding.text ++ symbol :: rest)))) := by
            simp only [Clause.text, Bindings.text, List.append_assoc]
          have behindStar : afterBlanks? (before.text ++
              ("as" ++ (after.text ++ (binding.text ++ symbol :: rest)))) =
                some ("as" ++ (after.text ++ (binding.text ++ symbol :: rest))) :=
            before.afterBlanks? (by decide +kernel)
          have behindWord : afterBlanks? (after.text ++ (binding.text ++ symbol :: rest)) =
              some (binding.text ++ symbol :: rest) := by
            rw [same]
            exact after.afterBlanks? solid
          rw [cut, seesAssert, Text.afterPrefix?_append, Option.bind_some, behindStar,
            Option.bind_some, Text.afterPrefix?_append, Option.bind_some, behindWord]
          exact startsWithAssert_append_cons ends

theorem Clause.exists_cons (clause : Clause) :
    ∃ symbol rest, clause.text = symbol :: rest ∧ isBlank symbol = false := by
  cases clause with
  | first binding =>
      obtain ⟨symbol, rest, same, solid, -⟩ := binding.exists_cons
      exact ⟨symbol, rest, same, solid⟩
  | both binding before after bindings =>
      obtain ⟨symbol, rest, same, solid, -⟩ := binding.exists_cons
      exact ⟨symbol, _, by rw [Clause.text, same]; rfl, solid⟩
  | others bindings =>
      cases bindings with
      | list listed ending => exact ⟨_, _, rfl, by decide +kernel⟩
      | whole before after binding => exact ⟨_, _, rfl, by decide +kernel⟩

/-- Whether a declaration names assertions first does not depend on what stands behind it. -/
theorem ImportDeclaration.startsWithAssertImport_append (declaration : ImportDeclaration)
    (rest : Text) :
    startsWithAssertImport (declaration.lead ++ rest) = declaration.clause.startsWithAssert := by
  let tail : Text := declaration.beforeFrom.text ++ ("from" ++ (declaration.behindFrom.text ++ rest))
  have cut : declaration.lead ++ rest =
      declaration.indent.text ++ ("import" ++ (declaration.behindImport.text ++
        (declaration.clause.text ++ tail))) := by
    simp only [lead, tail, List.append_assoc]
  have trimmed : Text.trimStart (declaration.lead ++ rest) =
      "import" ++ (declaration.behindImport.text ++ (declaration.clause.text ++ tail)) := by
    rw [cut]
    exact Text.trimStart_append_cons declaration.indent.isBlankText_text (by decide +kernel)
  have behind : afterBlanks? (declaration.behindImport.text ++ (declaration.clause.text ++ tail)) =
      some (declaration.clause.text ++ tail) := by
    obtain ⟨symbol, others, same, solid⟩ := declaration.clause.exists_cons
    rw [same]
    exact declaration.behindImport.afterBlanks? solid
  have isClause : startsWithAssertImport (declaration.lead ++ rest) =
      seesAssert (declaration.clause.text ++ tail) := by
    rw [startsWithAssertImport, trimmed, Text.afterPrefix?_append, Option.bind_some, behind]
    rfl
  have areBlank := declaration.beforeFrom.isBlankText_text
  obtain ⟨blank, blanks, same⟩ := List.exists_cons_of_ne_nil declaration.beforeFrom.nonempty
  rw [same] at areBlank
  rw [isClause]
  simp only [tail, same]
  exact declaration.clause.seesAssert_append (Bool.and_eq_true_iff.mp areBlank).1

/-! ## Where the module for assertions is named -/

/-- The module for assertions is named behind the word `from` and blanks, in quotes. -/
theorem startsFromAssert_iff {text : Text} :
    startsFromAssert text = true ↔ ∃ blanks opening closing rest,
      isBlankText blanks = true ∧ blanks ≠ [] ∧ isQuote opening = true ∧ isQuote closing = true ∧
        text = "from" ++ (blanks ++ opening :: ("assert" ++ closing :: rest)) := by
  constructor
  · intro named
    unfold startsFromAssert at named
    split at named
    · rename_i opening rest found
      obtain ⟨opens, named⟩ := Bool.and_eq_true_iff.mp named
      split at named
      · rename_i closing behind isModule
        obtain ⟨middle, isFrom, isGap⟩ := Option.bind_eq_some_iff.mp found
        obtain ⟨blanks, areBlank, nonempty, rfl⟩ := exists_of_afterBlanks? isGap
        rw [Text.afterPrefix?_eq_some_iff] at isFrom isModule
        exact ⟨blanks, opening, closing, behind, areBlank, nonempty, opens, named,
          by rw [isFrom, isModule]⟩
      · cases named
    · cases named
  · rintro ⟨blanks, opening, closing, rest, areBlank, nonempty, opens, closes, rfl⟩
    rw [startsFromAssert, Text.afterPrefix?_append, Option.bind_some,
      afterBlanks?_append_cons areBlank nonempty (isBlank_of_isQuote opens)]
    simp only [opens, Bool.true_and, Text.afterPrefix?_append, closes]

/-! ## Where a text is seen to import assertions -/

/-- Whether a line begins behind a text, which itself begins with a line or not. -/
def endsLine (atLineStart : Bool) : Text → Bool
  | [] => atLineStart
  | symbol :: rest => endsLine (symbol == '\n') rest

theorem newline_mem_of_endsLine {atLineStart : Bool} {text : Text} (nonempty : text ≠ [])
    (ends : endsLine atLineStart text = true) : Symbol.char '\n' ∈ text := by
  induction text generalizing atLineStart with
  | nil => exact absurd rfl nonempty
  | cons symbol rest ih =>
      rcases eq_or_ne rest [] with rfl | more
      · have newline : symbol = '\n' := by simpa [endsLine] using ends
        exact newline ▸ List.mem_cons_self
      · exact List.mem_cons_of_mem symbol (ih more ends)

theorem endsLine_append_newline (atLineStart : Bool) (front : Text) :
    endsLine atLineStart (front ++ [.char '\n']) = true := by
  induction front generalizing atLineStart with
  | nil => rfl
  | cons symbol front ih => exact ih _

/--
A text is seen to import assertions exactly if a declaration that names them first stands at the
beginning of a line, or the module for assertions is named somewhere.
-/
theorem importsAssert_iff {atLineStart : Bool} {text : Text} :
    importsAssert atLineStart text = true ↔ ∃ front rest, text = front ++ rest ∧
      (endsLine atLineStart front = true ∧ startsWithAssertImport rest = true ∨
        startsFromAssert rest = true) := by
  induction text generalizing atLineStart with
  | nil =>
      refine ⟨nofun, ?_⟩
      rintro ⟨front, rest, same, seen⟩
      obtain ⟨rfl, rfl⟩ := List.append_eq_nil_iff.mp same.symm
      rcases seen with ⟨-, seen⟩ | seen <;> cases seen
  | cons symbol text ih =>
      rw [importsAssert, Bool.or_eq_true, Bool.or_eq_true, Bool.and_eq_true, ih]
      constructor
      · rintro (here | ⟨front, rest, rfl, seen⟩)
        · exact ⟨[], symbol :: text, rfl, here⟩
        · exact ⟨symbol :: front, rest, rfl, seen⟩
      · rintro ⟨front, rest, same, seen⟩
        cases front with
        | nil =>
            obtain rfl := same
            exact .inl seen
        | cons first front =>
            obtain ⟨rfl, rfl⟩ := List.cons.inj same
            exact .inr ⟨front, rest, rfl, seen⟩

/-- A text has one first quote. -/
theorem eq_of_append_quote {first second rest behind : Text} {quote other : Symbol}
    (plain : HasNoQuote first) (plainOther : HasNoQuote second) (isQuoted : isQuote quote = true)
    (otherQuoted : isQuote other = true)
    (same : first ++ quote :: rest = second ++ other :: behind) :
    first = second ∧ rest = behind := by
  have fronts := congrArg (List.takeWhile fun symbol => !isQuote symbol) same
  rw [takeWhile_append_quote plain isQuoted, takeWhile_append_quote plainOther otherQuoted] at fronts
  subst fronts
  exact ⟨rfl, (List.cons.inj (List.append_cancel_left same)).2⟩

/-- Where the module for assertions is named in a text, this is at its first quote or behind it. -/
theorem named_at_or_behind_quote {front behind before rest : Text} {quote : Symbol}
    (plain : HasNoQuote front) (isQuoted : isQuote quote = true)
    (cut : front ++ quote :: behind = before ++ rest) (named : startsFromAssert rest = true) :
    (∃ closing tail, isQuote closing = true ∧ behind = "assert" ++ closing :: tail) ∨
      ∃ more, behind = more ++ rest := by
  obtain ⟨blanks, opening, closing, tail, areBlank, -, opens, closes, isRest⟩ :=
    startsFromAssert_iff.mp named
  rcases List.append_eq_append_iff.mp cut with ⟨more, -, inRest⟩ | ⟨word, isFront, same⟩
  · cases more with
    | nil =>
        have isWord : quote = 'f' := by
          rw [isRest] at inRest
          exact (List.cons.inj inRest).1
        rw [isWord] at isQuoted
        cases isQuoted
    | cons first more => exact .inr ⟨more, (List.cons.inj inRest).2⟩
  · have plainWord : HasNoQuote word := by
      rw [isFront, HasNoQuote.append_iff] at plain
      exact plain.2
    have plainFrom : HasNoQuote ("from" ++ blanks) :=
      HasNoQuote.append_iff.mpr ⟨by decide, isBlankText.hasNoQuote areBlank⟩
    rw [isRest, ← List.append_assoc] at same
    exact .inl ⟨closing, tail, closes,
      (eq_of_append_quote plainFrom plainWord opens isQuoted same).2.symm⟩

/-- A use of assertions in a line of its own. -/
def assertionUse : Text := "\nassert.ok(1)\n"

theorem not_seen_of_suffix_assertionUse {rest : Text} (isSuffix : rest <:+ assertionUse) :
    startsWithAssertImport rest = false ∧ startsFromAssert rest = false := by
  have each : ∀ rest ∈ assertionUse.tails,
      startsWithAssertImport rest = false ∧ startsFromAssert rest = false := by decide +kernel
  exact each rest ((List.mem_tails rest assertionUse).mpr isSuffix)

namespace ImportDeclaration

variable (declaration : ImportDeclaration)

theorem text_append (rest : Text) :
    declaration.text ++ rest = declaration.lead ++
      declaration.quote :: (declaration.specifier ++ declaration.quote :: rest) := by
  simp only [text, List.append_assoc, List.cons_append, List.nil_append]

/-- A declaration that is seen is seen wherever it begins a line. -/
theorem importsAssert_of_isSeen (seen : declaration.isSeen = true) {front : Text}
    (starts : endsLine true front = true) (rest : Text) :
    importsAssert true (front ++ (declaration.text ++ rest)) = true := by
  rw [importsAssert_iff]
  rcases Bool.or_eq_true_iff.mp seen with first | isModule
  · refine ⟨front, declaration.text ++ rest, rfl, .inl ⟨starts, ?_⟩⟩
    rw [text_append, startsWithAssertImport_append, first]
  · let word : Text := declaration.indent.text ++ ("import" ++ (declaration.behindImport.text ++
      (declaration.clause.text ++ declaration.beforeFrom.text)))
    refine ⟨front ++ word, "from" ++ (declaration.behindFrom.text ++ declaration.quote ::
      ("assert" ++ declaration.quote :: rest)), ?_, .inr ?_⟩
    · rw [text_append, beq_iff_eq.mp isModule]
      simp only [lead, word, List.append_assoc]
    · exact startsFromAssert_iff.mpr ⟨_, _, _, rest, declaration.behindFrom.isBlankText_text,
        declaration.behindFrom.nonempty, declaration.isQuote_quote, declaration.isQuote_quote, rfl⟩

/-- The module for assertions is not named where a declaration imports from another one. -/
theorem startsFromAssert_of_ne (other : declaration.specifier ≠ "assert") {front rest : Text}
    (cut : declaration.text ++ assertionUse = front ++ rest) : startsFromAssert rest = false := by
  rw [Bool.eq_false_iff]
  intro named
  have plainModule : HasNoQuote "assert" := by decide
  rw [text_append] at cut
  -- at the first quote stands the specifier, and at the last one the use
  rcases named_at_or_behind_quote declaration.isPlain_lead.hasNoQuote declaration.isQuote_quote cut
    named with ⟨closing, tail, closes, isModule⟩ | ⟨more, inModule⟩
  · exact other (eq_of_append_quote declaration.plain.hasNoQuote plainModule
      declaration.isQuote_quote closes isModule).1
  · rcases named_at_or_behind_quote declaration.plain.hasNoQuote declaration.isQuote_quote inModule
      named with ⟨closing, tail, -, isUse⟩ | ⟨last, inUse⟩
    · cases isUse
    · rw [(not_seen_of_suffix_assertionUse ⟨last, inUse.symm⟩).2] at named
      cases named

theorem newline_not_mem_text : Symbol.char '\n' ∉ declaration.text := by
  have noQuote : isQuote '\n' = false := by decide
  have notQuoted : Symbol.char '\n' ≠ declaration.quote := by
    intro same
    rw [same, declaration.isQuote_quote] at noQuote
    cases noQuote
  intro member
  rcases List.mem_append.mp member with inLead | behind
  · exact (declaration.isPlain_lead _ inLead).2 rfl
  · rcases List.mem_append.mp (List.mem_of_ne_of_mem notQuoted behind) with inModule | isLast
    · exact (declaration.plain _ inModule).2 rfl
    · exact notQuoted (List.mem_singleton.mp isLast)

/-- A declaration that is not seen leaves the use of assertions behind it without an import. -/
theorem importsAssert_of_not_isSeen (unseen : declaration.isSeen = false) :
    importsAssert true (declaration.text ++ assertionUse) = false := by
  obtain ⟨notFirst, otherModule⟩ := Bool.or_eq_false_iff.mp unseen
  rw [Bool.eq_false_iff]
  intro seen
  obtain ⟨front, rest, cut, ⟨starts, begins⟩ | named⟩ := importsAssert_iff.mp seen
  · cases front with
    | nil =>
        rw [List.nil_append] at cut
        rw [← cut, text_append, startsWithAssertImport_append, notFirst] at begins
        cases begins
    | cons first front =>
        have newline := newline_mem_of_endsLine (List.cons_ne_nil first front) starts
        rcases List.append_eq_append_iff.mp cut with ⟨more, -, inUse⟩ | ⟨behind, isText, -⟩
        · rw [(not_seen_of_suffix_assertionUse ⟨more, inUse.symm⟩).1] at begins
          cases begins
        · exact declaration.newline_not_mem_text (isText ▸ List.mem_append_left behind newline)
  · rw [declaration.startsFromAssert_of_ne (beq_eq_false_iff_ne.mp otherModule) cut] at named
    cases named

end ImportDeclaration

/-! ## When an import is added -/

theorem importAssert_eq_self_iff {source : Text} :
    importAssert source = source ↔
      Text.occursIn "assert." source = false ∨ importsAssert true source = true := by
  rw [← Bool.not_eq_true', ← Bool.or_eq_true, importAssert]
  split
  · rename_i kept
    exact iff_of_true rfl kept
  · rename_i added
    exact iff_of_false (fun same => nomatch List.append_left_eq_self.mp same) added

/-- A blank between two words. -/
def oneBlank : Gap where
  text := " "
  isBlankText_text := by decide +kernel
  oneLine := by decide
  nonempty := by decide

/-- The name for assertions. -/
def assertName : Identifier where
  text := "assert"
  nonempty := by decide
  isNameSymbol_text := by decide +kernel

/-- The import that is added. -/
def addedImport : ImportDeclaration where
  indent := ⟨[], rfl, List.not_mem_nil⟩
  behindImport := oneBlank
  clause := .others (.whole oneBlank oneBlank assertName)
  beforeFrom := oneBlank
  behindFrom := oneBlank
  quote := '\x27'
  specifier := "assert"
  isQuote_quote := isQuote_apostrophe
  plain := by decide

/-- The import that is added is seen in turn. -/
theorem importAssert_idempotent (source : Text) :
    importAssert (importAssert source) = importAssert source := by
  by_cases kept : importAssert source = source
  · rw [kept, kept]
  · have added : importAssert source =
        [] ++ (addedImport.text ++ Symbol.char '\n' :: source) := by
      rw [importAssert_eq_self_iff, ← Bool.not_eq_true', ← Bool.or_eq_true] at kept
      exact if_neg kept
    rw [added]
    exact importAssert_eq_self_iff.mpr
      (.inr (addedImport.importsAssert_of_isSeen (by decide +kernel) rfl _))

/--
A declaration keeps an example as it is, wherever it begins a line and whatever else stands
there, exactly if it is seen.  An example without assertions is kept too, and one that was
completed is complete.
-/
theorem importAssert_keeps_declarations_seen (declaration : ImportDeclaration) (source : Text) :
    ((∀ front rest, (front = [] ∨ Text.endsWith front "\n" = true) →
        importAssert (front ++ (declaration.text ++ rest)) = front ++ (declaration.text ++ rest)) ↔
          declaration.isSeen = true) ∧
      (Text.occursIn "assert." source = false → importAssert source = source) ∧
      importAssert (importAssert source) = importAssert source := by
  refine ⟨⟨fun keeps => ?_, fun seen front rest starts => ?_⟩,
    fun unused => importAssert_eq_self_iff.mpr (.inl unused), importAssert_idempotent source⟩
  · by_contra unseen
    have used : Text.occursIn "assert." (declaration.text ++ assertionUse) = true :=
      Text.occursIn_append _ (by decide +kernel)
    have unimported := declaration.importsAssert_of_not_isSeen (Bool.eq_false_iff.mpr unseen)
    rcases importAssert_eq_self_iff.mp (keeps [] assertionUse (.inl rfl)) with unused | imported
    · rw [List.nil_append, used] at unused
      cases unused
    · rw [List.nil_append, unimported] at imported
      cases imported
  · have starts : endsLine true front = true := by
      rcases starts with rfl | ended
      · rfl
      · obtain ⟨line, rfl⟩ := Text.endsWith_iff.mp ended
        exact endsLine_append_newline true line
    exact importAssert_eq_self_iff.mpr (.inr (declaration.importsAssert_of_isSeen seen starts rest))

/-- An import of assertions by name from another module. -/
def chaiImport : ImportDeclaration where
  indent := ⟨[], rfl, List.not_mem_nil⟩
  behindImport := oneBlank
  clause := .others (.list [] (.last ⟨oneBlank.toSpace, .same assertName, oneBlank.toSpace⟩))
  beforeFrom := oneBlank
  behindFrom := oneBlank
  quote := '\x27'
  specifier := "chai"
  isQuote_quote := isQuote_apostrophe
  plain := by decide

/-- An import by name from another module binds the name, and it is bound once more. -/
theorem importAssert_of_chaiImport_binds_twice :
    chaiImport.text = "import \x7b assert \x7d from 'chai'" ∧ chaiImport.Binds "assert" ∧
      importAssert (chaiImport.text ++ assertionUse) ≠ chaiImport.text ++ assertionUse ∧
      importAssert (chaiImport.text ++ assertionUse) =
        addedImport.text ++ Symbol.char '\n' :: (chaiImport.text ++ assertionUse) ∧
      addedImport.Binds "assert" :=
  ⟨by decide +kernel, ⟨assertName, List.mem_singleton_self _, rfl⟩, by decide +kernel,
    by decide +kernel, ⟨assertName, List.mem_singleton_self _, rfl⟩⟩

end ApiDocs.Example
