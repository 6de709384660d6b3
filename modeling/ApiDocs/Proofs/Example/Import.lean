import Mathlib.Data.List.Forall2
import ApiDocs.Example.Import
import ApiDocs.Proofs.Text.Search

/-!
# Which imports of an example are rewritten

Read as texts in quotes and the texts between them, an example imports something wherever a quoted
text stands behind the word `from`.  What it imports from the project, or from the folder of the
compiled project, is imported from the sources instead; the quotes, all other quoted texts and
everything between them stay as they are.
-/

namespace ApiDocs.Example

variable {project specifier part tail rest : Text} {quote : Symbol}

/-- Whether a text has no quotes. -/
def HasNoQuote (text : Text) : Prop :=
  ∀ symbol ∈ text, isQuote symbol = false

instance (text : Text) : Decidable (HasNoQuote text) :=
  inferInstanceAs (Decidable (∀ symbol ∈ text, isQuote symbol = false))

theorem HasNoQuote.append_iff {first second : Text} :
    HasNoQuote (first ++ second) ↔ HasNoQuote first ∧ HasNoQuote second :=
  List.forall_mem_append

/-- Whether a quoted text behind the given one is imported. -/
def EndsInFrom (text : Text) : Prop :=
  Text.endsWith text "from " = true

instance (text : Text) : Decidable (EndsInFrom text) :=
  inferInstanceAs (Decidable (_ = true))

/-- A text in quotes, with the text in front of it. -/
structure Quotation where
  before : Text
  quote : Symbol
  content : Text
  isQuote_quote : isQuote quote = true
  hasNoQuote_before : HasNoQuote before
  hasNoQuote_content : HasNoQuote content

/-- The text of a quotation. -/
def Quotation.text (quotation : Quotation) : Text :=
  quotation.before ++ quotation.quote :: (quotation.content ++ [quotation.quote])

/-- A text whose quotes belong together: quotations, and a text without quotes behind them. -/
structure QuotedText where
  quotations : List Quotation
  ending : Text
  hasNoQuote_ending : HasNoQuote ending

/-- The text as it is written. -/
def QuotedText.text (source : QuotedText) : Text :=
  source.quotations.flatMap Quotation.text ++ source.ending

/-- A specifier names a part of a project, where the whole project is the empty part. -/
inductive Names (project : Text) : Text → Text → Prop where
  | project : Names project project []
  | library : Names project (project ++ "/lib") []
  | partOfLibrary (part : Text) : Names project (project ++ "/lib/" ++ part) part
  | part (part : Text) (notLibrary : part ≠ "lib") (notInLibrary : ∀ rest, part ≠ "lib/" ++ rest) :
    Names project (project ++ "/" ++ part) part

/-- The specifier of a part of the sources, as seen from the folder of the examples. -/
def sourcesOf (part : Text) : Text :=
  if part.isEmpty then "../../src" else "../../src/" ++ part

/-- What becomes of a quotation when the project is imported from its sources. -/
inductive Quotation.Becomes (project : Text) (quotation : Quotation) : Quotation → Prop where
  | sources {next : Quotation} {part : Text} (imports : EndsInFrom quotation.before)
    (names : Names project quotation.content part) (sameBefore : next.before = quotation.before)
    (sameQuote : next.quote = quotation.quote) (content : next.content = sourcesOf part) :
    Becomes project quotation next
  | same (other : EndsInFrom quotation.before → ∀ part, ¬Names project quotation.content part) :
    Becomes project quotation quotation

/-! ## What a specifier names -/

/-- The part that is named behind the name of a project or of a folder. -/
def partBehind? : Text → Option Text
  | [] => some []
  | '/' :: part => some part
  | _ => none

theorem partBehind?_eq_some_iff :
    partBehind? tail = some part ↔ tail = [] ∧ part = [] ∨ tail = "/" ++ part := by
  unfold partBehind?
  split
  · constructor
    · intro named
      exact .inl ⟨rfl, (Option.some.inj named).symm⟩
    · rintro (⟨-, rfl⟩ | same)
      · rfl
      · cases same
  · constructor
    · intro named
      rw [Option.some.inj named]
      exact .inr rfl
    · rintro (⟨none, -⟩ | same)
      · cases none
      · exact congrArg some (List.cons.inj same).2
  · rename_i notEmpty notSlash
    constructor
    · rintro ⟨⟩
    · rintro (⟨none, -⟩ | same)
      · exact (notEmpty none).elim
      · exact (notSlash part same).elim

/-- The part that is named behind the name of the project. -/
def libraryPart? (tail : Text) : Option Text :=
  ((Text.afterPrefix? "/lib" tail).bind partBehind?).or (partBehind? tail)

/-- What is found behind the name of the project is the part that is named. -/
theorem names_of_libraryPart? (found : libraryPart? tail = some part) :
    Names project (project ++ tail) part := by
  rw [libraryPart?, Option.or_eq_some_iff] at found
  rcases found with inLibrary | ⟨notInLibrary, whole⟩
  · obtain ⟨behind, isBehind, inLibrary⟩ := Option.bind_eq_some_iff.mp inLibrary
    obtain rfl := Text.afterPrefix?_eq_some_iff.mp isBehind
    rcases partBehind?_eq_some_iff.mp inLibrary with ⟨rfl, rfl⟩ | rfl
    · exact .library
    · exact List.append_assoc project "/lib/" part ▸ .partOfLibrary part
  · rcases partBehind?_eq_some_iff.mp whole with ⟨rfl, rfl⟩ | rfl
    · rw [List.append_nil]
      exact .project
    · rw [← List.append_assoc]
      refine .part part ?_ ?_
      · rintro rfl
        cases notInLibrary
      · rintro rest rfl
        cases notInLibrary

/-- A part that is not in the library is found as it is written. -/
theorem libraryPart?_of_not_library (notLibrary : part ≠ "lib")
    (notInLibrary : ∀ rest, part ≠ "lib/" ++ rest) : libraryPart? ("/" ++ part) = some part := by
  have whole : partBehind? ("/" ++ part) = some part := rfl
  rw [libraryPart?, whole, Option.or_eq_some_iff]
  right
  refine ⟨Option.bind_eq_none_iff.mpr fun rest isRest => ?_, rfl⟩
  have isPart : part = "lib" ++ rest :=
    (List.cons.inj (Text.afterPrefix?_eq_some_iff.mp isRest)).2
  unfold partBehind?
  split
  · exact (notLibrary isPart).elim
  · exact (notInLibrary _ isPart).elim
  · rfl

theorem bind_libraryPart?_eq_some_iff :
    (Text.afterPrefix? project specifier).bind libraryPart? = some part ↔
      Names project specifier part := by
  constructor
  · intro named
    obtain ⟨tail, isTail, behind⟩ := Option.bind_eq_some_iff.mp named
    obtain rfl := Text.afterPrefix?_eq_some_iff.mp isTail
    exact names_of_libraryPart? behind
  · intro names
    have behind := Text.afterPrefix?_append project
    cases names with
    | project =>
        have named := behind []
        rw [List.append_nil] at named
        rw [named]
        rfl
    | library =>
        rw [behind]
        rfl
    | partOfLibrary =>
        rw [List.append_assoc, behind]
        rfl
    | part _ notLibrary notInLibrary =>
        rw [List.append_assoc, behind]
        exact libraryPart?_of_not_library notLibrary notInLibrary

/-- A specifier names one part of a project at most. -/
theorem Names.unique {other : Text} (names : Names project specifier part)
    (namesOther : Names project specifier other) : part = other := by
  rw [← bind_libraryPart?_eq_some_iff] at names namesOther
  exact Option.some.inj (names.symm.trans namesOther)

/-! ## What is found behind a quote -/

theorem afterPrefix?_append_quote {pattern : Text} (plain : HasNoQuote pattern)
    (opens : isQuote quote = true) :
    Text.afterPrefix? pattern (specifier ++ quote :: rest) =
      (Text.afterPrefix? pattern specifier).map (· ++ quote :: rest) :=
  Text.afterPrefix?_append_cons
    fun member => Bool.false_ne_true ((plain quote member).symm.trans opens)

theorem takeWhile_append_quote (plain : HasNoQuote part) (closes : isQuote quote = true) :
    (part ++ quote :: rest).takeWhile (fun symbol => !isQuote symbol) = part := by
  rw [List.takeWhile_append_of_pos]
  · simp [closes]
  · intro symbol member
    simp [plain symbol member]

theorem subPath?_append_quote (plain : HasNoQuote tail) (closes : isQuote quote = true) :
    subPath? quote (tail ++ quote :: rest) =
      (partBehind? tail).map fun part => (part, rest) := by
  have closing : Text.afterPrefix? [quote] (quote :: rest) = some rest :=
    Text.afterPrefix?_eq_some_iff.mpr rfl
  unfold partBehind?
  split
  · have notSlash : quote ≠ '/' := by
      rintro rfl
      cases closes
    unfold subPath?
    split
    · rename_i same
      exact (notSlash (List.cons.inj same).1).elim
    · rw [List.nil_append, closing]
      rfl
  · rename_i part
    have plainPart : HasNoQuote part := (List.forall_mem_cons.mp plain).2
    rw [List.cons_append, subPath?, takeWhile_append_quote plainPart closes, List.drop_left,
      closing]
    rfl
  · rename_i notEmpty notSlash
    obtain ⟨first, others, rfl⟩ := List.exists_cons_of_ne_nil notEmpty
    unfold subPath?
    split
    · rename_i same
      exact (notSlash others (by rw [(List.cons.inj same).1])).elim
    · have differs : quote ≠ first := by
        rintro rfl
        exact Bool.false_ne_true ((plain _ List.mem_cons_self).symm.trans closes)
      rw [List.cons_append, Text.afterPrefix?, if_neg differs]
      rfl

theorem librarySubPath?_append_quote (plain : HasNoQuote tail) (closes : isQuote quote = true) :
    librarySubPath? quote (tail ++ quote :: rest) =
      (libraryPart? tail).map fun part => (part, rest) := by
  have plainLibrary : HasNoQuote "/lib" := by decide
  rw [librarySubPath?, libraryPart?, afterPrefix?_append_quote plainLibrary closes,
    subPath?_append_quote plain closes]
  cases inLibrary : Text.afterPrefix? "/lib" tail with
  | none => rfl
  | some behind =>
      have plainBehind : HasNoQuote behind := by
        rw [Text.afterPrefix?_eq_some_iff] at inLibrary
        rw [inLibrary, HasNoQuote.append_iff] at plain
        exact plain.2
      rw [Option.map_some, Option.bind_some, Option.bind_some,
        subPath?_append_quote plainBehind closes]
      cases partBehind? behind <;> rfl

/-- Behind the word `from`, a specifier is replaced if it names a part of the project. -/
theorem sourceImport?_from (plainProject : HasNoQuote project) (plain : HasNoQuote specifier)
    (opens : isQuote quote = true) :
    sourceImport? project ("from " ++ quote :: (specifier ++ quote :: rest)) =
      ((Text.afterPrefix? project specifier).bind libraryPart?).map fun part =>
        ("from " ++ quote :: sourcesOf part ++ [quote], rest) := by
  rw [sourceImport?, Text.afterPrefix?_append]
  simp only [opens, if_true]
  rw [afterPrefix?_append_quote plainProject opens]
  cases isTail : Text.afterPrefix? project specifier with
  | none => rfl
  | some tail =>
      have plainTail : HasNoQuote tail := by
        rw [Text.afterPrefix?_eq_some_iff] at isTail
        rw [isTail, HasNoQuote.append_iff] at plain
        exact plain.2
      rw [Option.map_some, Option.bind_some, Option.bind_some,
        librarySubPath?_append_quote plainTail opens]
      cases libraryPart? tail <;> rfl

/-! ## Where an import begins -/

/-- In front of a quote or of the end, an import of the project begins with the word `from` only. -/
theorem eq_from_of_sourceImport? {front : Text} {found : Text × Text} (plain : HasNoQuote front)
    (behind : ∀ first others, rest = first :: others → isQuote first = true)
    (isImport : sourceImport? project (front ++ rest) = some found) : front = "from " := by
  unfold sourceImport? at isImport
  split at isImport
  · rename_i quote others start
    split at isImport
    · rename_i opens
      rw [Text.afterPrefix?_eq_some_iff] at start
      rcases List.append_eq_append_iff.mp start with ⟨gap, word, isRest⟩ | ⟨gap, word, isQuoted⟩
      · cases gap with
        | nil => rw [word, List.append_nil]
        | cons first gap =>
            have plainWord : HasNoQuote "from " := by decide
            have inWord : isQuote first = false := plainWord first (by simp [word])
            exact absurd (behind first _ isRest) (by simp [inWord])
      · cases gap with
        | nil => rw [word, List.append_nil]
        | cons first gap =>
            obtain ⟨rfl, -⟩ := List.cons.inj isQuoted
            have inFront : isQuote quote = false := plain quote (by simp [word])
            exact absurd opens (by simp [inFront])
    · cases isImport
  · cases isImport

/-- Symbols are kept in front of a quote or of the end, unless an import begins among them. -/
theorem importSources_append {front : Text} (plain : HasNoQuote front)
    (behind : ∀ first others, rest = first :: others → isQuote first = true)
    (kept : EndsInFrom front → sourceImport? project ("from " ++ rest) = none) :
    importSources (front ++ rest) project = front ++ importSources rest project := by
  apply Text.substitute_append_of_none
  rintro before after rfl -
  rw [Option.eq_none_iff_forall_ne_some]
  intro found isImport
  obtain rfl := eq_from_of_sourceImport? (HasNoQuote.append_iff.mp plain).2 behind isImport
  rw [kept (Text.endsWith_append before "from ")] at isImport
  cases isImport

theorem importSources_cons_quote (opens : isQuote quote = true) :
    importSources (quote :: rest) project = quote :: importSources rest project := by
  apply Text.substitute_cons_of_none
  have notFrom : quote ≠ 'f' := by
    rintro rfl
    cases opens
  have differs : Text.afterPrefix? "from " (quote :: rest) = none := if_neg (Ne.symm notFrom)
  rw [sourceImport?, differs]

/-- A quotation is kept if nothing is imported from the project by it or by what it quotes. -/
theorem importSources_quotation_of_none (quotation : Quotation)
    (apart : ¬EndsInFrom quotation.content)
    (kept : EndsInFrom quotation.before → sourceImport? project
      ("from " ++ quotation.quote :: (quotation.content ++ quotation.quote :: rest)) = none) :
    importSources (quotation.text ++ rest) project =
      quotation.text ++ importSources rest project := by
  have isQuoted : isQuote quotation.quote = true := quotation.isQuote_quote
  have behind (others : Text) :
      ∀ first rest, quotation.quote :: others = first :: rest → isQuote first = true := by
    rintro _ _ ⟨⟩
    exact isQuoted
  calc importSources (quotation.text ++ rest) project
    _ = importSources (quotation.before ++
          quotation.quote :: (quotation.content ++ quotation.quote :: rest)) project := by
        simp only [Quotation.text, List.append_assoc, List.cons_append, List.nil_append]
    _ = quotation.before ++ quotation.quote ::
          importSources (quotation.content ++ quotation.quote :: rest) project := by
        rw [importSources_append quotation.hasNoQuote_before (behind _) kept,
          importSources_cons_quote isQuoted]
    _ = quotation.before ++ quotation.quote ::
          (quotation.content ++ quotation.quote :: importSources rest project) := by
        rw [importSources_append quotation.hasNoQuote_content (behind _) fun ends =>
          (apart ends).elim, importSources_cons_quote isQuoted]
    _ = quotation.text ++ importSources rest project := by
        simp only [Quotation.text, List.append_assoc, List.cons_append, List.nil_append]

/-- An import of a part of the project becomes an import of that part of the sources. -/
theorem importSources_quotation_of_names {quotation : Quotation} {front : Text}
    (plainProject : HasNoQuote project) (imports : quotation.before = front ++ "from ")
    (names : Names project quotation.content part) :
    importSources (quotation.text ++ rest) project =
      quotation.before ++ quotation.quote :: (sourcesOf part ++ [quotation.quote]) ++
        importSources rest project := by
  have plainBefore : HasNoQuote (front ++ "from ") := imports ▸ quotation.hasNoQuote_before
  let quoted : Text := quotation.quote :: (quotation.content ++ quotation.quote :: rest)
  have behind : ∀ first others, quoted = first :: others → isQuote first = true := by
    intro first others same
    rw [← (List.cons.inj same).1]
    exact quotation.isQuote_quote
  have passes : importSources (front ++ ("from " ++ quoted)) project =
      front ++ importSources ("from " ++ quoted) project := by
    apply Text.substitute_append_of_none
    rintro before after rfl nonempty
    rw [Option.eq_none_iff_forall_ne_some]
    intro found isImport
    rw [List.append_assoc, HasNoQuote.append_iff] at plainBefore
    rw [← List.append_assoc] at isImport
    have start := eq_from_of_sourceImport? plainBefore.2 behind isImport
    exact nonempty (List.append_left_eq_self.mp start)
  have applies : sourceImport? project ("from " ++ quoted) =
      some ("from " ++ quotation.quote :: sourcesOf part ++ [quotation.quote], rest) := by
    rw [sourceImport?_from plainProject quotation.hasNoQuote_content quotation.isQuote_quote,
      bind_libraryPart?_eq_some_iff.mpr names]
    rfl
  have shorter : rest.length < ("from " ++ quoted).length := by
    simp only [quoted, List.length_append, List.length_cons]
    omega
  calc importSources (quotation.text ++ rest) project
    _ = importSources (front ++ ("from " ++ quoted)) project := by
        simp only [Quotation.text, imports, quoted, List.append_assoc, List.cons_append,
          List.nil_append]
    _ = front ++ ("from " ++ quotation.quote :: sourcesOf part ++ [quotation.quote] ++
          importSources rest project) := by
        rw [passes, importSources, Text.substitute_of_some applies shorter]
        rfl
    _ = quotation.before ++ quotation.quote :: (sourcesOf part ++ [quotation.quote]) ++
          importSources rest project := by
        simp only [imports, List.append_assoc, List.cons_append]

theorem Names.hasNoQuote_sourcesOf (names : Names project specifier part)
    (plain : HasNoQuote specifier) : HasNoQuote (sourcesOf part) := by
  have plainPart : HasNoQuote part := by
    cases names with
    | project | library => exact fun _ member => nomatch member
    | partOfLibrary | part => exact (HasNoQuote.append_iff.mp plain).2
  rw [sourcesOf]
  split
  · decide
  · exact HasNoQuote.append_iff.mpr ⟨by decide, plainPart⟩

/-- One quotation is rewritten, whatever stands behind it. -/
theorem exists_becomes (plainProject : HasNoQuote project) (quotation : Quotation)
    (apart : ¬EndsInFrom quotation.content) :
    ∃ next, quotation.Becomes project next ∧ ∀ rest,
      importSources (quotation.text ++ rest) project = next.text ++ importSources rest project := by
  by_cases imports : EndsInFrom quotation.before ∧ ∃ part, Names project quotation.content part
  · obtain ⟨ends, part, names⟩ := imports
    obtain ⟨front, isFront⟩ := Text.endsWith_iff.mp ends
    let next : Quotation :=
      { quotation with
        content := sourcesOf part
        hasNoQuote_content := names.hasNoQuote_sourcesOf quotation.hasNoQuote_content }
    exact ⟨next, .sources ends names rfl rfl rfl, fun rest =>
      importSources_quotation_of_names plainProject isFront names⟩
  · refine ⟨quotation, .same fun ends part names => imports ⟨ends, part, names⟩, fun rest => ?_⟩
    apply importSources_quotation_of_none quotation apart
    intro ends
    rw [sourceImport?_from plainProject quotation.hasNoQuote_content quotation.isQuote_quote,
      Option.map_eq_none_iff, Option.eq_none_iff_forall_ne_some]
    intro part named
    exact imports ⟨ends, part, bind_libraryPart?_eq_some_iff.mp named⟩

/-- The quotations of a text are rewritten one after the other. -/
theorem exists_quotations_becoming (plainProject : HasNoQuote project) {ending : Text}
    (plainEnding : HasNoQuote ending) {quotations : List Quotation}
    (apart : ∀ quotation ∈ quotations, ¬EndsInFrom quotation.content) :
    ∃ others, List.Forall₂ (Quotation.Becomes project) quotations others ∧
      importSources (quotations.flatMap Quotation.text ++ ending) project =
        others.flatMap Quotation.text ++ ending := by
  induction quotations with
  | nil =>
      have whole : importSources (ending ++ []) project = ending ++ importSources [] project :=
        importSources_append plainEnding (by rintro _ _ ⟨⟩) fun _ => rfl
      rw [List.append_nil, importSources, importSources, Text.substitute_nil,
        List.append_nil] at whole
      exact ⟨[], .nil, whole⟩
  | cons quotation quotations ih =>
      obtain ⟨own, others⟩ := List.forall_mem_cons.mp apart
      obtain ⟨next, becomes, rewritten⟩ := exists_becomes plainProject quotation own
      obtain ⟨rest, become, restRewritten⟩ := ih others
      refine ⟨next :: rest, .cons becomes become, ?_⟩
      rw [List.flatMap_cons, List.flatMap_cons, List.append_assoc, rewritten, restRewritten,
        List.append_assoc]

/--
Where the quotes of an example belong together, and no quoted text ends in the word `from`, exactly
those quoted texts behind that word are rewritten that name the project, the folder of the compiled
project, or a part of one of them.  They name the same part of the sources then, in the same
quotes, and the rest of the text stays as it is.
-/
theorem importSources_rewrites_quotations (plainProject : HasNoQuote project) (source : QuotedText)
    (apart : ∀ quotation ∈ source.quotations, ¬EndsInFrom quotation.content) :
    ∃ result : QuotedText, importSources source.text project = result.text ∧
      List.Forall₂ (Quotation.Becomes project) source.quotations result.quotations ∧
      result.ending = source.ending := by
  obtain ⟨quotations, become, rewritten⟩ :=
    exists_quotations_becoming plainProject source.hasNoQuote_ending apart
  exact ⟨{ source with quotations }, rewritten, become, rfl⟩

/-- Imports of a part of a library, of a part with a longer name and of another project. -/
def mixedImports : QuotedText where
  quotations :=
    [⟨"import \x7b some \x7d from ", '\x27', "demo/lib/Option", by decide, by decide, by decide⟩,
      ⟨"\nimport \x7b pipe \x7d from ", '"', "demo/library", by decide, by decide, by decide⟩,
      ⟨"\nimport \x7b more \x7d from ", '\x27', "demo-extra", by decide, by decide, by decide⟩,
      ⟨"\nconst name = ", '\x27', "demo", by decide, by decide, by decide⟩]
  ending := "\n"
  hasNoQuote_ending := by decide

def mixedImportsOfSources : Text :=
  "import \x7b some \x7d from '../../src/Option'\n" ++
    "import \x7b pipe \x7d from \"../../src/library\"\n" ++
    "import \x7b more \x7d from 'demo-extra'\nconst name = 'demo'\n"

theorem importSources_mixedImports :
    HasNoQuote "demo" ∧
      (∀ quotation ∈ mixedImports.quotations, ¬EndsInFrom quotation.content) ∧
      importSources mixedImports.text "demo" = mixedImportsOfSources ∧
      ∃ result : QuotedText, importSources mixedImports.text "demo" = result.text ∧
        List.Forall₂ (Quotation.Becomes "demo") mixedImports.quotations result.quotations ∧
        result.ending = mixedImports.ending := by
  have plain : HasNoQuote "demo" := by decide
  have apart : ∀ quotation ∈ mixedImports.quotations, ¬EndsInFrom quotation.content := by
    decide +kernel
  exact ⟨plain, apart, by decide +kernel,
    importSources_rewrites_quotations plain mixedImports apart⟩

end ApiDocs.Example
