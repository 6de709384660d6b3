import ApiDocs.Glob.Pattern
import ApiDocs.Proofs.Text.Search

/-!
# What fits a pattern

A text is matched by reading it once with all ends of the pattern that may be left.
`Fits` says what that comes to: each part of the pattern takes one symbol, and a run takes
as many symbols as it likes.  The ends that are kept are always ends of one pattern, so
that keeping one of each length keeps them all.

A literal pattern takes itself alone.  With a run behind it, in front of it or on both sides it
takes the texts that begin with it, that end in it, or in which it occurs.
-/

namespace ApiDocs.Wildcard

variable {pattern rest whole : List Wildcard} {ends : List (List Wildcard)} {text : Text}

/-- A text has the form of a pattern. -/
inductive Fits : List Wildcard → Text → Prop where
  | nil : Fits [] []
  | skip {pattern : List Wildcard} {text : Text} : Fits pattern text → Fits (.run :: pattern) text
  | run {pattern : List Wildcard} {text : Text} (c : Symbol) : Fits (.run :: pattern) text →
      Fits (.run :: pattern) (c :: text)
  | part {part : Wildcard} {pattern : List Wildcard} {text : Text} {c : Symbol} :
      part ≠ .run → takes c part = true → Fits pattern text → Fits (part :: pattern) (c :: text)

/-- An end of a pattern takes a text, reading a symbol before anything is skipped. -/
def Takes : List Wildcard → Text → Prop
  | pattern, [] => pattern = []
  | pattern, c :: text => ∃ next ∈ after c pattern, Takes next text

/-- A run skips itself or takes a symbol. -/
theorem fits_run_cons_iff {c : Symbol} :
    Fits (.run :: pattern) (c :: text) ↔
      Fits (.run :: pattern) text ∨ Fits pattern (c :: text) := by
  constructor
  · intro fits
    cases fits with
    | skip fits => exact .inr fits
    | run _ fits => exact .inl fits
    | part isOne => exact absurd rfl isOne
  · rintro (fits | fits)
    · exact .run c fits
    · exact .skip fits

/-- Every other part takes one symbol. -/
theorem fits_part_cons_iff {part : Wildcard} (isOne : part ≠ .run) {c : Symbol} :
    Fits (part :: pattern) (c :: text) ↔ takes c part = true ∧ Fits pattern text := by
  constructor
  · intro fits
    cases fits with
    | skip => exact absurd rfl isOne
    | run => exact absurd rfl isOne
    | part _ takesFirst fits => exact ⟨takesFirst, fits⟩
  · rintro ⟨takesFirst, fits⟩
    exact .part isOne takesFirst fits

/-! ## Ends of a pattern -/

theorem closure_cons_of_ne {part : Wildcard} (isOne : part ≠ .run) (pattern : List Wildcard) :
    closure (part :: pattern) = [part :: pattern] := by
  cases part <;> first | rfl | exact absurd rfl isOne

theorem after_cons_of_ne {part : Wildcard} (isOne : part ≠ .run) (c : Symbol)
    (pattern : List Wildcard) :
    after c (part :: pattern) = if takes c part then closure pattern else [] := by
  cases part <;> first | rfl | exact absurd rfl isOne

theorem nil_mem_closure_iff : [] ∈ closure pattern ↔ Fits pattern [] := by
  induction pattern with
  | nil => simp [closure, Fits.nil]
  | cons part pattern ih =>
      by_cases isRun : part = .run
      · subst isRun
        rw [closure, List.mem_cons, ih]
        constructor
        · rintro (impossible | fits)
          · cases impossible
          · exact .skip fits
        · intro fits
          cases fits with
          | skip fits => exact .inr fits
      · rw [closure_cons_of_ne isRun]
        constructor
        · intro member
          simp at member
        · intro fits
          cases fits
          exact absurd rfl isRun

/--
An end that begins with a part for one symbol takes the symbol, and some end of the rest the text.
-/
theorem takes_part_cons_iff {part : Wildcard} (isOne : part ≠ .run) {c : Symbol} :
    Takes (part :: pattern) (c :: text) ↔
      takes c part = true ∧ ∃ left ∈ closure pattern, Takes left text := by
  rw [Takes, after_cons_of_ne isOne]
  cases takes c part <;> simp

/-- Some end of a pattern takes a text exactly if the text has the form of the pattern. -/
theorem exists_takes_iff : (∃ left ∈ closure pattern, Takes left text) ↔ Fits pattern text := by
  induction text generalizing pattern with
  | nil =>
      rw [← nil_mem_closure_iff]
      constructor
      · rintro ⟨left, member, rfl⟩
        exact member
      · intro member
        exact ⟨[], member, rfl⟩
  | cons c text readRest =>
      induction pattern with
      | nil =>
          constructor
          · rintro ⟨left, member, next, isNext, -⟩
            obtain rfl := List.mem_singleton.mp member
            cases isNext
          · intro fits
            cases fits
      | cons part pattern skipPart =>
          by_cases isRun : part = .run
          · subst isRun
            have again : Takes (.run :: pattern) (c :: text) ↔ Fits (.run :: pattern) text := readRest
            simp only [closure, List.mem_cons, exists_eq_or_imp, again, skipPart, fits_run_cons_iff]
          · simp only [closure_cons_of_ne isRun, List.mem_singleton, exists_eq_left,
              takes_part_cons_iff isRun, readRest, fits_part_cons_iff isRun]

theorem suffix_of_mem_closure {left : List Wildcard} (member : left ∈ closure pattern) :
    left <:+ pattern := by
  induction pattern with
  | nil =>
      obtain rfl := List.mem_singleton.mp member
      exact List.suffix_rfl
  | cons part pattern ih =>
      by_cases isRun : part = .run
      · subst isRun
        rcases List.mem_cons.mp member with rfl | deeper
        · exact List.suffix_rfl
        · exact (ih deeper).trans (List.suffix_cons _ _)
      · rw [closure_cons_of_ne isRun] at member
        obtain rfl := List.mem_singleton.mp member
        exact List.suffix_rfl

theorem suffix_of_mem_after {c : Symbol} {next : List Wildcard} (member : next ∈ after c pattern) :
    next <:+ pattern := by
  cases pattern with
  | nil => cases member
  | cons part pattern =>
      by_cases isRun : part = .run
      · subst isRun
        exact suffix_of_mem_closure member
      · rw [after_cons_of_ne isRun] at member
        split at member
        · exact (suffix_of_mem_closure member).trans (List.suffix_cons _ _)
        · cases member

/-- Among the ends of one pattern, keeping one of each length keeps them all. -/
theorem mem_distinct_iff (areEnds : ∀ left ∈ ends, left <:+ whole) :
    rest ∈ distinct ends ↔ rest ∈ ends := by
  induction ends with
  | nil => rfl
  | cons left others ih =>
      have otherEnds : ∀ other ∈ others, other <:+ whole := fun other member =>
        areEnds other (List.mem_cons_of_mem left member)
      rw [distinct, List.mem_cons, List.mem_cons, List.mem_filter, ih otherEnds]
      constructor
      · rintro (same | ⟨member, -⟩)
        · exact .inl same
        · exact .inr member
      · rintro (same | member)
        · exact .inl same
        · by_cases sameLength : rest.length = left.length
          · have isEnd := otherEnds rest member
            have other := areEnds left List.mem_cons_self
            exact .inl ((List.suffix_of_suffix_length_le isEnd other
              (Nat.le_of_eq sameLength)).eq_of_length sameLength)
          · exact .inr ⟨member, by simpa using sameLength⟩

/-- The kept ends take a text together if one of the ends takes it. -/
theorem any_isEmpty_foldl_iff (areEnds : ∀ left ∈ ends, left <:+ whole) :
    (text.foldl (fun ends c => distinct (ends.flatMap (after c))) ends).any List.isEmpty = true ↔
      ∃ left ∈ ends, Takes left text := by
  induction text generalizing ends with
  | nil => simp [Takes, List.isEmpty_iff]
  | cons c text ih =>
      have nextEnds : ∀ next ∈ ends.flatMap (after c), next <:+ whole := by
        intro next member
        obtain ⟨left, isEnd, isNext⟩ := List.mem_flatMap.mp member
        exact (suffix_of_mem_after isNext).trans (areEnds left isEnd)
      rw [List.foldl_cons, ih fun next member => nextEnds next ((mem_distinct_iff nextEnds).mp member)]
      simp only [mem_distinct_iff nextEnds, List.mem_flatMap, Takes]
      constructor
      · rintro ⟨next, ⟨left, isEnd, isNext⟩, taken⟩
        exact ⟨left, isEnd, next, isNext, taken⟩
      · rintro ⟨left, isEnd, next, isNext, taken⟩
        exact ⟨next, ⟨left, isEnd, isNext⟩, taken⟩

/-- The reading of a text decides whether it has the form of the pattern. -/
theorem fits_iff : fits pattern text = true ↔ Fits pattern text := by
  rw [fits, any_isEmpty_foldl_iff fun _ => suffix_of_mem_closure, exists_takes_iff]

/-! ## Literal patterns -/

/-- A literal at the beginning of a pattern takes itself. -/
theorem fits_exactly_append_iff {literal : Text} :
    Fits (literal.map .exactly ++ pattern) text ↔
      ∃ back, text = literal ++ back ∧ Fits pattern back := by
  induction literal generalizing text with
  | nil => simp
  | cons c literal ih =>
      rw [List.map_cons, List.cons_append]
      constructor
      · intro fits
        cases fits with
        | part _ takesFirst fits =>
            obtain ⟨back, rfl, fitsBack⟩ := ih.mp fits
            rw [eq_of_beq takesFirst]
            exact ⟨back, rfl, fitsBack⟩
      · rintro ⟨back, rfl, fits⟩
        exact .part (by simp) (beq_self_eq_true c) (ih.mpr ⟨back, rfl, fits⟩)

theorem fits_exactly_iff {literal : Text} :
    Fits (literal.map .exactly) text ↔ text = literal := by
  have append : Fits (literal.map .exactly ++ []) text ↔ _ := fits_exactly_append_iff
  rw [List.append_nil] at append
  rw [append]
  constructor
  · rintro ⟨back, rfl, fits⟩
    cases fits
    exact List.append_nil literal
  · rintro rfl
    exact ⟨[], (List.append_nil text).symm, .nil⟩

/-- A text without wildcards at the beginning of a pattern is read as itself. -/
theorem ofText_append {literal : Text} (plain : hasMagic literal = false) (rest : Text) :
    ofText (literal ++ rest) = literal.map .exactly ++ ofText rest := by
  induction literal with
  | nil => rfl
  | cons c literal ih =>
      simp only [hasMagic, List.any_cons, Bool.or_eq_false_iff, isMagic, beq_eq_false_iff_ne] at plain
      obtain ⟨⟨⟨notRun, notOne⟩, notSet⟩, others⟩ := plain
      rw [List.cons_append, ofText, if_neg notRun, if_neg notOne, if_neg notSet, ih others]
      rfl

theorem ofText_nil : ofText [] = [] := by
  rw [ofText]

theorem ofText_of_not_hasMagic {literal : Text} (plain : hasMagic literal = false) :
    ofText literal = literal.map .exactly := by
  have read := ofText_append plain []
  rwa [List.append_nil, ofText_nil, List.append_nil] at read

/-- A literal pattern takes itself. -/
theorem fitsText_literal_iff {literal : Text} (plain : hasMagic literal = false) :
    fitsText literal text = true ↔ text = literal := by
  rw [fitsText, fits_iff, ofText_of_not_hasMagic plain, fits_exactly_iff]

/-! ## Runs -/

theorem fits_run_iff :
    Fits (.run :: pattern) text ↔ ∃ front back, text = front ++ back ∧ Fits pattern back := by
  constructor
  · intro fits
    induction text with
    | nil =>
        cases fits with
        | skip fits => exact ⟨[], [], rfl, fits⟩
    | cons c text ih =>
        rcases fits_run_cons_iff.mp fits with fits | fits
        · obtain ⟨front, back, rfl, fitsBack⟩ := ih fits
          exact ⟨c :: front, back, rfl, fitsBack⟩
        · exact ⟨[], c :: text, rfl, fits⟩
  · rintro ⟨front, back, rfl, fits⟩
    induction front with
    | nil => exact .skip fits
    | cons c front ih => exact .run c ih

/-- It does not matter that two runs in a row are read as one. -/
theorem fits_consPart_iff (part : Wildcard) :
    Fits (consPart part pattern) text ↔ Fits (part :: pattern) text := by
  unfold consPart
  split
  · rename_i pattern
    rw [fits_run_iff, fits_run_iff]
    constructor
    · rintro ⟨front, back, rfl, fits⟩
      exact ⟨front, back, rfl, .skip fits⟩
    · rintro ⟨front, rest, rfl, fits⟩
      obtain ⟨middle, back, rfl, fitsBack⟩ := fits_run_iff.mp fits
      exact ⟨front ++ middle, back, (List.append_assoc _ _ _).symm, fitsBack⟩
  · rfl

/-- A pattern with a run in front takes the texts whose ends it takes without the run. -/
theorem fitsText_cons_run_iff {tail : Text} :
    fitsText (.char '*' :: tail) text = true ↔
      ∃ front back, text = front ++ back ∧ fitsText tail back = true := by
  simp only [fitsText, fits_iff]
  rw [ofText, if_pos rfl, fits_consPart_iff, fits_run_iff]

/-- The pattern of a run and a literal takes the texts that end in the literal. -/
theorem fitsText_run_iff {literal : Text} (plain : hasMagic literal = false) :
    fitsText (.char '*' :: literal) text = true ↔ Text.endsWith text literal = true := by
  rw [fitsText_cons_run_iff, Text.endsWith_iff]
  constructor
  · rintro ⟨front, back, rfl, fits⟩
    rw [(fitsText_literal_iff plain).mp fits]
    exact ⟨front, rfl⟩
  · rintro ⟨front, rfl⟩
    exact ⟨front, literal, rfl, (fitsText_literal_iff plain).mpr rfl⟩

/-- A literal with a run behind it takes the texts that begin with the literal. -/
theorem fitsText_append_run_iff {literal : Text} (plain : hasMagic literal = false) :
    fitsText (literal ++ "*") text = true ↔ literal <+: text := by
  have run : ofText "*" = [.run] := by decide +kernel
  rw [fitsText, fits_iff, ofText_append plain, run, fits_exactly_append_iff]
  constructor
  · rintro ⟨back, rfl, -⟩
    exact List.prefix_append literal back
  · rintro ⟨back, rfl⟩
    exact ⟨back, rfl, fits_run_iff.mpr ⟨back, [], (List.append_nil back).symm, .nil⟩⟩

/-- A literal between runs takes the texts in which the literal occurs. -/
theorem fitsText_between_runs_iff {literal : Text} (plain : hasMagic literal = false) :
    fitsText (.char '*' :: (literal ++ "*")) text = true ↔ literal <:+: text := by
  simp only [fitsText_cons_run_iff, fitsText_append_run_iff plain]
  constructor
  · rintro ⟨front, back, rfl, begins⟩
    exact begins.isInfix.trans (List.suffix_append front back).isInfix
  · rintro ⟨front, back, rfl⟩
    exact ⟨front, literal ++ back, List.append_assoc _ _ _, List.prefix_append literal back⟩

end ApiDocs.Wildcard
