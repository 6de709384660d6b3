import ApiDocs.Proofs.Example.Import
import ApiDocs.Proofs.Text.Blank

/-!
# Import declarations

An import declaration within a line: the names that it binds, as a default, for a module as a
whole or in a list, and the module that it imports them from.  In front of the specifier it
has no quote, and it goes on to the end of the line at most.
-/

namespace ApiDocs.Example

open Text (isBlank isBlankText)

/-! ## Import declarations -/

/-- Symbols within a line and without quotes. -/
def IsPlain (text : Text) : Prop :=
  ∀ symbol ∈ text, isQuote symbol = false ∧ symbol ≠ '\n'

instance (text : Text) : Decidable (IsPlain text) :=
  inferInstanceAs (Decidable (∀ symbol ∈ text, isQuote symbol = false ∧ symbol ≠ '\n'))

theorem IsPlain.append {first second : Text} (left : IsPlain first) (right : IsPlain second) :
    IsPlain (first ++ second) :=
  List.forall_mem_append.mpr ⟨left, right⟩

theorem IsPlain.hasNoQuote {text : Text} (plain : IsPlain text) : HasNoQuote text :=
  fun symbol member => (plain symbol member).1

/-- Blanks within a line, or nothing. -/
structure Space where
  text : Text
  isBlankText_text : isBlankText text = true
  oneLine : Symbol.char '\n' ∉ text

/-- One blank or more within a line. -/
structure Gap extends Space where
  nonempty : text ≠ []

/-- A symbol of a name: neither a blank nor a quote nor a mark of an import. -/
def isNameSymbol (symbol : Symbol) : Bool :=
  !isBlank symbol && !isQuote symbol && !("*,\x7b\x7d".toList.map Symbol.char).contains symbol

/-- The name of a variable. -/
structure Identifier where
  text : Text
  nonempty : text ≠ []
  isNameSymbol_text : ∀ symbol ∈ text, isNameSymbol symbol = true

/-- A name that is imported, under its own name or under another one. -/
inductive NamedImport where
  | same (name : Identifier)
  | renamed (name : Identifier) (before after : Gap) (binding : Identifier)

/-- A name in a list of imports, with the blanks around it. -/
structure ListedImport where
  before : Space
  named : NamedImport
  after : Space

/-- What stands behind the last comma of a list of imports. -/
inductive ListEnd where
  | blank (blanks : Space)
  | last (listed : ListedImport)

/-- Imports of names, or of a module as a whole. -/
inductive Bindings where
  | list (listed : List ListedImport) (ending : ListEnd)
  | whole (before after : Gap) (binding : Identifier)

/-- What an import declaration binds: a default, other bindings, or both. -/
inductive Clause where
  | first (binding : Identifier)
  | others (bindings : Bindings)
  | both (binding : Identifier) (before after : Space) (bindings : Bindings)

/-- An import declaration within a line. -/
structure ImportDeclaration where
  indent : Space
  behindImport : Gap
  clause : Clause
  beforeFrom : Gap
  behindFrom : Gap
  quote : Symbol
  specifier : Text
  isQuote_quote : isQuote quote = true
  plain : IsPlain specifier

/-! ## Their texts -/

def NamedImport.text : NamedImport → Text
  | .same name => name.text
  | .renamed name before after binding =>
    name.text ++ (before.text ++ ("as" ++ (after.text ++ binding.text)))

def ListedImport.text (listed : ListedImport) : Text :=
  listed.before.text ++ (listed.named.text ++ listed.after.text)

def ListEnd.text : ListEnd → Text
  | .blank blanks => blanks.text
  | .last listed => listed.text

/-- Imports in a list, each with a comma behind it. -/
def listText (listed : List ListedImport) : Text :=
  listed.flatMap fun item => item.text ++ ","

def Bindings.text : Bindings → Text
  | .list listed ending => "\x7b" ++ (listText listed ++ (ending.text ++ "\x7d"))
  | .whole before after binding => "*" ++ (before.text ++ ("as" ++ (after.text ++ binding.text)))

def Clause.text : Clause → Text
  | .first binding => binding.text
  | .others bindings => bindings.text
  | .both binding before after bindings =>
    binding.text ++ (before.text ++ ("," ++ (after.text ++ bindings.text)))

namespace ImportDeclaration

/-- The text in front of the specifier. -/
def lead (declaration : ImportDeclaration) : Text :=
  declaration.indent.text ++ ("import" ++ (declaration.behindImport.text ++
    (declaration.clause.text ++ (declaration.beforeFrom.text ++
      ("from" ++ declaration.behindFrom.text)))))

def text (declaration : ImportDeclaration) : Text :=
  declaration.lead ++
    declaration.quote :: (declaration.specifier ++ [declaration.quote])

end ImportDeclaration

/-! ## What they bind -/

/-- The name that an imported name is bound to. -/
def NamedImport.binding : NamedImport → Identifier
  | .same name => name
  | .renamed _ _ _ binding => binding

def ListEnd.bindings : ListEnd → List Identifier
  | .blank _ => []
  | .last listed => [listed.named.binding]

def Bindings.names : Bindings → List Identifier
  | .list listed ending => listed.map (·.named.binding) ++ ending.bindings
  | .whole _ _ binding => [binding]

def Clause.names : Clause → List Identifier
  | .first binding => [binding]
  | .others bindings => bindings.names
  | .both binding _ _ bindings => binding :: bindings.names

/-- Whether a declaration binds a name. -/
def ImportDeclaration.Binds (declaration : ImportDeclaration) (name : Text) : Prop :=
  ∃ binding ∈ declaration.clause.names, binding.text = name

/-! ## Texts within a line -/

theorem isQuote_apostrophe : isQuote '\x27' = true := rfl

theorem isBlank_of_isQuote {symbol : Symbol} (quoted : isQuote symbol = true) :
    isBlank symbol = false := by
  rw [isQuote, Bool.or_eq_true, beq_iff_eq, beq_iff_eq] at quoted
  rcases quoted with rfl | rfl <;> decide +kernel

theorem isBlankText.hasNoQuote {blanks : Text} (areBlank : isBlankText blanks = true) :
    HasNoQuote blanks := by
  intro symbol member
  cases quoted : isQuote symbol with
  | false => rfl
  | true =>
      have blank := Text.isBlankText_iff.mp areBlank symbol member
      rw [isBlank_of_isQuote quoted] at blank
      cases blank

theorem Space.isPlain (space : Space) : IsPlain space.text :=
  fun symbol member => ⟨isBlankText.hasNoQuote space.isBlankText_text symbol member,
    fun newline => space.oneLine (newline ▸ member)⟩

theorem Identifier.isPlain (name : Identifier) : IsPlain name.text := by
  intro symbol member
  have isName := name.isNameSymbol_text symbol member
  simp only [isNameSymbol, Bool.and_eq_true, Bool.not_eq_true'] at isName
  refine ⟨isName.1.2, ?_⟩
  rintro rfl
  cases isName.1.1

theorem NamedImport.isPlain (named : NamedImport) : IsPlain named.text := by
  cases named with
  | same name => exact name.isPlain
  | renamed name before after binding =>
      have word : IsPlain "as" := by decide
      exact name.isPlain.append
        (before.isPlain.append (word.append (after.isPlain.append binding.isPlain)))

theorem ListedImport.isPlain (listed : ListedImport) : IsPlain listed.text :=
  listed.before.isPlain.append (listed.named.isPlain.append listed.after.isPlain)

theorem isPlain_listText (listed : List ListedImport) : IsPlain (listText listed) := by
  intro symbol member
  obtain ⟨item, -, inItem⟩ := List.mem_flatMap.mp member
  have comma : IsPlain "," := by decide
  exact item.isPlain.append comma symbol inItem

theorem Bindings.isPlain (bindings : Bindings) : IsPlain bindings.text := by
  cases bindings with
  | list listed ending =>
      have opening : IsPlain "\x7b" := by decide
      have closing : IsPlain "\x7d" := by decide
      have last : IsPlain ending.text := by
        cases ending with
        | blank blanks => exact blanks.isPlain
        | last listed => exact listed.isPlain
      exact opening.append ((isPlain_listText listed).append (last.append closing))
  | whole before after binding =>
      have star : IsPlain "*" := by decide
      have word : IsPlain "as" := by decide
      exact star.append
        (before.isPlain.append (word.append (after.isPlain.append binding.isPlain)))

theorem Clause.isPlain (clause : Clause) : IsPlain clause.text := by
  cases clause with
  | first binding => exact binding.isPlain
  | others bindings => exact bindings.isPlain
  | both binding before after bindings =>
      have comma : IsPlain "," := by decide
      exact binding.isPlain.append
        (before.isPlain.append (comma.append (after.isPlain.append bindings.isPlain)))

theorem ImportDeclaration.isPlain_lead (declaration : ImportDeclaration) :
    IsPlain declaration.lead := by
  have keyword : IsPlain "import" := by decide
  have word : IsPlain "from" := by decide
  exact declaration.indent.isPlain.append (keyword.append
    (declaration.behindImport.isPlain.append (declaration.clause.isPlain.append
      (declaration.beforeFrom.isPlain.append (word.append declaration.behindFrom.isPlain)))))

end ApiDocs.Example
