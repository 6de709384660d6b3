import Mathlib.Data.List.Forall2
import ApiDocs.Proofs.Source.Entry

/-!
# What a name stands for

The type of a name is told from the declarations of a file, wherever they stand: the last variable
of that name gives its type, and if no variable has the name, the first other declaration of that
name does.  Types are looked up in a table that is filled while the file is read; the table always
holds what this rule says about the declarations read so far.

Export specifiers are resolved with the whole table, so that it does not matter whether they stand
before or after the declarations.  A variable whose value is a name gets the type that the name
has where the variable stands.
-/

namespace ApiDocs

namespace SiteEntry

/-- Whether the entry declares a variable of the given name. -/
def bindsName (name : Text) (entry : SiteEntry) : Bool :=
  entry.isBinding && entry.name? == some name

/-- Whether the entry declares something else of the given name. -/
def declaresName (name : Text) (entry : SiteEntry) : Bool :=
  !entry.isBinding && entry.name? == some name

/-- The declaration that a name stands for: the last variable, or else the first one. -/
def declarationOf? (name : Text) (entries : List SiteEntry) : Option SiteEntry :=
  (entries.reverse.find? (bindsName name)).or (entries.find? (declaresName name))

/-- The type of a name; nothing is known of a name without a declaration. -/
def typeAmong (name : Text) (entries : List SiteEntry) : Text :=
  ((declarationOf? name entries).map (typeOf name)).getD TypeText.unknown

variable {name : Text} {entry : SiteEntry} {entries : List SiteEntry} {scope : Scope}

theorem typeOf?_cons (scope : Scope) (name other type : Text) :
    Scope.typeOf? ((other, type) :: scope) name =
      if other = name then some type else scope.typeOf? name := by
  rw [Scope.typeOf?, List.lookup_cons]
  by_cases same : name = other
  · simp [same]
  · rw [if_neg (Ne.symm same), beq_false_of_ne same]
    rfl

/-- What one more entry changes in the table of types. -/
theorem typeOf?_declareIn :
    (entry.declareIn scope).typeOf? name =
      if entry.bindsName name then some (entry.typeOf name)
      else if entry.declaresName name then (scope.typeOf? name).or (some (entry.typeOf name))
      else scope.typeOf? name := by
  rw [declareIn, bindsName, declaresName]
  cases entry.name? with
  | none => simp
  | some other =>
      by_cases same : other = name
      · subst same
        cases entry.isBinding with
        | true => simp
        | false =>
            simp only [Scope.declareOnce]
            cases known : scope.typeOf? other with
            | none => simp [typeOf?_cons]
            | some type => simp [known]
      · cases entry.isBinding with
        | true => simp [Scope.declare, typeOf?_cons, same]
        | false =>
            simp only [Scope.declareOnce]
            cases scope.typeOf? other with
            | none => simp [typeOf?_cons, same]
            | some type => simp [same]

/-- What one more entry changes in the declaration of a name. -/
theorem declarationOf?_concat :
    declarationOf? name (entries ++ [entry]) =
      if entry.bindsName name then some entry
      else if entry.declaresName name then (declarationOf? name entries).or (some entry)
      else declarationOf? name entries := by
  rw [declarationOf?, List.reverse_concat, List.find?_cons, List.find?_append]
  cases entry.bindsName name with
  | true => rfl
  | false =>
      rw [declarationOf?]
      cases declares : entry.declaresName name with
      | true => simp [declares]
      | false => simp [declares]

/-- The table holds the types of the declarations that the names stand for. -/
theorem typeOf?_foldl_declareIn :
    (entries.foldl declareIn []).typeOf? name =
      (declarationOf? name entries).map (typeOf name) := by
  induction entries using List.reverseRecOn with
  | nil => rfl
  | append_singleton entries entry ih =>
      rw [List.foldl_append, List.foldl_cons, List.foldl_nil, typeOf?_declareIn,
        declarationOf?_concat, ih]
      split
      · rfl
      · split
        · cases declarationOf? name entries <;> rfl
        · rfl

end SiteEntry

/-- A name as a value has the type with which it was declared before. -/
theorem TypeText.infer_identifier {source : SourceBytes} {scope : Scope} {fixed : Bool}
    {node : Node} (isName : node.kind = "identifier") :
    infer source scope fixed node = named source scope node := by
  cases node with
  | mk kind flag start stop field children =>
      subst isName
      rfl

/-! ## The whole file -/

/-- A variable whose value is a name has the type that the name has where the variable stands. -/
def VariableDeclaration.Follows (source : SourceBytes) (site : Site) (before : List SiteEntry)
    (declaration : VariableDeclaration) : Prop :=
  ∀ value, site.node.at? "type" = none → site.node.at? "value" = some value →
    value.kind = "identifier" →
      ∃ name, source.textOf value = .ok name ∧
        (name ≠ "undefined" → declaration.typeText = SiteEntry.typeAmong name before)

/-- The names in a file stand for the declarations that the rule says. -/
structure SourceFile.Resolves (source : SourceBytes) (root : Node) (file : SourceFile)
    (entries : List SiteEntry) : Prop where
  madeOf : file.IsMadeOf entries
  given : List.Forall₂ (fun site entry => ∃ scope, site.Gives source scope entry)
    (Site.ofTree root) entries
  exports : ∀ specifier ∈ file.exports,
    specifier.typeText = SiteEntry.typeAmong specifier.localName entries
  variableList : ∀ (index : Nat) (site : Site) (declaration : VariableDeclaration),
    (Site.ofTree root)[index]? = some site → entries[index]? = some (.binding declaration) →
      declaration.Follows source site (entries.take index)

theorem Site.Gives.follows {source : SourceBytes} {site : Site} {before : List SiteEntry}
    {declaration : VariableDeclaration}
    (given : site.Gives source (before.foldl SiteEntry.declareIn []) (.binding declaration)) :
    declaration.Follows source site before := by
  intro value noType hasValue isName
  cases given with
  | binding _ _ _ typed =>
      rw [declaredType, noType, hasValue] at typed
      dsimp only at typed
      rw [TypeText.infer_identifier isName] at typed
      obtain ⟨name, shown, typed⟩ := bind_eq_ok_iff.mp typed
      refine ⟨name, shown, fun notUndefined => ?_⟩
      rw [if_neg notUndefined] at typed
      cases typed
      rw [SiteEntry.typeOf?_foldl_declareIn]
      rfl

/--
An export specifier has the type of the name that it exports: the type of the last variable of
that name in the file, or else the one that the first function, class, interface or type alias of
that name has, or else the unknown type, wherever the specifier stands.  A variable without an
annotation whose value is a name has the type that the same rule finds among the declarations in
front of the variable.
-/
theorem SourceFile.names_resolve {path : Text} {source : SourceBytes} {root : Node}
    {file : SourceFile} (read : ofTree path source root = .ok file) :
    ∃ entries, file.Resolves source root entries := by
  obtain ⟨-, entries, given, isMadeOf, typed⟩ := exists_entries read
  refine ⟨entries, isMadeOf, given.forall₂, fun specifier listed => ?_, ?_⟩
  · rw [typed specifier listed, SiteEntry.typeOf?_foldl_declareIn]
    rfl
  · intro index site declaration isSite isEntry
    exact (given.gives_of_getElem? isSite isEntry).follows

def sharedNameSource : SourceBytes :=
  Text.Utf8.encode ("export \x7b a, b, C \x7d\nconst b = f\nfunction f(x) \x7b\x7d\n" ++
    "const a = f\ninterface C \x7b\x7d\nclass C \x7b\x7d\nclass a \x7b\x7d\n")

/-- An export clause in front of what it names, where two names are declared twice. -/
def sharedNameFile : Node :=
  .mk "program" true 0 97 none
    [.mk "export_statement" true 0 18 none
        [.mk "export" false 0 6 none [],
          .mk "export_clause" true 7 18 none
            [.mk "export_specifier" true 9 10 none
                [.mk "identifier" true 9 10 (some "name") []],
              .mk "," false 10 11 none [],
              .mk "export_specifier" true 12 13 none
                [.mk "identifier" true 12 13 (some "name") []],
              .mk "," false 13 14 none [],
              .mk "export_specifier" true 15 16 none
                [.mk "identifier" true 15 16 (some "name") []]]],
      .mk "lexical_declaration" true 19 30 none
        [.mk "const" false 19 24 none [],
          .mk "variable_declarator" true 25 30 none
            [.mk "identifier" true 25 26 (some "name") [], .mk "=" false 27 28 none [],
              .mk "identifier" true 29 30 (some "value") []]],
      .mk "function_declaration" true 31 47 none
        [.mk "function" false 31 39 none [], .mk "identifier" true 40 41 (some "name") [],
          .mk "formal_parameters" true 41 44 (some "parameters") [],
          .mk "statement_block" true 45 47 (some "body") []],
      .mk "lexical_declaration" true 48 59 none
        [.mk "const" false 48 53 none [],
          .mk "variable_declarator" true 54 59 none
            [.mk "identifier" true 54 55 (some "name") [], .mk "=" false 56 57 none [],
              .mk "identifier" true 58 59 (some "value") []]],
      .mk "interface_declaration" true 60 74 none
        [.mk "interface" false 60 69 none [], .mk "type_identifier" true 70 71 (some "name") [],
          .mk "interface_body" true 72 74 (some "body") []],
      .mk "class_declaration" true 75 85 none
        [.mk "class" false 75 80 none [], .mk "type_identifier" true 81 82 (some "name") [],
          .mk "class_body" true 83 85 (some "body") []],
      .mk "class_declaration" true 86 96 none
        [.mk "class" false 86 91 none [], .mk "type_identifier" true 92 93 (some "name") [],
          .mk "class_body" true 94 96 (some "body") []]]

/-- The types of the exports and of the variables in a file. -/
def SourceFile.types (file : SourceFile) : List Text :=
  file.exports.map ExportSpecifier.typeText ++
    file.variableList.map VariableDeclaration.typeText

def sharedNameTypes : List Text :=
  ["(x) => any", "any", "C", "any", "(x) => any"]

/-- The variable and the interface go before the classes; the first variable knows no function. -/
theorem sharedNameFile_names_resolve :
    ∃ file, SourceFile.ofTree "a.ts" sharedNameSource sharedNameFile = .ok file ∧
      file.types = sharedNameTypes ∧
      ∃ entries, file.Resolves sharedNameSource sharedNameFile entries := by
  have typed : ((SourceFile.ofTree "a.ts" sharedNameSource sharedNameFile).map
      SourceFile.types).toOption = some sharedNameTypes := by
    decide +kernel
  obtain ⟨file, read, same⟩ := exists_of_toOption_map typed
  exact ⟨file, read, same, SourceFile.names_resolve read⟩

end ApiDocs
