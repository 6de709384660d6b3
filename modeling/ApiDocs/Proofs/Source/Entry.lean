import ApiDocs.Proofs.Source.Member
import ApiDocs.Source.Reader

/-!
# The declarations of a file, in the order of the source

The statements of a file declare things: one statement may declare nothing, or one thing, or a
list of variables or of export specifiers.  Each place at which something is declared is a *site*,
and the sites of a file are told from its tree alone, in the order of the source.  What is read at
a site is an *entry*.

Reading a file is proved to read an entry at each site, one after the other.  An entry depends on
its site and on the types of the names that were declared before; every list of the file that was
read consists of the entries of one kind.
-/

namespace ApiDocs

/-- What is declared at a site. -/
inductive SiteKind where
  | interface
  | typeAlias
  | function
  | classLike
  /-- A variable, and whether it keeps its value. -/
  | binding (fixed : Bool)
  | specifier
  deriving DecidableEq, Repr

/-- A place at which something is declared. -/
structure Site where
  kind : SiteKind
  exported : Bool
  /-- The comments in front of the statement, or in front of the specifier. -/
  comments : List Node
  node : Node
  /-- The statement whose text is shown. -/
  outer : Node

namespace Site

/-- The declaration itself, where the word `declare` may stand in front. -/
def declared? (node : Node) : Option Node :=
  if node.kind = "ambient_declaration" then node.firstPart? else some node

/-- The sites of a declaration. -/
def ofDeclaration (exported : Bool) (comments : List Node) (outer node : Node) : List Site :=
  match DeclarationKind.ofNode node with
  | .interface => [{ kind := .interface, exported, comments, node, outer }]
  | .typeAlias => [{ kind := .typeAlias, exported, comments, node, outer }]
  | .function => [{ kind := .function, exported, comments, node, outer }]
  | .classLike => [{ kind := .classLike, exported, comments, node, outer }]
  | .variableList =>
    (node.namedChildren.filter fun child => child.kind == "variable_declarator").map fun child =>
      { kind := .binding (Reading.isFixed node), exported, comments, node := child, outer }
  | .other => []

/-- Whether a node of an export clause is a specifier with a name. -/
def isSpecifier (node : Node) : Bool :=
  node.kind == "export_specifier" && (node.at? "name").isSome

/-- The sites of an export clause: its specifiers, each with the comments in front of it. -/
def ofClause (clause : Node) : List Site :=
  ((documentable (fun _ => false) clause.children).filter fun (_, node) => isSpecifier node).map
    fun (comments, node) =>
      { kind := .specifier, exported := true, comments, node, outer := clause }

/-- The sites of an export statement. -/
def ofExport (comments : List Node) (node : Node) : List Site :=
  match node.at? "declaration", node.at? "value" with
  | some declaration, _ =>
    (declared? declaration).toList.flatMap (ofDeclaration true comments node)
  | none, some value =>
    if isFunctionValue value.kind then
      [{ kind := .function, exported := true, comments, node := value, outer := node }]
    else if value.kind = "class" then
      [{ kind := .classLike, exported := true, comments, node := value, outer := node }]
    else []
  | none, none => (node.children.filter fun child => child.kind == "export_clause").flatMap ofClause

/-- The sites of a statement with the comments in front of it. -/
def ofStatement (comments : List Node) (node : Node) : List Site :=
  if node.kind = "export_statement" then ofExport comments node
  else (declared? node).toList.flatMap (ofDeclaration false comments node)

end Site

/-- The statements of a file, each with the comments in front of it. -/
def statementNodes (root : Node) : List (List Node × Node) :=
  documentable (fun child => child.kind == "hash_bang_line") root.children

/-- The sites of a file. -/
def Site.ofTree (root : Node) : List Site :=
  (statementNodes root).flatMap fun (comments, node) => ofStatement comments node

/-- What is read at a site. -/
inductive SiteEntry where
  | interface (declaration : TypeDeclaration)
  | typeAlias (declaration : TypeDeclaration)
  /-- One form of a function, and the type of the function if it has a name. -/
  | function (form : FunctionForm) (type : Text)
  | classLike (declaration : ClassDeclaration)
  | binding (declaration : VariableDeclaration)
  | specifier (name localName : Text) (comments : List Text)
  deriving DecidableEq, Repr

namespace SiteEntry

/-- The interface. -/
def interface? : SiteEntry → Option TypeDeclaration
  | interface declaration => some declaration
  | _ => none

/-- The type alias. -/
def typeAlias? : SiteEntry → Option TypeDeclaration
  | typeAlias declaration => some declaration
  | _ => none

/-- The form of a function. -/
def form? : SiteEntry → Option FunctionForm
  | function form _ => some form
  | _ => none

/-- The class. -/
def class? : SiteEntry → Option ClassDeclaration
  | classLike declaration => some declaration
  | _ => none

/-- The variable. -/
def binding? : SiteEntry → Option VariableDeclaration
  | binding declaration => some declaration
  | _ => none

/-- The names and the comments of a specifier. -/
def specifier? : SiteEntry → Option (Text × Text × List Text)
  | specifier name localName comments => some (name, localName, comments)
  | _ => none

/-- Whether the entry is a variable. -/
def isBinding (entry : SiteEntry) : Bool :=
  entry.binding?.isSome

/-- The name that the entry gives a type; an empty name counts as no name. -/
def name? : SiteEntry → Option Text
  | interface declaration | typeAlias declaration => some declaration.name
  | function form _ => Reading.given form.call.name
  | classLike declaration => Reading.given declaration.name
  | binding declaration => Reading.given declaration.name
  | specifier .. => none

/-- The type that a name has as the name of the entry. -/
def typeOf (name : Text) : SiteEntry → Text
  | interface _ | typeAlias _ => name
  | function _ type => type
  | classLike _ => "typeof " ++ name
  | binding declaration => declaration.typeText
  | specifier .. => TypeText.unknown

/-- The types of the names behind the entry. -/
def declareIn (scope : Scope) (entry : SiteEntry) : Scope :=
  match entry.name? with
  | none => scope
  | some name =>
    if entry.isBinding then scope.declare name (entry.typeOf name)
    else scope.declareOnce name (entry.typeOf name)

/-- The type of a form of a function, which only a function with a name has. -/
def formType (source : SourceBytes) (name : Option Text) (node : Node) : Except Fault Text :=
  match Reading.given name with
  | none => .ok TypeText.unknown
  | some _ => TypeText.function source node

end SiteEntry

/-- At a site an entry is read, where some names have types already. -/
inductive Site.Gives (source : SourceBytes) (scope : Scope) (site : Site) : SiteEntry → Prop where
  | interface {jsdocs : List Text} {name : Option Text} {text : Text}
      (isKind : site.kind = .interface)
      (documented : jsdocsOf source site.comments = .ok jsdocs)
      (named : source.textAt? site.node "name" = .ok name)
      (shown : source.textOf site.outer = .ok text) :
      Gives source scope site
        (.interface { name := name.getD "", text, exported := site.exported, jsdocs })
  | typeAlias {jsdocs : List Text} {name : Option Text} {text : Text}
      (isKind : site.kind = .typeAlias)
      (documented : jsdocsOf source site.comments = .ok jsdocs)
      (named : source.textAt? site.node "name" = .ok name)
      (shown : source.textOf site.outer = .ok text) :
      Gives source scope site
        (.typeAlias { name := name.getD "", text, exported := site.exported, jsdocs })
  | function {jsdocs : List Text} {name : Option Text} {call : CallForm} {type : Text}
      (isKind : site.kind = .function)
      (documented : jsdocsOf source site.comments = .ok jsdocs)
      (named : source.textAt? site.node "name" = .ok name)
      (made : callForm source name site.node site.outer jsdocs = .ok call)
      (typed : SiteEntry.formType source name site.node = .ok type) :
      Gives source scope site
        (.function
          { call, implements := (site.node.at? "body").isSome, exported := site.exported } type)
  | classLike {jsdocs : List Text} {declaration : ClassDeclaration}
      (isKind : site.kind = .classLike)
      (documented : jsdocsOf source site.comments = .ok jsdocs)
      (made : ClassDeclaration.ofNode source scope site.exported jsdocs site.node =
        .ok declaration) :
      Gives source scope site (.classLike declaration)
  | binding {jsdocs : List Text} {fixed : Bool} {name : Option Text} {typeText : Text}
      (isKind : site.kind = .binding fixed)
      (documented : jsdocsOf source site.comments = .ok jsdocs)
      (named : Reading.variableName source site.node = .ok name)
      (typed : declaredType source scope fixed site.node = .ok typeText) :
      Gives source scope site
        (.binding
          { name, typeText, jsdocs
            hasInitializer := (site.node.at? "value").isSome
            isFunction := Reading.holdsFunction site.node
            exported := site.exported })
  | specifier {nameNode : Node} {localName : Text} {newName : Option Text} {texts : List Text}
      (isKind : site.kind = .specifier)
      (hasName : site.node.at? "name" = some nameNode)
      (named : source.textOf nameNode = .ok localName)
      (renamed : source.textAt? site.node "alias" = .ok newName)
      (commented : source.textsOf site.comments = .ok texts) :
      Gives source scope site (.specifier (newName.getD localName) localName texts)

/-- A class that is read at a site is made of the entries of its members. -/
theorem Site.Gives.exists_members {source : SourceBytes} {scope : Scope} {site : Site}
    {declaration : ClassDeclaration} (given : site.Gives source scope (.classLike declaration)) :
    ∃ members, declaration.IsMadeOf members ∧
      List.Forall₂ (fun pair => MemberEntry.IsOf source scope pair.1 pair.2)
        (ClassDeclaration.memberNodes site.node) members := by
  cases given with
  | classLike _ _ made =>
      obtain ⟨-, -, -, members, areOf, isMadeOf⟩ := ClassDeclaration.exists_memberEntries made
      exact ⟨members, isMadeOf, areOf⟩

/-- At sites entries are read one after the other, where each entry may give a name its type. -/
inductive Site.GiveAll (source : SourceBytes) : Scope → List Site → List SiteEntry → Prop where
  | nil {scope : Scope} : GiveAll source scope [] []
  | cons {scope : Scope} {site : Site} {entry : SiteEntry} {sites : List Site}
      {entries : List SiteEntry}
      (first : site.Gives source scope entry)
      (others : GiveAll source (entry.declareIn scope) sites entries) :
      GiveAll source scope (site :: sites) (entry :: entries)

namespace Site.GiveAll

variable {source : SourceBytes} {scope : Scope} {sites more : List Site}
variable {entries further : List SiteEntry}

theorem append (first : GiveAll source scope sites entries)
    (others : GiveAll source (entries.foldl SiteEntry.declareIn scope) more further) :
    GiveAll source scope (sites ++ more) (entries ++ further) := by
  induction first with
  | nil => exact others
  | cons head _ ih => exact .cons head (ih others)

/-- The entries are those of the sites, one for each. -/
theorem forall₂ (given : GiveAll source scope sites entries) :
    List.Forall₂ (fun site entry => ∃ scope, Site.Gives source scope site entry) sites entries := by
  induction given with
  | nil => exact .nil
  | cons first _ ih => exact .cons ⟨_, first⟩ ih

/-- The types that are known at an entry are those of the entries before it. -/
theorem gives_of_getElem? {index : Nat} {site : Site} {entry : SiteEntry}
    (given : GiveAll source scope sites entries) (isSite : sites[index]? = some site)
    (isEntry : entries[index]? = some entry) :
    Site.Gives source ((entries.take index).foldl SiteEntry.declareIn scope) site entry := by
  induction given generalizing index with
  | nil => cases isSite
  | cons first _ ih =>
      cases index with
      | zero =>
          cases isSite
          cases isEntry
          exact first
      | succ index => exact ih isSite isEntry

end Site.GiveAll

namespace Reading

variable {source : SourceBytes} {reading next last : Reading} {exported fixed : Bool}
variable {comments : List Node} {jsdocs : List Text} {node outer : Node}

/-- Adds one more entry to what has been read. -/
def push (reading : Reading) (entry : SiteEntry) : Reading :=
  let scope := entry.declareIn reading.scope
  match entry with
  | .interface declaration =>
    { reading with interfaces := reading.interfaces ++ [declaration], scope }
  | .typeAlias declaration =>
    { reading with typeAliases := reading.typeAliases ++ [declaration], scope }
  | .function form _ => { reading with functionForms := reading.functionForms ++ [form], scope }
  | .classLike declaration => { reading with classes := reading.classes ++ [declaration], scope }
  | .binding declaration =>
    { reading with variableList := reading.variableList ++ [declaration], scope }
  | .specifier name localName comments =>
    { reading with specifiers := reading.specifiers ++ [(name, localName, comments)], scope }

theorem foldl_push (reading : Reading) (entries : List SiteEntry) :
    entries.foldl push reading =
      { interfaces := reading.interfaces ++ entries.filterMap SiteEntry.interface?
        typeAliases := reading.typeAliases ++ entries.filterMap SiteEntry.typeAlias?
        variableList := reading.variableList ++ entries.filterMap SiteEntry.binding?
        classes := reading.classes ++ entries.filterMap SiteEntry.class?
        functionForms := reading.functionForms ++ entries.filterMap SiteEntry.form?
        specifiers := reading.specifiers ++ entries.filterMap SiteEntry.specifier?
        scope := entries.foldl SiteEntry.declareIn reading.scope } := by
  induction entries generalizing reading with
  | nil => simp
  | cons entry rest ih =>
      rw [List.foldl_cons, ih]
      cases entry <;>
        simp [push, List.filterMap_cons, SiteEntry.interface?, SiteEntry.typeAlias?,
          SiteEntry.binding?, SiteEntry.class?, SiteEntry.form?, SiteEntry.specifier?]

/-- Reading goes on at some sites. -/
def Takes (source : SourceBytes) (reading : Reading) (sites : List Site) (next : Reading) : Prop :=
  ∃ entries, Site.GiveAll source reading.scope sites entries ∧ next = entries.foldl push reading

namespace Takes

theorem nil : reading.Takes source [] reading :=
  ⟨[], .nil, rfl⟩

theorem single {site : Site} {entry : SiteEntry} (given : site.Gives source reading.scope entry)
    (pushed : next = reading.push entry) : reading.Takes source [site] next :=
  ⟨[entry], .cons given .nil, pushed⟩

theorem append {sites more : List Site} (first : reading.Takes source sites next)
    (others : next.Takes source more last) : reading.Takes source (sites ++ more) last := by
  obtain ⟨entries, given, rfl⟩ := first
  obtain ⟨further, givenBehind, rfl⟩ := others
  refine ⟨entries ++ further, given.append ?_, List.foldl_append.symm⟩
  simpa only [foldl_push] using givenBehind

end Takes

/-! ## One declaration -/

theorem takes_of_addInterface (documented : jsdocsOf source comments = .ok jsdocs)
    (read : reading.addInterface source exported jsdocs node outer = .ok next) :
    reading.Takes source [{ kind := .interface, exported, comments, node, outer }] next := by
  rw [addInterface] at read
  obtain ⟨name, named, read⟩ := bind_eq_ok_iff.mp read
  obtain ⟨text, shown, read⟩ := bind_eq_ok_iff.mp read
  cases read
  exact .single (.interface rfl documented named shown) rfl

theorem takes_of_addTypeAlias (documented : jsdocsOf source comments = .ok jsdocs)
    (read : reading.addTypeAlias source exported jsdocs node outer = .ok next) :
    reading.Takes source [{ kind := .typeAlias, exported, comments, node, outer }] next := by
  rw [addTypeAlias] at read
  obtain ⟨name, named, read⟩ := bind_eq_ok_iff.mp read
  obtain ⟨text, shown, read⟩ := bind_eq_ok_iff.mp read
  cases read
  exact .single (.typeAlias rfl documented named shown) rfl

theorem name_of_callForm {name : Option Text} {call : CallForm}
    (made : callForm source name node outer jsdocs = .ok call) :
    call.name = name ∧ call.jsdocs = jsdocs := by
  rw [callForm] at made
  obtain ⟨text, -, made⟩ := bind_eq_ok_iff.mp made
  obtain ⟨start, -, made⟩ := bind_eq_ok_iff.mp made
  cases body : node.at? "body" with
  | none =>
      rw [body] at made
      cases made
      exact ⟨rfl, rfl⟩
  | some bodyNode =>
      rw [body] at made
      obtain ⟨bodyStart, -, made⟩ := bind_eq_ok_iff.mp made
      cases made
      exact ⟨rfl, rfl⟩

theorem takes_of_addFunction (documented : jsdocsOf source comments = .ok jsdocs)
    (read : reading.addFunction source exported jsdocs node outer = .ok next) :
    reading.Takes source [{ kind := .function, exported, comments, node, outer }] next := by
  rw [addFunction] at read
  obtain ⟨name, named, read⟩ := bind_eq_ok_iff.mp read
  obtain ⟨call, made, read⟩ := bind_eq_ok_iff.mp read
  obtain ⟨isName, -⟩ := name_of_callForm made
  cases known : given name with
  | none =>
      have typed : SiteEntry.formType source name node = .ok TypeText.unknown := by
        rw [SiteEntry.formType, known]
      simp only [known] at read
      cases read
      apply Takes.single (.function rfl documented named made typed)
      simp [push, SiteEntry.declareIn, SiteEntry.name?, isName, known]
  | some shortName =>
      simp only [known] at read
      obtain ⟨type, hasType, read⟩ := bind_eq_ok_iff.mp read
      have typed : SiteEntry.formType source name node = .ok type := by
        rw [SiteEntry.formType, known]
        exact hasType
      cases read
      apply Takes.single (.function rfl documented named made typed)
      simp [push, SiteEntry.declareIn, SiteEntry.name?, SiteEntry.typeOf, SiteEntry.isBinding,
        SiteEntry.binding?, isName, known]

theorem takes_of_addClass (documented : jsdocsOf source comments = .ok jsdocs)
    (read : reading.addClass source exported jsdocs node = .ok next) :
    reading.Takes source [{ kind := .classLike, exported, comments, node, outer }] next := by
  rw [addClass] at read
  obtain ⟨declaration, made, read⟩ := bind_eq_ok_iff.mp read
  apply Takes.single (.classLike rfl documented made)
  cases known : given declaration.name with
  | none =>
      simp only [known] at read
      cases read
      simp [push, SiteEntry.declareIn, SiteEntry.name?, known]
  | some name =>
      simp only [known] at read
      cases read
      simp [push, SiteEntry.declareIn, SiteEntry.name?, SiteEntry.typeOf, SiteEntry.isBinding,
        SiteEntry.binding?, known]

theorem takes_of_addVariable (documented : jsdocsOf source comments = .ok jsdocs)
    (read : reading.addVariable source exported fixed jsdocs node = .ok next) :
    reading.Takes source [{ kind := .binding fixed, exported, comments, node, outer }] next := by
  rw [addVariable] at read
  obtain ⟨name, named, read⟩ := bind_eq_ok_iff.mp read
  obtain ⟨typeText, typed, read⟩ := bind_eq_ok_iff.mp read
  apply Takes.single (.binding rfl documented named typed)
  cases known : given name with
  | none =>
      simp only [known] at read
      cases read
      simp [push, SiteEntry.declareIn, SiteEntry.name?, known]
  | some shortName =>
      simp only [known] at read
      cases read
      simp [push, SiteEntry.declareIn, SiteEntry.name?, SiteEntry.typeOf, SiteEntry.isBinding,
        SiteEntry.binding?, known]

theorem takes_of_addVariables (documented : jsdocsOf source comments = .ok jsdocs)
    {nodes : List Node}
    (read : reading.addVariables source exported fixed jsdocs nodes = .ok next) :
    reading.Takes source
      (nodes.map fun node => { kind := .binding fixed, exported, comments, node, outer }) next := by
  induction nodes generalizing reading with
  | nil =>
      cases read
      exact .nil
  | cons node rest ih =>
      obtain ⟨middle, first, others⟩ := bind_eq_ok_iff.mp read
      rw [List.map_cons, ← List.singleton_append]
      exact (takes_of_addVariable documented first).append (ih others)

theorem takes_of_addDeclaration (documented : jsdocsOf source comments = .ok jsdocs)
    (read : reading.addDeclaration source exported jsdocs node outer = .ok next) :
    reading.Takes source (Site.ofDeclaration exported comments outer node) next := by
  rw [addDeclaration] at read
  rw [Site.ofDeclaration]
  cases kind : DeclarationKind.ofNode node with
  | interface =>
      rw [kind] at read
      exact takes_of_addInterface documented read
  | typeAlias =>
      rw [kind] at read
      exact takes_of_addTypeAlias documented read
  | function =>
      rw [kind] at read
      exact takes_of_addFunction documented read
  | classLike =>
      rw [kind] at read
      exact takes_of_addClass documented read
  | variableList =>
      rw [kind] at read
      exact takes_of_addVariables documented read
  | other =>
      rw [kind] at read
      cases read
      exact .nil

/-! ## Export clauses -/

theorem takes_of_addSpecifiers {clause : Node} {pairs : List (List Node × Node)}
    (read : reading.addSpecifiers source pairs = .ok next) :
    reading.Takes source
      ((pairs.filter fun pair => Site.isSpecifier pair.2).map fun (comments, node) =>
        { kind := .specifier, exported := true, comments, node, outer := clause }) next := by
  induction pairs generalizing reading with
  | nil =>
      cases read
      exact .nil
  | cons pair rest ih =>
      obtain ⟨comments, node⟩ := pair
      rw [addSpecifiers] at read
      split at read
      · rename_i nameNode isSpecifier hasName
        obtain ⟨localName, named, read⟩ := bind_eq_ok_iff.mp read
        obtain ⟨newName, renamed, read⟩ := bind_eq_ok_iff.mp read
        obtain ⟨texts, commented, read⟩ := bind_eq_ok_iff.mp read
        have listed : Site.isSpecifier node = true := by
          simp [Site.isSpecifier, isSpecifier, hasName]
        simp only [List.filter_cons, listed, if_true, List.map_cons]
        rw [← List.singleton_append]
        exact (Takes.single (.specifier rfl hasName named renamed commented) rfl).append (ih read)
      · rename_i notSpecifier
        have leftOut : ¬Site.isSpecifier node = true := by
          intro listed
          rw [Site.isSpecifier, Bool.and_eq_true, Option.isSome_iff_exists] at listed
          obtain ⟨isSpecifier, nameNode, hasName⟩ := listed
          exact notSpecifier nameNode isSpecifier hasName
        simp only [List.filter_cons, leftOut]
        exact ih read

theorem takes_of_addClauses {nodes : List Node}
    (read : reading.addClauses source nodes = .ok next) :
    reading.Takes source
      ((nodes.filter fun child => child.kind == "export_clause").flatMap Site.ofClause) next := by
  induction nodes generalizing reading with
  | nil =>
      cases read
      exact .nil
  | cons node rest ih =>
      rw [addClauses] at read
      split at read
      · rename_i isClause
        obtain ⟨middle, clause, others⟩ := bind_eq_ok_iff.mp read
        rw [attachComments_eq_documentable] at clause
        rw [List.filter_cons_of_pos (by simp [isClause]), List.flatMap_cons]
        exact (takes_of_addSpecifiers clause).append (ih others)
      · rename_i noClause
        rw [List.filter_cons_of_neg (by simp [noClause])]
        exact ih read

/-! ## Statements -/

/-- A declaration is read with or without the word `declare` in front. -/
theorem takes_of_declared (documented : jsdocsOf source comments = .ok jsdocs)
    (read : (if node.kind = "ambient_declaration" then
        match node.firstPart? with
        | none => .ok reading
        | some inner => reading.addDeclaration source exported jsdocs inner outer
      else reading.addDeclaration source exported jsdocs node outer) = .ok next) :
    reading.Takes source
      ((Site.declared? node).toList.flatMap (Site.ofDeclaration exported comments outer)) next := by
  rw [Site.declared?]
  split at read
  · rename_i isAmbient
    rw [if_pos isAmbient]
    cases part : node.firstPart? with
    | none =>
        rw [part] at read
        cases read
        exact .nil
    | some inner =>
        rw [part] at read
        rw [Option.toList_some, List.flatMap_singleton]
        exact takes_of_addDeclaration documented read
  · rename_i notAmbient
    rw [if_neg notAmbient, Option.toList_some, List.flatMap_singleton]
    exact takes_of_addDeclaration documented read

theorem takes_of_addExport (documented : jsdocsOf source comments = .ok jsdocs)
    (read : reading.addExport source jsdocs node = .ok next) :
    reading.Takes source (Site.ofExport comments node) next := by
  rw [addExport] at read
  rw [Site.ofExport]
  cases declaration : node.at? "declaration" with
  | some inner =>
      simp only [declaration] at read
      exact takes_of_declared documented read
  | none =>
      cases value : node.at? "value" with
      | none =>
          simp only [declaration, value] at read
          exact takes_of_addClauses read
      | some inner =>
          simp only [declaration, value] at read ⊢
          split at read
          · rename_i isFunction
            rw [if_pos isFunction]
            exact takes_of_addFunction documented read
          · rename_i notFunction
            rw [if_neg notFunction]
            split at read
            · rename_i isClass
              rw [if_pos isClass]
              exact takes_of_addClass documented read
            · rename_i notClass
              rw [if_neg notClass]
              cases read
              exact .nil

theorem takes_of_addStatement (read : reading.addStatement source comments node = .ok next) :
    reading.Takes source (Site.ofStatement comments node) next := by
  obtain ⟨jsdocs, documented, read⟩ := bind_eq_ok_iff.mp read
  rw [Site.ofStatement]
  split at read
  · rename_i isExport
    rw [if_pos isExport]
    exact takes_of_addExport documented read
  · rename_i notExport
    rw [if_neg notExport]
    exact takes_of_declared documented read

theorem takes_of_addStatements {pairs : List (List Node × Node)}
    (read : reading.addStatements source pairs = .ok next) :
    reading.Takes source (pairs.flatMap fun (comments, node) => Site.ofStatement comments node)
      next := by
  induction pairs generalizing reading with
  | nil =>
      cases read
      exact .nil
  | cons pair rest ih =>
      obtain ⟨comments, node⟩ := pair
      obtain ⟨middle, first, others⟩ := bind_eq_ok_iff.mp read
      rw [List.flatMap_cons]
      exact (takes_of_addStatement first).append (ih others)

end Reading

namespace SourceFile

/-- A file has the declarations of some entries, in their order. -/
structure IsMadeOf (file : SourceFile) (entries : List SiteEntry) : Prop where
  interfaces : file.interfaces = entries.filterMap SiteEntry.interface?
  typeAliases : file.typeAliases = entries.filterMap SiteEntry.typeAlias?
  functions : file.functions = FunctionForm.functions (entries.filterMap SiteEntry.form?)
  variableList : file.variableList = entries.filterMap SiteEntry.binding?
  classes : file.classes = entries.filterMap SiteEntry.class?
  exports : file.exports.map (fun specifier =>
      (specifier.name, specifier.localName, specifier.leadingComments)) =
    entries.filterMap SiteEntry.specifier?

theorem statements_eq_statementNodes (root : Node) : statements root = statementNodes root :=
  attachComments_eq_documentable _ root.children

/-- A file is made of the entries that are read at the sites of its tree. -/
theorem exists_entries {path : Text} {source : SourceBytes} {root : Node} {file : SourceFile}
    (read : ofTree path source root = .ok file) :
    leadingOf source (statementNodes root) = .ok file.leadingComments ∧
      ∃ entries, Site.GiveAll source [] (Site.ofTree root) entries ∧ file.IsMadeOf entries ∧
        ∀ specifier ∈ file.exports,
          specifier.typeText =
            ((entries.foldl SiteEntry.declareIn []).typeOf? specifier.localName).getD
              TypeText.unknown := by
  rw [ofTree, statements_eq_statementNodes] at read
  obtain ⟨leading, led, read⟩ := bind_eq_ok_iff.mp read
  obtain ⟨reading, made, read⟩ := bind_eq_ok_iff.mp read
  cases read
  obtain ⟨entries, given, rfl⟩ := Reading.takes_of_addStatements made
  refine ⟨led, entries, given, ?_, ?_⟩
  · constructor <;> simp [Reading.foldl_push, Function.comp_def]
  · intro specifier listed
    obtain ⟨⟨name, localName, comments⟩, -, rfl⟩ := List.mem_map.mp listed
    simp only [Reading.foldl_push]

end SourceFile

end ApiDocs
