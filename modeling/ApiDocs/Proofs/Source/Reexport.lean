import Mathlib.Data.List.SplitLengths
import ApiDocs.Proofs.Source.Resolution

/-!
# Names exported from another module

A statement can export names that another module declares.  The names of such a statement are read
like those that the file declares itself: they get the types of the declarations of the file that
happen to have the same names.

To see what a statement owes to the declarations around it, two files are compared that have the
same statements but for those that declare something.  The other statements may have moved, so that
nodes are compared by what they are and say, and not by where they stand.
-/

namespace ApiDocs

/-- Two nodes, each of its own source, that are told apart by their places only. -/
inductive Node.IsMoved (source other : SourceBytes) : Node → Node → Prop where
  | intro {node moved : Node} (kind : node.kind = moved.kind)
      (isNamed : node.isNamed = moved.isNamed) (field : node.field = moved.field)
      (shown : source.textOf node = other.textOf moved)
      (below : List.Forall₂ (IsMoved source other) node.children moved.children) :
      IsMoved source other node moved

section Moved

variable {source other : SourceBytes} {node moved : Node} {nodes movedNodes : List Node}

namespace Node.IsMoved

theorem kind_eq (isMoved : node.IsMoved source other moved) : node.kind = moved.kind := by
  cases isMoved
  assumption

theorem field_eq (isMoved : node.IsMoved source other moved) : node.field = moved.field := by
  cases isMoved
  assumption

theorem textOf_eq (isMoved : node.IsMoved source other moved) :
    source.textOf node = other.textOf moved := by
  cases isMoved
  assumption

theorem children (isMoved : node.IsMoved source other moved) :
    List.Forall₂ (IsMoved source other) node.children moved.children := by
  cases isMoved
  assumption

theorem isComment_eq (isMoved : node.IsMoved source other moved) :
    node.isComment = moved.isComment := by
  rw [Node.isComment, Node.isComment, isMoved.kind_eq]

/-- The same fields are taken, by nodes that are told apart by their places only. -/
theorem at?_cases (isMoved : node.IsMoved source other moved) (field : String) :
    (node.at? field = none ∧ moved.at? field = none) ∨
      ∃ child movedChild, node.at? field = some child ∧ moved.at? field = some movedChild ∧
        child.IsMoved source other movedChild := by
  have moves := isMoved.children
  rw [Node.at?, Node.at?]
  generalize node.children = nodes, moved.children = movedNodes at moves ⊢
  induction moves with
  | nil => exact .inl ⟨rfl, rfl⟩
  | cons first _ ih =>
      rw [List.find?_cons, List.find?_cons, first.field_eq]
      split
      · exact .inr ⟨_, _, rfl, rfl, first⟩
      · exact ih

theorem isSome_at?_eq (isMoved : node.IsMoved source other moved) (field : String) :
    (node.at? field).isSome = (moved.at? field).isSome := by
  rcases isMoved.at?_cases field with ⟨none, movedNone⟩ | ⟨_, _, found, movedFound, -⟩
  · rw [none, movedNone]
  · rw [found, movedFound]
    rfl

theorem textAt?_eq (isMoved : node.IsMoved source other moved) (field : String) :
    source.textAt? node field = other.textAt? moved field := by
  rw [SourceBytes.textAt?, SourceBytes.textAt?]
  rcases isMoved.at?_cases field with ⟨none, movedNone⟩ | ⟨_, _, found, movedFound, child⟩
  · rw [none, movedNone]
  · simp only [found, movedFound, child.textOf_eq]

theorem textsOf_eq (moves : List.Forall₂ (IsMoved source other) nodes movedNodes) :
    source.textsOf nodes = other.textsOf movedNodes := by
  induction moves with
  | nil => rfl
  | cons first _ ih => rw [SourceBytes.textsOf, SourceBytes.textsOf, first.textOf_eq, ih]

theorem any_kind_eq (moves : List.Forall₂ (IsMoved source other) nodes movedNodes)
    (kind : String) :
    (nodes.any fun node => node.kind == kind) = movedNodes.any fun node => node.kind == kind := by
  induction moves with
  | nil => rfl
  | cons first _ ih => rw [List.any_cons, List.any_cons, first.kind_eq, ih]

theorem filter_kind (moves : List.Forall₂ (IsMoved source other) nodes movedNodes)
    (kind : String) :
    List.Forall₂ (IsMoved source other) (nodes.filter fun node => node.kind == kind)
      (movedNodes.filter fun node => node.kind == kind) := by
  refine List.rel_filter ?_ moves
  intro node moved isMoved
  exact Bool.eq_iff_iff.mp (congrArg (· == kind) isMoved.kind_eq)

/-- Comments are attached in both sources to the same nodes. -/
theorem attachComments {pending movedPending : List Node}
    (waits : List.Forall₂ (IsMoved source other) pending movedPending)
    (moves : List.Forall₂ (IsMoved source other) nodes movedNodes) :
    List.Forall₂ (fun pair movedPair =>
        List.Forall₂ (IsMoved source other) pair.1 movedPair.1 ∧
          pair.2.IsMoved source other movedPair.2)
      (ApiDocs.attachComments (fun _ => false) pending nodes)
      (ApiDocs.attachComments (fun _ => false) movedPending movedNodes) := by
  induction moves generalizing pending movedPending with
  | nil => exact .nil
  | cons first _ ih =>
      rw [ApiDocs.attachComments, ApiDocs.attachComments, first.isComment_eq]
      split
      · exact ih (List.rel_append waits (.cons first .nil))
      · exact .cons ⟨waits, first⟩ (ih .nil)

end Node.IsMoved

namespace Site

/-- The names and the comments of a specifier at a site, if they can be read. -/
def specifier? (source : SourceBytes) (site : Site) : Option (Text × Text × List Text) := do
  let nameNode ← if site.kind = .specifier then site.node.at? "name" else none
  let localName ← (source.textOf nameNode).toOption
  let newName ← (source.textAt? site.node "alias").toOption
  let texts ← (source.textsOf site.comments).toOption
  return (newName.getD localName, localName, texts)

/-- Two sites, each of its own source, that are told apart by their places only. -/
structure IsMoved (source other : SourceBytes) (site moved : Site) : Prop where
  kind : site.kind = moved.kind
  comments : List.Forall₂ (Node.IsMoved source other) site.comments moved.comments
  node : site.node.IsMoved source other moved.node

theorem IsMoved.specifier?_eq {site moved : Site} (isMoved : site.IsMoved source other moved) :
    site.specifier? source = moved.specifier? other := by
  rw [specifier?, specifier?, isMoved.kind, isMoved.node.textAt?_eq,
    Node.IsMoved.textsOf_eq isMoved.comments]
  rcases isMoved.node.at?_cases "name" with ⟨none, movedNone⟩ | ⟨_, _, found, movedFound, name⟩
  · rw [none, movedNone]
    split <;> rfl
  · rw [found, movedFound]
    split
    · simp only [Option.bind_eq_bind, Option.bind_some, name.textOf_eq]
    · rfl

theorem filterMap_specifier?_of_isMoved {sites movedSites : List Site}
    (moves : List.Forall₂ (IsMoved source other) sites movedSites) :
    sites.filterMap (specifier? source) = movedSites.filterMap (specifier? other) := by
  induction moves with
  | nil => rfl
  | cons first _ ih => rw [List.filterMap_cons, List.filterMap_cons, first.specifier?_eq, ih]

theorem isSpecifier_eq (isMoved : node.IsMoved source other moved) :
    isSpecifier node = isSpecifier moved := by
  rw [isSpecifier, isSpecifier, isMoved.kind_eq, isMoved.isSome_at?_eq]

theorem ofClause_isMoved (isMoved : node.IsMoved source other moved) :
    List.Forall₂ (IsMoved source other) (ofClause node) (ofClause moved) := by
  rw [ofClause, ofClause, ← attachComments_eq_documentable, ← attachComments_eq_documentable]
  apply List.rel_map (R := fun pair movedPair =>
    List.Forall₂ (Node.IsMoved source other) pair.1 movedPair.1 ∧
      pair.2.IsMoved source other movedPair.2)
  · rintro pair movedPair ⟨comments, isMoved⟩
    exact ⟨rfl, comments, isMoved⟩
  · refine List.rel_filter ?_ (Node.IsMoved.attachComments .nil isMoved.children)
    rintro pair movedPair ⟨-, isMoved⟩
    exact Bool.eq_iff_iff.mp (isSpecifier_eq isMoved)

end Site

/-! ## Statements that export names from another module -/

namespace Node

/-- Whether a statement exports names from another module. -/
def isReexport (node : Node) : Bool :=
  node.kind == "export_statement" && !(node.at? "declaration").isSome &&
    !(node.at? "value").isSome && node.children.any fun child => child.kind == "from"

theorem isReexport_eq (isMoved : node.IsMoved source other moved) :
    node.isReexport = moved.isReexport := by
  rw [isReexport, isReexport, isMoved.kind_eq, isMoved.isSome_at?_eq, isMoved.isSome_at?_eq,
    IsMoved.any_kind_eq isMoved.children]

end Node

end Moved

namespace Site

/-- The sites of such a statement are those of its clauses. -/
theorem ofStatement_of_isReexport {node : Node} (isReexport : node.isReexport = true)
    (comments : List Node) :
    ofStatement comments node =
      (node.children.filter fun child => child.kind == "export_clause").flatMap ofClause := by
  simp only [Node.isReexport, Bool.and_eq_true, beq_iff_eq, Option.not_isSome,
    Option.isNone_iff_eq_none] at isReexport
  obtain ⟨⟨⟨isExport, noDeclaration⟩, noValue⟩, -⟩ := isReexport
  rw [ofStatement, if_pos isExport, ofExport, noDeclaration, noValue]

theorem kind_of_mem_ofClause {clause : Node} {site : Site} (member : site ∈ ofClause clause) :
    site.kind = .specifier := by
  obtain ⟨_, -, rfl⟩ := List.mem_map.mp member
  rfl

end Site

/-- Whether a statement declares something: whether it does not only export names. -/
def declares (statement : List Node × Node) : Bool :=
  (Site.ofStatement statement.1 statement.2).any fun site => site.kind != .specifier

/-- The statements of a file that declare nothing. -/
def silentStatements (root : Node) : List (List Node × Node) :=
  (statementNodes root).filter fun statement => !declares statement

/-- Two trees have the same statements, up to their places, but for those that declare something. -/
def AgreeBesidesDeclarations (source : SourceBytes) (root : Node) (other : SourceBytes)
    (changed : Node) : Prop :=
  List.Forall₂ (fun first second => first.2.IsMoved source other second.2)
    (silentStatements root) (silentStatements changed)

/-- The statements of a file that export names from another module. -/
def reexportNodes (root : Node) : List (List Node × Node) :=
  (statementNodes root).filter fun statement => statement.2.isReexport

theorem declares_of_isReexport {statement : List Node × Node}
    (isReexport : statement.2.isReexport = true) : declares statement = false := by
  rw [declares, Site.ofStatement_of_isReexport isReexport, List.any_eq_false]
  intro site member
  obtain ⟨clause, -, inClause⟩ := List.mem_flatMap.mp member
  simp [Site.kind_of_mem_ofClause inClause]

theorem filter_silentStatements (root : Node) :
    (silentStatements root).filter (fun statement => statement.2.isReexport) =
      reexportNodes root := by
  rw [silentStatements, reexportNodes, List.filter_filter]
  apply List.filter_congr
  intro statement _
  cases isReexport : statement.2.isReexport with
  | false => rfl
  | true => simp [declares_of_isReexport isReexport]

namespace AgreeBesidesDeclarations

variable {source other : SourceBytes} {root changed : Node}

theorem forall₂_reexportNodes (agree : AgreeBesidesDeclarations source root other changed) :
    List.Forall₂
      (fun first second => first.2.isReexport = true ∧ first.2.IsMoved source other second.2)
      (reexportNodes root) (reexportNodes changed) := by
  apply (List.forall₂_and_left _ _).mpr
  constructor
  · exact fun statement member => (List.mem_filter.mp member).2
  · rw [← filter_silentStatements, ← filter_silentStatements]
    refine List.rel_filter ?_ agree
    intro first second isMoved
    exact Bool.eq_iff_iff.mp (Node.isReexport_eq isMoved)

end AgreeBesidesDeclarations

/-! ## The exports of a statement -/

namespace ExportSpecifier

/-- What a specifier says itself: its names and its comments. -/
def said (specifier : ExportSpecifier) : Text × Text × List Text :=
  (specifier.name, specifier.localName, specifier.leadingComments)

/-- The specifier that says something in a file with the given entries. -/
def ofSaid (entries : List SiteEntry) (said : Text × Text × List Text) : ExportSpecifier :=
  { name := said.1
    localName := said.2.1
    typeText := SiteEntry.typeAmong said.2.1 entries
    leadingComments := said.2.2 }

theorem ofSaid_said {entries : List SiteEntry} {specifier : ExportSpecifier}
    (typed : specifier.typeText = SiteEntry.typeAmong specifier.localName entries) :
    ofSaid entries specifier.said = specifier := by
  cases specifier
  rw [ofSaid, said, ← typed]

end ExportSpecifier

namespace SourceFile

/-- The exports of a file, cut into those of its statements. -/
def exportsByStatement (root : Node) (file : SourceFile) : List (List ExportSpecifier) :=
  ((statementNodes root).map fun (comments, node) =>
    (Site.ofStatement comments node).countP fun site => site.kind == .specifier).splitLengths
      file.exports

/-- The exports of each statement that exports names from another module. -/
def reexports (root : Node) (file : SourceFile) : List (List ExportSpecifier) :=
  (((statementNodes root).zip (file.exportsByStatement root)).filter
    fun pair => pair.1.2.isReexport).map Prod.snd

end SourceFile

variable {source other : SourceBytes} {root changed : Node} {file otherFile : SourceFile}
variable {entries others : List SiteEntry}

theorem Site.Gives.specifier?_eq {scope : Scope} {site : Site} {entry : SiteEntry}
    (given : site.Gives source scope entry) : entry.specifier? = site.specifier? source := by
  cases given with
  | specifier isKind hasName named renamed commented =>
      simp [SiteEntry.specifier?, Site.specifier?, isKind, hasName, named, renamed, commented,
        Except.toOption]
  | _ => simp_all [SiteEntry.specifier?, Site.specifier?]

theorem Site.Gives.isSome_specifier? {scope : Scope} {site : Site} {entry : SiteEntry}
    (given : site.Gives source scope entry) :
    (site.specifier? source).isSome = (site.kind == .specifier) := by
  rw [← given.specifier?_eq]
  cases given <;> simp_all [SiteEntry.specifier?]

section Given

variable {sites : List Site}

theorem filterMap_specifier?_eq
    (given : List.Forall₂ (fun site entry => ∃ scope, Site.Gives source scope site entry)
      sites entries) :
    entries.filterMap SiteEntry.specifier? = sites.filterMap (Site.specifier? source) := by
  induction given with
  | nil => rfl
  | cons first _ ih =>
      obtain ⟨scope, first⟩ := first
      rw [List.filterMap_cons, List.filterMap_cons, first.specifier?_eq, ih]

theorem isSome_specifier?_of_mem
    (given : List.Forall₂ (fun site entry => ∃ scope, Site.Gives source scope site entry)
      sites entries) {site : Site} (member : site ∈ sites) :
    (site.specifier? source).isSome = (site.kind == .specifier) := by
  induction given with
  | nil => cases member
  | cons first _ ih =>
      rcases List.mem_cons.mp member with rfl | behind
      · obtain ⟨scope, first⟩ := first
        exact first.isSome_specifier?
      · exact ih behind

end Given

/-- What the specifiers of a statement say. -/
def saidBy (source : SourceBytes) (statement : List Node × Node) :
    List (Text × Text × List Text) :=
  (Site.ofStatement statement.1 statement.2).filterMap (Site.specifier? source)

/-- The exports of a statement of a file with the given entries. -/
def exportsOf (source : SourceBytes) (entries : List SiteEntry) (statement : List Node × Node) :
    List ExportSpecifier :=
  (saidBy source statement).map (ExportSpecifier.ofSaid entries)

theorem splitLengths_flatten {α : Type} (lists : List (List α)) :
    (lists.map List.length).splitLengths lists.flatten = lists := by
  induction lists with
  | nil => rfl
  | cons first rest ih => simp [ih]

namespace SourceFile.Resolves

theorem length_saidBy (resolves : file.Resolves source root entries)
    {statement : List Node × Node} (member : statement ∈ statementNodes root) :
    (saidBy source statement).length =
      (Site.ofStatement statement.1 statement.2).countP fun site => site.kind == .specifier := by
  rw [saidBy, List.length_filterMap_eq_countP]
  apply List.countP_congr
  intro site inStatement
  have inTree : site ∈ Site.ofTree root := List.mem_flatMap.mpr ⟨statement, member, inStatement⟩
  rw [isSome_specifier?_of_mem resolves.given inTree]

theorem map_said_exports (resolves : file.Resolves source root entries) :
    file.exports.map ExportSpecifier.said = (statementNodes root).flatMap (saidBy source) := by
  have madeOf : file.exports.map ExportSpecifier.said = entries.filterMap SiteEntry.specifier? :=
    resolves.madeOf.exports
  rw [madeOf, filterMap_specifier?_eq resolves.given, Site.ofTree, List.filterMap_flatMap]
  rfl

/-- The exports of a file are those of its statements in a row. -/
theorem exports_eq (resolves : file.Resolves source root entries) :
    file.exports = (statementNodes root).flatMap (exportsOf source entries) := by
  have own : ∀ specifier ∈ file.exports,
      ExportSpecifier.ofSaid entries specifier.said = specifier :=
    fun specifier member => ExportSpecifier.ofSaid_said (resolves.exports specifier member)
  calc file.exports
      = file.exports.map fun specifier => ExportSpecifier.ofSaid entries specifier.said :=
        ((List.map_congr_left own).trans (List.map_id' _)).symm
    _ = (file.exports.map ExportSpecifier.said).map (ExportSpecifier.ofSaid entries) := by
        rw [List.map_map]
        rfl
    _ = (statementNodes root).flatMap (exportsOf source entries) := by
        rw [resolves.map_said_exports, List.map_flatMap]
        rfl

theorem exportsByStatement_eq (resolves : file.Resolves source root entries) :
    file.exportsByStatement root = (statementNodes root).map (exportsOf source entries) := by
  have lengths : ((statementNodes root).map fun (comments, node) =>
      (Site.ofStatement comments node).countP fun site => site.kind == .specifier) =
        ((statementNodes root).map (exportsOf source entries)).map List.length := by
    rw [List.map_map]
    apply List.map_congr_left
    intro statement member
    rw [Function.comp_apply, exportsOf, List.length_map, resolves.length_saidBy member]
  rw [exportsByStatement, lengths, resolves.exports_eq, List.flatMap, splitLengths_flatten]

theorem reexports_eq (resolves : file.Resolves source root entries) :
    file.reexports root = (reexportNodes root).map (exportsOf source entries) := by
  rw [reexports, resolves.exportsByStatement_eq, reexportNodes]
  induction statementNodes root with
  | nil => rfl
  | cons statement rest ih =>
      rw [List.map_cons, List.zip_cons_cons, List.filter_cons, List.filter_cons]
      split
      · rw [List.map_cons, List.map_cons, ih]
      · exact ih

end SourceFile.Resolves

/-- The exports that one statement has in two files, where different names may be declared. -/
structure ReadsAlike (entries others : List SiteEntry)
    (exports otherExports : List ExportSpecifier) : Prop where
  said : exports.map ExportSpecifier.said = otherExports.map ExportSpecifier.said
  same_iff : exports = otherExports ↔ ∀ specifier ∈ exports,
    SiteEntry.typeAmong specifier.localName entries =
      SiteEntry.typeAmong specifier.localName others
  undeclared : (∀ specifier ∈ exports, ∀ entry ∈ entries ++ others,
      entry.name? ≠ some specifier.localName) →
    exports = otherExports ∧ ∀ specifier ∈ exports, specifier.typeText = TypeText.unknown

theorem SiteEntry.typeAmong_of_undeclared {name : Text}
    (undeclared : ∀ entry ∈ entries, entry.name? ≠ some name) :
    typeAmong name entries = TypeText.unknown := by
  have none : declarationOf? name entries = none := by
    rw [declarationOf?, Option.or_eq_none_iff, List.find?_eq_none, List.find?_eq_none]
    constructor
    · intro entry member
      simp [bindsName, undeclared entry (List.mem_reverse.mp member)]
    · intro entry member
      simp [declaresName, undeclared entry member]
  rw [typeAmong, none]
  rfl

theorem readsAlike_map_ofSaid (list : List (Text × Text × List Text)) :
    ReadsAlike entries others (list.map (ExportSpecifier.ofSaid entries))
      (list.map (ExportSpecifier.ofSaid others)) := by
  have same_iff : list.map (ExportSpecifier.ofSaid entries) =
      list.map (ExportSpecifier.ofSaid others) ↔
        ∀ said ∈ list, SiteEntry.typeAmong said.2.1 entries =
          SiteEntry.typeAmong said.2.1 others := by
    rw [List.map_inj_left]
    simp only [ExportSpecifier.ofSaid, ExportSpecifier.mk.injEq, true_and, and_true]
  refine ⟨?_, ?_, ?_⟩
  · rw [List.map_map, List.map_map]
    rfl
  · rw [same_iff, List.forall_mem_map]
    rfl
  · intro undeclared
    rw [List.forall_mem_map] at undeclared
    have unknown : ∀ said ∈ list,
        SiteEntry.typeAmong said.2.1 entries = TypeText.unknown ∧
          SiteEntry.typeAmong said.2.1 others = TypeText.unknown := by
      intro said member
      obtain ⟨inEntries, inOthers⟩ := List.forall_mem_append.mp (undeclared said member)
      exact ⟨SiteEntry.typeAmong_of_undeclared inEntries,
        SiteEntry.typeAmong_of_undeclared inOthers⟩
    constructor
    · rw [same_iff]
      intro said member
      rw [(unknown said member).1, (unknown said member).2]
    · rw [List.forall_mem_map]
      exact fun said member => (unknown said member).1

/-- A moved statement that exports names from another module says the same. -/
theorem saidBy_eq_of_isMoved {statement moved : List Node × Node}
    (isMoved : statement.2.IsMoved source other moved.2)
    (isReexport : statement.2.isReexport = true) :
    saidBy source statement = saidBy other moved := by
  have movedIsReexport : moved.2.isReexport = true := by
    rw [← Node.isReexport_eq isMoved, isReexport]
  rw [saidBy, saidBy, Site.ofStatement_of_isReexport isReexport,
    Site.ofStatement_of_isReexport movedIsReexport]
  have moves : List.Forall₂ (Site.IsMoved source other)
      ((statement.2.children.filter fun child => child.kind == "export_clause").flatMap
        Site.ofClause)
      ((moved.2.children.filter fun child => child.kind == "export_clause").flatMap
        Site.ofClause) := by
    apply List.rel_flatMap (Node.IsMoved.filter_kind isMoved.children "export_clause")
    exact fun _ _ clauseIsMoved => Site.ofClause_isMoved clauseIsMoved
  exact Site.filterMap_specifier?_of_isMoved moves

/--
Two files may have the same statements but for those that declare something.  A statement that
exports names from another module then has the same names and comments in both files, but their
types are those of the local declarations: its exports are the same in both files if and only if
each of its names stands for the same type among the declarations of the one file and of the other.
They are the same, with the unknown type, where neither file declares any of the names.
-/
theorem SourceFile.reexports_read_local_names {path otherPath : Text}
    (read : ofTree path source root = .ok file)
    (otherRead : ofTree otherPath other changed = .ok otherFile)
    (agree : AgreeBesidesDeclarations source root other changed) :
    ∃ entries others, file.Resolves source root entries ∧
      otherFile.Resolves other changed others ∧
        List.Forall₂ (ReadsAlike entries others) (file.reexports root)
          (otherFile.reexports changed) := by
  obtain ⟨entries, resolves⟩ := names_resolve read
  obtain ⟨others, otherResolves⟩ := names_resolve otherRead
  refine ⟨entries, others, resolves, otherResolves, ?_⟩
  rw [resolves.reexports_eq, otherResolves.reexports_eq, List.forall₂_map_left_iff,
    List.forall₂_map_right_iff]
  refine agree.forall₂_reexportNodes.imp ?_
  rintro statement moved ⟨isReexport, isMoved⟩
  rw [exportsOf, exportsOf, saidBy_eq_of_isMoved isMoved isReexport]
  exact readsAlike_map_ofSaid _

/-- A statement that exports the name of another module and begins at the given byte. -/
def fromNode (start : Nat) : Node :=
  .mk "export_statement" true start (start + 23) none
    [.mk "export" false start (start + 6) none [],
      .mk "export_clause" true (start + 7) (start + 12) none
        [.mk "\x7b" false (start + 7) (start + 8) none [],
          .mk "export_specifier" true (start + 9) (start + 10) none
            [.mk "identifier" true (start + 9) (start + 10) (some "name") []],
          .mk "\x7d" false (start + 11) (start + 12) none []],
      .mk "from" false (start + 13) (start + 17) none [],
      .mk "string" true (start + 18) (start + 23) none []]

def fromSource : SourceBytes :=
  Text.Utf8.encode "export \x7b a \x7d from './b'\n"

def fromTree : Node :=
  .mk "program" true 0 24 none [fromNode 0]

/-- A file that also declares a constant with the given name of one letter. -/
def constantSource (name : Text) : SourceBytes :=
  Text.Utf8.encode ("const " ++ name ++ " = 1\nexport \x7b a \x7d from './b'\n")

def constantTree : Node :=
  .mk "program" true 0 36 none
    [.mk "lexical_declaration" true 0 11 none
        [.mk "const" false 0 5 none [],
          .mk "variable_declarator" true 6 11 none
            [.mk "identifier" true 6 7 (some "name") [], .mk "=" false 8 9 none [],
              .mk "number" true 10 11 (some "value") []]],
      fromNode 12]

/-- The same bytes at two places make nodes with the same text. -/
theorem Node.IsMoved.of_take_eq {start moved length : Nat}
    (same : (source.drop start).take length = (other.drop moved).take length)
    (first : Nat) {last : Nat} (inside : last ≤ length) {kind : String} {named : Bool}
    {field : Option String} {nodes movedNodes : List Node}
    (below : List.Forall₂ (IsMoved source other) nodes movedNodes) :
    Node.IsMoved source other (.mk kind named (start + first) (start + last) field nodes)
      (.mk kind named (moved + first) (moved + last) field movedNodes) := by
  have part (bytes : SourceBytes) (start : Nat) :
      (bytes.drop (start + first)).take (start + last - (start + first)) =
        (((bytes.drop start).take length).drop first).take (last - first) := by
    rw [List.drop_take, List.take_take, List.drop_drop, Nat.add_sub_add_left,
      Nat.min_eq_left (Nat.sub_le_sub_right inside first)]
  refine .intro rfl rfl rfl ?_ below
  rw [SourceBytes.textOf, SourceBytes.textOf]
  apply congrArg SourceBytes.decode
  calc (source.drop (start + first)).take (start + last - (start + first))
      = (((source.drop start).take length).drop first).take (last - first) := part source start
    _ = (((other.drop moved).take length).drop first).take (last - first) := by rw [same]
    _ = (other.drop (moved + first)).take (moved + last - (moved + first)) :=
        (part other moved).symm

theorem fromNode_isMoved {start moved : Nat}
    (same : (source.drop start).take 23 = (other.drop moved).take 23) :
    (fromNode start).IsMoved source other (fromNode moved) := by
  have leaf (first : Nat) {last : Nat} (inside : last ≤ 23) (kind : String) (named : Bool)
      (field : Option String) :
      Node.IsMoved source other (.mk kind named (start + first) (start + last) field [])
        (.mk kind named (moved + first) (moved + last) field []) :=
    .of_take_eq same first inside .nil
  refine .of_take_eq same 0 le_rfl (.cons (leaf 0 (by decide) ..) (.cons ?_
    (.cons (leaf 13 (by decide) ..) (.cons (leaf 18 (by decide) ..) .nil))))
  refine .of_take_eq same 7 (by decide) (.cons (leaf 7 (by decide) ..) (.cons ?_
    (.cons (leaf 11 (by decide) ..) .nil)))
  exact .of_take_eq same 9 (by decide) (.cons (leaf 9 (by decide) ..) .nil)

/-- The file with the constant has the statement of the other one, and a declaration. -/
theorem agree_fromTree_constantTree (name : Text)
    (same : fromSource.take 23 = ((constantSource name).drop 12).take 23) :
    AgreeBesidesDeclarations fromSource fromTree (constantSource name) constantTree := by
  have silent : silentStatements fromTree = [([], fromNode 0)] := rfl
  have otherSilent : silentStatements constantTree = [([], fromNode 12)] := rfl
  rw [AgreeBesidesDeclarations, silent, otherSilent]
  exact .cons (fromNode_isMoved same) .nil

theorem exports_fromTree :
    ∃ file, SourceFile.ofTree "a.ts" fromSource fromTree = .ok file ∧
      file.reexports fromTree = [[{ name := "a", localName := "a", typeText := "any" }]] := by
  apply exists_of_toOption_map
  decide +kernel

theorem exports_constantTree (name type : Text)
    (exported : ((SourceFile.ofTree "a.ts" (constantSource name) constantTree).map
      (SourceFile.reexports constantTree)).toOption =
        some [[{ name := "a", localName := "a", typeText := type }]]) :
    ∃ file, SourceFile.ofTree "a.ts" (constantSource name) constantTree = .ok file ∧
      file.reexports constantTree = [[{ name := "a", localName := "a", typeText := type }]] :=
  exists_of_toOption_map exported

/-- A constant with another name does not change what is exported from the other module. -/
theorem fromTree_reads_local_names :
    ∃ file otherFile,
      SourceFile.ofTree "a.ts" fromSource fromTree = .ok file ∧
      SourceFile.ofTree "a.ts" (constantSource "c") constantTree = .ok otherFile ∧
      AgreeBesidesDeclarations fromSource fromTree (constantSource "c") constantTree ∧
      file.reexports fromTree = otherFile.reexports constantTree ∧
      ∃ entries others, file.Resolves fromSource fromTree entries ∧
        otherFile.Resolves (constantSource "c") constantTree others ∧
          List.Forall₂ (ReadsAlike entries others) (file.reexports fromTree)
            (otherFile.reexports constantTree) := by
  have agree := agree_fromTree_constantTree "c" (by decide +kernel)
  obtain ⟨file, read, exports⟩ := exports_fromTree
  obtain ⟨otherFile, otherRead, otherExports⟩ := exports_constantTree "c" "any" (by decide +kernel)
  exact ⟨file, otherFile, read, otherRead, agree, exports.trans otherExports.symm,
    SourceFile.reexports_read_local_names read otherRead agree⟩

/-- A constant gives its type to a name that is exported from another module. -/
theorem constantTree_changes_reexport :
    AgreeBesidesDeclarations fromSource fromTree (constantSource "a") constantTree ∧
      ∃ file otherFile,
        SourceFile.ofTree "a.ts" fromSource fromTree = .ok file ∧
        SourceFile.ofTree "a.ts" (constantSource "a") constantTree = .ok otherFile ∧
        file.reexports fromTree = [[{ name := "a", localName := "a", typeText := "any" }]] ∧
        otherFile.reexports constantTree =
          [[{ name := "a", localName := "a", typeText := "1" }]] := by
  obtain ⟨file, read, exports⟩ := exports_fromTree
  obtain ⟨otherFile, otherRead, otherExports⟩ := exports_constantTree "a" "1" (by decide +kernel)
  exact ⟨agree_fromTree_constantTree "a" (by decide +kernel), file, otherFile, read, otherRead,
    exports, otherExports⟩

end ApiDocs
