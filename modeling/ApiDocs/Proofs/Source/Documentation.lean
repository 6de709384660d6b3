import Mathlib.Data.List.Forall2
import ApiDocs.Proofs.Source.Entry

/-!
# Which comment documents what

A statement is documented by the comments between it and the statement before, a member of a class
by those between it and the member before, and an export specifier by those between it and
whatever stands before it in its clause.  Declarations and members keep the documentation comments
among them, a specifier keeps them all, and the comments in front of the first statement also
speak for the file.

Over the whole tree, the comments that document anything can be read off from front to back: no
comment documents two things.
-/

namespace ApiDocs

/-! ## Entries and their comments -/

namespace SiteEntry

/-- The comments that an entry keeps. -/
def comments : SiteEntry → List Text
  | interface declaration | typeAlias declaration => declaration.jsdocs
  | function form _ => form.call.jsdocs
  | classLike declaration => declaration.jsdocs
  | binding declaration => declaration.jsdocs
  | specifier _ _ comments => comments

/-- Whether an entry keeps a comment: all but specifiers keep documentation comments only. -/
def keeps : SiteEntry → Text → Bool
  | specifier .. => fun _ => true
  | _ => isJsdoc

end SiteEntry

/-- A member is read as an entry that keeps the documentation comments in front of the member. -/
structure MemberEntry.Documents (source : SourceBytes) (pair : List Node × Node)
    (entry : MemberEntry) : Prop where
  isOf : ∃ scope, MemberEntry.IsOf source scope pair.1 pair.2 entry
  jsdocs : entry ≠ .nothing →
    ∃ texts, source.textsOf pair.1 = .ok texts ∧ entry.jsdocs = texts.filter isJsdoc

/-- At a site an entry is read that keeps the comments in front of it. -/
structure SiteEntry.Documents (source : SourceBytes) (site : Site) (entry : SiteEntry) : Prop where
  given : ∃ scope, site.Gives source scope entry
  comments : ∃ texts, source.textsOf site.comments = .ok texts ∧
    entry.comments = texts.filter entry.keeps
  members : ∀ declaration, entry = .classLike declaration →
    ∃ members, declaration.IsMadeOf members ∧
      List.Forall₂ (MemberEntry.Documents source) (ClassDeclaration.memberNodes site.node) members

section Comments

variable {source : SourceBytes} {scope : Scope} {site : Site} {entry : SiteEntry}
variable {comments : List Node} {member : Node} {jsdocs : List Text}

theorem jsdocsOf_eq_ok_iff :
    jsdocsOf source comments = .ok jsdocs ↔
      ∃ texts, source.textsOf comments = .ok texts ∧ jsdocs = texts.filter isJsdoc := by
  rw [jsdocsOf, map_eq_ok_iff]
  exact exists_congr fun texts => and_congr_right fun _ => eq_comm

theorem MemberEntry.IsOf.documents {entry : MemberEntry}
    (isOf : MemberEntry.IsOf source scope comments member entry) :
    MemberEntry.Documents source (comments, member) entry := by
  refine ⟨⟨scope, isOf⟩, fun something => ?_⟩
  apply jsdocsOf_eq_ok_iff.mp
  cases isOf with
  | constructor documented _ _ _ made =>
      rw [jsdocs, (Reading.name_of_callForm made).2]
      exact documented
  | method documented _ _ _ _ _ _ made =>
      rw [jsdocs, (Reading.name_of_callForm made).2]
      exact documented
  | property documented _ _ _ _ _ => exact documented
  | other | nameless | accessor => exact absurd rfl something

theorem Site.Gives.keeps_comments (given : site.Gives source scope entry) :
    ∃ texts, source.textsOf site.comments = .ok texts ∧
      entry.comments = texts.filter entry.keeps := by
  cases given with
  | interface _ documented _ _ => exact jsdocsOf_eq_ok_iff.mp documented
  | typeAlias _ documented _ _ => exact jsdocsOf_eq_ok_iff.mp documented
  | function _ documented _ made _ =>
      obtain ⟨texts, read, kept⟩ := jsdocsOf_eq_ok_iff.mp documented
      exact ⟨texts, read, (Reading.name_of_callForm made).2.trans kept⟩
  | classLike _ documented made =>
      obtain ⟨texts, read, kept⟩ := jsdocsOf_eq_ok_iff.mp documented
      exact ⟨texts, read, (ClassDeclaration.exists_memberEntries made).2.2.1.trans kept⟩
  | binding _ documented _ _ => exact jsdocsOf_eq_ok_iff.mp documented
  | specifier _ _ _ _ commented =>
      exact ⟨_, commented, by simp [SiteEntry.comments, SiteEntry.keeps]⟩

theorem Site.Gives.documents (given : site.Gives source scope entry) :
    SiteEntry.Documents source site entry := by
  refine ⟨⟨scope, given⟩, given.keeps_comments, ?_⟩
  rintro declaration rfl
  obtain ⟨members, isMadeOf, areOf⟩ := given.exists_members
  exact ⟨members, isMadeOf, areOf.imp fun _ _ isOf => isOf.documents⟩

end Comments

/-! ## One comment, one thing -/

/-- What is documented inside a site: the members of a class, or the specifier itself. -/
def Site.below (site : Site) : List (List Node × Node) :=
  match site.kind with
  | .classLike => ClassDeclaration.memberNodes site.node
  | .specifier => [(site.comments, site.node)]
  | .interface | .typeAlias | .function | .binding _ => []

/-- What can be documented in a file: statements, members of classes and export specifiers. -/
def documentedNodes (root : Node) : List (List Node × Node) :=
  (statementNodes root).flatMap fun (comments, node) =>
    (comments, node) :: (Site.ofStatement comments node).flatMap Site.below

/-- The comments that document something inside some sites. -/
def Site.commentsBelow (sites : List Site) : List Node :=
  (sites.flatMap Site.below).flatMap Prod.fst

namespace Site

variable {exported : Bool} {comments : List Node} {node outer : Node}

theorem commentsBelow_append (sites more : List Site) :
    commentsBelow (sites ++ more) = commentsBelow sites ++ commentsBelow more := by
  rw [commentsBelow, List.flatMap_append, List.flatMap_append]
  rfl

theorem flatMap_fst_documentable_sublist (passes : Node → Bool) (node : Node) :
    ((documentable passes node.children).flatMap Prod.fst).Sublist node.subtree := by
  apply List.Sublist.trans _ node.subtrees_children_sublist
  have attached := flatMap_documentable_sublist passes (fun _ _ => [])
    (fun _ _ => List.nil_sublist _) node.children
  simpa using attached

theorem flatMap_memberNodes_sublist (node : Node) :
    ((ClassDeclaration.memberNodes node).flatMap Prod.fst).Sublist node.subtree := by
  rw [ClassDeclaration.memberNodes]
  cases found : node.at? "body" with
  | none => exact List.nil_sublist _
  | some body =>
      exact (flatMap_fst_documentable_sublist _ body).trans (Node.subtree_sublist_of_at? found)

theorem commentsBelow_ofDeclaration_sublist :
    (commentsBelow (ofDeclaration exported comments outer node)).Sublist node.subtree := by
  rw [ofDeclaration]
  cases DeclarationKind.ofNode node with
  | classLike => simpa [commentsBelow, below] using flatMap_memberNodes_sublist node
  | interface | typeAlias | function | other =>
      simp [commentsBelow, below]
  | variableList =>
      have nothing : commentsBelow ((node.namedChildren.filter fun child =>
          child.kind == "variable_declarator").map fun child =>
            { kind := .binding (Reading.isFixed node), exported, comments, node := child, outer }) =
          [] := by
        simp [commentsBelow, below]
      rw [nothing]
      exact List.nil_sublist _

theorem commentsBelow_declared_sublist :
    (commentsBelow ((declared? node).toList.flatMap
      (ofDeclaration exported comments outer))).Sublist node.subtree := by
  rw [declared?]
  split
  · cases found : node.firstPart? with
    | none => exact List.nil_sublist _
    | some inner =>
        rw [Option.toList_some, List.flatMap_singleton]
        exact commentsBelow_ofDeclaration_sublist.trans (Node.subtree_sublist_of_firstPart? found)
  · rw [Option.toList_some, List.flatMap_singleton]
    exact commentsBelow_ofDeclaration_sublist

theorem commentsBelow_ofClause_sublist (clause : Node) :
    (commentsBelow (ofClause clause)).Sublist clause.subtree := by
  apply List.Sublist.trans _ (flatMap_fst_documentable_sublist (fun _ => false) clause)
  have listed : commentsBelow (ofClause clause) =
      ((documentable (fun _ => false) clause.children).filter
        fun pair => isSpecifier pair.2).flatMap Prod.fst := by
    simp [commentsBelow, ofClause, below, List.flatMap_map]
  rw [listed]
  exact List.filter_sublist.flatMap _

theorem commentsBelow_clauses_sublist (nodes : List Node) :
    (commentsBelow ((nodes.filter fun child => child.kind == "export_clause").flatMap
      ofClause)).Sublist (Node.subtrees nodes) := by
  induction nodes with
  | nil => exact List.nil_sublist _
  | cons node rest ih =>
      rw [List.filter_cons, Node.subtrees]
      split
      · rw [List.flatMap_cons, commentsBelow_append]
        exact (commentsBelow_ofClause_sublist node).append ih
      · exact ih.trans (List.sublist_append_right _ _)

theorem commentsBelow_ofExport_sublist :
    (commentsBelow (ofExport comments node)).Sublist node.subtree := by
  rw [ofExport]
  cases declaration : node.at? "declaration" with
  | some inner =>
      exact commentsBelow_declared_sublist.trans (Node.subtree_sublist_of_at? declaration)
  | none =>
      cases value : node.at? "value" with
      | none => exact (commentsBelow_clauses_sublist _).trans node.subtrees_children_sublist
      | some inner =>
          dsimp only
          split
          · exact List.nil_sublist _
          · split
            · have members := (flatMap_memberNodes_sublist inner).trans
                (Node.subtree_sublist_of_at? value)
              simpa [commentsBelow, below] using members
            · exact List.nil_sublist _

theorem commentsBelow_ofStatement_sublist :
    (commentsBelow (ofStatement comments node)).Sublist node.subtree := by
  rw [ofStatement]
  split
  · exact commentsBelow_ofExport_sublist
  · exact commentsBelow_declared_sublist

end Site

/-- Every comment documents one thing at most, in the order of the source. -/
theorem flatMap_documentedNodes_sublist (root : Node) :
    ((documentedNodes root).flatMap Prod.fst).Sublist root.subtree := by
  apply List.Sublist.trans _ root.subtrees_children_sublist
  have listed : (documentedNodes root).flatMap Prod.fst =
      (statementNodes root).flatMap fun (comments, node) =>
        comments ++ Site.commentsBelow (Site.ofStatement comments node) := by
    simp [documentedNodes, List.flatMap_assoc, Site.commentsBelow]
  rw [listed]
  exact flatMap_documentable_sublist (fun child => child.kind == "hash_bang_line")
    (fun comments node => Site.commentsBelow (Site.ofStatement comments node))
    (fun _ _ => Site.commentsBelow_ofStatement_sublist) root.children

/-! ## The whole file -/

/-- A specifier is documented in its clause, everything else by the comments of its statement. -/
structure Site.IsDocumentedBy (comments : List Node) (site : Site) : Prop where
  ofStatement : site.kind ≠ .specifier → site.comments = comments
  ofClause : site.kind = .specifier →
    site.outer.kind = "export_clause" ∧
      (site.comments, site.node) ∈ documentable (fun _ => false) site.outer.children

/-- The comments of a file are kept where the tree puts them. -/
structure SourceFile.IsDocumented (source : SourceBytes) (root : Node) (file : SourceFile) :
    Prop where
  leading : source.textsOf (commentsAtStart (fun child => child.kind == "hash_bang_line")
    root.children) = .ok file.leadingComments
  declarations : ∃ entries, file.IsMadeOf entries ∧
    List.Forall₂ (SiteEntry.Documents source) (Site.ofTree root) entries
  sites : ∀ comments node, (comments, node) ∈ statementNodes root →
    ∀ site ∈ Site.ofStatement comments node, site.IsDocumentedBy comments
  once : ((documentedNodes root).flatMap Prod.fst).Sublist root.subtree

section File

variable {exported : Bool} {comments : List Node} {node outer : Node} {site : Site}

theorem Site.isDocumentedBy_of_comments (same : site.comments = comments)
    (other : site.kind ≠ .specifier) : site.IsDocumentedBy comments :=
  ⟨fun _ => same, fun isSpecifier => absurd isSpecifier other⟩

theorem Site.isDocumentedBy_of_mem_ofDeclaration
    (member : site ∈ ofDeclaration exported comments outer node) :
    site.IsDocumentedBy comments := by
  rw [ofDeclaration] at member
  cases kind : DeclarationKind.ofNode node with
  | interface | typeAlias | function | classLike =>
      rw [kind] at member
      obtain rfl := List.mem_singleton.mp member
      exact isDocumentedBy_of_comments rfl (by simp)
  | variableList =>
      rw [kind] at member
      obtain ⟨child, -, rfl⟩ := List.mem_map.mp member
      exact isDocumentedBy_of_comments rfl (by simp)
  | other =>
      rw [kind] at member
      cases member

theorem Site.isDocumentedBy_of_mem_declared
    (member : site ∈ (declared? node).toList.flatMap (ofDeclaration exported comments outer)) :
    site.IsDocumentedBy comments := by
  obtain ⟨inner, -, declares⟩ := List.mem_flatMap.mp member
  exact isDocumentedBy_of_mem_ofDeclaration declares

theorem Site.isDocumentedBy_of_mem_ofExport (member : site ∈ ofExport comments node) :
    site.IsDocumentedBy comments := by
  rw [ofExport] at member
  split at member
  · exact isDocumentedBy_of_mem_declared member
  · split at member
    · obtain rfl := List.mem_singleton.mp member
      exact isDocumentedBy_of_comments rfl (by simp)
    · split at member
      · obtain rfl := List.mem_singleton.mp member
        exact isDocumentedBy_of_comments rfl (by simp)
      · cases member
  · obtain ⟨clause, isClause, named⟩ := List.mem_flatMap.mp member
    obtain ⟨⟨_, specifier⟩, listed, rfl⟩ := List.mem_map.mp named
    have kind : clause.kind = "export_clause" := by simpa using (List.mem_filter.mp isClause).2
    exact ⟨fun other => absurd rfl other, fun _ => ⟨kind, (List.mem_filter.mp listed).1⟩⟩

theorem Site.isDocumentedBy_of_mem_ofStatement (member : site ∈ ofStatement comments node) :
    site.IsDocumentedBy comments := by
  rw [ofStatement] at member
  split at member
  · exact isDocumentedBy_of_mem_ofExport member
  · exact isDocumentedBy_of_mem_declared member

theorem SourceFile.leadingOf_statementNodes (source : SourceBytes) (root : Node) :
    leadingOf source (statementNodes root) =
      source.textsOf (commentsAtStart (fun child => child.kind == "hash_bang_line")
        root.children) := by
  rw [← getD_head?_documentable, ← statementNodes]
  cases statementNodes root with
  | nil => rfl
  | cons first rest => rfl

end File

/--
In a file that was read, every comment is kept where it stands.  The comments in front of the first
statement are those of the file.  Whatever a statement declares is documented by the documentation
comments between it and the statement before, where a hash-bang line does not count; a member of a
class by those between it and the member before, where decorators do not count; and an export
specifier has all comments between it and whatever stands before it in its clause.  From the front
of the tree to its back no comment is used for two statements, members or specifiers.
-/
theorem SourceFile.comments_document_what_follows {path : Text} {source : SourceBytes} {root : Node}
    {file : SourceFile} (read : ofTree path source root = .ok file) :
    file.IsDocumented source root := by
  obtain ⟨led, entries, given, isMadeOf, -⟩ := exists_entries read
  rw [leadingOf_statementNodes] at led
  refine ⟨led, ⟨entries, isMadeOf, ?_⟩, ?_, flatMap_documentedNodes_sublist root⟩
  · exact given.forall₂.imp fun _ _ ⟨_, gives⟩ => gives.documents
  · intro comments node _ site member
    exact Site.isDocumentedBy_of_mem_ofStatement member

/-- A script with a class, an import and an export clause, and comments in front of all of them. -/
def commentedSource : SourceBytes :=
  Text.Utf8.encode ("#!x\n// a\n/** b */\nclass A \x7b /** c */ @d m() \x7b\x7d " ++
    "/** d */ get p() \x7b\x7d /* e */ q; \x7d\n" ++
    "/** f */\nimport \"g\"\nexport \x7b /* h */ k \x7d")

def commentedClass : Node :=
  .mk "class_declaration" true 18 79 none
    [.mk "class" false 18 23 none [], .mk "type_identifier" true 24 25 (some "name") [],
      .mk "class_body" true 26 79 (some "body")
        [.mk "\x7b" false 26 27 none [], .mk "comment" true 28 36 none [],
          .mk "decorator" true 37 39 none [],
          .mk "method_definition" true 40 46 none
            [.mk "property_identifier" true 40 41 (some "name") [],
              .mk "formal_parameters" true 41 43 (some "parameters") [],
              .mk "statement_block" true 44 46 (some "body") []],
          .mk "comment" true 47 55 none [],
          .mk "method_definition" true 56 66 none
            [.mk "get" false 56 59 none [], .mk "property_identifier" true 60 61 (some "name") [],
              .mk "formal_parameters" true 61 63 (some "parameters") [],
              .mk "statement_block" true 64 66 (some "body") []],
          .mk "comment" true 67 74 none [],
          .mk "public_field_definition" true 75 76 none
            [.mk "property_identifier" true 75 76 (some "name") []],
          .mk ";" false 76 77 none [], .mk "\x7d" false 78 79 none []]]

def commentedFile : Node :=
  .mk "program" true 0 120 none
    [.mk "hash_bang_line" true 0 3 none [], .mk "comment" true 4 8 none [],
      .mk "comment" true 9 17 none [], commentedClass, .mk "comment" true 80 88 none [],
      .mk "import_statement" true 89 99 none [],
      .mk "export_statement" true 100 120 none
        [.mk "export" false 100 106 none [],
          .mk "export_clause" true 107 120 none
            [.mk "\x7b" false 107 108 none [], .mk "comment" true 109 116 none [],
              .mk "export_specifier" true 117 118 none
                [.mk "identifier" true 117 118 (some "name") []],
              .mk "\x7d" false 119 120 none []]]]

/-- The comments of a file, of its classes, of their methods and properties, and of its exports. -/
def keptComments (file : SourceFile) : List (List (List Text)) :=
  [[file.leadingComments], file.classes.map ClassDeclaration.jsdocs,
    file.classes.flatMap fun declaration => declaration.methods.map MethodDeclaration.jsdocs,
    file.classes.flatMap fun declaration => declaration.properties.map PropertyDeclaration.jsdocs,
    file.exports.map ExportSpecifier.leadingComments]

def commentedFileComments : List (List (List Text)) :=
  [[["// a", "/** b */"]], [["/** b */"]], [["/** c */"]], [[]], [["/* h */"]]]

/--
The class has the documentation comment in front of it and the method the one in front of its
decorator; those of the getter and of the import document nothing that is kept.
-/
theorem commentedFile_is_documented :
    ∃ file, SourceFile.ofTree "a.ts" commentedSource commentedFile = .ok file ∧
      keptComments file = commentedFileComments ∧
      file.IsDocumented commentedSource commentedFile := by
  have kept : ((SourceFile.ofTree "a.ts" commentedSource commentedFile).map
      keptComments).toOption = some commentedFileComments := by
    decide +kernel
  obtain ⟨file, read, same⟩ := exists_of_toOption_map kept
  exact ⟨file, read, same, SourceFile.comments_document_what_follows read⟩

end ApiDocs
