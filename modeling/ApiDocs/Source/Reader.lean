import ApiDocs.Source.Member

/-!
# Reading a source file

The statements of a syntax tree are read in order.  Each one is read with the
comments that stand in front of it, and adds its declarations to what was read
before; the comments of the first statement also speak for the file.
-/

namespace ApiDocs

/-- What has been read of a source file. -/
structure Reading where
  interfaces : List TypeDeclaration := []
  typeAliases : List TypeDeclaration := []
  variableList : List VariableDeclaration := []
  classes : List ClassDeclaration := []
  functionForms : List FunctionForm := []
  specifiers : List (Text × Text × List Text) := []
  scope : Scope := []
  deriving Inhabited

namespace Reading

/-- Reads an interface. -/
def addInterface (source : SourceBytes) (reading : Reading) (exported : Bool)
    (jsdocs : List Text) (node outer : Node) : Except Fault Reading := do
  let name := (← source.textAt? node "name").getD ""
  let text ← source.textOf outer
  return { reading with
    interfaces := reading.interfaces ++ [{ name, text, exported, jsdocs }]
    scope := reading.scope.declareOnce name name }

/-- Reads a type alias. -/
def addTypeAlias (source : SourceBytes) (reading : Reading) (exported : Bool)
    (jsdocs : List Text) (node outer : Node) : Except Fault Reading := do
  let name := (← source.textAt? node "name").getD ""
  let text ← source.textOf outer
  return { reading with
    typeAliases := reading.typeAliases ++ [{ name, text, exported, jsdocs }]
    scope := reading.scope.declareOnce name name }

/-- Whether there is a name, and not an empty one. -/
def given (name : Option Text) : Option Text :=
  match name with
  | some "" => none
  | name => name

/-- Reads one form of a function. -/
def addFunction (source : SourceBytes) (reading : Reading) (exported : Bool)
    (jsdocs : List Text) (node outer : Node) : Except Fault Reading := do
  let name ← source.textAt? node "name"
  let call ← callForm source name node outer jsdocs
  let implements := (node.at? "body").isSome
  let form : FunctionForm := { call, implements, exported }
  let forms := reading.functionForms ++ [form]
  match given name with
  | none => return { reading with functionForms := forms }
  | some name =>
    let type ← TypeText.function source node
    return { reading with functionForms := forms, scope := reading.scope.declareOnce name type }

/-- Reads a class. -/
def addClass (source : SourceBytes) (reading : Reading) (exported : Bool) (jsdocs : List Text)
    (node : Node) : Except Fault Reading := do
  let declaration ← ClassDeclaration.ofNode source reading.scope exported jsdocs node
  let classes := reading.classes ++ [declaration]
  match given declaration.name with
  | none => return { reading with classes }
  | some name =>
    return { reading with classes, scope := reading.scope.declareOnce name ("typeof " ++ name) }

/-- The name of a variable; a pattern has none. -/
def variableName (source : SourceBytes) (node : Node) : Except Fault (Option Text) :=
  match node.at? "name" with
  | none => .ok none
  | some name =>
    if name.kind = "identifier" then (source.textOf name).map some else .ok none

/-- Whether the initializer of a variable is a function. -/
def holdsFunction (node : Node) : Bool :=
  match node.at? "value" with
  | none => false
  | some value => isFunctionValue value.unwrapped.kind

/-- Reads one variable. -/
def addVariable (source : SourceBytes) (reading : Reading) (exported fixed : Bool)
    (jsdocs : List Text) (node : Node) : Except Fault Reading := do
  let name ← variableName source node
  let typeText ← declaredType source reading.scope fixed node
  let hasInitializer := (node.at? "value").isSome
  let isFunction := holdsFunction node
  let declaration : VariableDeclaration :=
    { name, typeText, hasInitializer, isFunction, exported, jsdocs }
  let variableList := reading.variableList ++ [declaration]
  match given name with
  | none => return { reading with variableList }
  | some name => return { reading with variableList, scope := reading.scope.declare name typeText }

/-- Reads variables, one after the other. -/
def addVariables (source : SourceBytes) (reading : Reading) (exported fixed : Bool)
    (jsdocs : List Text) : List Node → Except Fault Reading
  | [] => .ok reading
  | node :: rest => do
    let next ← addVariable source reading exported fixed jsdocs node
    addVariables source next exported fixed jsdocs rest

/-- Whether the variables of a statement keep their value. -/
def isFixed (node : Node) : Bool :=
  match node.children with
  | [] => false
  | first :: _ => first.kind == "const"

/-- Reads a declaration; `outer` is the statement around it. -/
def addDeclaration (source : SourceBytes) (reading : Reading) (exported : Bool)
    (jsdocs : List Text) (node outer : Node) : Except Fault Reading :=
  match DeclarationKind.ofNode node with
  | .interface => reading.addInterface source exported jsdocs node outer
  | .typeAlias => reading.addTypeAlias source exported jsdocs node outer
  | .function => reading.addFunction source exported jsdocs node outer
  | .classLike => reading.addClass source exported jsdocs node
  | .variableList =>
    reading.addVariables source exported (isFixed node) jsdocs
      (node.namedChildren.filter fun child => child.kind == "variable_declarator")
  | .other => .ok reading

/-- Reads the names of an export clause, each with the comments in front of it. -/
def addSpecifiers (source : SourceBytes) (reading : Reading) :
    List (List Node × Node) → Except Fault Reading
  | [] => .ok reading
  | (comments, node) :: rest =>
    match node.kind == "export_specifier", node.at? "name" with
    | true, some nameNode => do
      let localName ← source.textOf nameNode
      let name := (← source.textAt? node "alias").getD localName
      let texts ← source.textsOf comments
      let next : Reading :=
        { reading with specifiers := reading.specifiers ++ [(name, localName, texts)] }
      addSpecifiers source next rest
    | _, _ => addSpecifiers source reading rest

/-- Reads the export clauses among some nodes. -/
def addClauses (source : SourceBytes) (reading : Reading) : List Node → Except Fault Reading
  | [] => .ok reading
  | node :: rest => do
    let next ←
      if node.kind = "export_clause" then
        reading.addSpecifiers source (attachComments (fun _ => false) [] node.children)
      else pure reading
    addClauses source next rest

/-- Reads what an export statement declares, gives a value to, or names. -/
def addExport (source : SourceBytes) (reading : Reading) (jsdocs : List Text) (node : Node) :
    Except Fault Reading :=
  match node.at? "declaration", node.at? "value" with
  | some declaration, _ =>
    if declaration.kind = "ambient_declaration" then
      match declaration.firstPart? with
      | none => .ok reading
      | some inner => reading.addDeclaration source true jsdocs inner node
    else reading.addDeclaration source true jsdocs declaration node
  | none, some value =>
    if isFunctionValue value.kind then reading.addFunction source true jsdocs value node
    else if value.kind = "class" then reading.addClass source true jsdocs value
    else .ok reading
  | none, none => reading.addClauses source node.children

/-- Reads a statement. -/
def addStatement (source : SourceBytes) (reading : Reading) (comments : List Node)
    (node : Node) : Except Fault Reading := do
  let jsdocs ← jsdocsOf source comments
  if node.kind = "export_statement" then reading.addExport source jsdocs node
  else if node.kind = "ambient_declaration" then
    match node.firstPart? with
    | none => return reading
    | some inner => reading.addDeclaration source false jsdocs inner node
  else reading.addDeclaration source false jsdocs node node

/-- Reads statements, one after the other. -/
def addStatements (source : SourceBytes) (reading : Reading) :
    List (List Node × Node) → Except Fault Reading
  | [] => .ok reading
  | (comments, node) :: rest => do
    let next ← reading.addStatement source comments node
    addStatements source next rest

end Reading

namespace SourceFile

/-- The statements of a file, each with the comments in front of it. -/
def statements (root : Node) : List (List Node × Node) :=
  attachComments (fun node => node.kind == "hash_bang_line") [] root.children

/-- The comments in front of the first statement. -/
def leadingOf (source : SourceBytes) (list : List (List Node × Node)) :
    Except Fault (List Text) :=
  match list with
  | [] => .ok []
  | (comments, _) :: _ => source.textsOf comments

/-- Reads a source file from its syntax tree. -/
def ofTree (path : Text) (source : SourceBytes) (root : Node) : Except Fault SourceFile := do
  let list := statements root
  let leadingComments ← leadingOf source list
  let reading ← Reading.addStatements source {} list
  return {
    path, leadingComments
    interfaces := reading.interfaces
    functions := FunctionForm.functions reading.functionForms
    typeAliases := reading.typeAliases
    variableList := reading.variableList
    classes := reading.classes
    exports := reading.specifiers.map fun (name, localName, leadingComments) =>
      { name, localName, leadingComments
        typeText := (reading.scope.typeOf? localName).getD TypeText.unknown } }

end SourceFile

end ApiDocs
