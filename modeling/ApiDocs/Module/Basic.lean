import ApiDocs.Policy
import ApiDocs.Text.Lowercase

/-!
# Documented modules

What the documentation of a module consists of: its own documentation and that of
its classes, interfaces, functions, type aliases, constants and exports.
-/

namespace ApiDocs

/-- The documentation of one thing. -/
structure Doc where
  name : Text := ""
  description : Option Text := none
  since : Option Text := none
  deprecated : Bool := false
  examples : List Text := []
  category : Option Text := none
  deriving DecidableEq, Repr, Inhabited

/-- The documentation that a checked comment gives to a name. -/
def Doc.ofSummary (name : Text) (summary : Summary) : Doc :=
  { name
    description := summary.description
    since := summary.since
    deprecated := summary.deprecated
    examples := summary.examples
    category := summary.category }

@[simp]
theorem Doc.name_ofSummary (name : Text) (summary : Summary) :
    (Doc.ofSummary name summary).name = name := rfl

/-- A thing with one signature: an interface, a type alias, a constant, an export or a property. -/
structure Item where
  doc : Doc := {}
  signature : Text := ""
  deriving DecidableEq, Repr, Inhabited

/-- A thing with a signature for each of its forms: a function or a method. -/
structure Callable where
  doc : Doc := {}
  signatures : List Text := []
  deriving DecidableEq, Repr, Inhabited

/-- A class with its members. -/
structure Class where
  doc : Doc := {}
  signature : Text := ""
  methods : List Callable := []
  staticMethods : List Callable := []
  properties : List Item := []
  deriving DecidableEq, Repr, Inhabited

/-- A module with everything it declares for others. -/
structure Module where
  doc : Doc := {}
  path : List Text := []
  classes : List Class := []
  interfaces : List Item := []
  functions : List Callable := []
  typeAliases : List Item := []
  constants : List Item := []
  exports : List Item := []
  deriving DecidableEq, Repr, Inhabited

namespace Module

/-- The path of a module as one text. -/
def location (module : Module) : Text :=
  Text.joinWith "/" module.path

/-- The key by which modules are ordered: the path in lower case. -/
def sortKey (module : Module) : Text :=
  Text.lower module.location

end Module

end ApiDocs
