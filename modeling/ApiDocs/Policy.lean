import ApiDocs.Checked
import ApiDocs.Comment.Basic
import ApiDocs.Settings.Basic

/-!
# Rules for documentation comments

A comment is checked for the parts that the settings ask for.  Every check is
made, so that all errors of a comment are reported together: version, category,
description, examples, in this order.
-/

namespace ApiDocs

/-- What a checked comment says about its declaration. -/
structure Summary where
  description : Option Text := none
  since : Option Text := none
  category : Option Text := none
  examples : List Text := []
  deprecated : Bool := false
  deriving DecidableEq, Repr, Inhabited

namespace Policy

/-- The place that errors name: the path of the module and the name of the declaration. -/
def place (path : List Text) (name : Text) : Text :=
  Text.joinWith "/" path ++ "#" ++ name

/-- The version since which the declaration exists. -/
def since (comment : Comment) (place : Text) (settings : Settings) : Checked (Option Text) :=
  match comment.first "since" with
  | some version => .accepted (some version)
  | none =>
    if settings.enforceVersion then
      .fail ("Missing \"@since\" tag in " ++ place ++ " documentation")
    else .accepted none

/-- The category of the declaration; a category tag without a value is an error. -/
def category (comment : Comment) (place : Text) : Checked (Option Text) :=
  if comment.hasTag "category" then
    match comment.first "category" with
    | some category => .accepted (some category)
    | none => .fail ("Missing @category value in " ++ place ++ " documentation")
  else .accepted none

/-- The description of the declaration. -/
def description (comment : Comment) (place : Text) (settings : Settings) :
    Checked (Option Text) :=
  match comment.description with
  | some description => .accepted (some description)
  | none =>
    if settings.enforceDescriptions then
      .fail ("Missing description in " ++ place ++ " documentation")
    else .accepted none

/-- The examples of a comment that have a text. -/
def givenExamples (comment : Comment) : List Text :=
  (comment.tags.values "example").filterMap fun value =>
    match value with
    | some text => if text = "" then none else some text
    | none => none

/-- The examples of the declaration; a module needs none. -/
def examples (comment : Comment) (place : Text) (settings : Settings) (isModule : Bool) :
    Checked (List Text) :=
  let given := givenExamples comment
  if settings.enforceExamples && !isModule && given.isEmpty then
    .fail ("Missing examples in " ++ place ++ " documentation")
  else .accepted given

/-- Checks the comment of a declaration. -/
def check (name : Text) (path : List Text) (comment : Comment) (isModule : Bool)
    (settings : Settings) : Checked Summary :=
  let place := place path name
  let checks :=
    (since comment place settings).both <|
      (category comment place).both <|
        (description comment place settings).both <|
          examples comment place settings isModule
  checks.map fun (since, category, description, examples) =>
    { description, since, category, examples, deprecated := comment.hasTag "deprecated" }

end Policy

end ApiDocs
