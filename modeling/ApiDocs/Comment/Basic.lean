import ApiDocs.Text.Symbol

/-!
# Documentation comments

A documentation comment has a free description and tags.  A tag may be given
several times, and may be given without a value; the values of one tag are kept
together in the order of the text, and the tags in the order in which they first
came.
-/

namespace ApiDocs

/-- The values of each tag, under the tag names in first-seen order. -/
abbrev TagTable := List (Text × List (Option Text))

namespace TagTable

/-- Adds one value to a tag. -/
def add (name : Text) (value : Option Text) : TagTable → TagTable
  | [] => [(name, [value])]
  | (other, values) :: rest =>
    if other = name then (other, values ++ [value]) :: rest
    else (other, values) :: add name value rest

@[simp]
theorem add_nil (name : Text) (value : Option Text) :
    add name value [] = [(name, [value])] := rfl

/-- The values of a tag; none if it was not given. -/
def values (name : Text) : TagTable → List (Option Text)
  | [] => []
  | (other, values) :: rest => if other = name then values else TagTable.values name rest

/-- Whether the tag was given. -/
def has (name : Text) (table : TagTable) : Bool :=
  table.any fun (other, _) => other == name

end TagTable

/-- A description and tags. -/
structure Comment where
  description : Option Text := none
  tags : TagTable := []
  deriving DecidableEq, Repr, Inhabited

namespace Comment

/-- Whether the comment has the tag. -/
def hasTag (comment : Comment) (name : Text) : Bool :=
  comment.tags.has name

/-- The first value of a tag, if the tag was given and had one the first time. -/
def first (comment : Comment) (name : Text) : Option Text :=
  match comment.tags.values name with
  | [] => none
  | value :: _ => value

/-- Whether the comment hides its declaration from the documentation. -/
def hides (comment : Comment) : Bool :=
  comment.hasTag "internal" || comment.hasTag "ignore"

end Comment

end ApiDocs
