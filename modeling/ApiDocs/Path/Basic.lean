import ApiDocs.Text.Search

/-!
# Paths as text

A path is a text of names separated by slashes; one that begins with a slash is
absolute.  The operations of this module work on the text alone and never ask
the disk: joining, splitting off the last name, removing the names `.` and `..`,
and expressing one path relative to another.
-/

namespace ApiDocs.Path

/-- The pieces between slashes, empty pieces included; there is always at least one. -/
def pieces (path : Text) : List Text :=
  path.splitOn '/'

/-- Whether the path begins at the root. -/
def isAbsolute (path : Text) : Bool :=
  Text.startsWith path "/"

/-- Whether the path ends with a slash. -/
def endsInSlash (path : Text) : Bool :=
  Text.endsWith path "/"

/-- The second path seen from the first; an absolute second path stands alone. -/
def join (first second : Text) : Text :=
  if isAbsolute second then second
  else if first.isEmpty || endsInSlash first then first ++ second
  else first ++ "/" ++ second

@[simp]
theorem join_empty (second : Text) : join [] second = second := by
  simp [join]

/-- The path without the slashes at its end. -/
def withoutEndSlashes (path : Text) : Text :=
  Text.dropEndWhile (· == '/') path

/--
The path divided before its last piece.  The first part loses the slashes at its
end, unless it has nothing else.
-/
def split (path : Text) : Text × Text :=
  let backwards : Text := path.reverse.takeWhile (· != '/')
  let last := backwards.reverse
  let head := path.take (path.length - last.length)
  let trimmed := withoutEndSlashes head
  ((if trimmed.isEmpty then head else trimmed), last)

/-- The path without its last piece. -/
def parentText (path : Text) : Text :=
  (split path).1

/-- The last piece of the path. -/
def baseName (path : Text) : Text :=
  (split path).2

/-- How a path begins: anywhere, at the root, or with exactly two slashes. -/
inductive Anchor where
  | relative
  | root
  | doubleRoot
  deriving DecidableEq, Repr, Inhabited

/-- The slashes of an anchor. -/
def Anchor.text : Anchor → Text
  | .relative => ""
  | .root => "/"
  | .doubleRoot => "//"

/-- The anchor of a path: three slashes or more are the root again. -/
def anchorOf (path : Text) : Anchor :=
  let slashes : Text := path.takeWhile (· == '/')
  match slashes.length with
  | 0 => .relative
  | 2 => .doubleRoot
  | _ => .root

/-- The names of a path: its pieces without the empty ones and without `.`. -/
def names (path : Text) : List Text :=
  (pieces path).filter fun piece => !piece.isEmpty && piece != "."

/--
Takes `..` together with the name before it.  At the root it disappears; at the
beginning of a relative path it stays.  The list holds the names so far, the last
one first.
-/
def climb (anchor : Anchor) (before : List Text) (name : Text) : List Text :=
  if name = ".." then
    match before with
    | [] => if anchor = .relative then [name] else []
    | last :: above => if last = ".." then name :: before else above
  else name :: before

/-- The names of a path after taking every `..` together with the name before it. -/
def normalNames (path : Text) : List Text :=
  ((names path).foldl (climb (anchorOf path)) []).reverse

/-- The path with single slashes, without `.`, and with `..` only at its beginning. -/
def normal (path : Text) : Text :=
  let text := (anchorOf path).text ++ Text.joinWith "/" (normalNames path)
  if text.isEmpty then "." else text

/-- The normal form of a path as seen from an absolute path. -/
def absolute (here path : Text) : Text :=
  normal (join here path)

/-- Drops the names that two lists have in common at their beginning. -/
def dropCommon : List Text → List Text → List Text × List Text
  | left :: lefts, right :: rights =>
    if left = right then dropCommon lefts rights else (left :: lefts, right :: rights)
  | lefts, rights => (lefts, rights)

/-- The path that leads from `start` to `path`, where both are seen from `here`. -/
def relative (here path start : Text) : Text :=
  let (fromStart, toPath) :=
    dropCommon (normalNames (absolute here start)) (normalNames (absolute here path))
  let steps : List Text := fromStart.map (fun _ => (".." : Text)) ++ toPath
  if steps.isEmpty then "." else Text.joinWith "/" steps

end ApiDocs.Path
