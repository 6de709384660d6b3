import ApiDocs.Text.Search

/-!
# Wildcard patterns

A pattern is a text in which `*` stands for any run of characters, `?` for one
character and `[...]` for one character out of a set.  A set that begins with `!`
is the complement.  Inside a set a dash between two characters is a range; a range
whose ends are in the wrong order is empty.  A bracket that is never closed stands
for itself.
-/

namespace ApiDocs

/-- The characters that a set names: runs of single characters, and a range between neighbours. -/
structure CharSet where
  negated : Bool
  runs : List Text
  deriving DecidableEq, Repr, Inhabited

namespace CharSet

/-- Whether the character lies in the range between two neighbouring runs. -/
def inRange (c : Symbol) (left right : Text) : Bool :=
  match left.getLast?, right.head? with
  | some low, some high => low ≤ c && c ≤ high
  | _, _ => false

/-- Whether the runs name the character, singly or by a range. -/
def named (c : Symbol) : List Text → Bool
  | [] => false
  | [run] => run.contains c
  | run :: next :: others => run.contains c || inRange c run next || named c (next :: others)

/-- Whether the set has the character. -/
def mem (set : CharSet) (c : Symbol) : Bool :=
  named c set.runs != set.negated

/--
Cuts the text of a set at the dashes that make ranges.  A dash among the first
`skip` characters makes none; after a range the next two characters make none.
-/
def runsOf (skip : Nat) (text : Text) : List Text :=
  let searched := text.drop skip
  let run : Text := searched.takeWhile (· != '-')
  if run.length < searched.length then
    (text.take skip ++ run) :: runsOf 2 (searched.drop (run.length + 1))
  else [text]
termination_by text.length
decreasing_by
  have shorter : searched.length ≤ text.length := by simp [searched]
  simp only [List.length_drop]
  omega

/-- A dash at the end of the text stands for itself. -/
def keepLastDash : List Text → List Text
  | [] => []
  | [run, []] => [run ++ "-"]
  | run :: others => run :: keepLastDash others

/-- Takes away a range whose ends are in the wrong order. -/
def dropEmptyRange (run : Text) : List Text → List Text
  | [] => [run]
  | next :: others =>
    match run.getLast?, next.head? with
    | some low, some high =>
      if high < low then (run.dropLast ++ next.tail) :: others else run :: next :: others
    | _, _ => run :: next :: others

/-- Reads the text between the brackets. -/
def ofText (text : Text) : CharSet :=
  let skip := if Text.startsWith text "!" then 2 else 1
  match (keepLastDash (runsOf skip text)).foldr dropEmptyRange [] with
  | ('!' :: first) :: others => { negated := true, runs := first :: others }
  | runs => { negated := false, runs }

end CharSet

/-- One part of a wildcard pattern. -/
inductive Wildcard where
  | run
  | one
  | exactly (c : Symbol)
  | oneOf (set : CharSet)
  deriving DecidableEq, Repr, Inhabited

namespace Wildcard

/-- The text of a set and what follows its closing bracket, if it is closed. -/
def setText? (text : Text) : Option (Text × Text) :=
  let (negation, text) : Text × Text :=
    if Text.startsWith text "!" then ("!", text.drop 1) else ("", text)
  let (bracket, text) : Text × Text :=
    if Text.startsWith text "]" then ("]", text.drop 1) else ("", text)
  let body : Text := text.takeWhile (· != ']')
  match text.drop body.length with
  | [] => none
  | _ :: rest => some (negation ++ bracket ++ body, rest)

/-- Puts a part in front of a pattern; two runs in a row are one. -/
def consPart : Wildcard → List Wildcard → List Wildcard
  | .run, .run :: rest => .run :: rest
  | part, rest => part :: rest

/-- Reads a pattern. -/
def ofText (text : Text) : List Wildcard :=
  match text with
  | [] => []
  | c :: rest =>
    if c = '*' then consPart .run (ofText rest)
    else if c = '?' then .one :: ofText rest
    else if c = '[' then
      match setText? rest with
      | none => .exactly c :: ofText rest
      | some (set, after) =>
        if after.length ≤ rest.length then .oneOf (CharSet.ofText set) :: ofText after
        else .exactly c :: ofText rest
    else .exactly c :: ofText rest
termination_by text.length
decreasing_by all_goals simp_all; try omega

/-- Whether a part of a pattern stands for the character. -/
def takes (c : Symbol) : Wildcard → Bool
  | .run => true
  | .one => true
  | .exactly d => d == c
  | .oneOf set => set.mem c

/-- The ends of a pattern that are left if a run at its beginning stands for nothing. -/
def closure : List Wildcard → List (List Wildcard)
  | .run :: pattern => (.run :: pattern) :: closure pattern
  | pattern => [pattern]

/-- The ends of a pattern that are left when its first part stands for the character. -/
def after (c : Symbol) : List Wildcard → List (List Wildcard)
  | .run :: pattern => closure (.run :: pattern)
  | part :: pattern => if takes c part then closure pattern else []
  | [] => []

/-- Keeps one end of each length, since the ends of a pattern are known by their lengths. -/
def distinct : List (List Wildcard) → List (List Wildcard)
  | [] => []
  | left :: others =>
    left :: (distinct others).filter fun other => other.length != left.length

/--
Whether the whole text has the form of the pattern.  The text is read once, with all
the ends of the pattern that may still be left, of which there are at most as many
as the pattern is long.
-/
def fits (pattern : List Wildcard) (text : Text) : Bool :=
  let left := text.foldl (fun ends c => distinct (ends.flatMap (after c))) (closure pattern)
  left.any List.isEmpty

/-- Whether the text has the form of the pattern given as a text. -/
def fitsText (pattern text : Text) : Bool :=
  fits (ofText pattern) text

/-- Whether the character has a meaning of its own in patterns. -/
def isMagic (c : Symbol) : Bool :=
  c == '*' || c == '?' || c == '['

/-- Whether a text is a pattern and not only a name. -/
def hasMagic (text : Text) : Bool :=
  text.any isMagic

end Wildcard

end ApiDocs
