import ApiDocs.Text.Blank

/-!
# Finding and replacing inside a text

Plain substring search, and one scan that every replacement of the library goes
through: at each place, from left to right, a rule may consume a non-empty piece
and put another in its stead; where it does not apply, one symbol is kept.
-/

namespace ApiDocs.Text

/-- What follows the given beginning, if the text has that beginning. -/
def afterPrefix? : Text → Text → Option Text
  | [], text => some text
  | _ :: _, [] => none
  | c :: pattern, d :: text => if c = d then afterPrefix? pattern text else none

@[simp]
theorem afterPrefix?_nil (text : Text) : afterPrefix? [] text = some text := rfl

/-- Whether the text has the given beginning. -/
def startsWith (text pattern : Text) : Bool :=
  (afterPrefix? pattern text).isSome

/-- Whether the text has the given ending. -/
def endsWith (text pattern : Text) : Bool :=
  (afterPrefix? pattern.reverse text.reverse).isSome

/-- Whether the pattern occurs somewhere in the text. -/
def occursIn (pattern : Text) : Text → Bool
  | [] => pattern.isEmpty
  | c :: rest => startsWith (c :: rest) pattern || occursIn pattern rest

/--
Scans the text once from left to right.  Where the rule answers with a
replacement and a shorter rest, the replacement is put out and the scan goes on
behind the piece; elsewhere one symbol is kept.
-/
def substitute (rule : Text → Option (Text × Text)) (text : Text) :
    Text :=
  match text with
  | [] => []
  | c :: kept =>
    match rule (c :: kept) with
    | some (replacement, rest) =>
      if rest.length ≤ kept.length then replacement ++ substitute rule rest
      else c :: substitute rule kept
    | none => c :: substitute rule kept
termination_by text.length
decreasing_by all_goals simp_all; try omega

/-- Replaces every occurrence of a non-empty pattern. -/
def replaceAll (pattern replacement text : Text) : Text :=
  substitute (fun here => (afterPrefix? pattern here).map fun rest => (replacement, rest)) text

/-- The first `count` symbols; a negative count leaves off that many at the end. -/
def takeSigned (count : Int) (text : Text) : Text :=
  if count < 0 then text.take (text.length - (-count).toNat) else text.take count.toNat

end ApiDocs.Text
