import Mathlib.Data.List.Infix
import ApiDocs.Module.Signature
import ApiDocs.Proofs.Text.Search

/-!
# Qualifiers that import a type in place

Where a type of another module is named, a qualifier in front of its name can import it in place.
Signatures are shown without these qualifiers.  A text is read here as plain pieces with qualifiers
between them, and leaving the qualifiers out is proved to leave the pieces and nothing else.

One scan from left to right finds the qualifiers.  It begins none inside a piece, not even where the
end of the piece and the beginning of what follows it look like the word at the front of a
qualifier: that word has its first letter only once.
-/

namespace ApiDocs

namespace Text

variable {front rest word : Text} {first : Symbol}

/--
A word with its first letter only once does not begin in one text and end in the next, if the next
one, where it is not empty, begins with that letter itself.
-/
theorem cons_prefix_of_cons_prefix_append (once : first ∉ word) (nonempty : front ≠ [])
    (begins : ∀ symbol ∈ rest.head?, symbol = first) (found : first :: word <+: front ++ rest) :
    first :: word <+: front := by
  obtain ⟨behind, same⟩ := found
  rcases List.append_eq_append_iff.mp same with ⟨gap, isFront, -⟩ | ⟨gap, isWord, isRest⟩
  · exact ⟨gap, isFront.symm⟩
  · obtain ⟨other, others, rfl⟩ := List.exists_cons_of_ne_nil nonempty
    obtain ⟨rfl, rfl⟩ := List.cons.inj isWord
    cases gap with
    | nil => exact ⟨[], by simp⟩
    | cons symbol gap =>
        -- The word would go on in the second text, and its first letter would come again there.
        have again : symbol = first := begins symbol (by simp [isRest])
        exact absurd (by simp [again]) once

end Text

namespace Signature

variable {path piece before after rest : Text}

/-- The beginning of a qualifier. -/
def opening : Text := "import("

/-- The qualifier that imports a type from a path. -/
def qualifier (path : Text) : Text :=
  "import(\"" ++ path ++ "\")."

/-- A text in which no qualifier begins. -/
def IsPlain (text : Text) : Prop :=
  ¬opening <:+: text

instance (text : Text) : Decidable (IsPlain text) :=
  inferInstanceAs (Decidable (¬_))

/-- A qualifier and the plain piece behind it; the path may hold whatever stands in quotes. -/
structure QualifiedPiece where
  path : Text
  piece : Text
  quote_not_mem : Symbol.char '"' ∉ path
  feed_not_mem : Symbol.char '\n' ∉ path
  isPlain : IsPlain piece

/-- The qualifier and the piece as they are written. -/
def QualifiedPiece.text (qualified : QualifiedPiece) : Text :=
  qualifier qualified.path ++ qualified.piece

/-- Plain pieces with qualifiers between them. -/
structure QualifiedText where
  first : Text
  others : List QualifiedPiece
  isPlain : IsPlain first

/-- The text as it is written. -/
def QualifiedText.text (source : QualifiedText) : Text :=
  source.first ++ source.others.flatMap QualifiedPiece.text

/-- The pieces of the text. -/
def QualifiedText.pieces (source : QualifiedText) : List Text :=
  source.first :: source.others.map QualifiedPiece.piece

theorem opening_eq : opening = Symbol.char 'i' :: "mport(" := rfl

/-- In a plain piece no qualifier begins, and none that ends behind it. -/
theorem afterImport?_eq_none (plain : IsPlain (before ++ after)) (nonempty : after ≠ [])
    (begins : ∀ symbol ∈ rest.head?, symbol = Symbol.char 'i') :
    afterImport? (after ++ rest) = none := by
  have notFound : Text.afterPrefix? "import(\"" (after ++ rest) = none := by
    rw [Option.eq_none_iff_forall_ne_some]
    intro inner found
    have opens : opening <+: after ++ rest :=
      ⟨Symbol.char '"' :: inner, (Text.afterPrefix?_eq_some_iff.mp found).symm⟩
    have inPiece : opening <+: after := by
      rw [opening_eq] at opens ⊢
      exact Text.cons_prefix_of_cons_prefix_append (by decide) nonempty begins opens
    exact plain (inPiece.isInfix.trans (List.suffix_append before after).isInfix)
  rw [afterImport?, notFound]

theorem afterImport?_qualifier (noQuote : Symbol.char '"' ∉ path)
    (noFeed : Symbol.char '\n' ∉ path) (rest : Text) :
    afterImport? (qualifier path ++ rest) = some rest := by
  have closes : (path ++ (("\")." : Text) ++ rest)).dropWhile
      (fun c => c != Symbol.char '"' && c != Symbol.char '\n') = "\")." ++ rest := by
    rw [List.dropWhile_append_of_pos]
    · rfl
    · intro symbol member
      have notQuote : symbol ≠ '"' := ne_of_mem_of_not_mem member noQuote
      have notFeed : symbol ≠ '\n' := ne_of_mem_of_not_mem member noFeed
      simp [notQuote, notFeed]
  rw [qualifier, List.append_assoc, List.append_assoc, afterImport?, Text.afterPrefix?_append]
  dsimp only
  rw [closes, Text.afterPrefix?_append]

/-- Plain pieces are kept, in front of a qualifier or at the end. -/
theorem withoutImports_append (plain : IsPlain piece)
    (begins : ∀ symbol ∈ rest.head?, symbol = Symbol.char 'i') :
    withoutImports (piece ++ rest) = piece ++ withoutImports rest := by
  apply Text.substitute_append_of_none
  rintro before after rfl nonempty
  rw [afterImport?_eq_none plain nonempty begins, Option.map_none]

/-- Qualifiers are left out, and the scan goes on behind them. -/
theorem withoutImports_qualifier (noQuote : Symbol.char '"' ∉ path)
    (noFeed : Symbol.char '\n' ∉ path) (rest : Text) :
    withoutImports (qualifier path ++ rest) = withoutImports rest := by
  have shorter : rest.length < (qualifier path ++ rest).length := by
    have nonempty : 0 < (qualifier path).length := Nat.succ_pos _
    rw [List.length_append]
    omega
  have scanned : withoutImports (qualifier path ++ rest) = [] ++ withoutImports rest :=
    Text.substitute_of_some (by rw [afterImport?_qualifier noQuote noFeed, Option.map_some]) shorter
  exact scanned

/-- Qualified pieces begin as the first of their qualifiers does. -/
theorem head_of_qualifiedPieces (others : List QualifiedPiece) :
    ∀ symbol ∈ (others.flatMap QualifiedPiece.text).head?, symbol = Symbol.char 'i' := by
  intro symbol isHead
  cases others with
  | nil => cases isHead
  | cons qualified others => exact (Option.some.inj isHead).symm

theorem withoutImports_qualifiedPieces (others : List QualifiedPiece) :
    withoutImports (others.flatMap QualifiedPiece.text) =
      others.flatMap QualifiedPiece.piece := by
  induction others with
  | nil => exact Text.substitute_nil _
  | cons qualified others ih =>
      rw [List.flatMap_cons, List.flatMap_cons, QualifiedPiece.text, List.append_assoc,
        withoutImports_qualifier qualified.quote_not_mem qualified.feed_not_mem,
        withoutImports_append qualified.isPlain (head_of_qualifiedPieces others), ih]

/--
Where no piece of a text has the beginning of a qualifier, exactly the qualifiers between the
pieces are left out, whatever stands between their quotes and however the pieces end.
-/
theorem withoutImports_leaves_pieces (source : QualifiedText) :
    withoutImports source.text = source.pieces.flatten := by
  rw [QualifiedText.text, QualifiedText.pieces, List.flatten_cons, ← List.flatMap_def,
    withoutImports_append source.isPlain (head_of_qualifiedPieces source.others),
    withoutImports_qualifiedPieces]

/-- Pieces that end like the beginning of a qualifier, and a path that holds one. -/
def deceptiveText : QualifiedText where
  first := "a: import"
  others :=
    [⟨"./import(b).", "import", by decide, by decide, by decide⟩,
      ⟨"", "\").", by decide, by decide, by decide⟩]
  isPlain := by decide

example :
    deceptiveText.text = "a: importimport(\"./import(b).\").importimport(\"\").\")." ∧
      withoutImports deceptiveText.text = "a: importimport\")." := by
  decide +kernel

end Signature

end ApiDocs
