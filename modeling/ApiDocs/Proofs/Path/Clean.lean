import ApiDocs.Proofs.Path.Names

/-!
# Clean paths and their texts

A clean path with proper names can be read back from its text.  The text of an absolute
one, joined with further names, is the text of the path below it that has these names.
-/

namespace ApiDocs.Path

variable {path : Text} {list : List Text}

theorem takeWhile_slash_of_not_isAbsolute (relative : isAbsolute path = false) :
    path.takeWhile (· == Symbol.char '/') = [] := by
  cases path with
  | nil => rfl
  | cons symbol rest =>
      have other : symbol ≠ .char '/' := by
        rintro rfl
        rw [isAbsolute_iff.mpr ⟨rest, rfl⟩] at relative
        cases relative
      simp [other]

theorem anchorOf_of_not_isAbsolute (relative : isAbsolute path = false) :
    anchorOf path = .relative := by
  simp [anchorOf, takeWhile_slash_of_not_isAbsolute relative]

/-- The anchor can be read back, whatever relative path stands behind it. -/
theorem anchorOf_text_append (anchor : Anchor) (relative : isAbsolute path = false) :
    anchorOf (anchor.text ++ path) = anchor := by
  have none := takeWhile_slash_of_not_isAbsolute relative
  cases anchor with
  | relative => exact anchorOf_of_not_isAbsolute relative
  | root =>
      show anchorOf (.char '/' :: path) = .root
      simp [anchorOf, none]
  | doubleRoot =>
      show anchorOf (.char '/' :: .char '/' :: path) = .doubleRoot
      simp [anchorOf, none]

theorem anchorOf_eq_relative_iff : anchorOf path = .relative ↔ isAbsolute path = false := by
  refine ⟨fun relative => ?_, anchorOf_of_not_isAbsolute⟩
  rw [Bool.eq_false_iff]
  intro absolute
  obtain ⟨rest, rfl⟩ := isAbsolute_iff.mp absolute
  rw [anchorOf] at relative
  split at relative
  · rename_i none
    simp at none
  · cases relative
  · cases relative

theorem Anchor.text_ne_nil {anchor : Anchor} (absolute : anchor ≠ .relative) :
    anchor.text ≠ [] := by
  cases anchor with
  | relative => exact absurd rfl absolute
  | root => exact List.cons_ne_nil _ _
  | doubleRoot => exact List.cons_ne_nil _ _

theorem Anchor.endsInSlash_text {anchor : Anchor} (absolute : anchor ≠ .relative) :
    endsInSlash anchor.text = true := by
  cases anchor with
  | relative => exact absurd rfl absolute
  | root => rfl
  | doubleRoot => rfl

theorem joinWith_ne_nil (areNames : ∀ name ∈ list, IsName name) (nonempty : list ≠ []) :
    Text.joinWith "/" list ≠ [] := by
  intro nothing
  have read := names_joinWith areNames
  rw [nothing] at read
  exact nonempty read.symm

/-- Written names do not end in a slash. -/
theorem endsInSlash_append_joinWith (front : Text) (areNames : ∀ name ∈ list, IsName name)
    (nonempty : list ≠ []) : endsInSlash (front ++ Text.joinWith "/" list) = false := by
  have last := areNames _ (List.getLast_mem nonempty)
  obtain ⟨before, written⟩ :=
    Text.exists_joinWith_concat "/" list.dropLast (list.getLast nonempty)
  rw [List.dropLast_append_getLast nonempty] at written
  rw [Bool.eq_false_iff]
  intro closed
  obtain ⟨rest, ended⟩ := endsInSlash_iff.mp closed
  rw [written, ← List.append_assoc] at ended
  have isLast : (list.getLast nonempty).getLast last.nonempty = .char '/' := by
    have ends := congrArg List.getLast? ended
    rw [List.getLast?_append_of_ne_nil _ last.nonempty, List.getLast?_concat,
      List.getLast?_eq_some_getLast last.nonempty] at ends
    exact Option.some.inj ends
  exact last.whole (isLast ▸ List.getLast_mem last.nonempty)

end ApiDocs.Path

namespace ApiDocs.CleanPath

open Path (IsName)

variable {path : CleanPath} {names : List Text}

/-- Whether a path begins at the root. -/
def IsAbsolute (path : CleanPath) : Prop :=
  path.anchor ≠ .relative

/-- The path with further names behind its own. -/
def below (path : CleanPath) (names : List Text) : CleanPath :=
  { path with names := path.names ++ names }

@[simp]
theorem names_below : (path.below names).names = path.names ++ names := rfl

@[simp]
theorem anchor_below : (path.below names).anchor = path.anchor := rfl

@[simp]
theorem below_below (further : List Text) :
    (path.below names).below further = path.below (names ++ further) := by
  simp [below]

@[simp]
theorem below_nil : path.below [] = path := by
  simp [below]

theorem IsAbsolute.below (absolute : path.IsAbsolute) (names : List Text) :
    (path.below names).IsAbsolute :=
  absolute

/-- A path with names is the path before its last name with that name below it. -/
theorem exists_below (nonempty : path.names ≠ []) :
    ∃ parent name, path = CleanPath.below parent [name] := by
  obtain ⟨init, last, cut⟩ := (List.eq_nil_or_concat path.names).resolve_left nonempty
  refine ⟨{ path with names := init }, last, ?_⟩
  rw [below, ← List.concat_eq_append, ← cut]

theorem IsProper.below (proper : path.IsProper) (areNames : ∀ name ∈ names, IsName name) :
    (path.below names).IsProper := by
  intro name member
  rcases List.mem_append.mp member with own | added
  · exact proper name own
  · exact areNames name added

theorem IsProper.parent (proper : path.IsProper) : path.parent.IsProper :=
  fun name member => proper name (List.dropLast_subset _ member)

/-- The text of an absolute path has its anchor and its names, and nothing else. -/
theorem IsAbsolute.text_eq (absolute : path.IsAbsolute) :
    path.text = path.anchor.text ++ Text.joinWith "/" path.names := by
  have written : path.anchor.text ++ Text.joinWith "/" path.names ≠ [] :=
    List.append_ne_nil_of_left_ne_nil (Path.Anchor.text_ne_nil absolute) _
  rw [text]
  exact if_neg written

theorem IsAbsolute.text_ne_nil (absolute : path.IsAbsolute) : path.text ≠ [] := by
  rw [absolute.text_eq]
  exact List.append_ne_nil_of_left_ne_nil (Path.Anchor.text_ne_nil absolute) _

theorem IsProper.anchorOf_text (proper : path.IsProper) :
    Path.anchorOf path.text = path.anchor := by
  rw [text]
  split
  · rename_i nothing
    cases anchored : path.anchor with
    | relative => rfl
    | root => simp [anchored, Path.Anchor.text, Text.ofString, Text.ofChars] at nothing
    | doubleRoot => simp [anchored, Path.Anchor.text, Text.ofString, Text.ofChars] at nothing
  · exact Path.anchorOf_text_append path.anchor (Path.isAbsolute_joinWith proper)

/-- A path can be read back from its text. -/
theorem IsProper.ofText_text (proper : path.IsProper) : ofText path.text = path := by
  simp only [ofText, proper.anchorOf_text, proper.names_text]

/-- The text of a name in a folder has that folder as its parent. -/
theorem IsProper.parent_ofText_below {name : Text} (proper : path.IsProper) (isName : IsName name) :
    (ofText (path.below [name]).text).parent = path := by
  have properBelow : (path.below [name]).IsProper := proper.below (by simpa using isName)
  rw [properBelow.ofText_text, CleanPath.parent, names_below, List.dropLast_concat]
  rfl

theorem isAbsolute_ofText_iff {text : Text} :
    (ofText text).IsAbsolute ↔ Path.isAbsolute text = true := by
  rw [IsAbsolute, ofText, ne_eq, Path.anchorOf_eq_relative_iff, Bool.not_eq_false]

theorem IsAbsolute.isAbsolute_text (absolute : path.IsAbsolute) :
    Path.isAbsolute path.text = true := by
  rw [absolute.text_eq]
  cases anchored : path.anchor with
  | relative => exact absurd anchored absolute
  | root => exact Path.isAbsolute_iff.mpr ⟨_, rfl⟩
  | doubleRoot => exact Path.isAbsolute_iff.mpr ⟨_, rfl⟩

theorem IsAbsolute.append (absolute : path.IsAbsolute) (further : Text) :
    (path.append further).IsAbsolute := by
  rw [CleanPath.append]
  split
  · exact absolute
  · rename_i anchored
    exact anchored

/-- A relative path seen from another one has the names of both. -/
theorem append_eq_below {further : Text} (relative : Path.isAbsolute further = false) :
    path.append further = path.below (Path.names further) := by
  rw [CleanPath.append, Path.anchorOf_of_not_isAbsolute relative]
  rfl

/-- Names that are joined to the text of an absolute path stand below it. -/
theorem IsAbsolute.join_text (absolute : path.IsAbsolute) (proper : path.IsProper)
    (areNames : ∀ name ∈ names, IsName name) (nonempty : names ≠ []) :
    Path.join path.text (Text.joinWith "/" names) = (path.below names).text := by
  have relative := Path.isAbsolute_joinWith areNames
  rw [(absolute.below names).text_eq, absolute.text_eq, Path.join, if_neg (by simp [relative]),
    anchor_below, names_below]
  rcases eq_or_ne path.names [] with alone | several
  · rw [alone, if_pos]
    · simp [Text.joinWith]
    · simp [Text.joinWith, Path.Anchor.endsInSlash_text absolute]
  · have unfinished := Path.endsInSlash_append_joinWith path.anchor.text proper several
    have written : path.anchor.text ++ Text.joinWith "/" path.names ≠ [] :=
      List.append_ne_nil_of_left_ne_nil (Path.Anchor.text_ne_nil absolute) _
    rw [if_neg (by simp [unfinished, List.isEmpty_iff, written]),
      Text.joinWith_append _ several nonempty]
    simp only [List.append_assoc]

theorem IsAbsolute.join_name (absolute : path.IsAbsolute) (proper : path.IsProper) {name : Text}
    (isName : IsName name) : Path.join path.text name = (path.below [name]).text :=
  have areNames : ∀ other ∈ [name], IsName other := by simpa using isName
  absolute.join_text proper areNames (List.cons_ne_nil name [])

end ApiDocs.CleanPath
