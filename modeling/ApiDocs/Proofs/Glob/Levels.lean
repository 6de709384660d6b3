import ApiDocs.Glob.Search
import ApiDocs.Proofs.Path.Clean
import ApiDocs.Proofs.Text.Blank

/-!
# The levels of a pattern

A pattern is cut at its last name as long as there are wildcards in front of it.  For a
clean path that means: the search begins where its names have no wildcards any more, and
the names behind are the levels.
-/

namespace ApiDocs

namespace Path

variable {name : Text}

/-- A path is divided at the slash before its last name. -/
theorem split_append (front : Text) (whole : Symbol.char '/' ∉ name) :
    split (front ++ .char '/' :: name) =
      (if (withoutEndSlashes front).isEmpty then front ++ [.char '/']
        else withoutEndSlashes front, name) := by
  have last : ((front ++ .char '/' :: name).reverse.takeWhile (· != Symbol.char '/')).reverse =
      name := by
    have passes : ∀ symbol ∈ name.reverse, (symbol != Symbol.char '/') = true := by
      intro symbol member
      rw [bne_iff_ne]
      rintro rfl
      exact whole (List.mem_reverse.mp member)
    rw [List.reverse_append, List.reverse_cons, List.append_assoc,
      List.takeWhile_append_of_pos passes]
    simp
  have head : (front ++ .char '/' :: name).take
      ((front ++ .char '/' :: name).length - name.length) = front ++ [.char '/'] := by
    have cut : front ++ .char '/' :: name = (front ++ [.char '/']) ++ name := by simp
    rw [cut, List.length_append, Nat.add_sub_cancel, List.take_left]
  have trimmed : withoutEndSlashes (front ++ [.char '/']) = withoutEndSlashes front := by
    rw [withoutEndSlashes, withoutEndSlashes, Text.dropEndWhile_append (by simp)]
  simp only [split, last, head, trimmed]

end Path

namespace CleanPath

open Path (IsName)

variable {path : CleanPath} {names : List Text} {name : Text}

/-- The text of an absolute path without its last slash is the text before that name. -/
theorem IsAbsolute.exists_text_concat (absolute : path.IsAbsolute) (proper : path.IsProper)
    (isName : IsName name) :
    ∃ front, (path.below [name]).text = front ++ .char '/' :: name ∧
      (if (Path.withoutEndSlashes front).isEmpty then front ++ [Symbol.char '/']
        else Path.withoutEndSlashes front) = path.text := by
  have written := absolute.join_name proper isName
  have relative := Path.isAbsolute_of_not_mem isName.whole
  have text := absolute.text_eq
  rcases eq_or_ne path.names [] with alone | several
  · rw [alone] at text
    change path.text = path.anchor.text ++ [] at text
    rw [List.append_nil] at text
    rw [← written, Path.join, if_neg (by simp [relative]), text,
      if_pos (by simp [Path.Anchor.endsInSlash_text absolute])]
    cases anchored : path.anchor with
    | relative => exact absurd anchored absolute
    | root => exact ⟨[], rfl, rfl⟩
    | doubleRoot => exact ⟨[.char '/'], rfl, rfl⟩
  · have nonempty := absolute.text_ne_nil
    have unfinished : Path.endsInSlash path.text = false := by
      rw [text]
      exact Path.endsInSlash_append_joinWith path.anchor.text proper several
    have kept : Path.withoutEndSlashes path.text = path.text := by
      obtain ⟨front, symbol, cut⟩ := (List.eq_nil_or_concat path.text).resolve_left nonempty
      rw [List.concat_eq_append] at cut
      rw [cut]
      apply Text.dropEndWhile_concat
      rw [Bool.eq_false_iff]
      intro slash
      rw [Bool.eq_false_iff] at unfinished
      exact unfinished (Path.endsInSlash_iff.mpr ⟨front, by rw [cut, eq_of_beq slash]⟩)
    refine ⟨path.text, ?_, ?_⟩
    · rw [← written, Path.join, if_neg (by simp [relative]),
        if_neg (by simp [unfinished, nonempty]), Path.append_slash_append]
    · rw [kept, if_neg (by simpa using nonempty)]

theorem IsAbsolute.split_text (absolute : path.IsAbsolute) (proper : path.IsProper)
    (isName : IsName name) : Path.split (path.below [name]).text = (path.text, name) := by
  obtain ⟨front, written, parent⟩ := absolute.exists_text_concat proper isName
  rw [written, Path.split_append front isName.whole, parent]

/-! ## Wildcards in a path -/

theorem hasMagic_append (first second : Text) :
    Wildcard.hasMagic (first ++ second) =
      (Wildcard.hasMagic first || Wildcard.hasMagic second) :=
  List.any_append

theorem hasMagic_joinWith (names : List Text) :
    Wildcard.hasMagic (Text.joinWith "/" names) = names.any Wildcard.hasMagic := by
  induction names with
  | nil => rfl
  | cons name rest ih =>
      rcases eq_or_ne rest [] with rfl | nonempty
      · simp [Text.joinWith]
      · have slash : Wildcard.hasMagic ("/" : Text) = false := rfl
        rw [Text.joinWith_cons _ _ nonempty, hasMagic_append, hasMagic_append, ih, slash]
        simp

theorem IsAbsolute.hasMagic_text (absolute : path.IsAbsolute) :
    Wildcard.hasMagic path.text = path.names.any Wildcard.hasMagic := by
  have anchor : Wildcard.hasMagic path.anchor.text = false := by
    cases path.anchor <;> rfl
  rw [absolute.text_eq, hasMagic_append, hasMagic_joinWith, anchor, Bool.false_or]

theorem IsAbsolute.hasMagic_below (absolute : path.IsAbsolute) (names : List Text) :
    Wildcard.hasMagic (path.below names).text =
      (Wildcard.hasMagic path.text || names.any Wildcard.hasMagic) := by
  rw [(absolute.below names).hasMagic_text, absolute.hasMagic_text, names_below, List.any_append]

theorem hasMagic_of_mem_names {text name : Text} (plain : Wildcard.hasMagic text = false)
    (member : name ∈ Path.names text) : Wildcard.hasMagic name = false := by
  have isPiece := (List.mem_filter.mp member).1
  have joined : Wildcard.hasMagic (Text.joinWith "/" (Path.pieces text)) = false := by
    have same : Text.joinWith "/" (Path.pieces text) = text :=
      Text.joinWith_splitOn (.char '/') text
    rwa [same]
  rw [hasMagic_joinWith, List.any_eq_false] at joined
  simpa using joined name isPiece

/-- Without wildcards in two paths there are none in the second one seen from the first. -/
theorem IsAbsolute.hasMagic_append_eq_false (absolute : path.IsAbsolute) {further : Text}
    (plain : Wildcard.hasMagic path.text = false)
    (plainFurther : Wildcard.hasMagic further = false) :
    Wildcard.hasMagic (path.append further).text = false := by
  have added : (Path.names further).any Wildcard.hasMagic = false := by
    rw [List.any_eq_false]
    intro name member
    simpa using hasMagic_of_mem_names plainFurther member
  rw [absolute.hasMagic_text] at plain
  rw [(absolute.append further).hasMagic_text, CleanPath.append]
  split
  · rw [List.any_append, plain, added]
    rfl
  · exact added

end CleanPath

namespace Glob

open Path (IsName)

variable {path : CleanPath}

/-- The pattern for everything below a folder that fits a level. -/
theorem join_everything (absolute : path.IsAbsolute) (proper : path.IsProper) {level : Text}
    (isName : IsName level) :
    Path.join (Path.join path.text "**") level = (path.below [everything, level]).text := by
  have below : (path.below [everything]).IsAbsolute := absolute
  have everythingIsName : IsName everything := by decide
  have isProper : (path.below [everything]).IsProper := proper.below (by simpa)
  rw [show ("**" : Text) = everything from rfl, absolute.join_name proper everythingIsName,
    below.join_name isProper isName, CleanPath.below_below]
  rfl

theorem length_le_length_joinWith {list : List Text} (areNames : ∀ name ∈ list, IsName name) :
    list.length ≤ (Text.joinWith "/" list).length := by
  induction list with
  | nil => exact Nat.le_refl 0
  | cons name rest ih =>
      have own := List.length_pos_iff.mpr (areNames name List.mem_cons_self).nonempty
      have others := ih fun other member => areNames other (List.mem_cons_of_mem name member)
      rcases eq_or_ne rest [] with rfl | nonempty
      · exact own
      · rw [Text.joinWith_cons _ _ nonempty, List.length_append, List.length_append,
          List.length_cons]
        omega

/--
A search begins where the names have no wildcards any more: none has one in front of the
first level, and if there are more levels, the first one has.
-/
theorem levelsFrom_text (absolute : path.IsAbsolute) (proper : path.IsProper)
    (nonempty : path.names ≠ []) (fuel : Nat) (enough : path.names.length ≤ fuel)
    (levels : List Text) :
    ∃ front first others, path.names = front ++ first :: others ∧
      (∀ name ∈ front, Wildcard.hasMagic name = false) ∧
      (others ≠ [] → Wildcard.hasMagic first = true) ∧
      levelsFrom fuel path.text levels =
        ((CleanPath.mk path.anchor front).text, first :: others ++ levels) := by
  induction fuel generalizing path levels with
  | zero => exact absurd (List.eq_nil_of_length_eq_zero (Nat.le_zero.mp enough)) nonempty
  | succ fuel ih =>
      obtain ⟨parent, last, rfl⟩ := CleanPath.exists_below nonempty
      have parentProper : parent.IsProper := fun name member =>
        proper name (List.mem_append_left [last] member)
      have lastIsName : IsName last := proper last (by simp)
      have parentAbsolute : parent.IsAbsolute := absolute
      rw [levelsFrom, parentAbsolute.split_text parentProper lastIsName]
      simp only [parentAbsolute.hasMagic_text, bne_iff_ne, ne_eq, Bool.and_eq_true]
      by_cases more : parent.names.any Wildcard.hasMagic = true
      · rw [if_pos ⟨parentAbsolute.text_ne_nil, more⟩]
        have someNames : parent.names ≠ [] := by
          intro none
          rw [none] at more
          cases more
        have enough : parent.names.length ≤ fuel := by
          rw [CleanPath.names_below, List.length_append, List.length_singleton] at enough
          omega
        obtain ⟨front, first, others, cut, plain, starts, found⟩ :=
          ih parentAbsolute parentProper someNames enough (last :: levels)
        refine ⟨front, first, others ++ [last], by simp [cut], plain, fun _ => ?_, ?_⟩
        · rcases eq_or_ne others [] with rfl | several
          · obtain ⟨name, member, isMagic⟩ := List.any_eq_true.mp more
            rw [cut] at member
            rcases List.mem_append.mp member with inFront | isFirst
            · rw [plain name inFront] at isMagic
              cases isMagic
            · rwa [List.mem_singleton.mp isFirst] at isMagic
          · exact starts several
        · rw [found]
          simp
      · rw [if_neg fun both => more both.2]
        refine ⟨parent.names, last, [], rfl, fun name member => ?_,
          fun several => absurd rfl several, rfl⟩
        rw [Bool.not_eq_true, List.any_eq_false] at more
        simpa using more name member

theorem levels_text (absolute : path.IsAbsolute) (proper : path.IsProper)
    (nonempty : path.names ≠ []) :
    ∃ front first others, path.names = front ++ first :: others ∧
      (∀ name ∈ front, Wildcard.hasMagic name = false) ∧
      (others ≠ [] → Wildcard.hasMagic first = true) ∧
      levels path.text = ((CleanPath.mk path.anchor front).text, first :: others) := by
  have enough : path.names.length ≤ path.text.length := by
    rw [absolute.text_eq, List.length_append]
    exact Nat.le_trans (length_le_length_joinWith proper) (Nat.le_add_left _ _)
  obtain ⟨front, first, others, cut, plain, starts, found⟩ :=
    levelsFrom_text absolute proper nonempty path.text.length enough []
  rw [List.append_nil] at found
  exact ⟨front, first, others, cut, plain, starts, found⟩

/-- A search below a path without wildcards begins there. -/
theorem levels_below (absolute : path.IsAbsolute) (proper : path.IsProper)
    (plain : ∀ name ∈ path.names, Wildcard.hasMagic name = false) {first : Text}
    {others : List Text} (areNames : ∀ name ∈ first :: others, IsName name)
    (magic : Wildcard.hasMagic first = true) :
    levels (path.below (first :: others)).text = (path.text, first :: others) := by
  obtain ⟨front, level, deeper, cut, plainFront, starts, found⟩ :=
    levels_text (absolute.below (first :: others)) (proper.below areNames) (by simp)
  rw [found]
  rw [CleanPath.names_below] at cut
  rcases List.append_eq_append_iff.mp cut with ⟨more, rfl, rest⟩ | ⟨more, names, rest⟩
  · cases more with
    | nil =>
        rw [← (show first :: others = level :: deeper from rest), List.append_nil]
        rfl
    | cons name more =>
        obtain ⟨rfl, -⟩ := List.cons.inj rest
        rw [plainFront first (by simp)] at magic
        cases magic
  · cases more with
    | nil =>
        rw [List.append_nil] at names
        rw [(show level :: deeper = first :: others from rest), ← names]
        rfl
    | cons name more =>
        obtain ⟨rfl, deeperCut⟩ := List.cons.inj rest
        have notMagic := plain level (by simp [names])
        rw [starts (by simp [deeperCut])] at notMagic
        cases notMagic

end Glob

end ApiDocs
