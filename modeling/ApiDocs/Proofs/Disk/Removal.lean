import ApiDocs.Proofs.Disk.Removable
import ApiDocs.Proofs.Glob.Levels

/-!
# Removing what a joined path leads to

A path may begin anywhere.  A name that is joined to it leads one step down from where the
path leads, and what stands there can be taken away: if the path never climbs, emptying a
folder leaves the way to it as it is.
-/

namespace ApiDocs

open Disk (GoesDown IsPath advance follow origin steps target)

/-! ## Paths and the names behind them -/

namespace Path

variable {first second name : Text}

/-- The last piece of a joined path is the name that was joined. -/
theorem split_join_snd (whole : Symbol.char '/' ∉ name) : (split (join first name)).2 = name := by
  have relative := isAbsolute_of_not_mem whole
  rcases join_eq first relative with ⟨joined, nothing | closed⟩ | ⟨joined, -, -⟩
  · have passes : ∀ symbol ∈ name.reverse, (symbol != Symbol.char '/') = true := by
      intro symbol member
      rw [bne_iff_ne]
      rintro rfl
      exact whole (List.mem_reverse.mp member)
    rw [joined, nothing, List.nil_append, split]
    simp [List.takeWhile_eq_self_iff.mpr passes]
  · obtain ⟨front, rfl⟩ := endsInSlash_iff.mp closed
    rw [joined, List.append_assoc, List.singleton_append, split_append front whole]
  · rw [joined, split_append first whole]

/-- What stands behind a path with more than slashes does not change its anchor. -/
theorem anchorOf_append {symbol : Symbol} (member : symbol ∈ first) (notSlash : symbol ≠ .char '/')
    (rest : Text) : anchorOf (first ++ rest) = anchorOf first := by
  have more : (first.takeWhile (· == Symbol.char '/')).length ≠ first.length := by
    intro all
    have slashes := List.takeWhile_eq_self_iff.mp
      ((List.takeWhile_prefix (· == Symbol.char '/')).eq_of_length all)
    exact notSlash (beq_iff_eq.mp (slashes symbol member))
  rw [anchorOf, anchorOf, List.takeWhile_append, if_neg more]

/-- What is joined to a path does not change where the path begins. -/
theorem anchorOf_join (relative : isAbsolute second = false) (first : Text) :
    anchorOf (join first second) = anchorOf first := by
  rcases join_eq first relative with ⟨joined, -⟩ | ⟨joined, nonempty, unfinished⟩
  · have same : (first ++ second).takeWhile (· == Symbol.char '/') =
        first.takeWhile (· == Symbol.char '/') := by
      rw [List.takeWhile_append, takeWhile_slash_of_not_isAbsolute relative, List.append_nil]
      split
      · rename_i all
        exact ((List.takeWhile_prefix _).eq_of_length all).symm
      · rfl
    rw [joined, anchorOf, same, anchorOf]
  · have notSlash : first.getLast nonempty ≠ .char '/' := by
      intro slash
      have closed : endsInSlash first = true :=
        endsInSlash_iff.mpr ⟨_, (slash ▸ List.dropLast_append_getLast nonempty).symm⟩
      rw [unfinished] at closed
      cases closed
    rw [joined, anchorOf_append (List.getLast_mem nonempty) notSlash]

end Path

namespace CleanPath

variable {here : Location} {folder name : Text}

/-- A name that is joined to a path stands below it. -/
theorem ofText_join (isName : Path.IsName name) (folder : Text) :
    ofText (Path.join folder name) = (ofText folder).below [name] := by
  have relative := Path.isAbsolute_of_not_mem isName.whole
  rw [ofText, Path.anchorOf_join relative, Path.names_join relative, isName.names_eq]
  rfl

/-- The names in one folder are joined to one and the same text. -/
theorem exists_join_eq_ofText (folder : Text) :
    ∃ front, ∀ name, Path.IsName name →
      (ofText (Path.join folder name)).text = Path.join front name := by
  have proper := isProper_ofText folder
  by_cases absolute : (ofText folder).IsAbsolute
  · refine ⟨(ofText folder).text, fun name isName => ?_⟩
    rw [ofText_join isName, absolute.join_name proper isName]
  · refine ⟨Text.joinWith "/" (ofText folder).names, fun name isName => ?_⟩
    have areNames : ∀ other ∈ (ofText folder).names ++ [name], Path.IsName other :=
      proper.below (by simpa using isName)
    have written : (ofText (Path.join folder name)).text =
        Text.joinWith "/" ((ofText folder).names ++ [name]) := by
      rw [ofText_join isName, text, anchor_below, not_not.mp absolute, names_below]
      exact if_neg (Path.joinWith_ne_nil areNames (by simp))
    rw [written]
    rcases eq_or_ne (ofText folder).names [] with alone | several
    · rw [alone, Path.join, if_neg (by simp [Path.isAbsolute_of_not_mem isName.whole])]
      rfl
    · have unfinished := Path.endsInSlash_append_joinWith [] proper several
      rw [List.nil_append] at unfinished
      rw [Text.joinWith_append _ several (List.cons_ne_nil _ _), Path.join,
        if_neg (by simp [Path.isAbsolute_of_not_mem isName.whole]),
        if_neg (by simp [unfinished, Path.joinWith_ne_nil proper several])]
      rfl

theorem isAbsolute_text_ofText (path : Text) :
    Path.isAbsolute (ofText path).text = Path.isAbsolute path := by
  have same : Path.anchorOf (ofText path).text = Path.anchorOf path :=
    (isProper_ofText path).anchorOf_text
  rw [Bool.eq_iff_iff, ← Bool.not_eq_false, ← Bool.not_eq_false, ← Path.anchorOf_eq_relative_iff,
    ← Path.anchorOf_eq_relative_iff, same]

/-- Reading a path as a clean one does not change where it leads. -/
theorem target_text_ofText (here : Location) (path : Text) :
    target here (ofText path).text = target here path := by
  rw [target, target, origin, origin, isAbsolute_text_ofText, (isProper_ofText path).names_text]
  rfl

/-- Reading a path as a clean one does not change which places it passes. -/
theorem isStraight_text_ofText {links : Bool} {disk : Disk links} {path : Text} :
    disk.IsStraight here (ofText path).text ↔ disk.IsStraight here path := by
  have same (place : Location) :
      place ∈ Disk.way here (ofText path).text ↔ place ∈ Disk.way here path := by
    rw [Disk.mem_way_iff_names, Disk.mem_way_iff_names, origin, origin, isAbsolute_text_ofText,
      (isProper_ofText path).names_text]
    exact .rfl
  exact forall_congr' fun place => by rw [same]

end CleanPath

namespace Disk

variable {links : Bool} {disk : Disk links} {here location : Location} {path name : Text}
variable {list : List Text}

theorem target_join_relative {second : Text} (here : Location) (first : Text)
    (relative : Path.isAbsolute second = false) :
    target here (Path.join first second) = follow (target here first) (Path.names second) := by
  rw [target, target, origin, origin, Path.isAbsolute_join_of_relative relative,
    Path.names_join relative, follow_append]

/-- A name that leads down leads from the place of the first path to a place in it. -/
theorem target_join_of_goesDown (isName : Path.IsName name) (down : GoesDown name) (first : Text) :
    target here (Path.join first name) = target here first ++ [Name.stored name] := by
  have down : ∀ other ∈ [name], GoesDown other := by simpa using down
  rw [target_join_relative here first (Path.isAbsolute_of_not_mem isName.whole), isName.names_eq,
    follow_of_goesDown down]
  rfl

/-- The last step of a joined path is the name that was joined. -/
theorem shownPieces_join (isName : Disk.IsName name) (path : Text) :
    shownPieces (Path.join path name) = shownPieces path ++ [name] := by
  have whole := steps_join isName path
  rw [steps] at whole
  split at whole
  · have last := (List.append_inj' whole rfl).2
    exact absurd (List.cons.inj last).1.symm isName.notHere
  · rwa [List.append_nil] at whole

/-! ## Paths to folders -/

/-- A path leads to a folder where its pieces do, whether or not it ends in a slash. -/
theorem find_folder_iff :
    disk.find here path = .ok (location, .folder) ↔
      IsPath path ∧ disk.entryAt location = some .folder ∧
        ∃ trail, Leads disk true linkLimit (origin here path) (shownPieces path) trail location := by
  obtain ⟨ending, atEnd, cut⟩ : ∃ ending, (ending = [] ∨ ending = [("." : Text)]) ∧
      steps (Name.stored path) = shownPieces path ++ ending := by
    refine ⟨if Path.endsInSlash (Name.stored path) then ["."] else [], ?_, rfl⟩
    split <;> simp
  rw [find_eq_ok_iff, locate_eq_ok_iff_leads, cut]
  constructor
  · rintro ⟨⟨isPath, trail, leads⟩, folder⟩
    refine ⟨isPath, folder, ?_⟩
    rcases atEnd with rfl | rfl
    · rw [List.append_nil] at leads
      exact ⟨trail, leads⟩
    · obtain ⟨above, reached, left, behind, toReached, onward⟩ := leads.exists_front
      obtain ⟨rfl, -⟩ := onward.eq_of_here
      exact ⟨above, toReached⟩
  · rintro ⟨isPath, folder, trail, leads⟩
    refine ⟨⟨isPath, ?_⟩, folder⟩
    rcases atEnd with rfl | rfl
    · rw [List.append_nil]
      exact ⟨trail, leads⟩
    · exact leads.concat_here folder

theorem shownPieces_nil : shownPieces [] = [] := by
  rw [shownPieces, Name.stored_nil]
  rfl

theorem shownPieces_append_slash (left right : Text) :
    shownPieces (left ++ .char '/' :: right) = shownPieces left ++ shownPieces right := by
  rw [shownPieces, Name.stored_append_cons (by decide), Path.pieces,
    List.splitOn_append_cons_self, List.filter_append]
  rfl

/-- Slashes at the end of a path do not matter for its pieces, nor for where it begins. -/
theorem shownPieces_withoutEndSlashes (path : Text) :
    shownPieces (Path.withoutEndSlashes path) = shownPieces path ∧
      (Path.withoutEndSlashes path ≠ [] →
        Path.isAbsolute (Path.withoutEndSlashes path) = Path.isAbsolute path) := by
  induction path using List.reverseRecOn with
  | nil => exact ⟨rfl, fun nonempty => absurd rfl nonempty⟩
  | append_singleton front symbol ih =>
      cases slash : symbol == Symbol.char '/' with
      | false =>
          have kept : Path.withoutEndSlashes (front ++ [symbol]) = front ++ [symbol] :=
            Text.dropEndWhile_concat slash
          rw [kept]
          exact ⟨rfl, fun _ => rfl⟩
      | true =>
          obtain rfl := eq_of_beq slash
          have same : Path.withoutEndSlashes (front ++ [.char '/']) = Path.withoutEndSlashes front :=
            Text.dropEndWhile_append (by simp)
          rw [same, shownPieces_append_slash, shownPieces_nil, List.append_nil]
          refine ⟨ih.1, fun nonempty => ?_⟩
          have further : front ≠ [] := by
            rintro rfl
            exact nonempty rfl
          rw [ih.2 nonempty, Path.isAbsolute_append further]

/-- What leads to a folder does so with a slash behind it. -/
theorem find_of_split (closed : (Path.split path).2 = []) (isPath : IsPath path)
    (found : disk.find here (Path.split path).1 = .ok (location, .folder)) :
    disk.find here path = .ok (location, .folder) := by
  have divided : (Path.split path).1 =
      if (Path.withoutEndSlashes path).isEmpty then path else Path.withoutEndSlashes path := by
    have whole : path.take (path.length - (Path.split path).2.length) = path := by
      rw [closed]
      exact List.take_length
    conv_rhs => rw [← whole]
    rfl
  rw [divided] at found
  split at found
  · exact found
  · rename_i nonempty
    obtain ⟨pieces, absolute⟩ := shownPieces_withoutEndSlashes path
    obtain ⟨-, folder, leads⟩ := find_folder_iff.mp found
    rw [pieces, origin, absolute (by simpa using nonempty)] at leads
    exact find_folder_iff.mpr ⟨isPath, folder, leads⟩

/-- What leads to a folder does so when nothing is joined to it. -/
theorem find_join_nil (isPath : IsPath (Path.join path []))
    (found : disk.find here path = .ok (location, .folder)) :
    disk.find here (Path.join path []) = .ok (location, .folder) := by
  obtain ⟨own, folder, leads⟩ := find_folder_iff.mp found
  refine find_folder_iff.mpr ⟨isPath, folder, ?_⟩
  have relative : Path.isAbsolute [] = false := rfl
  rcases Path.join_eq path relative with ⟨joined, -⟩ | ⟨joined, -, -⟩
  · rwa [joined, List.append_nil]
  · rw [joined, shownPieces_append_slash, shownPieces_nil, List.append_nil, origin,
      Path.isAbsolute_append own.nonempty]
    exact leads

/-- What stands in a folder has its name there, if that makes a path. -/
theorem hasName_join {trail : List Location} {entry : Entry links} (isName : Disk.IsName name)
    (leads : Leads disk true linkLimit (origin here path) (shownPieces path) trail location)
    (folder : disk.entryAt location = some .folder)
    (standing : disk.entryAt (location ++ [name]) = some entry)
    (isPath : IsPath (Path.join path name)) : disk.hasName here (Path.join path name) = true := by
  have stepped : disk.step location name = .ok (location ++ [name]) := by
    rw [step_eq_ok_iff isName.nonempty, advance, if_neg (by simp [isName.nonempty, isName.notHere]),
      if_neg isName.notUp]
    exact ⟨⟨folder, .inr (.inr isName.short)⟩, rfl⟩
  have located : disk.locateName here (Path.join path name) = .ok (location ++ [name]) := by
    rw [locateName_eq_ok_iff, steps_join isName, origin,
      Path.isAbsolute_join_of_relative (Path.isAbsolute_of_not_mem isName.whole)]
    exact ⟨isPath, leads.concat stepped (.inr rfl)⟩
  rw [hasName, findName_eq_ok_iff.mpr ⟨located, standing⟩]
  rfl

/--
A name that leads down from a folder leads to its place in there, unless a link stands under it.
-/
theorem exists_folder_of_locate_join (whole : Symbol.char '/' ∉ name) (down : GoesDown name)
    (located : disk.locate here (Path.join path name) = .ok location)
    (noLink : disk.hasLink here (Path.join path name) = false) :
    ∃ trail folder,
      Leads disk true linkLimit (origin here path) (shownPieces path) trail folder ∧
        location = folder ++ [Name.stored name] := by
  have cut := steps_join_of_whole whole down.nonempty path
  have begins : origin here (Path.join path name) = origin here path := by
    rw [origin, origin, Path.isAbsolute_join_of_relative (Path.isAbsolute_of_not_mem whole)]
  obtain ⟨isPath, trail, leads⟩ := locate_eq_ok_iff_leads.mp located
  rw [cut, begins] at leads
  obtain ⟨above, folder, left, behind, toFolder, onward⟩ := leads.exists_front
  refine ⟨above, folder, toFolder, ?_⟩
  cases onward with
  | step stepped _ further =>
      cases further
      rw [((step_eq_ok_iff down.nonempty).mp stepped).2, advance,
        if_neg (by simp [down.nonempty, down.notHere]), if_neg down.notUp]
  | @link _ _ next _ _ target _ _ stepped isLink _ _ =>
      obtain ⟨entry, standing, isTarget⟩ := Option.bind_eq_some_iff.mp isLink
      obtain ⟨trail, named⟩ := toFolder.concat stepped (.inr rfl)
      have found : disk.findName here (Path.join path name) = .ok (next, entry) := by
        refine findName_eq_ok_iff.mpr ⟨locateName_eq_ok_iff.mpr ⟨isPath, trail, ?_⟩, standing⟩
        rwa [cut, begins]
      rw [hasLink, found] at noLink
      simp [isTarget] at noLink

/-! ## Removing by a joined path -/

theorem up_not_mem_shownPieces (climbs : ∀ name ∈ Path.names path, Name.stored name ≠ "..") :
    ∀ name ∈ shownPieces path, name ≠ ".." := by
  rintro name member rfl
  have isPiece := (List.mem_filter.mp member).1
  rw [Name.pieces_stored] at isPiece
  obtain ⟨piece, inPath, shown⟩ := List.mem_map.mp isPiece
  refine climbs piece (List.mem_filter.mpr ⟨inPath, ?_⟩) shown
  rw [Bool.and_eq_true, Bool.not_eq_true', List.isEmpty_eq_false_iff, bne_iff_ne]
  constructor
  · rintro rfl
    rw [Name.stored_nil] at shown
    cases shown
  · rintro rfl
    rw [stored_dot] at shown
    exact absurd shown (by decide)

/--
What a joined path names can be taken away, if it passes no link and the first path never climbs.
-/
theorem exists_remove_join (isName : Disk.IsName name)
    (climbs : ∀ other ∈ Path.names path, Name.stored other ≠ "..")
    (standing : disk.hasName here (Path.join path name) = true)
    (straight : disk.IsStraight here (Path.join path name) := by simp) :
    ∃ left, disk.remove here (Path.join path name) = (.ok (), left) := by
  have cut := shownPieces_join isName path
  have pieces : ∀ other ∈ shownPieces (Path.join path name), other ≠ ".." := by
    intro other member
    rw [cut] at member
    rcases List.mem_append.mp member with inPath | isLast
    · exact up_not_mem_shownPieces climbs other inPath
    · rw [List.mem_singleton.mp isLast]
      exact isName.notUp
  have removable : disk.IsRemovable here (Path.join path name) :=
    .of_not_climbs pieces standing
      (by rw [cut, List.getLast?_concat]; exact ⟨name, rfl, isName.notHere⟩) straight
  obtain ⟨place, isPlace⟩ := hasName_iff.mp standing
  exact ⟨_, remove_eq_ok_iff.mpr ⟨removable, place, isPlace, rfl⟩⟩

end Disk

end ApiDocs
