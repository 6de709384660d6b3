import ApiDocs.Example.Checker
import ApiDocs.Example.Harvest
import ApiDocs.Example.Import
import ApiDocs.Proofs.Run.Files
import ApiDocs.Proofs.Text.Pieces

/-!
# The folder of the examples

The files for the examples of a module, and the two files that the type checker gets, lie
in the folder of the examples: as long as no name of a documented thing has a slash, each
of them has a name of its own there.
-/

namespace ApiDocs

namespace CleanPath

variable {path : CleanPath} {name : Text}

/-- A name with an ending of three symbols or more leads down. -/
theorem goesDown_of_ending {ending : String} (ascii : Disk.Name.IsAsciiString ending)
    (long : 3 ≤ ending.toList.length) {front : Text} (isEnding : name = front ++ ending) :
    Disk.GoesDown name := by
  have shown : Disk.Name.stored name = Disk.Name.stored front ++ ending := by
    rw [isEnding]
    exact Disk.Name.stored_append_of_isAsciiText front (Disk.Name.isAsciiText_ofString ascii)
  have longer : 3 ≤ (Disk.Name.stored name).length := by
    rw [shown, List.length_append]
    have : (Text.ofString ending).length = ending.toList.length := by
      simp [Text.ofString, Text.ofChars]
    omega
  constructor
  all_goals
    intro same
    rw [same] at longer
    exact absurd longer (by decide)

end CleanPath

namespace Example

open Run (IsWrittenIn PassesOnly belowPlace onWayOrBelow onWayOrBelow_of_below
  onWayOrBelow_of_mem_way)

variable {output : CleanPath} {modules : List Module} {file : TextFile}

/-- The names of the things in a module whose examples are checked. -/
def declaredNames (module : Module) : List Text :=
  (module.classes.flatMap fun record =>
      record.doc.name :: (record.methods ++ record.staticMethods).map fun member =>
        member.doc.name) ++
    (module.interfaces ++ module.typeAliases ++ module.constants).map (fun record =>
      record.doc.name) ++
    module.functions.map fun record => record.doc.name

/-- Neither the kind of a documented thing nor its name has a slash. -/
def HasNoSlash (entry : Text × Doc) : Prop :=
  Symbol.char '/' ∉ entry.1 ∧ Symbol.char '/' ∉ entry.2.name

theorem HasNoSlash.of_kind {kind : Text} {doc : Doc} (plain : Symbol.char '/' ∉ kind)
    (own : Symbol.char '/' ∉ doc.name) : HasNoSlash (kind, doc) :=
  ⟨plain, own⟩

theorem hasNoSlash_of_mem_ofClass {record : Class} {entry : Text × Doc}
    (own : Symbol.char '/' ∉ record.doc.name)
    (members : ∀ member ∈ record.methods ++ record.staticMethods,
      Symbol.char '/' ∉ member.doc.name)
    (member : entry ∈ ofClass record) : HasNoSlash entry := by
  have kind {word : Text} (plain : Symbol.char '/' ∉ word) :
      Symbol.char '/' ∉ record.doc.name ++ word := by
    simp only [List.mem_append, not_or]
    exact ⟨own, plain⟩
  rw [ofClass, List.mem_cons, List.mem_append, List.mem_map, List.mem_map] at member
  rcases member with rfl | ⟨method, inClass, rfl⟩ | ⟨method, inClass, rfl⟩
  · exact .of_kind (by decide) own
  · exact ⟨kind (by decide), members method (List.mem_append_left _ inClass)⟩
  · exact ⟨kind (by decide), members method (List.mem_append_right _ inClass)⟩

/-- Without slashes in the declared names there are none in the files of the examples. -/
theorem hasNoSlash_of_mem_documented {module : Module} {entry : Text × Doc}
    (own : Symbol.char '/' ∉ module.doc.name)
    (declared : ∀ name ∈ declaredNames module, Symbol.char '/' ∉ name)
    (member : entry ∈ documented module) : HasNoSlash entry := by
  simp only [declaredNames, List.mem_append, List.mem_flatMap, List.mem_map, List.mem_cons]
    at declared
  simp only [documented, List.mem_cons, List.mem_append, List.mem_flatMap, List.mem_map] at member
  rcases member with rfl | ((((⟨record, inModule, ofRecord⟩ | ⟨record, inModule, rfl⟩) |
    ⟨record, inModule, rfl⟩) | ⟨record, inModule, rfl⟩) | ⟨record, inModule, rfl⟩)
  · exact .of_kind (by decide) own
  · refine hasNoSlash_of_mem_ofClass ?_ (fun method inClass => ?_) ofRecord
    · exact declared _ (.inl (.inl ⟨record, inModule, .inl rfl⟩))
    · exact declared _ (.inl (.inl ⟨record, inModule, .inr ⟨method, by simpa using inClass, rfl⟩⟩))
  · exact .of_kind (by decide) (declared _ (.inl (.inr ⟨record, .inl (.inl inModule), rfl⟩)))
  · exact .of_kind (by decide) (declared _ (.inl (.inr ⟨record, .inl (.inr inModule), rfl⟩)))
  · exact .of_kind (by decide) (declared _ (.inl (.inr ⟨record, .inr inModule, rfl⟩)))
  · exact .of_kind (by decide) (declared _ (.inr ⟨record, inModule, rfl⟩))

/-- The folder of the examples below the folder of a site. -/
def folderOf (output : CleanPath) : CleanPath :=
  output.below ["examples"]

theorem folder_eq (absolute : output.IsAbsolute) (proper : output.IsProper) :
    folder output.text = (folderOf output).text :=
  absolute.join_name proper (by decide)

theorem isName_folder : Disk.IsName "examples" := by decide +kernel

theorem place_folderOf (output : CleanPath) :
    (folderOf output).place = output.place ++ [("examples" : Text)] :=
  CleanPath.place_below (by simpa using isName_folder)

theorem isProper_folderOf (proper : output.IsProper) : (folderOf output).IsProper :=
  proper.below (by decide)

/-- Whether a file is written under a name in the folder of the examples. -/
def IsInFolder (output : CleanPath) (file : TextFile) : Prop :=
  ∃ name, Path.IsName name ∧ Disk.GoesDown name ∧
    file.path = ((folderOf output).below [name]).text

section

variable (absolute : output.IsAbsolute) (proper : output.IsProper)

include absolute proper

theorem IsInFolder.isWrittenIn (inFolder : IsInFolder output file) :
    IsWrittenIn (belowPlace (folderOf output)) file := by
  obtain ⟨name, isName, down, written⟩ := inFolder
  have folderAbsolute : (folderOf output).IsAbsolute := absolute
  have fileProper : ((folderOf output).below [name]).IsProper :=
    (isProper_folderOf proper).below (by simpa using isName)
  rw [IsWrittenIn, written, fileProper.ofText_text]
  refine ⟨(folderAbsolute.below [name]).isAbsolute_text, ?_⟩
  rintro place ⟨-, rfl⟩
  exact Disk.isWithin_iff.mpr
    ⟨_, CleanPath.place_below_of_goesDown (by simpa using down)⟩

/-- The way to a file in the folder leads to the folder, and then to a place in it. -/
theorem IsInFolder.passesOnly (inFolder : IsInFolder output file) :
    PassesOnly (onWayOrBelow (folderOf output)) (.ofText file.path) := by
  obtain ⟨name, isName, down, written⟩ := inFolder
  have folderAbsolute : (folderOf output).IsAbsolute := absolute
  have fileProper : ((folderOf output).below [name]).IsProper :=
    (isProper_folderOf proper).below (by simpa using isName)
  rw [written, fileProper.ofText_text]
  exact fun place passed => onWayOrBelow_of_mem_way folderAbsolute (isProper_folderOf proper)
    (folderAbsolute.below [name]).isAbsolute_text fileProper.names_text (by simpa using down) passed

/-- The folder of the examples lies below the folder of the site. -/
theorem onWayOrBelow_folderOf {place : Location}
    (inScope : onWayOrBelow (folderOf output) place) : onWayOrBelow output place :=
  onWayOrBelow_of_below absolute (isProper_folderOf proper)
    (by simpa using isName_folder.goesDown) inScope

end

theorem isName_of_ending (ending : String) {name front : Text} (whole : Symbol.char '/' ∉ name)
    (long : 3 ≤ ending.toList.length) (isEnding : name = front ++ ending) : Path.IsName name := by
  have length : (Text.ofString ending).length = ending.toList.length := by
    simp [Text.ofString, Text.ofChars]
  refine ⟨?_, whole, ?_⟩
  · rintro rfl
    have none := (List.append_eq_nil_iff.mp isEnding.symm).2
    rw [none] at length
    simp only [List.length_nil] at length
    omega
  · rintro rfl
    have lengths := congrArg List.length isEnding
    rw [List.length_append, length] at lengths
    have one : (Text.ofString ".").length = 1 := rfl
    omega

/-- The last name of a path has its ending. -/
theorem exists_names_of_ending (ending : String) (whole : Symbol.char '/' ∉ Text.ofString ending)
    (long : 3 ≤ ending.toList.length) (path : Text) :
    ∃ (front : List Text) (last : Text), Path.names (path ++ ending) = front ++ [last ++ ending] := by
  have isName {last : Text} (own : Symbol.char '/' ∉ last) : Path.IsName (last ++ ending) :=
    isName_of_ending ending (List.not_mem_append own whole) long rfl
  obtain ⟨front, last, cut⟩ :=
    (List.eq_nil_or_concat' (path.splitOn (Symbol.char '/'))).resolve_left (List.splitOn_ne_nil _ _)
  have own : Symbol.char '/' ∉ last :=
    Text.not_mem_of_mem_splitOn _ (by rw [cut]; exact List.mem_append_right _ List.mem_cons_self)
  rw [← Text.joinWith_splitOn (Symbol.char '/') path, cut]
  rcases eq_or_ne front [] with rfl | nonempty
  · exact ⟨[], last, (isName own).names_eq⟩
  · refine ⟨Path.names (Text.joinWith "/" front), last, ?_⟩
    rw [Text.joinWith_append _ nonempty (List.cons_ne_nil last []), List.append_assoc,
      List.append_assoc]
    exact (Path.names_append_slash _ _).trans (congrArg _ (isName own).names_eq)

theorem isInFolder_of_name (ending : String) {name front : Text} (absolute : output.IsAbsolute)
    (proper : output.IsProper) (whole : Symbol.char '/' ∉ name)
    (ascii : Disk.Name.IsAsciiString ending) (long : 3 ≤ ending.toList.length)
    (isEnding : name = front ++ ending)
    (inFolder : file.path = Path.join (folder output.text) name) : IsInFolder output file := by
  have isName := isName_of_ending ending whole long isEnding
  have folderAbsolute : (folderOf output).IsAbsolute := absolute
  refine ⟨name, isName, CleanPath.goesDown_of_ending ascii long isEnding, ?_⟩
  rw [inFolder, folder_eq absolute proper,
    folderAbsolute.join_name (isProper_folderOf proper) isName]

theorem slash_not_mem_fileName {path : List Text} {kind name : Text} (index : Nat)
    (parts : ∀ part ∈ path, Symbol.char '/' ∉ part) (inKind : Symbol.char '/' ∉ kind)
    (inName : Symbol.char '/' ∉ name) : Symbol.char '/' ∉ fileName path kind name index := by
  have joined : Symbol.char '/' ∉ Text.joinWith "-" path :=
    Text.not_mem_joinWith (by decide) parts
  have dash : Symbol.char '/' ∉ ("-" : Text) := by decide
  have ending : Symbol.char '/' ∉ (".ts" : Text) := by decide
  have number : Symbol.char '/' ∉ Number.intText (index : Int) := by
    rw [Number.intText_natCast]
    intro member
    have digit := Number.isDigit_of_mem_digitsOf member
    revert digit
    decide
  simp only [fileName, List.mem_append, not_or]
  exact ⟨⟨⟨⟨⟨⟨⟨joined, dash⟩, inKind⟩, dash⟩, inName⟩, dash⟩, number⟩, ending⟩

theorem isAbsolute_of_mem_harvest (absolute : output.IsAbsolute)
    (member : file ∈ harvest modules output.text) : Path.isAbsolute file.path = true := by
  obtain ⟨module, -, inModule⟩ := List.mem_flatMap.mp member
  obtain ⟨⟨kind, doc⟩, -, isFile⟩ := List.mem_flatMap.mp inModule
  obtain ⟨index, -, rfl⟩ := List.mem_mapIdx.mp isFile
  exact Path.isAbsolute_join (Path.isAbsolute_join absolute.isAbsolute_text)

/-- The file of an example replaces what is there, and has a name in the folder of the examples. -/
theorem exists_name_of_mem_harvest {outputDir : Text}
    (parts : ∀ module ∈ modules, ∀ part ∈ module.path, Symbol.char '/' ∉ part)
    (names : ∀ module ∈ modules, ∀ entry ∈ documented module, HasNoSlash entry)
    (member : file ∈ harvest modules outputDir) :
    ∃ front : Text, Symbol.char '/' ∉ front ++ (".ts" : Text) ∧
      file.path = Path.join (folder outputDir) (front ++ (".ts" : Text)) ∧
      file.overwrite = true := by
  obtain ⟨module, inModules, inModule⟩ := List.mem_flatMap.mp member
  obtain ⟨⟨kind, doc⟩, isDocumented, isFile⟩ := List.mem_flatMap.mp inModule
  obtain ⟨index, -, rfl⟩ := List.mem_mapIdx.mp isFile
  obtain ⟨inKind, inName⟩ := names module inModules (kind, doc) isDocumented
  exact ⟨_, slash_not_mem_fileName index (parts module inModules) inKind inName, rfl, rfl⟩

/-- The place of an example has its ending, even if its path climbs. -/
theorem exists_place_of_mem_harvest {outputDir : Text} (member : file ∈ harvest modules outputDir) :
    ∃ front name, (CleanPath.ofText file.path).place = front ++ [name] ∧
      Text.endsWith name ".ts" = true := by
  obtain ⟨module, -, inModule⟩ := List.mem_flatMap.mp member
  obtain ⟨⟨kind, doc⟩, -, isFile⟩ := List.mem_flatMap.mp inModule
  obtain ⟨index, -, rfl⟩ := List.mem_mapIdx.mp isFile
  have behind (folder name : Text) :
      ∃ before, Path.names (Path.join folder name) = before ++ Path.names name := by
    cases absolute : Path.isAbsolute name with
    | true => exact ⟨[], by rw [Path.join_of_isAbsolute absolute, List.nil_append]⟩
    | false => exact ⟨_, Path.names_join absolute⟩
  obtain ⟨before, joined⟩ := behind (folder outputDir) (fileName module.path kind doc.name index)
  obtain ⟨front, last, named⟩ := exists_names_of_ending ".ts" (by decide) (by decide)
    (Text.joinWith "-" module.path ++ "-" ++ kind ++ "-" ++ doc.name ++ "-" ++ Number.intText index)
  rw [fileName, named, ← List.append_assoc] at joined
  have down : ∀ other ∈ [last ++ (".ts" : Text)], Disk.GoesDown other := by
    simpa using CleanPath.goesDown_of_ending (by decide) (by decide)
      (rfl : last ++ (".ts" : Text) = last ++ (".ts" : Text))
  refine ⟨Disk.follow [] (before ++ front), Disk.Name.stored last ++ ".ts", ?_,
    Text.endsWith_append _ _⟩
  rw [CleanPath.place, Example.file, CleanPath.ofText]
  simp only
  rw [fileName, joined, Disk.follow_append, Disk.follow_of_goesDown down, List.map_singleton,
    Disk.Name.stored_append_of_isAsciiText last (Disk.Name.isAsciiText_ofString (by decide))]

/-- The files of examples lie in their folder if no documented name has a slash. -/
theorem isInFolder_of_mem_harvest (absolute : output.IsAbsolute) (proper : output.IsProper)
    (parts : ∀ module ∈ modules, ∀ part ∈ module.path, Symbol.char '/' ∉ part)
    (names : ∀ module ∈ modules, ∀ entry ∈ documented module, HasNoSlash entry)
    (member : file ∈ harvest modules output.text) : IsInFolder output file := by
  obtain ⟨front, whole, inFolder, -⟩ := exists_name_of_mem_harvest parts names member
  exact isInFolder_of_name ".ts" absolute proper whole (by decide) (by decide) rfl inFolder

/-- What holds of the files of each example in two folders holds of all of them, one by one. -/
theorem forall₂_harvest {related : TextFile → TextFile → Prop} {outputDir outputDir' : Text}
    (each : ∀ module ∈ modules, ∀ entry ∈ documented module, ∀ index content,
      related (Example.file outputDir module.path entry.1 entry.2.name index content)
        (Example.file outputDir' module.path entry.1 entry.2.name index content)) :
    List.Forall₂ related (harvest modules outputDir) (harvest modules outputDir') := by
  have same {α : Type} (items : List α) :
      List.Forall₂ (fun left right => left = right ∧ left ∈ items) items items :=
    List.forall₂_same.mpr fun item member => ⟨rfl, member⟩
  refine List.rel_flatMap (same modules) ?_
  rintro module _ ⟨rfl, inModules⟩
  refine List.rel_flatMap (same (documented module)) ?_
  rintro ⟨kind, doc⟩ _ ⟨rfl, isDocumented⟩
  refine List.forall₂_iff_get.mpr ⟨by simp [filesOf], fun index inLeft inRight => ?_⟩
  simp only [filesOf, List.get_eq_getElem, List.getElem_mapIdx]
  exact each module inModules (kind, doc) isDocumented index _

/-- Preparing examples for the check changes their contents only. -/
theorem exists_of_mem_prepare {project : Text} {files : List TextFile}
    (member : file ∈ prepare files project) :
    ∃ original ∈ files, file.path = original.path ∧ file.overwrite = original.overwrite := by
  obtain ⟨original, isOriginal, rfl⟩ := List.mem_map.mp member
  exact ⟨original, isOriginal, rfl, rfl⟩

end Example

end ApiDocs
