import ApiDocs.Proofs.Site.Fixpoint
import ApiDocs.Proofs.Site.Updates
import ApiDocs.Proofs.Text.Boundary

/-!
# The bytes of a configuration

A build reads the configuration as a text and writes it as bytes.  Reading unifies the ends of the
lines, and writing does not bring them back.  So a build leaves the lines that it does not update as
they are, byte for byte, exactly if no carriage return stands in them.  The configuration is
followed through a run on a disk without links.
-/

namespace ApiDocs

namespace Text.Utf8

variable {text : Text}

theorem mem_encode_iff {c : Char} (ascii : Disk.Name.IsAscii c) :
    c.toNat.toUInt8 ∈ encode text ↔ Symbol.char c ∈ text := by
  constructor
  · intro member
    obtain ⟨symbol, inText, inBytes⟩ := List.mem_flatMap.mp member
    cases symbol with
    | char d =>
        have inSymbol : c.toNat.toUInt8 ∈ Disk.Name.symbolBytes (.char d) := inBytes
        rwa [Disk.Name.eq_of_mem_symbolBytes ascii inSymbol] at inText
    | half offset => cases inBytes
  · intro member
    refine List.mem_flatMap.mpr ⟨_, member, ?_⟩
    rw [encodeSymbol, Disk.Name.encodeChar_of_isAscii ascii]
    exact List.mem_singleton_self _

/-- What stands in front of bytes, and has no separator, belongs to the first piece of them. -/
theorem splitOn_append_of_not_mem {separator : UInt8} {front : List UInt8}
    (whole : separator ∉ front) (bytes : List UInt8) :
    (front ++ bytes).splitOn separator = (bytes.splitOn separator).modifyHead (front ++ ·) := by
  induction front with
  | nil => exact (congrFun List.modifyHead_id _).symm
  | cons first rest ih =>
      have differs : first ≠ separator := fun same => whole (same ▸ List.mem_cons_self)
      rw [List.cons_append, List.splitOn_cons_eq_if_modifyHead, if_neg (by simpa using differs),
        ih fun member => whole (List.mem_cons_of_mem first member), List.modifyHead_modifyHead]
      rfl

/-- The lines of the bytes of a text are the bytes of its lines. -/
theorem splitOn_encode (text : Text) : (encode text).splitOn 10 = (fileLines text).map encode := by
  induction text with
  | nil => rfl
  | cons symbol rest ih =>
      obtain ⟨head, others, cut⟩ := List.exists_cons_of_ne_nil (fileLines_ne_nil rest)
      rw [fileLines]
      by_cases feeds : symbol = .char '\n'
      · have feed : encode (symbol :: rest) = 10 :: encode rest := by rw [feeds]; rfl
        rw [if_pos (by simpa using feeds), feed, List.splitOn_cons_eq_if_modifyHead,
          if_pos (beq_self_eq_true _), ih]
        rfl
      · have noFeed : (10 : UInt8) ∉ encode [symbol] := fun member =>
          feeds (List.mem_singleton.mp ((mem_encode_iff (c := '\n') (by decide)).mp member)).symm
        have split : encode (symbol :: rest) = encode [symbol] ++ encode rest :=
          encode_append [symbol] rest
        rw [if_neg (by simpa using feeds), split, splitOn_append_of_not_mem noFeed, ih, cut, consLine,
          List.map_cons, List.map_cons, List.modifyHead_cons]
        exact congrArg (· :: _) (encode_append [symbol] head).symm

end Text.Utf8

namespace Site

open Text (PairsReturns fileLines unifyBreaks withoutReturns)
open Text.Utf8 (encode)

variable {settings : Settings} {text updated : Text}

/-! ## What an update keeps of the bytes -/

/--
Bytes that are left of a configuration: there are as many lines as before, and each line that an
update does not change has the same bytes.
-/
structure KeepsOthers (text : Text) (old new : List UInt8) : Prop where
  length : (new.splitOn 10).length = (old.splitOn 10).length
  others : ∀ index, ¬IsUpdated ((fileLines text).map withoutReturns) index →
    (new.splitOn 10)[index]? = (old.splitOn 10)[index]?

/-- Carriage returns only stand at the ends of lines that an update changes. -/
structure ReturnsInUpdated (text : Text) : Prop where
  paired : PairsReturns text
  updated : ∀ (index : Nat) (line : Text), (fileLines text)[index]? = some line →
    Symbol.char '\r' ∈ line → IsUpdated ((fileLines text).map withoutReturns) index

theorem returnsInUpdated_of_not_mem (whole : Symbol.char '\r' ∉ text) : ReturnsInUpdated text where
  paired := fun front rest cut => absurd (by rw [cut]; simp) whole
  updated := fun index line standing member => by
    refine absurd ?_ whole
    rw [← Text.unlines_fileLines text]
    exact Text.mem_joinWith_of_mem (List.mem_of_getElem? standing) member

/-- A line that begins with no blank and like none of the two updated lines is not changed. -/
theorem not_isUpdated_of_cons {lines : List Text} {index : Nat} {first : Symbol} {rest : Text}
    (standing : lines[index]? = some (first :: rest)) (notBlank : first ≠ .char ' ')
    (notTheme : first ≠ .char 'r') (notSearch : first ≠ .char 's') : ¬IsUpdated lines index := by
  have noLink := not_link_of_cons_of_ne notBlank rest
  rintro (atIndex | atIndex | ⟨label, target, atIndex, isLabel, -⟩ |
    ⟨label, target, -, -, atIndex, isTarget⟩)
  · exact notTheme (List.cons.inj (Option.some.inj (standing.symm.trans atIndex))).1
  · exact notSearch (List.cons.inj (Option.some.inj (standing.symm.trans atIndex))).1
  · exact noLink.1 (Option.some.inj (standing.symm.trans atIndex) ▸ isLabel)
  · exact noLink.2 _ (Option.some.inj (standing.symm.trans atIndex) ▸ isTarget)

/-- An update of the unified text keeps the other lines exactly if they have no carriage return. -/
theorem keepsOthers_iff
    (updates : Updates settings (fileLines (unifyBreaks text)) (fileLines updated))
    (noReturn : Symbol.char '\r' ∉ updated) :
    KeepsOthers text (encode text) (encode updated) ↔ ReturnsInUpdated text := by
  have lengths : (fileLines updated).length = (unifyBreaks text).count (.char '\n') + 1 := by
    rw [updates.length, Text.length_fileLines]
  have unified (paired : PairsReturns text) :
      fileLines (unifyBreaks text) = (fileLines text).map withoutReturns := by
    rw [Text.unifyBreaks_of_pairsReturns paired, Text.fileLines_withoutReturns]
  constructor
  · rintro ⟨sameLength, others⟩
    rw [Text.Utf8.splitOn_encode, Text.Utf8.splitOn_encode, List.length_map, List.length_map, lengths,
      Text.length_fileLines, Nat.add_right_cancel_iff] at sameLength
    have paired := (Text.count_feeds_unifyBreaks text).2.mp sameLength
    refine ⟨paired, fun index line standing returns => ?_⟩
    by_contra notUpdated
    have kept := others index notUpdated
    rw [Text.Utf8.splitOn_encode, Text.Utf8.splitOn_encode, List.getElem?_map, List.getElem?_map,
      standing, Option.map_some, Option.map_eq_some_iff] at kept
    obtain ⟨other, isLine, sameBytes⟩ := kept
    have inOther : Symbol.char '\r' ∈ other := by
      rw [← Text.Utf8.mem_encode_iff (by decide), sameBytes, Text.Utf8.mem_encode_iff (by decide)]
      exact returns
    refine noReturn ?_
    rw [← Text.unlines_fileLines updated]
    exact Text.mem_joinWith_of_mem (List.mem_of_getElem? isLine) inOther
  · rintro ⟨paired, inUpdated⟩
    refine ⟨?_, fun index notUpdated => ?_⟩
    · rw [Text.Utf8.splitOn_encode, Text.Utf8.splitOn_encode, List.length_map, List.length_map, lengths,
        Text.length_fileLines, (Text.count_feeds_unifyBreaks text).2.mpr paired]
    · rw [Text.Utf8.splitOn_encode, Text.Utf8.splitOn_encode, List.getElem?_map, List.getElem?_map,
        updates.others index (by rwa [unified paired]), unified paired, List.getElem?_map]
      cases standing : (fileLines text)[index]? with
      | none => rfl
      | some line =>
          rw [Option.map_some, Text.withoutReturns_of_not_mem]
          exact fun returns => notUpdated (inUpdated index line standing returns)

/-! ## The path of the configuration -/

/-- The configuration of a site, as a path. -/
def configOf (output : CleanPath) : CleanPath :=
  output.below ["_config.yml"]

variable {output : CleanPath}

theorem configPath_eq (absolute : output.IsAbsolute) (proper : output.IsProper) :
    configPath output.text = (configOf output).text :=
  absolute.join_name proper (by decide)

theorem isProper_configOf (proper : output.IsProper) : (configOf output).IsProper :=
  proper.below (by decide)

theorem place_configOf (output : CleanPath) :
    (configOf output).place = output.place ++ [("_config.yml" : Text)] :=
  CleanPath.place_below (isName_of_mem_scaffold (by decide))

theorem isNamedAsSite_configOf (output : CleanPath) : IsNamedAsSite (configOf output).place := by
  rw [place_configOf]
  exact isNamedAsSite_of_mem_scaffold (by decide)

/-- The configuration does not stand in the folder of the examples. -/
theorem not_isWithin_folderOf_configOf (output : CleanPath) :
    Disk.isWithin (Example.folderOf output).place (configOf output).place = false := by
  rw [Bool.eq_false_iff, place_configOf]
  intro inside
  obtain ⟨rest, same⟩ := Disk.isWithin_iff.mp inside
  rw [Example.place_folderOf, List.append_assoc] at same
  exact absurd (List.cons.inj (List.append_cancel_left same)).1 (by decide)

end Site

namespace Project

open Example (folderOf)
open Site (configOf)

variable {environment : Environment} {world : World} {project : Project} {disk : Disk}

/--
Whether clearing up after the examples leaves the configuration, and the folders on the way there.
-/
def SparesConfig (project : Project) : Prop :=
  ∀ front rest, (configOf project.output).names = front ++ rest →
    ¬Glob.Reaches (folderOf project.output) (Disk.follow [] front)

/-- Without wildcards the configuration is spared if the way to it lasts. -/
theorem IsRead.sparesConfig (isRead : project.IsRead environment world) (plain : project.IsPlain)
    (lasting : project.HasLastingWay disk (Run.belowPlace (folderOf project.output))) :
    project.SparesConfig := by
  intro front rest cut
  rw [isRead.reaches_folderOf_iff plain]
  rcases List.eq_nil_or_concat' rest with rfl | ⟨rest, last, rfl⟩
  · rw [List.append_nil] at cut
    rw [← cut]
    exact Bool.eq_false_iff.mp (Site.not_isWithin_folderOf_configOf project.output)
  · rw [configOf, CleanPath.names_below, ← List.append_assoc] at cut
    refine lasting.not_folders (fun place name inside => ?_) ?_ (List.append_inj_left' cut rfl)
    · exact Disk.isWithin_trans inside (Disk.isWithin_iff.mpr ⟨[name], rfl⟩)
    · intro inside
      obtain ⟨more, same⟩ := Disk.isWithin_iff.mp inside
      have lengths := congrArg List.length same
      rw [Example.place_folderOf] at lengths
      simp at lengths

end Project

namespace Run

open Example (folderOf)
open Site (IsNamedAsSite KeepsOthers ReturnsInUpdated Updates configOf configPath)
open World (Evolves OnlyLogs)

variable {environment : Environment} {world before after : World} {project : Project} {path : Text}
variable {config file : TextFile} {content : List UInt8} {text : Text}

/-! ## Up to the configuration -/

/-- A check of the examples does not work at the place of the configuration. -/
theorem not_isScratch_configOf (spares : project.SparesConfig) :
    ¬project.IsScratch (configOf project.output).place := by
  rintro (inside | reaches | ⟨file, member, -, same⟩)
  · rw [Site.not_isWithin_folderOf_configOf] at inside
    cases inside
  · exact spares _ [] (List.append_nil _).symm reaches
  · obtain ⟨original, isOriginal, samePath, -⟩ := Example.exists_of_mem_prepare member
    obtain ⟨front, name, place, ends⟩ := Example.exists_place_of_mem_harvest isOriginal
    rw [samePath, place] at same
    exact Site.not_isNamedAsSite ends (same ▸ Site.isNamedAsSite_configOf project.output)

/-- A configuration that is spared can be read as before. -/
theorem read_configOf_of_evolves (isRead : project.IsRead environment world)
    (spares : project.SparesConfig)
    (evolves : Evolves project.IsScratch (Glob.Reaches (folderOf project.output)) before after)
    (notLogged : ¬before.IsLogged (configOf project.output).place)
    (read : before.disk.read before.here (configOf project.output).text = .ok content) :
    after.disk.read after.here (configOf project.output).text = .ok content := by
  have absolute : (configOf project.output).IsAbsolute := isRead.absolute_output
  have proper := Site.isProper_configOf isRead.proper_output
  rw [Disk.read_eq_ok_iff, absolute.target_text proper] at read ⊢
  obtain ⟨located, standing⟩ := read
  constructor
  · rw [evolves.here]
    exact absolute.locate_of_folders proper
      (fun front rest cut => evolves.folder _ (spares front rest cut)) located
  · rw [evolves.file _ (not_isScratch_configOf spares) notLogged, standing]

/-- A readable configuration is planned brought up to date. -/
theorem ending_configFile_of_read (isRead : project.IsRead environment world)
    (read : before.disk.read before.here (configOf project.output).text = .ok content)
    (decoded : Text.Utf8.decode content = .ok text) :
    ending (configFile project.settings) before =
      (.ok (project.configFile (Site.updateConfig (Text.unifyBreaks text) project.settings)),
        before) := by
  have proper := Site.isProper_configOf isRead.proper_output
  have written : configPath project.settings.outputDir = (configOf project.output).text :=
    Site.configPath_eq isRead.absolute_output isRead.proper_output
  refine ending_configFile_of_readText ?_ ?_
  · obtain ⟨located, standing⟩ := (Disk.read_eq_ok_iff).mp read
    exact (Disk.hasEntry_iff).mpr (written ▸ ⟨located, _, Disk.file?_eq_some_iff.mp standing⟩)
  · rw [written, proper.ofText_text, Disk.readText, read]
    simp only [decoded]

/-! ## From the configuration on -/

/-- No other file of a site is written at the place of the configuration. -/
theorem isWrittenIn_of_ne_config (isRead : project.IsRead environment world)
    (configured : config.path = configPath project.settings.outputDir)
    (member : file ∈ project.siteFiles config) (differs : file ≠ config) :
    IsWrittenIn (· ≠ (configOf project.output).place) file := by
  rcases Site.exists_of_mem_files isRead.absolute_output isRead.proper_output configured member with
    ⟨scaffolded, isScaffold, written, -, isConfig⟩ | ⟨position, module, atPosition, rfl⟩
  · refine (isWrittenIn_scaffold isRead.absolute_output isRead.proper_output isScaffold written).mono ?_
    rintro _ ⟨-, rfl⟩ same
    rw [Site.place_configOf] at same
    exact differs (isConfig (List.append_cancel_left same))
  · obtain ⟨read, fromRoot⟩ :=
      IsPublished.ofText_pageFile isRead position (List.mem_of_getElem? atPosition)
    refine ⟨fromRoot, ?_⟩
    rintro _ ⟨-, rfl⟩ same
    have atPage := same.symm.trans (congrArg CleanPath.place read)
    obtain ⟨front, name, place, ends⟩ := Site.exists_place_page module
    rw [Site.place_configOf, place] at atPage
    obtain ⟨-, single⟩ := List.append_inj' atPage rfl
    rw [← (List.cons.inj single).1] at ends
    exact absurd ends (by decide)

/-- When a planned configuration was published, its content is in the file. -/
theorem read_configOf_of_ending_publish (isRead : project.IsRead environment world)
    (notLogged : ¬before.IsLogged (configOf project.output).place) {existing : Text}
    (published : ending (publish environment project
      (project.siteFiles (project.configFile existing))) before = (.ok (), after)) :
    after.disk.read after.here (configOf project.output).text =
      .ok (Text.Utf8.encode existing) := by
  have absolute : (configOf project.output).IsAbsolute := isRead.absolute_output
  have proper := Site.isProper_configOf isRead.proper_output
  have written : (project.configFile existing).path = (configOf project.output).text :=
    Site.configPath_eq isRead.absolute_output isRead.proper_output
  have atConfig : CleanPath.ofText (project.configFile existing).path = configOf project.output := by
    rw [written, proper.ofText_text]
  obtain ⟨started, cleaned, middle, values, last, toStarted, removed, toMiddle, wrote, toAfter⟩ :=
    exists_of_ending_publish published
  have toCleaned : Evolves (fun _ => True) (fun _ => True) started
      (ending (remove environment (Site.stalePattern project.settings.outputDir)) started).2 :=
    evolves_remove fun _ _ _ _ => trivial
  rw [removed] at toCleaned
  have notLoggedNow : ¬middle.IsLogged (configOf project.output).place :=
    mt (toStarted.isLogged ∘ toCleaned.isLogged ∘ toMiddle.isLogged) notLogged
  have inSite {other : TextFile}
      (isDue : other ∈ (project.siteFiles (project.configFile existing)).filter cleaned.isDue) :
      other ∈ project.siteFiles (project.configFile existing) := List.mem_of_mem_filter isDue
  have toLast := evolves_of_ending_writeFiles
    (fun other isDue => isWrittenIn_of_mem_site isRead rfl (inSite isDue)) wrote
  have read := read_of_ending_writeFiles wrote
    (List.mem_filter.mpr ⟨Project.config_mem_siteFiles _, World.isDue_of_overwrite rfl⟩)
    (written ▸ absolute.isAbsolute_text)
    (fun other isDue differs => atConfig ▸ isWrittenIn_of_ne_config isRead rfl (inSite isDue) differs)
    (atConfig ▸ notLoggedNow)
  rw [atConfig] at read
  refine toAfter.read id ?_ read
  rw [absolute.target_text proper]
  exact mt toLast.isLogged notLoggedNow

/-! ## The build -/

/--
A build keeps the bytes of the lines that it does not update exactly if carriage returns stand only
at the ends of lines that it updates; so it does if there are none.  If the configuration can be read,
its place is spared when the examples are cleared up, no log file stands there, and the settings stay
on their lines, then a build that succeeds leaves the bytes of the text brought up to date, with the
ends of the lines unified.
-/
theorem build_keeps_other_lines_iff {middle : World} {modules : List Module}
    (tree : world.disk.IsTree)
    (documented : ending (documented environment path) world = (.ok project, middle))
    (built : ending (build environment path) world = (.ok modules, after))
    (lines : project.settings.HasNoBreak) (spares : project.SparesConfig)
    (notLogged : ¬world.IsLogged (configOf project.output).place)
    (read : world.disk.read world.here (configPath project.settings.outputDir) = .ok content)
    (decoded : Text.Utf8.decode content = .ok text) :
    ∃ left, after.disk.read after.here (configPath project.settings.outputDir) = .ok left ∧
      left =
        Text.Utf8.encode (Site.updateConfig (Text.unifyBreaks text) project.settings) ∧
      Updates project.settings (Text.fileLines (Text.unifyBreaks text))
        (Text.fileLines (Site.updateConfig (Text.unifyBreaks text) project.settings)) ∧
      (KeepsOthers text content left ↔ ReturnsInUpdated text) ∧
      (Symbol.char '\r' ∉ text → KeepsOthers text content left) := by
  have isRead := isRead_of_ending_documented documented
  have written : configPath project.settings.outputDir = (configOf project.output).text :=
    Site.configPath_eq isRead.absolute_output isRead.proper_output
  rw [written] at read ⊢
  have updates : Updates project.settings (Text.fileLines (Text.unifyBreaks text))
      (Text.fileLines (Site.updateConfig (Text.unifyBreaks text) project.settings)) := by
    rw [Site.fileLines_updateConfig lines.keepsLines]
    exact Site.updates_updateLines _ _
  obtain ⟨rfl, -⟩ := Text.Utf8.decode_eq_ok_iff.mp decoded
  have keeps := Site.keepsOthers_iff updates
    (Site.return_not_mem_updateConfig lines (Text.return_not_mem_unifyBreaks text))
  refine ⟨_, ?_, rfl, updates, keeps, fun noReturn =>
    keeps.mpr (Site.returnsInUpdated_of_not_mem noReturn)⟩
  have toMiddle : OnlyLogs world (ending (Run.documented environment path) world).2 :=
    keeps_documented path world
  rw [documented] at toMiddle
  obtain ⟨-, files, last, planned, published⟩ := exists_plan_and_publish documented built
  obtain ⟨_, checked, verified, rest⟩ := ending_bind_eq_ok_iff.mp planned
  obtain ⟨_, started, logged, prepared⟩ := ending_bind_eq_ok_iff.mp rest
  have toChecked :=
    keeps_verify_onTrees isRead (fun _ => id) middle ⟨toMiddle.tree tree, middle.isFree _⟩
  rw [verified] at toChecked
  have toStarted := keeps_log .info mainPart "Creating markdown files..." checked
  rw [logged] at toStarted
  -- Up to here nothing was done at the place of the configuration, so what is read is its content.
  have evolves := (toMiddle.evolves _ _).trans (toChecked.trans (toStarted.evolves _ _))
  have readNow := read_configOf_of_evolves isRead spares evolves notLogged read
  obtain ⟨config, final, configured, rest⟩ := ending_bind_eq_ok_iff.mp prepared
  rw [ending_configFile_of_read isRead readNow decoded] at configured
  cases configured
  cases rest
  exact read_configOf_of_ending_publish isRead (mt evolves.isLogged notLogged) published

/-- A build of the project with an old configuration keeps the bytes of the other line. -/
theorem build_patched_keeps_other_lines :
    ∃ modules after left,
      ending (build passingChecker ".") patchedWorld = (.ok modules, after) ∧
      after.disk.read after.here "/p/docs/_config.yml" = .ok left ∧
      KeepsOthers "remote_theme: old\n" (Text.Utf8.encode "remote_theme: old\n") left := by
  obtain ⟨project, middle, documented, known⟩ := exists_of_succeeds succeeds_documented_patched
  obtain ⟨plain, -, -, lines, climbs, -, -, written, -, -⟩ := of_decide_eq_true known
  obtain ⟨modules, after, built, -⟩ := exists_of_succeeds succeeds_build_patched
  have lasting : project.HasLastingWay patchedWorld.disk (belowPlace (folderOf project.output)) :=
    Project.hasLastingWay_of_plain climbs
  have decoded : Text.Utf8.decode (Text.Utf8.encode "remote_theme: old\n") =
      .ok "remote_theme: old\n" := Text.Utf8.decode_eq_ok_iff.mpr ⟨rfl, by decide⟩
  obtain ⟨left, read, -, -, -, keeps⟩ := build_keeps_other_lines_iff (by decide +kernel) documented
    built lines ((isRead_of_ending_documented documented).sparesConfig plain lasting)
    (World.not_isLogged_of_noLogs rfl _) (by rw [written]; decide +kernel) decoded
  exact ⟨modules, after, left, built, written ▸ read, keeps (by decide)⟩

/-- A project without sources, and with a configuration. -/
def configuredWorld (config : Text) : World :=
  demoWorld "src" "docs"
    [([("p" : Text), "docs"], .folder),
      ([("p" : Text), "docs", "_config.yml"], .file (Text.Utf8.encode config))]

/-- A configuration all of whose lines end in a carriage return and a line feed. -/
def returnsInAll : Text := "title: Demo\r\nremote_theme: old\r\n"

/--
In that configuration a build changes a line that it does not update: it takes the return away.
-/
theorem build_changes_line_with_return :
    ∃ project middle modules after left,
      ending (documented emptySources ".") (configuredWorld returnsInAll) = (.ok project, middle) ∧
      project.settings.HasNoBreak ∧ configPath project.settings.outputDir = "/p/docs/_config.yml" ∧
      (configuredWorld returnsInAll).disk.read ["p"] "/p/docs/_config.yml" =
        .ok (Text.Utf8.encode returnsInAll) ∧
      Text.Utf8.decode (Text.Utf8.encode returnsInAll) = .ok returnsInAll ∧
      ending (build emptySources ".") (configuredWorld returnsInAll) = (.ok modules, after) ∧
      after.disk.read after.here "/p/docs/_config.yml" = .ok left ∧
      ¬KeepsOthers returnsInAll (Text.Utf8.encode returnsInAll) left := by
  have reading : succeeds (fun project _ => decide (project.settings.HasNoBreak ∧
      configPath project.settings.outputDir = "/p/docs/_config.yml"))
      (documented emptySources ".") (configuredWorld returnsInAll) = true := by
    decide +kernel
  have building : succeeds (fun _ after => decide (
      after.disk.read after.here "/p/docs/_config.yml" =
        .ok (Text.Utf8.encode "title: Demo\nremote_theme: pmarsceill/just-the-docs\n")))
      (build emptySources ".") (configuredWorld returnsInAll) = true := by
    decide +kernel
  obtain ⟨project, middle, documented, known⟩ := exists_of_succeeds reading
  obtain ⟨lines, written⟩ := of_decide_eq_true known
  obtain ⟨modules, after, built, left⟩ := exists_of_succeeds building
  refine ⟨project, middle, modules, after, _, documented, lines, written, by decide +kernel,
    Text.Utf8.decode_eq_ok_iff.mpr ⟨rfl, by decide⟩, built, of_decide_eq_true left, fun keeps => ?_⟩
  have standing : ((Text.fileLines returnsInAll).map Text.withoutReturns)[0]? =
      some (.char 't' :: "itle: Demo") := by decide
  have first := keeps.others 0
    (Site.not_isUpdated_of_cons standing (by decide) (by decide) (by decide))
  revert first
  decide +kernel

end Run

end ApiDocs
