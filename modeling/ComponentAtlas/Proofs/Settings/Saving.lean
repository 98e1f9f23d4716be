/-
Module: ComponentAtlas.Proofs.Settings.Saving
Purpose: A project that saved its settings finds the same ones when it is opened again.
Main exports:
  isProper_entriesAt, Workspace.IsNamed, IsNamed.update, Workspace.IsReached,
  IsReached.isNamed, entriesAt_of_saved, save_spec, reopened_after_save
-/
import ComponentAtlas.Proofs.Data.Json
import ComponentAtlas.Proofs.Disk.Resolution
import ComponentAtlas.Proofs.Settings.Faults
import ComponentAtlas.Proofs.Settings.Rereading
import ComponentAtlas.Proofs.Settings.Updating
import ComponentAtlas.Proofs.Text.Utf8

namespace ComponentAtlas

/-!
The frameworks of a project have names of their own, whatever its settings went through.
-/

namespace Settings

variable {disk : Disk} {path : Path} {entries : Entries} {yaml : Reader}

theorem isProper_empty : (Data.map []).IsProper := by
  have noKeys : (Entries.keys []).Nodup := List.nodup_nil
  exact .map noKeys (by simp)

theorem Reader.json_eq_ok {text : String} {found : Data} :
    Reader.json.read text = .ok found ↔ Json.read text = .ok found := by
  cases isRead : Json.read text <;> simp [Reader.json, isRead, Except.mapError]

theorem dataOfText_of_json (notYaml : isYaml path = false) (yaml : Reader) (text : String) :
    dataOfText yaml path text = Reader.json.read text := by
  rw [dataOfText, notYaml]
  rfl

/-- What is read from a file that is not written in YAML is as JSON makes it. -/
theorem isProper_entriesAt (notYaml : isYaml path = false)
    (isRead : entriesAt disk path yaml = .ok entries) : (Data.map entries).IsProper := by
  obtain ⟨isPresent, -, isRead⟩ := bind_eq_ok.mp isRead
  cases isPresent with
  | false =>
      cases isRead
      exact isProper_empty
  | true =>
      obtain ⟨⟨content, modified⟩, -, isRead⟩ := bind_eq_ok.mp isRead
      dsimp only at isRead
      split at isRead
      · unfold entriesOfText at isRead
        rw [dataOfText_of_json notYaml] at isRead
        split at isRead
        · cases isRead
          exact isProper_empty
        · split at isRead
          · rename_i isJson
            cases isRead
            exact Json.isProper_read (Reader.json_eq_ok.mp isJson)
          · cases isRead
            exact isProper_empty
          · cases isRead
          · cases isRead
      · cases isRead

end Settings

namespace Workspace

open Settings

variable {workspace opened : Workspace}

/-- Written settings that can be laid over others without the names of frameworks being
lost: no key comes twice in a mapping, and the names are texts. -/
structure IsOrderly (given : Entries) : Prop where
  proper : (Data.map given).IsProper
  textNames : HasTextNames given

/-- The written frameworks have names of their own, and the settings in use are those that
are written. -/
structure IsNamed (workspace : Workspace) : Prop where
  names : ∃ frameworks, NamesFrameworks workspace.entries frameworks
  inUse : ofEntries workspace.entries = .ok workspace.settings

theorem IsNamed.isRead (named : workspace.IsNamed) : workspace.settings.IsRead := by
  obtain ⟨frameworks, names⟩ := named.names
  exact isRead_of_ofEntries names named.inUse

theorem isNamed_of_openAt {machine : Machine} {root : Path} {configPath : Option Path}
    {overrides : Entries} (isOpened : openAt machine root configPath overrides = .ok opened)
    (inFile : ∀ entries, entriesAt machine.disk opened.configPath machine.yaml = .ok entries →
      IsOrderly entries)
    (given : IsOrderly overrides) : opened.IsNamed := by
  obtain ⟨-, -, ⟨below, isBelow, laid⟩, inUse⟩ := openAt_spec isOpened
  obtain ⟨written, isWritten, laidBelow⟩ := bind_eq_ok.mp isBelow
  have orderly := inFile written isWritten
  obtain ⟨_, default⟩ := namesFrameworks_default
  obtain ⟨_, _, isNext, names⟩ := default.overlay orderly.proper orderly.textNames
  cases laidBelow.symm.trans isNext
  obtain ⟨_, frameworks, isNext, names⟩ := names.overlay given.proper given.textNames
  cases laid.symm.trans isNext
  exact ⟨⟨frameworks, names⟩, inUse⟩

theorem IsNamed.update (named : workspace.IsNamed) {updates : Entries} (given : IsOrderly updates)
    (done : (workspace.update updates).2 = none) : (workspace.update updates).1.IsNamed := by
  obtain ⟨_, names⟩ := named.names
  obtain ⟨next, frameworks, laid, nextNames⟩ := names.overlay given.proper given.textNames
  rcases update_cases workspace updates with ⟨fault, -, isNext⟩ |
    ⟨entries, laidToo, ⟨fault, -, isNext⟩ | ⟨settings, inUse, isNext⟩⟩
  · rw [isNext] at done
    cases done
  · rw [isNext] at done
    cases done
  · cases laid.symm.trans laidToo
    rw [isNext]
    exact ⟨⟨frameworks, nextNames⟩, inUse⟩

/-- A project that was opened, with any changes that were made since.  What is in its file
and what is given is orderly. -/
inductive IsReached : Workspace → Prop where
  | opened {machine : Machine} {root : Path} {configPath : Option Path} {overrides : Entries}
      {opened : Workspace} (isOpened : openAt machine root configPath overrides = .ok opened)
      (inFile : ∀ entries, entriesAt machine.disk opened.configPath machine.yaml = .ok entries →
        IsOrderly entries)
      (given : IsOrderly overrides) : IsReached opened
  | updated {workspace next : Workspace} {updates : Entries} (reached : IsReached workspace)
      (given : IsOrderly updates) (made : workspace.update updates = (next, none)) : IsReached next

/-- What is in a JSON file is orderly when the frameworks in it have texts as names. -/
theorem IsReached.of_json {machine : Machine} {root : Path} {configPath : Option Path}
    {overrides : Entries} (isOpened : openAt machine root configPath overrides = .ok opened)
    (isJson : isYaml opened.configPath = false)
    (textNames : ∀ entries, entriesAt machine.disk opened.configPath machine.yaml = .ok entries →
      HasTextNames entries)
    (given : IsOrderly overrides) : opened.IsReached :=
  .opened isOpened
    (fun entries isRead => ⟨isProper_entriesAt isJson isRead, textNames entries isRead⟩) given

theorem IsReached.isNamed (reached : workspace.IsReached) : workspace.IsNamed := by
  induction reached with
  | opened isOpened inFile given => exact isNamed_of_openAt isOpened inFile given
  | updated _ given made ih =>
      have named := ih.update given
      rw [made] at named
      exact named rfl

theorem isAbsolute_configPath_of_openAt {machine : Machine} {root : Path}
    {configPath : Option Path} {overrides : Entries}
    (isOpened : openAt machine root configPath overrides = .ok opened) :
    opened.configPath.isAbsolute := by
  obtain ⟨⟨start, isReal⟩, isPlace, -⟩ := openAt_spec isOpened
  cases configPath with
  | none =>
      have isChild : opened.root.child defaultFileName.toList = opened.configPath :=
        Except.ok.inj isPlace
      have rooted : opened.root.isAbsolute := isAbsolute_of_realPath isReal
      exact isChild ▸ rooted
  | some path =>
      obtain ⟨seen, -, isPlace⟩ := bind_eq_ok.mp isPlace
      obtain ⟨isDirectory, -, isPlace⟩ := bind_eq_ok.mp isPlace
      exact isAbsolute_of_realPath isPlace

theorem configPath_update (workspace : Workspace) (updates : Entries) :
    (workspace.update updates).1.configPath = workspace.configPath := by
  rcases update_cases workspace updates with ⟨fault, -, isNext⟩ |
    ⟨entries, -, ⟨fault, -, isNext⟩ | ⟨settings, -, isNext⟩⟩ <;> rw [isNext]

theorem IsReached.isAbsolute (reached : workspace.IsReached) :
    workspace.configPath.isAbsolute := by
  induction reached with
  | opened isOpened => exact isAbsolute_configPath_of_openAt isOpened
  | @updated workspace next updates _ _ made ih =>
      have samePath := configPath_update workspace updates
      rw [made] at samePath
      exact samePath ▸ ih

end Workspace

/-!
A file that was saved is found again, and read as it was written.
-/

theorem Text.withLineFeeds_of_notMem {text : List Char} (free : '\r' ∉ text) :
    withLineFeeds text = text := by
  induction text with
  | nil => rfl
  | cons c rest ih =>
      have ne : c ≠ '\r' := fun isReturn => free (isReturn ▸ List.mem_cons_self)
      have isRest := ih fun member => free (List.mem_cons_of_mem _ member)
      rw [withLineFeeds]
      · rw [if_neg ne, isRest]
      · rintro _ rfl
        exact absurd rfl ne

namespace Settings

variable {settings : Settings} {path : Path} {disk : Disk} {yaml : Reader}

theorem withLineFeeds_fileText (settings : Settings) :
    Text.withLineFeeds (fileText settings).toList = (fileText settings).toList := by
  refine Text.withLineFeeds_of_notMem ?_
  exact Json.noReturn_append.mpr ⟨Json.noReturn_writeIndented settings.data, by decide⟩

/-- Settings that were written as JSON are the entries of the file, as far as JSON reads
what it wrote. -/
theorem entriesOfText_fileText (notYaml : isYaml path = false)
    (decodes : Json.read (fileText settings) = .ok settings.data) :
    entriesOfText yaml path (fileText settings).toList = .ok settings.entries := by
  obtain ⟨rest, isMap⟩ := Json.exists_writeIndented_map settings.entries
  have notBlank : ¬Text.isAllBlank (fileText settings).toList := by
    rw [fileText, data_eq, isMap]
    simp [Text.isAllBlank, Text.isBlank]
  have isRead := Reader.json_eq_ok.mpr decodes
  unfold entriesOfText
  rw [if_neg notBlank, dataOfText_of_json notYaml, String.ofList_toList, isRead, data_eq]

/-- The entries of a file that holds saved settings. -/
theorem entriesAt_of_saved {found : List (List Char)} {now : Timestamp}
    (noNull : Disk.hasNull path = false) (isShort : path.isLong = false)
    (leads : Disk.Leads disk maxLinks [] path.parts found)
    (stands : disk.at? found =
      some (.file (Text.Utf8.encode (fileText settings).toList) now))
    (notYaml : isYaml path = false)
    (decodes : Json.read (fileText settings) = .ok settings.data) :
    entriesAt disk path yaml = .ok settings.entries := by
  have isPresent := Disk.isPresent_of_leads noNull isShort leads stands
  refine bind_eq_ok.mpr ⟨true, isPresent, ?_⟩
  refine bind_eq_ok.mpr ⟨_, Disk.contentAt_of_leads noNull isShort leads stands, ?_⟩
  dsimp only
  rw [Text.Utf8.decode_encode]
  dsimp only
  rw [withLineFeeds_fileText]
  exact entriesOfText_fileText notYaml decodes

/-- A path to a file stands for the configuration file itself. -/
theorem filePath_of_leads {machine : Machine} {found : List (List Char)} {content : List UInt8}
    {modified : Timestamp} (absolute : path.isAbsolute) (noNull : Disk.hasNull path = false)
    (isShort : path.isLong = false)
    (leads : Disk.Leads machine.disk maxLinks [] path.parts found)
    (stands : machine.disk.at? found = some (.file content modified)) :
    filePath machine path = .ok { slashes := 1, parts := found } := by
  have isSeen : path.expandUser machine.users = .ok path :=
    Path.expandUser_of_isAbsolute _ absolute
  have isSelf : machine.directory.join path = path := Path.join_of_isAbsolute _ absolute
  have notDirectory : machine.isDirectory path = .ok false := by
    rw [machine.isDirectory_of_isAbsolute absolute, Disk.isDirectory,
      Disk.presence_of_leads noNull isShort leads stands]
    rfl
  refine bind_eq_ok.mpr ⟨path, isSeen, bind_eq_ok.mpr ⟨false, notDirectory, ?_⟩⟩
  rw [if_neg Bool.false_ne_true, isSelf]
  exact Disk.realPath_of_leads noNull leads stands rfl

end Settings

namespace Workspace

open Settings

variable {workspace : Workspace}

/-- Saving leaves the settings in use in the file that the configuration path leads to. -/
theorem save_spec {disk next : Disk} {now : Timestamp} {record : Journal.Record}
    (rooted : disk.root.isDirectory) (saved : workspace.save disk now = .ok (next, record)) :
    Disk.hasNull workspace.configPath = false ∧ workspace.configPath.isLong = false ∧
      ∃ names, Disk.Leads next maxLinks [] workspace.configPath.parts names ∧
        next.at? names =
          some (.file (Text.Utf8.encode (fileText workspace.settings).toList) now) := by
  obtain ⟨middle, made, saved⟩ := bind_eq_ok.mp saved
  have rootedToo := Disk.root_isDirectory_makeDirectoriesFrom rooted made
  dsimp only at saved
  split at saved
  · cases saved
  · obtain ⟨written, stored, saved⟩ := bind_eq_ok.mp saved
    cases saved
    exact Disk.store_spec rootedToo stored

/-- A project that saved its settings to a JSON file has the same settings when it is opened
again on that file, from any root and with nothing given, as long as JSON reads the settings
that it wrote.  Amounts are compared as numbers, for a whole one comes back as a float.  The
file is asked for by its real path, which the machine has to take as it took the path that
was written to: a link may lead to where names add up to more than that. -/
theorem reopened_after_save {disk : Disk} {now : Timestamp} {record : Journal.Record}
    {fresh : Machine} {root real : Path} (reached : workspace.IsReached)
    (numbers : workspace.settings.refreshInterval.isNumber ∧
      workspace.settings.designSystemTtl.isNumber)
    (rooted : disk.root.isDirectory)
    (saved : workspace.save disk now = .ok (fresh.disk, record))
    (proper : fresh.disk.root.IsProper Path.IsName)
    (notYaml : ∀ place, fresh.disk.realPath workspace.configPath = .ok place →
      isYaml place = false)
    (isShort : ∀ place, fresh.disk.realPath workspace.configPath = .ok place →
      place.isLong = false)
    (decodes : Json.read (fileText workspace.settings) = .ok workspace.settings.data)
    (isRoot : (fresh.absolute root >>= fresh.disk.realPath) = .ok real) :
    ∃ reopened, openAt fresh root (some workspace.configPath) [] = .ok reopened ∧
      reopened.settings.SameValue workspace.settings := by
  obtain ⟨noNull, isShortPath, names, leads, stands⟩ := save_spec rooted saved
  have isReal := Disk.realPath_of_leads noNull leads stands rfl
  have direct := leads.direct stands rfl
  have isPlace := filePath_of_leads reached.isAbsolute noNull isShortPath leads stands
  have named : Path.HasNames { slashes := 1, parts := names } := fun name member =>
    Disk.allowed_of_leads proper direct name member fun isAbove =>
      leads.above_notMem List.not_mem_nil (isAbove ▸ member)
  have isWritten : entriesAt fresh.disk { slashes := 1, parts := names } fresh.yaml = _ :=
    entriesAt_of_saved named.not_hasNull (isShort _ isReal) direct stands (notYaml _ isReal) decodes
  obtain ⟨reread, isReread, same⟩ := reached.isNamed.isRead.sameValue_reread numbers.1 numbers.2
  obtain ⟨entries, laid, isReread⟩ := bind_eq_ok.mp isReread
  obtain ⟨seen, isSeen, isRoot⟩ := bind_eq_ok.mp isRoot
  let reopened : Workspace :=
    { users := fresh.users, root := real, configPath := { slashes := 1, parts := names }
      entries := entries, settings := reread }
  refine ⟨reopened, ?_, same⟩
  refine bind_eq_ok.mpr ⟨seen, isSeen, bind_eq_ok.mpr ⟨real, isRoot, ?_⟩⟩
  refine bind_eq_ok.mpr ⟨_, isPlace, ?_⟩
  refine bind_eq_ok.mpr ⟨entries, bind_eq_ok.mpr ⟨_, isWritten, laid⟩, ?_⟩
  refine bind_eq_ok.mpr ⟨entries, overlay_nil entries, ?_⟩
  exact bind_eq_ok.mpr ⟨reread, isReread, rfl⟩

/-!
A project on a machine without files, with frameworks given in another order than by default,
one more added, and amounts that cannot be read.
-/

/-- A machine without files. -/
def emptyMachine : Machine :=
  { disk := { root := .emptyDirectory }
    users := { home := [], others := [] }
    directory := { slashes := 1, parts := [] } }

/-- The configuration file in the root of the machine. -/
def rootFile : Path := { slashes := 1, parts := [defaultFileName.toList] }

/-- A written framework for which nothing is looked for. -/
def bareFramework (name : String) : Entries :=
  [(.text "name", .text name), (.text "fileExtensions", .list []),
    (.text "componentPatterns", .list []), (.text "stylePatterns", .list [])]

/-- Written settings in which every list is empty and no amount is a number. -/
def bareEntries : Entries :=
  [(.text "scanPaths", .list []), (.text "excludePatterns", .list []),
    (.text "componentPatterns", .list []), (.text "refreshInterval", .null),
    (.text "designSystemTtl", .null),
    (.text "frameworks",
      .list [.map (bareFramework "tailwind"), .map (bareFramework "react-native")])]

/-- One more framework, and a cache that is switched off. -/
def vueEntries : Entries :=
  [(.text "cacheEnabled", .text "no"), (.text "frameworks", .list [.map (bareFramework "vue")])]

/-- The settings that come of these. -/
def bareSettings : Settings :=
  { scanPaths := [], excludePatterns := [], componentPatterns := []
    frameworks := [{ name := "react-native" }, { name := "tailwind" }, { name := "vue" }]
    cacheEnabled := false, autoRefresh := true, refreshInterval := .whole 300
    cacheMaxSize := 1000, designSystemTtl := .whole 300 }

theorem isProper_bareFramework (name : String) : (Data.map (bareFramework name)).IsProper := by
  have empty : (Data.list []).IsProper := .list (by simp)
  refine .map (by simp [bareFramework, Entries.keys, Key.canonical]) fun entry member => ?_
  simp only [bareFramework, List.mem_cons, List.not_mem_nil, or_false] at member
  rcases member with rfl | rfl | rfl | rfl
  · exact .text name
  all_goals exact empty

theorem isOrderly_bareEntries : IsOrderly bareEntries where
  proper := by
    have empty : (Data.list []).IsProper := .list (by simp)
    refine .map (by decide) fun entry member => ?_
    simp only [bareEntries, List.mem_cons, List.not_mem_nil, or_false] at member
    rcases member with rfl | rfl | rfl | rfl | rfl | rfl
    · exact empty
    · exact empty
    · exact empty
    · exact .null
    · exact .null
    · exact .list (by simp [isProper_bareFramework])
  textNames := by
    intro framework member
    rcases List.mem_cons.mp member with rfl | later
    · exact ⟨some "tailwind", rfl⟩
    · cases List.mem_singleton.mp later
      exact ⟨some "react-native", rfl⟩

theorem isOrderly_vueEntries : IsOrderly vueEntries where
  proper := by
    refine .map (by decide) fun entry member => ?_
    simp only [vueEntries, List.mem_cons, List.not_mem_nil, or_false] at member
    rcases member with rfl | rfl
    · exact .text "no"
    · exact .list (by simp [isProper_bareFramework])
  textNames := by
    intro framework member
    cases List.mem_singleton.mp member
    exact ⟨some "vue", rfl⟩

theorem realPath_root {disk : Disk} (rooted : disk.root.isDirectory) :
    disk.realPath { slashes := 1, parts := [] } = .ok { slashes := 1, parts := [] } :=
  Disk.realPath_of_leads rfl (.arrived maxLinks []) rfl (Entry.target?_of_isDirectory rooted)

theorem entriesAt_rootFile : entriesAt emptyMachine.disk rootFile emptyMachine.yaml = .ok [] := by
  have missing : emptyMachine.disk.locate rootFile = .error .missing := by
    rw [Disk.locate, if_neg (by decide), rootFile, Disk.locateFrom]
    rfl
  have nothing : emptyMachine.disk.isPresent rootFile = .ok false := by
    rw [Disk.isPresent, Disk.presence, if_neg (by decide), Disk.entryAt, missing]
    rfl
  exact bind_of_ok nothing _

theorem exists_opened_bareEntries :
    ∃ opened, openAt emptyMachine { slashes := 0, parts := [] } none bareEntries = .ok opened ∧
      opened.configPath = rootFile ∧
      ∃ changed, opened.update vueEntries = (changed, none) ∧
        changed.settings = bareSettings ∧ changed.configPath = rootFile := by
  have isReal : emptyMachine.disk.realPath { slashes := 1, parts := [] } = _ := realPath_root rfl
  have isBelow : entriesOverDefault emptyMachine rootFile = .ok _ :=
    bind_eq_ok.mpr ⟨_, entriesAt_rootFile, rfl⟩
  have isOpened : openAt emptyMachine { slashes := 0, parts := [] } none bareEntries = .ok _ :=
    bind_eq_ok.mpr ⟨_, rfl, bind_eq_ok.mpr ⟨_, isReal, bind_eq_ok.mpr ⟨rootFile, rfl,
      bind_eq_ok.mpr ⟨_, isBelow, bind_eq_ok.mpr ⟨_, rfl, bind_eq_ok.mpr ⟨_, rfl, rfl⟩⟩⟩⟩⟩⟩
  exact ⟨_, isOpened, rfl, _, rfl, rfl, rfl⟩

set_option maxRecDepth 20000 in
theorem read_fileText_bareSettings :
    Json.read (fileText bareSettings) = .ok bareSettings.data := by
  -- The text is spelled out as characters first, piece by piece, and then read.
  simp [Json.read, fileText, bareSettings, Settings.data, Settings.fields, Data.record,
    Json.writeIndented, Json.writeAt, Json.writeItemsAt, Json.writeEntriesAt, Json.bracketed,
    Data.texts, FrameworkSettings.data, Amount.data, Json.write, Json.keyText, Json.newLine,
    Json.quoted, Json.escape, -String.reduceAppend]
  rfl

/-- The machine after the settings were saved. -/
def savedMachine : Machine :=
  { emptyMachine with
    disk := emptyMachine.disk.put rootFile.parts
      (.file (Text.Utf8.encode (fileText bareSettings).toList) Disk.directoryTime) }

theorem exists_save_bareSettings {workspace : Workspace} (isPath : workspace.configPath = rootFile)
    (isSettings : workspace.settings = bareSettings) :
    ∃ record, workspace.save emptyMachine.disk Disk.directoryTime =
      .ok (savedMachine.disk, record) := by
  have small : ¬Decimal.tenTo Decimal.maxIntDigits ≤ bareSettings.cacheMaxSize.natAbs := by
    decide +kernel
  have placed : emptyMachine.disk.filePlace rootFile = .ok [defaultFileName.toList] := by
    rw [Disk.filePlace, if_neg (by decide), rootFile, Disk.placeFrom]
    rfl
  have stored : emptyMachine.disk.store rootFile
      (Text.Utf8.encode (fileText bareSettings).toList) Disk.directoryTime =
        .ok savedMachine.disk := by
    rw [Disk.store, if_neg (by decide), placed]
    rfl
  unfold save
  rw [isPath, isSettings]
  refine ⟨{ level := .info, logger := "config", message := "Saved configuration to " ++ rootFile.text },
    bind_eq_ok.mpr ⟨emptyMachine.disk, rfl, ?_⟩⟩
  dsimp only
  rw [if_neg small]
  exact bind_eq_ok.mpr ⟨_, stored, rfl⟩

/-- The settings that were changed and saved are found again. -/
theorem reopened_bareEntries :
    ∃ opened changed record reopened,
      openAt emptyMachine { slashes := 0, parts := [] } none bareEntries = .ok opened ∧
      opened.update vueEntries = (changed, none) ∧ changed.settings = bareSettings ∧
      changed.save emptyMachine.disk Disk.directoryTime = .ok (savedMachine.disk, record) ∧
      openAt savedMachine { slashes := 0, parts := [] } (some changed.configPath) [] = .ok reopened ∧
      reopened.settings.SameValue bareSettings := by
  obtain ⟨opened, isOpened, openedPath, changed, made, isSettings, changedPath⟩ :=
    exists_opened_bareEntries
  obtain ⟨record, saved⟩ := exists_save_bareSettings changedPath isSettings
  have textNames (entries : Entries)
      (isRead : entriesAt emptyMachine.disk opened.configPath emptyMachine.yaml = .ok entries) :
      HasTextNames entries := by
    rw [openedPath, entriesAt_rootFile] at isRead
    cases isRead
    exact fun framework member => absurd member List.not_mem_nil
  have isJson : isYaml opened.configPath = false := by
    rw [openedPath]
    decide
  have reached : changed.IsReached :=
    .updated (.of_json isOpened isJson textNames isOrderly_bareEntries) isOrderly_vueEntries made
  have proper : savedMachine.disk.root.IsProper Path.IsName := by
    refine .directory _ _ (by decide) ?_ ?_
    · intro found member
      cases List.mem_singleton.mp member
      decide
    · intro found member
      cases List.mem_singleton.mp member
      exact .file _ _
  have isSelf (place : Path) (isReal : savedMachine.disk.realPath changed.configPath = .ok place) :
      place = rootFile := by
    have stands : savedMachine.disk.at? rootFile.parts = some (.file _ _) :=
      Disk.at?_put_self _ _ (List.cons_ne_nil _ _)
    have leads : Disk.Leads savedMachine.disk maxLinks [] rootFile.parts rootFile.parts :=
      Disk.leads_of_at? (by decide) rfl stands rfl maxLinks
    have isPlace := Disk.realPath_of_leads (by decide) leads stands rfl
    rw [changedPath, isPlace] at isReal
    cases isReal
    rfl
  have notYaml (place : Path) (isReal : savedMachine.disk.realPath changed.configPath = .ok place) :
      isYaml place = false := by
    rw [isSelf place isReal]
    decide
  have isShort (place : Path) (isReal : savedMachine.disk.realPath changed.configPath = .ok place) :
      place.isLong = false := by
    rw [isSelf place isReal]
    decide
  have decodes : Json.read (fileText changed.settings) = .ok changed.settings.data := by
    rw [isSettings]
    exact read_fileText_bareSettings
  have numbers : changed.settings.refreshInterval.isNumber ∧
      changed.settings.designSystemTtl.isNumber := by
    rw [isSettings]
    exact ⟨rfl, rfl⟩
  have isRoot : (savedMachine.absolute { slashes := 0, parts := [] } >>=
      savedMachine.disk.realPath) = .ok _ :=
    bind_eq_ok.mpr ⟨_, rfl, realPath_root rfl⟩
  obtain ⟨reopened, isReopened, same⟩ :=
    reopened_after_save reached numbers rfl saved proper notYaml isShort decodes isRoot
  exact ⟨opened, changed, record, reopened, isOpened, made, isSettings, saved, isReopened,
    isSettings ▸ same⟩

end Workspace

end ComponentAtlas
