import RefereeBox.Config.Verdict

/-! # Loading Several Configurations

  What a sequence of loads leaves in the tables. A load adds to the lists and
  puts into the maps; nothing is ever taken out. So the lists hold the
  entries of all files, one file after the other, and a label has the point
  of the last file that gives it one. The configurations of BTT and CTT get a
  blank with every load, so a second load is never without a trace.
-/

namespace RefereeBox

open Java

/-! ### Well-formed files -/

/-- The value of a key in a file. -/
def valueIn (file : List (Text × Text)) (key : String) : Option Text :=
  (Properties.load .empty file).getProperty key

/-- The entries of a key in a file. -/
def entriesIn (file : List (Text × Text)) (key : String) : List Text :=
  entriesOf ((valueIn file key).getD [])

/-- The keys of the lists that take any entry. -/
def listKeys : List String :=
  ["bmt.configurations", "bmt.objects", "btt.configurations", "btt.objects", "btt.situations",
    "ctt.configurations", "ctt.objects", "ctt.situations"]

def placesKeys : List String := ["bnt.places", "bmt.places", "btt.places", "ctt.places"]

/-- A file that defines all keys, with well-formed entries. -/
structure FileWellFormed (u : Unicode) (file : List (Text × Text)) : Prop where
  places : ∀ key ∈ placesKeys, ∃ str, valueIn file key = some str ∧ PositionsWellFormed u str
  orientations : ∃ str, valueIn file "bnt.orientations" = some str ∧
    ∀ e ∈ entriesOf str, e ∈ getCompassDirectionStrings
  pauses : ∃ str, valueIn file "bnt.pauses" = some str ∧
    ∀ e ∈ entriesOf str, (u.parseShort e).isSome = true
  lists : ∀ key ∈ listKeys, ∃ str, valueIn file key = some str

theorem entriesIn_of_value {file : List (Text × Text)} {key : String} {str : Text}
    (h : valueIn file key = some str) : entriesIn file key = entriesOf str := by
  unfold entriesIn
  rw [h]
  rfl

/-- What a file defines wins over what there was before. -/
theorem getProperty_load {file : List (Text × Text)} {key : String} {str : Text}
    (h : valueIn file key = some str) (props : Properties) :
    (props.load file).getProperty key = some str := by
  unfold Properties.getProperty Properties.load
  rw [LinkedMap.get?_putAll]
  have hfile : (LinkedMap.empty.putAll file : Properties).get? key.toList = some str := h
  rw [hfile]
  rfl

/-! ### The getters -/

/-- The tables behind the getters for the panels of a file. -/
def TaskElements.addPanels (u : Unicode) (file : List (Text × Text)) (vte : TaskElements) :
    TaskElements :=
  { vte with
    validBMTPositions := mapAfter u (entriesIn file "bmt.places") vte.validBMTPositions
    validBMTConfigurations := vte.validBMTConfigurations ++ entriesIn file "bmt.configurations"
    validBMTObjects := vte.validBMTObjects ++ entriesIn file "bmt.objects"
    validBTTPositions := mapAfter u (entriesIn file "btt.places") vte.validBTTPositions
    validBTTConfigurations :=
      vte.validBTTConfigurations ++ " ".toList :: entriesIn file "btt.configurations"
    validBTTObjects := vte.validBTTObjects ++ entriesIn file "btt.objects"
    validBTTSituations := vte.validBTTSituations ++ entriesIn file "btt.situations"
    validCTTPositions := mapAfter u (entriesIn file "ctt.places") vte.validCTTPositions
    validCTTConfigurations :=
      vte.validCTTConfigurations ++ " ".toList :: entriesIn file "ctt.configurations"
    validCTTObjects := vte.validCTTObjects ++ entriesIn file "ctt.objects"
    validCTTSituations := vte.validCTTSituations ++ entriesIn file "ctt.situations" }

/-- A getter of positions adds the entries of a well-formed file. -/
theorem FileWellFormed.call_parsePositions {u : Unicode} {file : List (Text × Text)}
    (h : FileWellFormed u file) (props : Properties) (key : String) (hkey : key ∈ placesKeys)
    {c : CompetitionIdentifier} {vte : TaskElements} {old : Positions}
    (hc : vte.positions c = some old) (positions : TaskElements → Positions) :
    (do
      let _ ← parsePositions u ((props.load file).getProperty key) c
      return positions (← get) : Populating Positions).call vte =
      (.ok (positions (vte.setPositions c (mapAfter u (entriesIn file key) old))),
        vte.setPositions c (mapAfter u (entriesIn file key) old)) := by
  obtain ⟨str, hstr, hform⟩ := h.places key hkey
  rw [getProperty_load hstr, entriesIn_of_value hstr,
    Populating.call_bind (call_parsePositions_of_wellFormed hform hc)]
  rfl

/-- So does a getter of a list. -/
theorem FileWellFormed.call_addEntries {u : Unicode} {file : List (Text × Text)}
    (h : FileWellFormed u file) (props : Properties) (key : String) (hkey : key ∈ listKeys)
    (list : TaskElements → List Text) (setList : TaskElements → List Text → TaskElements)
    (initial : List Text) (vte : TaskElements) :
    (addEntries (props.load file) key list setList initial).call vte =
      (.ok (list (setList vte (list vte ++ initial ++ entriesIn file key))),
        setList vte (list vte ++ initial ++ entriesIn file key)) := by
  obtain ⟨str, hstr⟩ := h.lists key hkey
  unfold addEntries
  rw [getProperty_load hstr, entriesIn_of_value hstr]
  rfl

/-- All entries of a well-formed file are added for the panels. -/
theorem call_populatePanels {u : Unicode} {file : List (Text × Text)} (h : FileWellFormed u file)
    (props : Properties) (vte : TaskElements) :
    (populatePanels u (props.load file)).call vte = (.ok (), vte.addPanels u file) := by
  unfold populatePanels getValidBMTPositions getValidBMTConfigurations getValidBMTObjects
    getValidBTTPositions getValidBTTConfigurations getValidBTTObjects getValidBTTSituations
    getValidCTTPositions getValidCTTConfigurations getValidCTTObjects getValidCTTSituations
  rw [Populating.call_bind (h.call_parsePositions props "bmt.places" (by decide) rfl _),
    Populating.call_bind (h.call_addEntries props "bmt.configurations" (by decide) _ _ _ _),
    Populating.call_bind (h.call_addEntries props "bmt.objects" (by decide) _ _ _ _),
    Populating.call_bind (h.call_parsePositions props "btt.places" (by decide) rfl _),
    Populating.call_bind (h.call_addEntries props "btt.configurations" (by decide) _ _ _ _),
    Populating.call_bind (h.call_addEntries props "btt.objects" (by decide) _ _ _ _),
    Populating.call_bind (h.call_addEntries props "btt.situations" (by decide) _ _ _ _),
    Populating.call_bind (h.call_parsePositions props "ctt.places" (by decide) rfl _),
    Populating.call_bind (h.call_addEntries props "ctt.configurations" (by decide) _ _ _ _),
    Populating.call_bind (h.call_addEntries props "ctt.objects" (by decide) _ _ _ _),
    Populating.call_bind (h.call_addEntries props "ctt.situations" (by decide) _ _ _ _)]
  simp [TaskElements.addPanels, TaskElements.setPositions]
  rfl

/-! ### Loading a file -/

/-- The tables that `populateLists` fills. -/
def TaskElements.addLists (u : Unicode) (file : List (Text × Text)) (vte : TaskElements) :
    TaskElements :=
  { vte with
    validBNTPositions := mapAfter u (entriesIn file "bnt.places") vte.validBNTPositions
    validBNTOrientations := vte.validBNTOrientations ++ entriesIn file "bnt.orientations"
    validBNTPauses := vte.validBNTPauses ++ entriesIn file "bnt.pauses" }

/-- All tables behind the load of a file. -/
def TaskElements.addFile (u : Unicode) (vte : TaskElements) (file : List (Text × Text)) :
    TaskElements :=
  (vte.addLists u file).addPanels u file

/-- Nothing is left out of the lists of a well-formed file. -/
theorem FileWellFormed.call_readFromConfigFile {u : Unicode} {file : List (Text × Text)}
    (h : FileWellFormed u file) (props : Properties) (vte : TaskElements) :
    (readFromConfigFile u (props.load file)).call vte = (.ok true, vte.addLists u file) := by
  obtain ⟨places, hplaces, hform⟩ := h.places "bnt.places" (by decide)
  obtain ⟨orientations, horientations, hcompass⟩ := h.orientations
  obtain ⟨pauses, hpauses, hshort⟩ := h.pauses
  have hall : (entriesOf orientations).all (· ∈ getCompassDirectionStrings) = true := by
    simpa [List.all_eq_true] using hcompass
  have hfilter : (entriesOf orientations).filter (· ∈ getCompassDirectionStrings) =
      entriesOf orientations := by
    rw [List.filter_eq_self]
    simpa using hcompass
  have htake : ((entriesOf pauses).takeWhile fun i => (u.parseShort i).isSome) =
      entriesOf pauses := by
    rw [List.takeWhile_eq_self_iff]
    exact hshort
  rw [RefereeBox.call_readFromConfigFile (getProperty_load hplaces props)
    (getProperty_load horientations props) (getProperty_load hpauses props) hform, hall, hfilter,
    htake]
  unfold TaskElements.addLists
  rw [entriesIn_of_value hplaces, entriesIn_of_value horientations, entriesIn_of_value hpauses]

/-- A well-formed file is accepted, whatever was loaded before, and all its
    entries are added. -/
theorem loadConfigurationFile_of_wellFormed {u : Unicode} {file : List (Text × Text)}
    (h : FileWellFormed u file) (s : Configuration) :
    s.loadConfigurationFile u (some file) =
      (true, ⟨s.properties.load file, s.vte.addFile u file⟩) := by
  have hpopulate : populateValidItems u (s.properties.load file) s.vte =
      (true, s.vte.addFile u file) := by
    unfold populateValidItems
    rw [h.call_readFromConfigFile]
    show (true, ((populatePanels u (s.properties.load file)).call (s.vte.addLists u file)).2) = _
    rw [call_populatePanels h]
    rfl
  unfold Configuration.loadConfigurationFile
  simp only [hpopulate]

/-! ### Loading several files -/

/-- The files are loaded one after the other. -/
def Configuration.loadFiles (u : Unicode) (s : Configuration) (files : List (List (Text × Text))) :
    Configuration :=
  files.foldl (fun s file => (s.loadConfigurationFile u (some file)).2) s

theorem loadFiles_vte {u : Unicode} {files : List (List (Text × Text))}
    (h : ∀ file ∈ files, FileWellFormed u file) (s : Configuration) :
    (s.loadFiles u files).vte = files.foldl (TaskElements.addFile u) s.vte := by
  induction files generalizing s with
  | nil => rfl
  | cons file files ih =>
    have hhead := loadConfigurationFile_of_wellFormed (h file (by simp)) s
    have htail := ih (fun f hf => h f (by simp [hf])) (s.loadConfigurationFile u (some file)).2
    rw [hhead] at htail
    show ((s.loadConfigurationFile u (some file)).2.loadFiles u files).vte = _
    rw [hhead]
    exact htail

/-- A list that every load appends to holds what all files have given it. -/
theorem list_foldl_addFile {u : Unicode} {list : TaskElements → List Text}
    {added : List (Text × Text) → List Text}
    (h : ∀ vte file, list (vte.addFile u file) = list vte ++ added file)
    (files : List (List (Text × Text))) (vte : TaskElements) :
    list (files.foldl (TaskElements.addFile u) vte) = list vte ++ files.flatMap added := by
  induction files generalizing vte with
  | nil => simp
  | cons file files ih =>
    rw [List.foldl_cons, ih, h, List.flatMap_cons, List.append_assoc]

/-- **Reloading.** After well-formed files the tables are those of the last file
    alone exactly if no other file was loaded before it. -/
theorem loadFiles_eq_last_iff (u : Unicode) (files : List (List (Text × Text)))
    (file : List (Text × Text)) (hform : ∀ f ∈ files ++ [file], FileWellFormed u f) :
    (Configuration.initial.loadFiles u (files ++ [file])).vte =
      (Configuration.initial.loadFiles u [file]).vte ↔ files = [] := by
  have hlast : FileWellFormed u file := hform file (by simp)
  constructor
  · intro heq
    -- a configuration of BTT for every load
    have happends : ∀ vte f, (TaskElements.addFile u vte f).validBTTConfigurations =
        vte.validBTTConfigurations ++ " ".toList :: entriesIn f "btt.configurations" :=
      fun _ _ => rfl
    have hconfigurations := congrArg TaskElements.validBTTConfigurations heq
    rw [loadFiles_vte hform, loadFiles_vte (by simpa using hlast),
      list_foldl_addFile happends, list_foldl_addFile happends, List.flatMap_append,
      List.flatMap_singleton, List.append_cancel_left_eq, List.append_left_eq_self] at hconfigurations
    cases files with
    | nil => rfl
    | cons f files => simp at hconfigurations
  · intro hfiles
    rw [hfiles, List.nil_append]

/-- A small configuration file. -/
def smallFile : List (Text × Text) :=
  [("bnt.places", "S1(438/550)"), ("bnt.orientations", "N"), ("bnt.pauses", "3"),
    ("bmt.places", "S1(1/2)"), ("bmt.configurations", "line"), ("bmt.objects", "M20"),
    ("btt.places", "S1(1/2)"), ("btt.configurations", "line"), ("btt.objects", "M20"),
    ("btt.situations", "initial"), ("ctt.places", "S1(1/2)"), ("ctt.configurations", "line"),
    ("ctt.objects", "M20"), ("ctt.situations", "initial")].map fun p => (p.1.toList, p.2.toList)

theorem smallFile_wellFormed : FileWellFormed ascii smallFile where
  places := by
    intro key hkey
    have hsmall : PositionsWellFormed ascii "S1(1/2)".toList := by
      have hentries : entriesOf "S1(1/2)".toList = ["S1(1/2)".toList] := by decide
      intro e he
      rw [hentries] at he
      rw [List.mem_singleton.mp he]
      exact ⟨"S1".toList, ⟨1, 2⟩, by decide, "1".toList, "2".toList, [], [], [], [], [], [],
        by decide, by decide, by simp [Scanner.Blank], rfl⟩
    simp only [placesKeys, List.mem_cons, List.not_mem_nil, or_false] at hkey
    rcases hkey with rfl | rfl | rfl | rfl
    · exact ⟨_, by decide, positionsWellFormed_one⟩
    all_goals exact ⟨_, by decide, hsmall⟩
  orientations := ⟨"N".toList, by decide, by decide⟩
  pauses := ⟨"3".toList, by decide, by decide⟩
  lists := by
    have hdefined : ∀ key ∈ listKeys, (valueIn smallFile key).isSome = true := by decide
    intro key hkey
    exact Option.isSome_iff_exists.mp (hdefined key hkey)

theorem loadFiles_eq_last_small :
    (Configuration.initial.loadFiles ascii ([smallFile] ++ [smallFile])).vte =
      (Configuration.initial.loadFiles ascii [smallFile]).vte ↔ [smallFile] = [] :=
  loadFiles_eq_last_iff ascii [smallFile] smallFile (by simpa using smallFile_wellFormed)

/-- The same file twice: every object and every pause is there twice. -/
theorem loadFiles_twice :
    FileWellFormed ascii smallFile ∧
      (Configuration.initial.loadFiles ascii [smallFile, smallFile]).vte ≠
        (Configuration.initial.loadFiles ascii [smallFile]).vte ∧
      (Configuration.initial.loadFiles ascii [smallFile, smallFile]).vte.validBNTPauses =
        ["3".toList, "3".toList] :=
  ⟨smallFile_wellFormed, by decide, by decide⟩

end RefereeBox
