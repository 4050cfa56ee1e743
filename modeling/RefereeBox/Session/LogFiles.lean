import RefereeBox.Model.LogFiles
import RefereeBox.Session.Flags

/-! # The Logs of the Competitions

  Every competition has a file of its own, with all that was logged between the
  start of the timer and the end of the competition. The name of a file ends in the
  date of its start or of its end; a name of the first kind is never one of the
  second. So a file that is begun, written or renamed is none of those before.
-/

namespace RefereeBox

open Java Transition

/-! ### The names of the files -/

/-- The last name in a path ends as the path does. -/
theorem Java.FileSystem.getLast?_namesOf_append {fs : FileSystem} (s : Text) {t : Text}
    (ht : fs.IsName t) : ∃ z, (fs.namesOf (s ++ t)).getLast? = some (z ++ t) := by
  by_cases hsep : fs.separatorChar ∈ s
  · obtain ⟨x, y, rfl, hy⟩ := exists_append_of_mem hsep
    have hname : fs.IsName (y ++ t) := by
      refine ⟨by simp [ht.1], ?_⟩
      simp [hy, ht.2]
    refine ⟨y, ?_⟩
    rw [List.append_assoc, List.cons_append, FileSystem.namesOf_append,
      FileSystem.namesOf_name hname, List.getLast?_concat]
  · have hname : fs.IsName (s ++ t) := by
      refine ⟨by simp [ht.1], ?_⟩
      simp [hsep, ht.2]
    exact ⟨s, by rw [FileSystem.namesOf_name hname]; rfl⟩

/-- What is behind a folder, which may be the root. -/
theorem getLast?_names_child (folder : Text) {s : Text} (h : unix.namesOf s ≠ []) :
    (File.ofPath unix (folder ++ '/' :: s)).names.getLast? = (unix.namesOf s).getLast? := by
  cases folder with
  | nil => rfl
  | cons c folder =>
    have hnames : (File.ofPath unix (c :: folder ++ '/' :: s)).names =
        unix.namesOf folder ++ unix.namesOf s := unix.namesOf_append folder s
    rw [hnames, List.getLast?_append_of_ne_nil _ h]

namespace LogDate

/-- The end of the name of every log. -/
def suffix (date : LogDate) : Text := '_' :: (date.text ++ ".log".toList)

theorem isName_suffix (date : LogDate) : unix.IsName date.suffix := by
  refine ⟨List.cons_ne_nil _ _, ?_⟩
  have hdate := date.notMem_text
  show '/' ∉ '_' :: (date.text ++ ".log".toList)
  simp [hdate]

theorem length_suffix (date : LogDate) : date.suffix.length = 24 := by
  show (date.text ++ ".log".toList).length + 1 = 24
  rw [List.length_append, date.length_text]
  rfl

/-- A name that ends in a date ends in no other one. -/
theorem eq_of_suffix {d d' : LogDate} {x y : Text} (h : x ++ d.suffix = y ++ d'.suffix) :
    d = d' ∧ x = y := by
  obtain ⟨hxy, hsuffix⟩ := List.append_inj' h (d.length_suffix.trans d'.length_suffix.symm)
  have htext : d.text ++ ".log".toList = d'.text ++ ".log".toList := (List.cons.inj hsuffix).2
  exact ⟨LogDate.ext (List.append_cancel_right htext), hxy⟩

end LogDate

/-- A file as it is begun. -/
def StartedAt (date : LogDate) (f : File unix) : Prop := f.names.getLast? = some date.suffix

/-- A file as it is renamed. -/
def FinishedAt (date : LogDate) (f : File unix) : Prop :=
  ∃ z : Text, f.names.getLast? = some (z ++ "_Competition_0".toList ++ date.suffix)

theorem LogFiles.startedAt_newFile (s : LogFiles) (date : LogDate) :
    StartedAt date (File.ofPath unix (s.newFile date)) := by
  have hnames : unix.namesOf date.suffix = [date.suffix] :=
    FileSystem.namesOf_name date.isName_suffix
  have hlast := getLast?_names_child s.fileParent (s := date.suffix) (by simp [hnames])
  rw [hnames] at hlast
  exact hlast

theorem LogFiles.finishedAt_renamedFile (s : LogFiles) (date : LogDate) :
    FinishedAt date (File.ofPath unix (s.renamedFile date)) := by
  have hname : unix.IsName ("_Competition_0".toList ++ date.suffix) := by
    refine ⟨by simp, ?_⟩
    have hsuffix : '/' ∉ date.suffix := date.isName_suffix.2
    show '/' ∉ "_Competition_0".toList ++ date.suffix
    simp [hsuffix]
  obtain ⟨z, hz⟩ := FileSystem.getLast?_namesOf_append s.teamName hname
  have hlast := getLast?_names_child s.fileParent
    (s := s.teamName ++ ("_Competition_0".toList ++ date.suffix)) (by
      intro hnil
      rw [hnil] at hz
      cases hz)
  refine ⟨z, ?_⟩
  rw [List.append_assoc, ← hz, ← hlast]
  have hpath : s.renamedFile date =
      s.fileParent ++ '/' :: (s.teamName ++ ("_Competition_0".toList ++ date.suffix)) := by
    unfold renamedFile LogDate.suffix
    simp
  rw [hpath]

theorem StartedAt.date_eq {d d' : LogDate} {f : File unix} (h : StartedAt d f)
    (h' : StartedAt d' f) : d = d' := by
  have hsuffix : [] ++ d.suffix = [] ++ d'.suffix := Option.some.inj (h.symm.trans h')
  exact (LogDate.eq_of_suffix hsuffix).1

theorem FinishedAt.date_eq {d d' : LogDate} {f : File unix} (h : FinishedAt d f)
    (h' : FinishedAt d' f) : d = d' := by
  obtain ⟨z, hz⟩ := h
  obtain ⟨z', hz'⟩ := h'
  exact (LogDate.eq_of_suffix (Option.some.inj (hz.symm.trans hz'))).1

/-- A renamed file has a longer name. -/
theorem StartedAt.not_finishedAt {d d' : LogDate} {f : File unix} (h : StartedAt d f) :
    ¬ FinishedAt d' f := by
  intro ⟨z, hz⟩
  have hsuffix : [] ++ d.suffix = z ++ "_Competition_0".toList ++ d'.suffix :=
    Option.some.inj (h.symm.trans hz)
  have hnil := (LogDate.eq_of_suffix hsuffix).2
  have hlength := congrArg List.length hnil
  simp at hlength

/-! ### What should be in the files -/

/-- The lines of the competition that goes on, and those of the finished ones. -/
structure Journal where
  current : Option (List Text) := none
  finished : List (List Text) := []
deriving DecidableEq, Repr

def Journal.enter (j : Journal) : RecordingAction → Journal
  | .timerStart _ _ _ _ => { j with current := some (j.current.getD []) }
  | .competitionLogging logIdentifier args =>
    { j with current := j.current.map fun lines => lines ++ [LogFiles.line logIdentifier args] }
  | .competitionFinished _ => { current := none, finished := j.finished ++ j.current.toList }
  | .app _ | .setTeamName _ | .setFilePath _ => j

def journal (ls : List RecordingAction) : Journal := ls.foldl Journal.enter {}

def startDates : List RecordingAction → List LogDate
  | [] => []
  | .timerStart _ _ _ date :: ls => date :: startDates ls
  | .competitionLogging _ _ :: ls | .competitionFinished _ :: ls | .app _ :: ls
  | .setTeamName _ :: ls | .setFilePath _ :: ls => startDates ls

def finishDates : List RecordingAction → List LogDate
  | [] => []
  | .competitionFinished date :: ls => date :: finishDates ls
  | .competitionLogging _ _ :: ls | .timerStart _ _ _ _ :: ls | .app _ :: ls
  | .setTeamName _ :: ls | .setFilePath _ :: ls => finishDates ls

theorem startDates_append (ls ls' : List RecordingAction) :
    startDates (ls ++ ls') = startDates ls ++ startDates ls' := by
  induction ls with
  | nil => rfl
  | cons l ls ih => cases l <;> simp [startDates, ih]

theorem finishDates_append (ls ls' : List RecordingAction) :
    finishDates (ls ++ ls') = finishDates ls ++ finishDates ls' := by
  induction ls with
  | nil => rfl
  | cons l ls ih => cases l <;> simp [finishDates, ih]

/-! ### One step -/

/-- The file of the competition that goes on. -/
structure IsOpen (s : Recording) (starts : List LogDate)
    (kept : List (File unix × List Text)) (lines : List Text) : Prop where
  activated : s.app.logg.competitionLoggingIsActivated = true
  open_file : ∃ path date, s.app.logg.competitionLogFile = some path ∧ date ∈ starts ∧
    StartedAt date (File.ofPath unix path) ∧
    s.files.disk (File.ofPath unix path) = some lines ∧
    File.ofPath unix path ∉ kept.map Prod.fst

/-- The invariant: `kept` are the files of the finished competitions. -/
structure LogsKept (s : Recording) (starts finishes : List LogDate) (j : Journal)
    (kept : List (File unix × List Text)) : Prop where
  inStep : InStep s.app
  finished : kept.map Prod.snd = j.finished
  stored : Disk.Stored s.files.disk kept
  named : ∀ f ∈ kept.map Prod.fst,
    (∃ date ∈ starts, StartedAt date f) ∨ ∃ date ∈ finishes, FinishedAt date f
  current : match j.current with
    | none => s.app.logg.competitionLoggingIsActivated = false
    | some lines => IsOpen s starts kept lines

namespace LogsKept

variable {orders : TaskOrders} {usable : File unix → Bool} {s s' : Recording}
  {starts finishes : List LogDate} {j : Journal} {kept : List (File unix × List Text)}

theorem init (h : (recording orders usable).init s) : LogsKept s [] [] {} [] where
  inStep := .init h.1
  finished := rfl
  stored := .nil _
  named f hf := absurd hf List.not_mem_nil
  current := by
    obtain ⟨-, -, hlogg⟩ := h.1
    show s.app.logg.competitionLoggingIsActivated = false
    rw [hlogg]

/-- The log is off between two competitions. -/
theorem current_isSome (h : LogsKept s starts finishes j kept) :
    j.current.isSome = s.app.logg.competitionLoggingIsActivated := by
  have hcurrent := h.current
  cases hj : j.current with
  | none =>
    rw [hj] at hcurrent
    exact hcurrent.symm
  | some lines =>
    rw [hj] at hcurrent
    exact hcurrent.activated.symm

theorem isOpen (h : LogsKept s starts finishes j kept)
    (hactivated : s.app.logg.competitionLoggingIsActivated = true) :
    ∃ lines, j.current = some lines ∧ IsOpen s starts kept lines := by
  have hsome := h.current_isSome.trans hactivated
  obtain ⟨lines, hlines⟩ := Option.isSome_iff_exists.mp hsome
  have hcurrent := h.current
  rw [hlines] at hcurrent
  exact ⟨lines, hlines, hcurrent⟩

/-- A name with a new date of a start is free. -/
theorem startedAt_notMem (h : LogsKept s starts finishes j kept) {date : LogDate}
    (hdate : date ∉ starts) {f : File unix} (hf : StartedAt date f) : f ∉ kept.map Prod.fst := by
  intro hmem
  obtain ⟨date', hdate', hf'⟩ | ⟨date', -, hf'⟩ := h.named f hmem
  · exact hdate (hf.date_eq hf' ▸ hdate')
  · exact hf.not_finishedAt hf'

theorem finishedAt_notMem (h : LogsKept s starts finishes j kept) {date : LogDate}
    (hdate : date ∉ finishes) {f : File unix} (hf : FinishedAt date f) :
    f ∉ kept.map Prod.fst := by
  intro hmem
  obtain ⟨date', -, hf'⟩ | ⟨date', hdate', hf'⟩ := h.named f hmem
  · exact hf'.not_finishedAt hf
  · exact hdate (hf.date_eq hf' ▸ hdate')

/-- Neither the log nor the disk is touched. -/
theorem frame (h : LogsKept s starts finishes j kept) (hinStep : InStep s'.app)
    (hlogg : s'.app.logg = s.app.logg) (hdisk : s'.files.disk = s.files.disk) :
    LogsKept s' starts finishes j kept where
  inStep := hinStep
  finished := h.finished
  stored := by
    rw [hdisk]
    exact h.stored
  named := h.named
  current := by
    have hcurrent := h.current
    cases hj : j.current with
    | none =>
      rw [hj] at hcurrent
      show s'.app.logg.competitionLoggingIsActivated = false
      rw [hlogg]
      exact hcurrent
    | some lines =>
      rw [hj] at hcurrent
      obtain ⟨hactivated, path, date, hpath, hrest⟩ := hcurrent
      refine ⟨hlogg ▸ hactivated, path, date, hlogg ▸ hpath, ?_⟩
      rw [hdisk]
      exact hrest

theorem mono (h : LogsKept s starts finishes j kept) (dates : List LogDate) :
    LogsKept s (starts ++ dates) finishes j kept where
  inStep := h.inStep
  finished := h.finished
  stored := h.stored
  named f hf := by
    obtain ⟨date, hdate, hstarted⟩ | hfinished := h.named f hf
    · exact .inl ⟨date, List.mem_append_left _ hdate, hstarted⟩
    · exact .inr hfinished
  current := by
    have hcurrent := h.current
    cases hj : j.current with
    | none =>
      rw [hj] at hcurrent
      exact hcurrent
    | some lines =>
      rw [hj] at hcurrent
      obtain ⟨hactivated, path, date, hpath, hdate, hrest⟩ := hcurrent
      exact ⟨hactivated, path, date, hpath, List.mem_append_left _ hdate, hrest⟩

/-- A file is begun, unless the competition goes on. -/
theorem timerStart (h : LogsKept s starts finishes j kept) {configTime runTime now : Int64}
    {date : LogDate} (hdate : date ∉ starts)
    (husable : usable (File.ofPath unix (s.files.newFile date)) = true)
    (hstep : (recording orders usable).step s (.timerStart configTime runTime now date) s') :
    LogsKept s' (starts ++ [date]) finishes
      (j.enter (.timerStart configTime runTime now date)) kept := by
  obtain ⟨happ, hfiles⟩ := hstep
  have hinStep := h.inStep.step happ
  obtain ⟨session', logg', -, hlogg, happ'⟩ := happ
  have hlogg' : s'.app.logg = logg' := by rw [happ']
  unfold LogFiles.switchOn at hfiles
  unfold Logging.setCompetitionLogging at hlogg
  by_cases hactivated : s.app.logg.competitionLoggingIsActivated = true
  · -- the timer was stopped and goes on: the file stays the same
    rw [if_pos hactivated] at hfiles
    rw [if_neg (not_not.mpr hactivated)] at hlogg
    obtain rfl : s.app.logg = logg' := Except.ok.inj hlogg
    obtain ⟨lines, hlines, -⟩ := h.isOpen hactivated
    have hj : j.enter (.timerStart configTime runTime now date) = j := by
      unfold Journal.enter
      rw [hlines]
      show ({ current := some lines, finished := j.finished } : Journal) = j
      rw [← hlines]
    rw [hj]
    exact (h.frame hinStep hlogg' (congrArg LogFiles.disk hfiles)).mono _
  · rw [if_neg hactivated] at hfiles
    rw [if_pos hactivated, if_pos rfl] at hlogg
    obtain rfl := Except.ok.inj hlogg
    have hstarted := s.files.startedAt_newFile date
    have hfree := h.startedAt_notMem hdate hstarted
    have hdisk : s'.files.disk =
        s.files.disk.create usable (File.ofPath unix (s.files.newFile date)) :=
      congrArg LogFiles.disk hfiles
    have hnone : j.current = none := by
      have hsome := h.current_isSome
      rw [(Bool.not_eq_true _).mp hactivated] at hsome
      exact Option.not_isSome_iff_eq_none.mp (by simp [hsome])
    exact {
      inStep := hinStep
      finished := h.finished
      stored := by
        rw [hdisk]
        exact h.stored.create hfree
      named := (h.mono [date]).named
      current := by
        show match some (j.current.getD []) with
          | none => s'.app.logg.competitionLoggingIsActivated = false
          | some lines => IsOpen s' (starts ++ [date]) kept lines
        rw [hnone]
        refine ⟨?_, s.files.newFile date, date, ?_, ?_, hstarted, ?_, hfree⟩
        · rw [hlogg']
        · rw [hlogg']
        · simp
        · rw [hdisk]
          exact Disk.create_self husable }

theorem competitionLogging (h : LogsKept s starts finishes j kept) {logIdentifier args : Text}
    (hstep : (recording orders usable).step s (.competitionLogging logIdentifier args) s') :
    LogsKept s' starts finishes (j.enter (.competitionLogging logIdentifier args)) kept := by
  obtain rfl : s' = _ := hstep
  unfold LogFiles.competitionLogging
  by_cases hactivated : s.app.logg.competitionLoggingIsActivated = true
  · rw [if_pos hactivated]
    obtain ⟨lines, hlines, -, path, date, hpath, hdate, hstarted, hdisk, hfree⟩ :=
      h.isOpen hactivated
    simp only [hpath]
    exact {
      inStep := h.inStep
      finished := h.finished
      stored := h.stored.append hfree
      named := h.named
      current := by
        unfold Journal.enter
        simp only [hlines, Option.map_some]
        exact ⟨hactivated, path, date, hpath, hdate, hstarted, Disk.append_self hdisk, hfree⟩ }
  · rw [if_neg hactivated]
    have hj : j.enter (.competitionLogging logIdentifier args) = j := by
      have hsome := h.current_isSome
      rw [(Bool.not_eq_true _).mp hactivated] at hsome
      have hnone : j.current = none := Option.not_isSome_iff_eq_none.mp (by simp [hsome])
      unfold Journal.enter
      rw [hnone]
      show ({ current := none, finished := j.finished } : Journal) = j
      rw [← hnone]
    rw [hj]
    exact h

/-- The button for the end of a competition is enabled only while the log is on. -/
theorem activated_of_finished (h : LogsKept s starts finishes j kept)
    (hbutton : s.app.mC.mG.competitionFinishedButton = true) :
    s.app.logg.competitionLoggingIsActivated = true := by
  have hflags := h.inStep.flagsAgree
  exact hflags.logging.mpr (hflags.finished hbutton).1

/-- The file is renamed, or keeps its name. -/
theorem competitionFinished (h : LogsKept s starts finishes j kept) {date : LogDate}
    (hdate : date ∉ finishes)
    (hstep : (recording orders usable).step s (.competitionFinished date) s') :
    ∃ p, LogsKept s' starts (finishes ++ [date]) (j.enter (.competitionFinished date))
      (kept ++ [p]) := by
  obtain ⟨hchecked, happ, hfiles⟩ := hstep
  have hinStep := h.inStep.step happ
  obtain ⟨-, hbutton, happ'⟩ := happ
  have hactivated := h.activated_of_finished hbutton
  obtain ⟨lines, hlines, -, path, started, hpath, hstart, hstarted, hdisk, hfree⟩ :=
    h.isOpen hactivated
  have hrenamed := s.files.finishedAt_renamedFile date
  have hfree' := h.finishedAt_notMem hdate hrenamed
  have hlogg : s'.app.logg.competitionLoggingIsActivated = false := by
    rw [happ', Application.competitionFinished, if_neg (by simp [hchecked])]
    simp only [Logging.renameCompetitionFile, Logging.setCompetitionLogging, hpath, hactivated]
    rfl
  have hdisk' : s'.files.disk = s.files.disk.renameTo usable (File.ofPath unix path)
      (File.ofPath unix (s.files.renamedFile date)) := by
    rw [hfiles]
    unfold LogFiles.switchOff LogFiles.renameCompetitionFile
    rw [if_neg (by simp [hactivated])]
    simp only [hpath]
    split <;> rfl
  -- `renameTo` moves the lines or, where it fails, leaves them under the first name
  generalize File.ofPath unix path = f at hstarted hdisk hfree hdisk'
  generalize File.ofPath unix (s.files.renamedFile date) = g at hrenamed hfree' hdisk'
  have hnew : (if usable g then g else f) ∉ kept.map Prod.fst := by
    split
    · exact hfree'
    · exact hfree
  have hstored : Disk.Stored s'.files.disk kept := by
    rw [hdisk']
    exact h.stored.renameTo hfree hfree'
  refine ⟨(if usable g then g else f, lines), ?_⟩
  exact {
    inStep := hinStep
    finished := by
      unfold Journal.enter
      rw [List.map_append, h.finished, hlines]
      rfl
    stored := by
      apply hstored.snoc hnew
      rw [hdisk']
      exact Disk.renameTo_moves hdisk
    named := by
      intro f' hf'
      rw [List.map_append, List.mem_append] at hf'
      obtain hf' | hf' := hf'
      · obtain hstarted' | ⟨date', hdate', hfinished⟩ := h.named f' hf'
        · exact .inl hstarted'
        · exact .inr ⟨date', List.mem_append_left _ hdate', hfinished⟩
      · obtain rfl : f' = if usable g then g else f := List.mem_singleton.mp hf'
        split
        · exact .inr ⟨date, by simp, hrenamed⟩
        · exact .inl ⟨started, hstart, hstarted⟩
    current := hlogg }

/-- An action that leaves the log alone. -/
theorem app (h : LogsKept s starts finishes j kept) {l : ApplicationAction}
    (hstep : (recording orders usable).step s (.app l) s') :
    LogsKept s' starts finishes j kept := by
  obtain ⟨hleaves, happ, hfiles⟩ := hstep
  have hinStep := h.inStep.step happ
  have hlogg : s'.app.logg = s.app.logg := by
    cases l with
    | timerStart configTime runTime now file => exact hleaves.elim
    | timerStop =>
      obtain ⟨session', -, happ'⟩ := happ
      rw [happ']
    | tick task checked stopped ran =>
      obtain ⟨-, happ'⟩ := happ
      rw [happ']
      unfold Application.tick
      dsimp only
      split <;> rfl
    | acknowledge m now =>
      obtain ⟨session', -, happ'⟩ := happ
      rw [happ']
    | competitionFinished =>
      obtain ⟨-, -, happ'⟩ := happ
      have hunchecked : s.app.session.tS.checkAllSubgoals s.app.mC.compIdent = false := hleaves
      rw [happ', Application.competitionFinished, if_pos hunchecked]
    | session l =>
      obtain ⟨-, session', -, happ'⟩ := happ
      rw [happ']
  exact h.frame hinStep hlogg (congrArg LogFiles.disk hfiles)

end LogsKept

/-! ### Runs -/

/-- A new log can be made where it is to be. -/
def CanBegin (usable : File unix → Bool) (s : Recording) : RecordingAction → Prop
  | .timerStart _ _ _ date => usable (File.ofPath unix (s.files.newFile date)) = true
  | _ => True

/-- The files that are kept stay the first ones. -/
theorem LogsKept.run {orders : TaskOrders} {usable : File unix → Bool} {s s' : Recording}
    {ls : List RecordingAction}
    (hrun : Run ((recording orders usable).restrict (CanBegin usable)) s ls s')
    {starts finishes : List LogDate} {j : Journal} {kept : List (File unix × List Text)}
    (h : LogsKept s starts finishes j kept) (hstarts : (starts ++ startDates ls).Nodup)
    (hfinishes : (finishes ++ finishDates ls).Nodup) :
    ∃ more, LogsKept s' (starts ++ startDates ls) (finishes ++ finishDates ls)
      (ls.foldl Journal.enter j) (kept ++ more) := by
  induction hrun generalizing starts finishes j kept with
  | nil =>
    refine ⟨[], ?_⟩
    simpa only [startDates, finishDates, List.append_nil, List.foldl_nil] using h
  | @cons s s₁ s₂ l ls hstep _ ih =>
    obtain ⟨hcan, hstep⟩ := hstep
    cases l with
    | timerStart configTime runTime now date =>
      have hdate : date ∉ starts := by
        intro hmem
        exact (List.nodup_append.mp hstarts).2.2 date hmem date List.mem_cons_self rfl
      have hcons : starts ++ date :: startDates ls = starts ++ [date] ++ startDates ls := by simp
      unfold startDates at hstarts ⊢
      rw [hcons] at hstarts ⊢
      exact ih (h.timerStart hdate hcan hstep) hstarts hfinishes
    | competitionFinished date =>
      have hdate : date ∉ finishes := by
        intro hmem
        exact (List.nodup_append.mp hfinishes).2.2 date hmem date List.mem_cons_self rfl
      have hcons : finishes ++ date :: finishDates ls = finishes ++ [date] ++ finishDates ls := by
        simp
      unfold finishDates at hfinishes ⊢
      rw [hcons] at hfinishes ⊢
      obtain ⟨p, hp⟩ := h.competitionFinished hdate hstep
      obtain ⟨more, hmore⟩ := ih hp hstarts hfinishes
      refine ⟨p :: more, ?_⟩
      rw [List.append_cons kept p more]
      exact hmore
    | app l => exact ih (h.app hstep) hstarts hfinishes
    | competitionLogging logIdentifier args =>
      exact ih (h.competitionLogging hstep) hstarts hfinishes
    | setTeamName name =>
      obtain rfl : s₁ = _ := hstep
      exact ih (h.frame h.inStep rfl rfl) hstarts hfinishes
    | setFilePath file =>
      obtain ⟨-, rfl⟩ := hstep
      exact ih (h.frame h.inStep rfl rfl) hstarts hfinishes

/-- **Every competition has its log.** In every run in which no two starts of the timer and
    no two ends of competitions have the same date, and new logs can be made: the lines
    of every finished competition are in a file of its own, under whatever names the
    teams have and even if it could not be renamed; while a competition goes on, its
    lines so far are in the file of the log, which is none of them; and however the run
    goes on, the files of the finished competitions keep their names and lines. -/
theorem competition_logs_kept (orders : TaskOrders) (usable : File unix → Bool)
    (s s' : Recording) (ls : List RecordingAction) (hinit : (recording orders usable).init s)
    (hrun : Run ((recording orders usable).restrict (CanBegin usable)) s ls s')
    (hstarts : (startDates ls).Nodup) (hfinishes : (finishDates ls).Nodup) :
    ∃ kept : List (File unix × List Text), kept.map Prod.snd = (journal ls).finished ∧
      Disk.Stored s'.files.disk kept ∧
      (s'.app.logg.competitionLoggingIsActivated = (journal ls).current.isSome) ∧
      (∀ lines, (journal ls).current = some lines →
        ∃ path, s'.app.logg.competitionLogFile = some path ∧
          Disk.Stored s'.files.disk (kept ++ [(File.ofPath unix path, lines)])) ∧
      ∀ s'' ls', Run ((recording orders usable).restrict (CanBegin usable)) s' ls' s'' →
        (startDates (ls ++ ls')).Nodup → (finishDates (ls ++ ls')).Nodup →
        ∃ more, (kept ++ more).map Prod.snd = (journal (ls ++ ls')).finished ∧
          Disk.Stored s''.files.disk (kept ++ more) := by
  obtain ⟨kept, h⟩ := (LogsKept.init hinit).run hrun hstarts hfinishes
  rw [List.nil_append, List.nil_append, List.nil_append] at h
  refine ⟨kept, h.finished, h.stored, h.current_isSome.symm, ?_, ?_⟩
  · intro lines hlines
    have hcurrent := h.current
    rw [show (ls.foldl Journal.enter {}).current = some lines from hlines] at hcurrent
    obtain ⟨-, path, date, hpath, -, -, hdisk, hfree⟩ := hcurrent
    exact ⟨path, hpath, h.stored.snoc hfree hdisk⟩
  · intro s'' ls' hlater hstarts' hfinishes'
    rw [startDates_append] at hstarts'
    rw [finishDates_append] at hfinishes'
    obtain ⟨more, hmore⟩ := h.run hlater hstarts' hfinishes'
    refine ⟨more, ?_, hmore.stored⟩
    unfold journal
    rw [List.foldl_append]
    exact hmore.finished

def newYear : LogDate := ⟨"2014-01-01_00-00-00".toList, by decide, by decide⟩

/-- A configuration is loaded, and the empty specification is saved. -/
def Application.loaded : Application where
  session := { mC := ({} : MainController).loadConfig true, vte := smallTables }

def Application.saved : Application where
  session := Application.loaded.session.setSavedChanges

/-- A competition that is over as soon as it has begun. -/
theorem competition_logs_kept_one : ∃ (s : Recording) (kept : List (File unix × List Text)),
    kept.map Prod.snd = [[LogFiles.line "Timer".toList "stopped at 00:00".toList]] ∧
      Disk.Stored s.files.disk kept := by
  let usable : File unix → Bool := fun _ => true
  let line := RecordingAction.competitionLogging "Timer".toList "stopped at 00:00".toList
  have happ : ∀ {app app' : Application} {files : LogFiles} {l : ApplicationAction},
      app.LeavesLog l → (application someOrders).step app l app' →
        (recording someOrders usable).step ⟨app, files⟩ (.app l) ⟨app', files⟩ :=
    fun hleaves hstep => ⟨hleaves, hstep, rfl⟩
  have hload : (application someOrders).step {} (.session (.loadConfig true true smallTables))
      .loaded := ⟨trivial, _, ⟨rfl, rfl, rfl⟩, rfl⟩
  have hsave : (application someOrders).step .loaded (.session (.save true)) .saved :=
    ⟨trivial, _, ⟨rfl, rfl, prints_bnt [], rfl⟩, rfl⟩
  have hstart : (recording someOrders usable).step ⟨.saved, {}⟩ (.timerStart 0 0 5 newYear)
      ⟨{ session := { Application.saved.session with mC := Application.saved.mC.timerStarted }
         taskTimer := (Application.saved.taskTimer.startNewTimer 0 0 5).1
         logg := ⟨true, some (({} : LogFiles).newFile newYear)⟩ }, _⟩ :=
    ⟨⟨_, _, ⟨trivial, _, ⟨rfl, rfl, rfl, rfl⟩, rfl⟩, rfl, rfl⟩, rfl⟩
  have hfinish : ∀ {app : Application} {files : LogFiles},
      app.session.tS.checkAllSubgoals app.mC.compIdent = true → app.mC.call = .idle →
        app.mC.mG.competitionFinishedButton = true →
          (recording someOrders usable).step ⟨app, files⟩ (.competitionFinished newYear)
            ⟨app.competitionFinished someOrders, _⟩ :=
    fun hchecked hidle hbutton => ⟨hchecked, ⟨hidle, hbutton, rfl⟩, rfl⟩
  have hrun : Run ((recording someOrders usable).restrict (CanBegin usable)) {}
      [.app (.session (.loadConfig true true smallTables)), .app (.session (.save true)),
        .timerStart 0 0 5 newYear, line, .app .timerStop, .competitionFinished newYear] _ :=
    .cons _ ⟨trivial, happ trivial hload⟩ <| .cons _ ⟨trivial, happ trivial hsave⟩ <|
    .cons _ ⟨rfl, hstart⟩ <| .cons line ⟨trivial, rfl⟩ <|
    .cons _ ⟨trivial, happ trivial ⟨_, ⟨trivial, _, ⟨rfl, rfl, rfl, rfl⟩, rfl⟩, rfl⟩⟩ <|
    .cons _ ⟨trivial, hfinish (by decide) rfl rfl⟩ <| .nil _
  have hinit : (recording someOrders usable).init {} := ⟨⟨rfl, rfl, rfl⟩, rfl⟩
  obtain ⟨kept, hkept, hstored, -⟩ := competition_logs_kept someOrders usable {} _ _ hinit hrun
    (by decide) (by decide)
  exact ⟨_, kept, hkept, hstored⟩

end RefereeBox
