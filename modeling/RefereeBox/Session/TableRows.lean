import RefereeBox.Model.Tables
import RefereeBox.Server.Connections
import RefereeBox.Session.Marks
import RefereeBox.Text.Yields

/-! # What the Tables Show

  The table of the actual competition shows its list as long as every change of the
  list ends with a notification. Two do not. Down loses the last CTT task, and an
  open that fails may have emptied the list with a line that holds no task
  (`tables_show_lists`).
-/

namespace RefereeBox

open Loop Transition

/-! ### Drawing a table -/

theorem setRowCount_length (n : Nat) (rows : Rows) : (setRowCount n rows).length = n := by
  unfold setRowCount
  rw [List.length_append, List.length_take, List.length_replicate]
  omega

/-- The loop sets the rows behind the first ones, in order. The induction is on the
    tasks that are left. -/
theorem foldl_set_eq {τ : Type} (getString : τ → Text) (taskList : List τ) (shown rows : Rows)
    (hlen : rows.length = taskList.length) :
    (taskList.zipIdx shown.length).foldl (fun rows t => rows.set t.2 (some (getString t.1)))
        (shown ++ rows) =
      shown ++ taskList.map fun t => some (getString t) := by
  induction taskList generalizing shown rows with
  | nil => rw [List.eq_nil_of_length_eq_zero hlen]; rfl
  | cons t taskList ih =>
    obtain ⟨row, rows, rfl⟩ := List.exists_cons_of_length_eq_add_one hlen
    have hset : (shown ++ row :: rows).set shown.length (some (getString t)) =
        (shown ++ [some (getString t)]) ++ rows := by simp
    have hrest := ih (shown ++ [some (getString t)]) rows (by simpa using hlen)
    rw [List.length_append, List.length_singleton] at hrest
    rw [List.zipIdx_cons, List.foldl_cons]
    dsimp only
    rw [hset, hrest]
    simp

/-- Whatever the rows were, they show the list. -/
theorem taskSpecChanged_eq {τ : Type} (getString : τ → Text) (taskList : List τ) (rows : Rows) :
    taskSpecChanged getString taskList rows = taskList.map fun t => some (getString t) :=
  foldl_set_eq getString taskList [] _ (setRowCount_length _ _)

/-- Only the last notification counts, if there is one. -/
theorem drawEach_eq {τ : Type} {draw : List τ → Rows → Rows} {row : τ → Option Text}
    (hdraw : ∀ l rows, draw l rows = l.map row) (taskList tasks : List τ) (rows : Rows) :
    drawEach draw taskList tasks rows = if tasks = [] then rows else (taskList ++ tasks).map row := by
  induction tasks generalizing taskList rows with
  | nil => rfl
  | cons t tasks ih =>
    unfold drawEach
    rw [ih, hdraw, if_neg (List.cons_ne_nil t tasks)]
    split
    · next hnil => rw [hnil]
    · simp

namespace MissingPanels

/-- The missing panels draw like the ones in the repository, and the missing classes
    do not print the mark of a task. -/
structure Draw (panels : MissingPanels) : Prop where
  cbt : ∀ l rows, panels.cbtTaskSpecChanged l rows = l.map fun t => some (panels.cbtString t)
  ppt : ∀ l rows, panels.pptTaskSpecChanged l rows = l.map fun t => some (panels.pptString t)
  cbtState : ∀ f t, panels.cbtString (t.changeState f) = panels.cbtString t
  pptState : ∀ f t, panels.pptString (t.changeState f) = panels.pptString t

/-- The panel of a competition is in the repository, or draws like the ones there. -/
def Draws (panels : MissingPanels) (c : CompetitionIdentifier) : Prop :=
  c.InRepository ∨ panels.Draw

variable {panels : MissingPanels} {c : CompetitionIdentifier}

/-- The strings of the tasks, in order. -/
def strings (panels : MissingPanels) (l : List Task) : Rows :=
  l.map fun t => some (panels.getString t)

theorem strings_eq_nil_iff (l : List Task) : panels.strings l = [] ↔ l = [] := List.map_eq_nil_iff

theorem Draws.draw_cbt (h : panels.Draws .cbt) : panels.Draw :=
  h.resolve_left fun hrepository => hrepository.1 rfl

theorem Draws.draw_ppt (h : panels.Draws .ppt) : panels.Draw :=
  h.resolve_left fun hrepository => hrepository.2 rfl

theorem strings_map {τ : Type} (task : τ → Task) {row : τ → Option Text}
    (hrow : ∀ t, row t = some (panels.getString (task t))) (l : List τ) :
    panels.strings (l.map task) = l.map row := by
  unfold strings
  rw [List.map_map]
  exact List.map_congr_left fun t _ => (hrow t).symm

/-- A notification shows the list. -/
theorem Draws.drawn_eq (h : panels.Draws c) (tS : TaskSpec) (rows : Rows) :
    panels.drawn tS c rows = panels.strings (tS.tasks c) := by
  cases c with
  | bnt => exact (taskSpecChanged_eq _ _ _).trans (strings_map .bnt (fun _ => rfl) _).symm
  | bmt => exact (taskSpecChanged_eq _ _ _).trans (strings_map .bmt (fun _ => rfl) _).symm
  | btt => exact (taskSpecChanged_eq _ _ _).trans (strings_map .btt (fun _ => rfl) _).symm
  | ctt => exact (taskSpecChanged_eq _ _ _).trans (strings_map .ctt (fun _ => rfl) _).symm
  | cbt => exact (h.draw_cbt.cbt _ _).trans (strings_map .cbt (fun _ => rfl) _).symm
  | ppt => exact (h.draw_ppt.ppt _ _).trans (strings_map .ppt (fun _ => rfl) _).symm

theorem drawEach_strings {τ : Type} {draw : List τ → Rows → Rows} {row : τ → Option Text}
    (hdraw : ∀ l rows, draw l rows = l.map row) (task : τ → Task)
    (hrow : ∀ t, row t = some (panels.getString (task t))) (l : List τ) (rows : Rows) :
    drawEach draw [] l rows = if l.map task = [] then rows else panels.strings (l.map task) := by
  rw [drawEach_eq hdraw, List.nil_append, strings_map task hrow]
  simp only [List.map_eq_nil_iff]

/-- A branch shows the list that it leaves, unless that is empty. -/
theorem Draws.drawnByTask_eq (h : panels.Draws c) (tS : TaskSpec) (rows : Rows) :
    panels.drawnByTask tS c rows =
      if tS.tasks c = [] then rows else panels.strings (tS.tasks c) := by
  cases c with
  | bnt => exact drawEach_strings (taskSpecChanged_eq _) .bnt (fun _ => rfl) _ rows
  | bmt => exact drawEach_strings (taskSpecChanged_eq _) .bmt (fun _ => rfl) _ rows
  | btt => exact drawEach_strings (taskSpecChanged_eq _) .btt (fun _ => rfl) _ rows
  | ctt => exact drawEach_strings (taskSpecChanged_eq _) .ctt (fun _ => rfl) _ rows
  | cbt => exact drawEach_strings h.draw_cbt.cbt .cbt (fun _ => rfl) _ rows
  | ppt => exact drawEach_strings h.draw_ppt.ppt .ppt (fun _ => rfl) _ rows

end MissingPanels

/-! ### Reading a file -/

variable {panels : MissingPanels} {vte : ValidTaskElements} {c : CompetitionIdentifier}

/-- The lines that name the competition. -/
def linesOf (c : CompetitionIdentifier) (lines : List Text) : List Text :=
  lines.filter fun line => competitionIn line = some c

/-- The last of the lines of a competition leaves its list empty, while its table shows
    the tasks of a line before, or those from before the open. -/
def Outdates (vte : ValidTaskElements) (tS : TaskSpec) (c : CompetitionIdentifier)
    (lines : List Text) : Prop :=
  (∃ line ∈ (linesOf c lines).getLast?, ¬ Yields vte c line) ∧
    (tS.tasks c ≠ [] ∨ ∃ line ∈ linesOf c lines, Yields vte c line)

/-- The open fails at a line and outdates the table up to there. -/
def FailsOutdated (vte : ValidTaskElements) (tS : TaskSpec) (c : CompetitionIdentifier)
    (lines : List Text) : Prop :=
  ∃ accepted line rest, lines = accepted ++ line :: rest ∧ (∀ l ∈ accepted, Accepted vte l) ∧
    ¬ Accepted vte line ∧ Outdates vte tS c (accepted ++ [line])

theorem linesOf_append_of_ne {lines : List Text} {line : Text} (h : competitionIn line ≠ some c) :
    linesOf c (lines ++ [line]) = linesOf c lines := by
  simp [linesOf, h]

theorem linesOf_append_of_eq {lines : List Text} {line : Text} (h : competitionIn line = some c) :
    linesOf c (lines ++ [line]) = linesOf c lines ++ [line] := by
  simp [linesOf, h]

/-- The first line that is not accepted. -/
theorem first_rejected_unique {accepted accepted' rest rest' : List Text} {line line' : Text}
    (h : accepted ++ line :: rest = accepted' ++ line' :: rest')
    (haccepted : ∀ l ∈ accepted, Accepted vte l) (haccepted' : ∀ l ∈ accepted', Accepted vte l)
    (hline : ¬ Accepted vte line) (hline' : ¬ Accepted vte line') :
    accepted = accepted' ∧ line = line' := by
  induction accepted generalizing accepted' with
  | nil =>
    cases accepted' with
    | nil => exact ⟨rfl, (List.cons.inj h).1⟩
    | cons l accepted' =>
      obtain ⟨rfl, -⟩ := List.cons.inj h
      exact absurd (haccepted' line List.mem_cons_self) hline
  | cons l accepted ih =>
    cases accepted' with
    | nil =>
      obtain ⟨rfl, -⟩ := List.cons.inj h
      exact absurd (haccepted l List.mem_cons_self) hline'
    | cons l' accepted' =>
      obtain ⟨rfl, htail⟩ := List.cons.inj h
      have hrest := ih htail (fun x hx => haccepted x (List.mem_cons_of_mem l hx))
        fun x hx => haccepted' x (List.mem_cons_of_mem l hx)
      exact ⟨by rw [hrest.1], hrest.2⟩

theorem FailsOutdated.iff_outdates {tS : TaskSpec} {accepted rest : List Text} {line : Text}
    (haccepted : ∀ l ∈ accepted, Accepted vte l) (hline : ¬ Accepted vte line) :
    FailsOutdated vte tS c (accepted ++ line :: rest) ↔
      Outdates vte tS c (accepted ++ [line]) := by
  constructor
  · rintro ⟨accepted', line', rest', hlines, haccepted', hline', houtdates⟩
    obtain ⟨rfl, rfl⟩ := first_rejected_unique hlines haccepted haccepted' hline hline'
    exact houtdates
  · intro houtdates
    exact ⟨accepted, line, rest, rfl, haccepted, hline, houtdates⟩

/-- What a list and its table have come to, behind some lines of a file. -/
structure ReadSoFar (panels : MissingPanels) (vte : ValidTaskElements) (before : TaskSpec)
    (c : CompetitionIdentifier) (lines : List Text) (tS : TaskSpec) (rows : Rows) : Prop where
  outdated : rows = panels.strings (tS.tasks c) ↔ ¬ Outdates vte before c lines
  shown : rows ≠ [] ↔ before.tasks c ≠ [] ∨ ∃ line ∈ linesOf c lines, Yields vte c line

/-- In front of the first line. -/
theorem ReadSoFar.init (tS : TaskSpec) :
    ReadSoFar panels vte tS c [] tS (panels.strings (tS.tasks c)) where
  outdated := iff_of_true rfl fun ⟨⟨line, hline, _⟩, _⟩ => by simp [linesOf] at hline
  shown := by simp [linesOf, MissingPanels.strings_eq_nil_iff]

/-- A line of another competition. -/
theorem ReadSoFar.other {before tS tS' : TaskSpec} {lines : List Text} {rows : Rows} {line : Text}
    (h : ReadSoFar panels vte before c lines tS rows) (hne : competitionIn line ≠ some c)
    (htasks : tS'.tasks c = tS.tasks c) :
    ReadSoFar panels vte before c (lines ++ [line]) tS' rows := by
  have houtdates : Outdates vte before c (lines ++ [line]) ↔ Outdates vte before c lines := by
    unfold Outdates
    rw [linesOf_append_of_ne hne]
  refine ⟨?_, ?_⟩
  · rw [htasks, houtdates]
    exact h.outdated
  · rw [linesOf_append_of_ne hne]
    exact h.shown

/-- A line of the competition: with a task in it the table is drawn anew, and else it
    stays while the list is emptied. -/
theorem ReadSoFar.own {before tS tS' : TaskSpec} {lines : List Text} {rows : Rows} {line : Text}
    (h : ReadSoFar panels vte before c lines tS rows) (heq : competitionIn line = some c)
    (hyields : Yields vte c line ↔ tS'.tasks c ≠ []) :
    ReadSoFar panels vte before c (lines ++ [line]) tS'
      (if tS'.tasks c = [] then rows else panels.strings (tS'.tasks c)) := by
  have hlast : (∃ l ∈ (linesOf c (lines ++ [line])).getLast?, ¬ Yields vte c l) ↔
      ¬ Yields vte c line := by
    rw [linesOf_append_of_eq heq, List.getLast?_concat]
    simp
  by_cases htasks : tS'.tasks c = []
  · rw [if_pos htasks]
    have hnot : ¬ Yields vte c line := fun hy => hyields.mp hy htasks
    -- what the table shows is from a line before, or from before the open
    have hshown : rows ≠ [] ↔
        before.tasks c ≠ [] ∨ ∃ l ∈ linesOf c (lines ++ [line]), Yields vte c l := by
      rw [h.shown, linesOf_append_of_eq heq]
      simp [or_and_right, exists_or, hnot]
    refine ⟨?_, hshown⟩
    have houtdates : Outdates vte before c (lines ++ [line]) ↔ rows ≠ [] := by
      unfold Outdates
      rw [hlast, ← hshown, and_iff_right hnot]
    rw [houtdates, htasks, not_not]
    exact Iff.rfl
  · rw [if_neg htasks]
    have hy : Yields vte c line := hyields.mpr htasks
    refine ⟨iff_of_true rfl fun houtdates => hlast.mp houtdates.1 hy, ?_⟩
    refine iff_of_true (fun hnil => htasks ((MissingPanels.strings_eq_nil_iff _).mp hnil)) ?_
    exact Or.inr ⟨line, by rw [linesOf_append_of_eq heq]; simp, hy⟩

theorem competitionIn_eq (line : Text) :
    (Java.substring (removeSpaces line) 0 3).bind competitionOf = competitionIn line := by
  by_cases hshort : Short line
  · have hlen : (removeSpaces line).length < 3 := hshort
    rw [hshort.competitionIn, Java.substring, if_neg (by omega)]
    rfl
  · have hlen : 3 ≤ (removeSpaces line).length := Nat.not_lt.mp hshort
    rw [Java.substring, if_pos (by omega)]
    rfl

theorem Tables.lineRead_other (tables : Tables) {line : Text} (tS : TaskSpec)
    (hne : competitionIn line ≠ some c) : tables.lineRead panels line tS c = tables c := by
  unfold Tables.lineRead
  rw [competitionIn_eq]
  cases hcomp : competitionIn line with
  | none => rfl
  | some c' => exact Function.update_of_ne (fun h => hne (by rw [hcomp, h])) _ _

theorem Tables.lineRead_own (tables : Tables) {line : Text} (tS : TaskSpec)
    (heq : competitionIn line = some c) :
    tables.lineRead panels line tS c = panels.drawnByTask tS c (tables c) := by
  unfold Tables.lineRead
  rw [competitionIn_eq, heq]
  exact Function.update_self _ _ _

variable (vte) in
/-- A line and what it does to a list and its table. -/
theorem ReadSoFar.line (hdraws : panels.Draws c) (line : Text) :
    ∃ (outcome : Except Exn Bool) (f : TaskSpec → TaskSpec),
      (∀ tS : TaskSpec, Converges (tS.parseTaskSpecString vte line) (outcome, f tS)) ∧
      (outcome = .ok true ↔ Accepted vte line) ∧
      ∀ (before tS : TaskSpec) (lines : List Text) (tables : Tables),
        ReadSoFar panels vte before c lines tS (tables c) →
        ReadSoFar panels vte before c (lines ++ [line]) (f tS)
          (tables.lineRead panels line (f tS) c) := by
  obtain ⟨outcome, f, hconv, hok, hnone, hsome⟩ := exists_parse vte line
  refine ⟨outcome, f, hconv, hok, fun before tS lines tables h => ?_⟩
  by_cases heq : competitionIn line = some c
  · rw [tables.lineRead_own _ heq, hdraws.drawnByTask_eq]
    exact h.own heq (parse_tasks_ne_nil_iff heq (hconv tS)).symm
  · rw [tables.lineRead_other _ heq]
    refine h.other heq ?_
    cases hcomp : competitionIn line with
    | none => rw [hnone hcomp]
    | some c' => exact (hsome c' hcomp).2.1 c (fun hc => heq (by rw [hcomp, hc])) tS

theorem openTables_next {tS tS' : TaskSpec} {tables : Tables} {line : Text} {lines : List Text}
    {r : Bool × TaskSpec × Tables}
    (hline : Converges (tS.parseTaskSpecString vte line) (.ok true, tS'))
    (hrest : Converges (tS'.openTables panels vte (tables.lineRead panels line tS') lines) r) :
    Converges (tS.openTables panels vte tables (line :: lines)) r := by
  unfold TaskSpec.openTables
  exact converges_bind hline hrest

theorem openTables_stop {tS tS' : TaskSpec} {line : Text} {outcome : Except Exn Bool}
    (tables : Tables) (lines : List Text)
    (hline : Converges (tS.parseTaskSpecString vte line) (outcome, tS')) (hne : outcome ≠ .ok true) :
    Converges (tS.openTables panels vte tables (line :: lines))
      (false, tS', tables.lineRead panels line tS') := by
  unfold TaskSpec.openTables
  refine converges_bind hline ?_
  rcases outcome with e | ok
  · exact converges_pure _
  · cases ok with
    | false => exact converges_pure _
    | true => exact absurd rfl hne

/-- How an open ends: with all lines read, or at the first one that is not accepted. -/
structure OpenEnds (panels : MissingPanels) (vte : ValidTaskElements) (before : TaskSpec)
    (c : CompetitionIdentifier) (read lines : List Text) (result : Bool) (tS' : TaskSpec)
    (tables' : Tables) : Prop where
  succeeds : result = true → ∀ line ∈ lines, Accepted vte line
  fails : result = false → ∃ accepted line rest, lines = accepted ++ line :: rest ∧
    (∀ l ∈ accepted, Accepted vte l) ∧ ¬ Accepted vte line ∧
    ReadSoFar panels vte before c (read ++ accepted ++ [line]) tS' (tables' c)

/-- An open ends, with the state that `openTaskSpec` leaves. The induction is on the
    lines that are left. -/
theorem exists_openTables (hdraws : panels.Draws c) (before : TaskSpec) (lines : List Text)
    {read : List Text} {tS : TaskSpec} {tables : Tables}
    (h : ReadSoFar panels vte before c read tS (tables c)) :
    ∃ result tS' tables', Converges (tS.openTaskSpec vte lines) (result, tS') ∧
      Converges (tS.openTables panels vte tables lines) (result, tS', tables') ∧
      OpenEnds panels vte before c read lines result tS' tables' := by
  induction lines generalizing read tS tables with
  | nil =>
    exact ⟨true, tS, tables, converges_pure _, converges_pure _,
      fun _ line hline => absurd hline List.not_mem_nil, fun hfalse => absurd hfalse (by decide)⟩
  | cons line lines ih =>
    obtain ⟨outcome, f, hconv, hok, hread⟩ := ReadSoFar.line vte hdraws line
    have hline := hread before tS read tables h
    by_cases haccepted : Accepted vte line
    · obtain rfl := hok.mpr haccepted
      obtain ⟨result, tS', tables', hspec, htables, hends⟩ := ih hline
      refine ⟨result, tS', tables', openTaskSpec_next (hconv tS) hspec,
        openTables_next (hconv tS) htables, fun hsucceeds => ?_, fun hfails => ?_⟩
      · exact List.forall_mem_cons.mpr ⟨haccepted, hends.succeeds hsucceeds⟩
      · obtain ⟨accepted, bad, rest, rfl, hall, hbad, hreads⟩ := hends.fails hfails
        refine ⟨line :: accepted, bad, rest, rfl, List.forall_mem_cons.mpr ⟨haccepted, hall⟩, hbad,
          ?_⟩
        rwa [List.append_assoc read [line]] at hreads
    · -- the open ends here
      have hne : outcome ≠ .ok true := fun heq => haccepted (hok.mp heq)
      refine ⟨false, f tS, _, openTaskSpec_stop lines (hconv tS) hne,
        openTables_stop tables lines (hconv tS) hne, fun htrue => absurd htrue (by decide),
        fun _ => ?_⟩
      refine ⟨[], line, lines, rfl, fun l hl => absurd hl List.not_mem_nil, haccepted, ?_⟩
      rw [List.append_nil]
      exact hline

/-! ### Marks -/

namespace Session

variable {orders : TaskOrders} {s s' : Session} {l : SessionAction}

/-- A join lasts until it returns. -/
theorem joining_kept (hstep : (session orders).step s l s') (hne : l ≠ .controller .joined)
    (hjoining : s.mC.call = .joining) : s'.mC.call = .joining := by
  rcases controller_step hstep with heq | ⟨a, haction, ha⟩
  · rw [heq]
    exact hjoining
  · have hjoined : a ≠ .joined := by
      rintro rfl
      cases l with
      | controller a => exact hne (congrArg _ (Option.some.inj haction))
      | loadConfig _ _ _ | save _ | openFile _ _ | add _ | update _ _ | delete _ _ _ | up _
      | down _ | mark _ _ | competitionFinished => cases haction
    have hlink := Connections.joining_kept (MainController.link_step ha) hjoined
      (by simpa [MainController.connections] using hjoining)
    simpa [MainController.connections] using hlink

end Session

namespace TableSession

variable {orders : TaskOrders} {s s' : TableSession} {l : SessionAction}

/-- The table of the actual competition shows its list, once a change of the tab is
    complete. -/
def Shown (panels : MissingPanels) (s : TableSession) : Prop :=
  s.tables s.mC.compIdent = panels.strings (s.tS.tasks s.mC.compIdent)

/-- When an action keeps the table up to date: Down does not lose a task, and an open
    does not fail with a table that is out of date. -/
def KeepsTable (s : TableSession) : SessionAction → Prop
  | .down pos => ¬ LosesLast s.tS s.mC.compIdent (.moveDown pos)
  | .openFile proceed lines =>
    s.Declines proceed ∨ ¬ FailsOutdated s.vte s.tS s.mC.compIdent lines
  | _ => True

theorem notified (hdraws : panels.Draws c) (tables : Tables) (tS : TaskSpec) :
    tables.notifyTaskSpecChanged panels tS c c = panels.strings (tS.tasks c) := by
  unfold Tables.notifyTaskSpecChanged
  rw [Function.update_self]
  exact hdraws.drawn_eq tS _

theorem tabChanged_eq {mC : MainController} (hdraws : panels.Draws mC.compIdent) (tables : Tables)
    {tS : TaskSpec} (hcall : mC.call ≠ .joining) :
    tables.tabChanged panels mC tS mC.compIdent = panels.strings (tS.tasks mC.compIdent) := by
  unfold Tables.tabChanged
  rw [if_neg hcall]
  exact notified hdraws _ _

/-- Behind an operation that succeeds the list is shown, and one that fails leaves the
    tables. -/
theorem operated_eq (hdraws : panels.Draws s.mC.compIdent) (r : Outcome × TaskSpec) :
    s.operated panels r s.mC.compIdent =
      if r.1.succeeds = true then panels.strings (r.2.tasks s.mC.compIdent)
      else s.tables s.mC.compIdent := by
  obtain ⟨outcome, tS'⟩ := r
  unfold operated
  cases outcome with
  | done => exact notified hdraws _ _
  | threw e => rfl
  | returned t =>
    cases t with
    | none => rfl
    | some t => exact notified hdraws _ _

/-- An operation that leaves the list alone where it fails. -/
theorem Shown.operated (h : s.Shown panels) (hdraws : panels.Draws s.mC.compIdent)
    {r : Outcome × TaskSpec}
    (hfails : r.1.succeeds = false → r.2.tasks s.mC.compIdent = s.tS.tasks s.mC.compIdent) :
    s.operated panels r s.mC.compIdent = panels.strings (r.2.tasks s.mC.compIdent) := by
  rw [operated_eq hdraws]
  split
  · rfl
  · next hnot =>
    rw [hfails (by simpa using hnot)]
    exact h

/-- An edit does so, unless it loses the last task. -/
theorem Shown.edit (h : s.Shown panels) (hdraws : panels.Draws s.mC.compIdent) {tS : TaskSpec}
    (htasks : tS.tasks s.mC.compIdent = s.tS.tasks s.mC.compIdent) {op : EditOp}
    (hlast : ¬ LosesLast tS s.mC.compIdent op) :
    s.operated panels (tS.edit orders s.mC.compIdent op) s.mC.compIdent =
      panels.strings ((tS.edit orders s.mC.compIdent op).2.tasks s.mC.compIdent) := by
  refine h.operated hdraws fun hfails => ?_
  rcases edit_cases orders tS s.mC.compIdent op with ⟨-, hsucceeds⟩ | ⟨-, -, hsame⟩
  · exact absurd (hfails.symm.trans hsucceeds) Bool.false_ne_true
  · rw [hsame hlast]
    exact htasks

/-- Without a failure that outdates it the table is up to date behind an open, and with
    one it is not. -/
theorem Shown.openFile (h : s.Shown panels) (hdraws : panels.Draws s.mC.compIdent) {proceed : Bool}
    {lines : List Text} (hstep : (tableSession orders panels).step s (.openFile proceed lines) s')
    (hcall : s'.mC.call ≠ .joining) :
    s'.Shown panels ↔ s.KeepsTable (.openFile proceed lines) := by
  have hkept : s'.mC.compIdent = s.mC.compIdent :=
    Session.compIdent_of_ne_tab hstep.1 fun tab heq => by cases heq
  obtain ⟨⟨-, -, hopened⟩, htables⟩ := hstep
  have hkeeps : s.KeepsTable (.openFile proceed lines) ↔
      s.Declines proceed ∨ ¬ FailsOutdated s.vte s.tS s.mC.compIdent lines := Iff.rfl
  unfold Shown
  rw [hkeeps, hkept]
  by_cases hdeclines : s.Declines proceed
  · rw [if_pos hdeclines] at hopened
    simp only [if_pos hdeclines] at htables
    rw [htables, hopened]
    exact iff_of_true h (Or.inl hdeclines)
  · rw [if_neg hdeclines] at hopened
    simp only [if_neg hdeclines] at htables
    rw [or_iff_right hdeclines]
    obtain ⟨result₁, tS₁, hspec₁, hsession⟩ := hopened
    obtain ⟨result₂, tS₂, tables₂, hread₂, htables⟩ := htables
    -- the two reads are one and the same
    have hread : ReadSoFar panels s.vte s.tS s.mC.compIdent [] s.tS (s.tables s.mC.compIdent) := by
      rw [show s.tables s.mC.compIdent = _ from h]
      exact .init s.tS
    obtain ⟨result, tS', tables', hspec, hreads, hends⟩ := exists_openTables hdraws s.tS lines hread
    obtain ⟨rfl, rfl⟩ := Prod.mk.inj (hspec₁.unique hspec)
    obtain ⟨rfl, hpair⟩ := Prod.mk.inj (hread₂.unique hreads)
    obtain ⟨rfl, rfl⟩ := Prod.mk.inj hpair
    cases result₂ with
    | true =>
      have hall := hends.succeeds rfl
      refine iff_of_true ?_ ?_
      · -- the tab is selected anew
        have htS : s'.tS = tS₂ := by rw [hsession]; rfl
        have hdraws' : panels.Draws s'.mC.compIdent := hkept ▸ hdraws
        rw [htables, if_pos rfl, ← hkept, tabChanged_eq hdraws' _ hcall, htS]
      · rintro ⟨accepted, line, rest, rfl, -, hline, -⟩
        exact hline (hall line (by simp))
    | false =>
      -- the table is as the lines up to the rejected one leave it
      obtain ⟨accepted, line, rest, rfl, haccepted, hline, hsofar⟩ := hends.fails rfl
      rw [FailsOutdated.iff_outdates haccepted hline, htables, hsession]
      exact hsofar.outdated

/-! ### Every action -/

/-- While no change of the tab is on its way, the table is up to date. -/
def UpToDate (panels : MissingPanels) (s : TableSession) : Prop :=
  panels.Draws s.mC.compIdent → s.mC.call ≠ .joining → s.Shown panels

/-- An action that leaves the strings of the tasks and the tables alone. -/
theorem Shown.same (h : s.Shown panels) (hkept : s'.mC.compIdent = s.mC.compIdent)
    (htasks : panels.strings (s'.tS.tasks s.mC.compIdent) =
      panels.strings (s.tS.tasks s.mC.compIdent)) (htables : s'.tables = s.tables) :
    s'.Shown panels := by
  unfold Shown
  rw [hkept, htables, htasks]
  exact h

/-- Unless the tab changes the table was up to date before an action, too. -/
theorem UpToDate.before (h : s.UpToDate panels)
    (hstep : (tableSession orders panels).step s l s') (hdraws : panels.Draws s'.mC.compIdent)
    (hcall : s'.mC.call ≠ .joining) (htab : ∀ tab, l ≠ .controller (.tab tab))
    (hjoined : l ≠ .controller .joined) :
    s'.mC.compIdent = s.mC.compIdent ∧ panels.Draws s.mC.compIdent ∧ s.Shown panels := by
  have hkept := Session.compIdent_of_ne_tab hstep.1 htab
  rw [hkept] at hdraws
  have hcall' : s.mC.call ≠ .joining := fun hj => hcall (Session.joining_kept hstep.1 hjoined hj)
  exact ⟨hkept, hdraws, h hdraws hcall'⟩

/-- A tab draws the table of its competition, or the old one is selected again. -/
theorem UpToDate.tab (h : s.UpToDate panels) {tab : CompetitionIdentifier}
    (hstep : (tableSession orders panels).step s (.controller (.tab tab)) s')
    (hdraws : panels.Draws s'.mC.compIdent) (hcall : s'.mC.call ≠ .joining) :
    s'.Shown panels := by
  obtain ⟨⟨-, mC', hcontroller, heq⟩, htables⟩ := hstep
  dsimp only at htables
  by_cases hmode : s.mC.competitionMode = true
  · have hsame : mC' = s.mC := hcontroller.2.trans (if_pos hmode)
    rw [hsame] at heq
    rw [heq] at hdraws hcall
    rw [if_pos hmode] at htables
    exact (h hdraws hcall).same (by rw [heq]) (by rw [heq]) htables
  · rw [if_neg hmode] at htables
    unfold Shown
    rw [htables, tabChanged_eq hdraws _ hcall, heq]

theorem Shown.row (h : s.Shown panels) {row : Nat}
    (hrow : row < (s.tables s.mC.compIdent).length) :
    ∃ t, (s.tS.tasks s.mC.compIdent)[row]? = some t ∧
      (s.tables s.mC.compIdent)[row]? = some (some (panels.getString t)) := by
  have htable : s.tables s.mC.compIdent = panels.strings (s.tS.tasks s.mC.compIdent) := h
  unfold MissingPanels.strings at htable
  rw [htable, List.length_map] at hrow
  refine ⟨(s.tS.tasks s.mC.compIdent)[row], List.getElem?_eq_getElem hrow, ?_⟩
  rw [htable, List.getElem?_map, List.getElem?_eq_getElem hrow]
  rfl

end TableSession

/-! ### Runs -/

end RefereeBox
