import RefereeBox.Editing.Independence
import RefereeBox.Session.StartButton

/-! # The Marks of a Run

  A mark is made during a run, on a task of its competition, and taken back
  before the next run. So outside of competition mode no task has a mark, and in
  competition mode only the tasks of the actual competition can have one
  (`MarksConfined`). New tasks come without a mark, from a panel as from a file;
  editing moves tasks about with their marks, within their competition; and the
  end of a competition resets its tasks, and those of the later competitions too.
-/

namespace RefereeBox

open Loop Filling Transition

/-- The classes of the tasks of CBT and PPT have no source in the repository. -/
def CompetitionIdentifier.InRepository (c : CompetitionIdentifier) : Prop := c ≠ .cbt ∧ c ≠ .ppt

/-- No task of the competition has a mark. -/
def Unmarked (tS : TaskSpec) (c : CompetitionIdentifier) : Prop :=
  ∀ t ∈ tS.tasks c, t.getState = .init

/-- Of some competitions: the only one with marks is the actual one, in competition
    mode. -/
structure MarksConfined (P : CompetitionIdentifier → Prop) (s : Session) : Prop where
  outside : s.mC.competitionMode = false → ∀ c, P c → Unmarked s.tS c
  inside : s.mC.competitionMode = true → ∀ c, P c → c ≠ s.mC.compIdent → Unmarked s.tS c

/-- A task that a panel gives has no mark. -/
def NewTasksUnmarked (s : Session) : SessionAction → Prop
  | .add sel | .update _ sel => (sel.getSelectedTask s.tS).1.getState = .init
  | _ => True

/-! ### Editing -/

variable {orders : TaskOrders} {tS : TaskSpec} {c : CompetitionIdentifier}

theorem Unmarked.selected (h : Unmarked tS c) (sel : Selection) :
    Unmarked (sel.getSelectedTask tS).2 c := by
  unfold Unmarked
  rw [sel.getSelectedTask_tasks]
  exact h

/-- Editing makes no marks. -/
theorem Unmarked.edit (h : Unmarked tS c) {compIdent : CompetitionIdentifier} (op : EditOp)
    (hgiven : c = compIdent → ∀ t ∈ op.given, t.getState = .init) :
    Unmarked (tS.edit orders compIdent op).2 c := by
  intro t ht
  by_cases hc : c = compIdent
  · rcases mem_edit orders tS compIdent op (hc ▸ ht) with hold | hnew
    · exact h t (hc ▸ hold)
    · exact hgiven hc t hnew
  · -- of another competition the tasks are permuted at most
    exact h t ((edit_frame orders tS hc op).mem_iff.mp ht)

/-- A mark is made in the actual competition. -/
theorem setTaskState_tasks_other {compIdent : CompetitionIdentifier} (hne : c ≠ compIdent)
    (tripletIndex column : Nat) :
    (tS.setTaskState orders tripletIndex column compIdent).2.tasks c = tS.tasks c := by
  have hframe := ((independent_pure_iff _ _ _).mp
    (setTaskState_independent orders smallTables compIdent tripletIndex column tS)).1 c hne
  exact (TaskSpec.content_eq_iff.mp hframe).1

theorem Unmarked.setTaskState (h : Unmarked tS c) {compIdent : CompetitionIdentifier}
    (hne : c ≠ compIdent) (tripletIndex column : Nat) :
    Unmarked (tS.setTaskState orders tripletIndex column compIdent).2 c := by
  unfold Unmarked
  rw [setTaskState_tasks_other hne]
  exact h

/-- The end of a competition resets its own tasks, and makes no marks. -/
theorem Unmarked.resetStates {compIdent : CompetitionIdentifier}
    (h : c ≠ compIdent → Unmarked tS c) : Unmarked (tS.resetStates orders compIdent) c := by
  intro t ht
  unfold TaskSpec.resetStates at ht
  rw [TaskSpec.resetCases_tasks] at ht
  split at ht
  · obtain ⟨old, -, rfl⟩ := List.mem_map.mp ht
    cases old <;> rfl
  · next hmem =>
    -- the first of the cases is that of the competition itself
    refine h (fun hc => hmem ?_) t ht
    rw [hc]
    cases compIdent <;> decide

/-! ### Loading -/

/-- Giving a competition a list without marks. -/
theorem Unmarked.setList {τ : Type} {b : TaskBranch τ} {compIdent : CompetitionIdentifier}
    (hb : b.Separate compIdent) (h : Unmarked tS c) {l : List τ}
    (hl : ∀ t ∈ l, (b.task t).getState = .init) : Unmarked (b.setList tS l) c := by
  intro t ht
  by_cases hc : c = compIdent
  · rw [hc, hb.tasks_setList] at ht
    obtain ⟨t', ht', rfl⟩ := List.mem_map.mp ht
    exact hl t' ht'
  · rw [hb.tasks_other tS l c hc] at ht
    exact h t ht

theorem parseGroups_all {τ : Type} (p : τ → Prop) {newTask : Text → Text → Text → τ}
    (hnew : ∀ pose config object, p (newTask pose config object)) (tokens : List Text) :
    All p (parseGroups newTask tokens) := by
  induction tokens using parseGroups.induct with
  | case1 => exact .done
  | case2 => exact .fail
  | case3 token objects tokens ih =>
    unfold parseGroups
    exact .andThen (.need fun pose _ => .forEach fun object _ => .one (hnew pose _ object)) ih

theorem parseBtt_unmarked (tSpecStr : Text) :
    All (fun t : BttTask => t.state = .init) (parseBtt tSpecStr) := by
  unfold parseBtt
  dsimp only
  split
  · refine .forEach fun situation _ => .need fun token _ => ?_
    exact parseGroups_all (fun t : BttTask => t.state = .init) (fun _ _ _ => rfl) _
  · exact .done

theorem parseCttMessage_unmarked (first : Bool) (team : Text) :
    All (fun t : CttTask => t.state = .init) (parseCttMessage first team) := by
  refine .forEach fun situation _ => .need fun token _ => ?_
  split
  · exact .done
  · exact parseGroups_all (fun t : CttTask => t.state = .init) (fun _ _ _ => rfl) _

theorem parseCtt_unmarked (tSpecStr : Text) :
    All (fun t : CttTask => t.state = .init) (parseCtt tSpecStr) := by
  unfold parseCtt
  split
  · exact .need fun team1 _ => .need fun team2 _ =>
      .andThen (parseCttMessage_unmarked true team1)
        (.forEach fun team _ => parseCttMessage_unmarked false team)
  · exact .done

theorem parseCbt_unmarked (tSpecStr : Text) :
    All (fun t : CbtTask => t.state = .init) (parseCbt tSpecStr) := by
  unfold parseCbt
  split
  · exact .forEach fun position _ => .forEach fun token _ => .one rfl
  · exact .done

theorem parsePpt_unmarked (tSpecStr : Text) :
    All (fun t : PptTask => t.state = .init) (parsePpt tSpecStr) := by
  unfold parsePpt
  split
  · split
    · exact .need fun src _ => .need fun dest _ => .forEach fun object _ => .one rfl
    · exact .done
  · exact .done

/-- The BNT loop adds one task without a mark after the other. -/
theorem parseBnt_unmarked {vte : ValidTaskElements} {tSpecStr : Text} {n : Nat}
    {r : Filling BntTask} (h : parseBnt vte tSpecStr n = some r) :
    All (fun t : BntTask => t.state = .init) r := by
  unfold parseBnt at h
  cases hcompile : Java.compile vte.getValidBNTPattern with
  | none =>
    rw [hcompile] at h
    rw [← Option.some.inj h]
    exact .fail
  | some pat =>
    rw [hcompile] at h
    obtain ⟨s, hloop, hr⟩ := Option.bind_eq_some_iff.mp h
    rw [← Option.some.inj hr]
    -- every task in the list has been made from a match
    refine doWhile_invariant (I := fun s : BntScan => ∀ t ∈ s.bntTaskList, t.state = .init)
      (fun s hs n s' hround => ?_) (fun t ht => absurd ht List.not_mem_nil) hloop
    obtain rfl := Option.some.inj hround
    unfold bntScanStep
    split
    · intro t ht
      rcases List.mem_append.mp ht with hold | hnew
      · exact hs t hold
      · rw [List.mem_singleton.mp hnew]
    · exact hs

/-- A branch leaves the other lists, and a list without marks. -/
theorem Unmarked.parseBranch (h : Unmarked tS c) {vte : ValidTaskElements} {tSpecStr : Text}
    {compIdent : CompetitionIdentifier} {n : Nat} {ok : Bool} {tS' : TaskSpec}
    (hrun : tS.parseBranch vte tSpecStr compIdent n = some (ok, tS')) : Unmarked tS' c := by
  cases compIdent with
  | bnt =>
    obtain ⟨r, hr, hfilled⟩ := Option.bind_eq_some_iff.mp hrun
    obtain ⟨-, rfl⟩ := Prod.mk.inj (Option.some.inj hfilled)
    exact h.setList bntBranch_separate (parseBnt_unmarked hr)
  | bmt =>
    obtain ⟨-, rfl⟩ := Prod.mk.inj (Option.some.inj hrun)
    have hset : Unmarked (bmtBranch.setList tS _) c := h.setList bmtBranch_separate
      (l := (bmtObjects (bmtTokens tSpecStr)).map fun object => { object := object }) fun t ht => by
        obtain ⟨object, -, rfl⟩ := List.mem_map.mp ht
        rfl
    -- the static fields are no part of the lists
    intro t ht
    exact hset t (by cases c <;> exact ht)
  | btt =>
    obtain ⟨-, rfl⟩ := Prod.mk.inj (Option.some.inj hrun)
    exact h.setList bttBranch_separate (parseBtt_unmarked tSpecStr)
  | ctt =>
    obtain ⟨-, rfl⟩ := Prod.mk.inj (Option.some.inj hrun)
    exact h.setList cttBranch_separate (parseCtt_unmarked tSpecStr)
  | cbt =>
    obtain ⟨-, rfl⟩ := Prod.mk.inj (Option.some.inj hrun)
    exact h.setList (cbtBranch_separate ⟨fun _ _ => 0, fun _ _ => 0⟩) (parseCbt_unmarked tSpecStr)
  | ppt =>
    obtain ⟨-, rfl⟩ := Prod.mk.inj (Option.some.inj hrun)
    exact h.setList (pptBranch_separate ⟨fun _ _ => 0, fun _ _ => 0⟩) (parsePpt_unmarked tSpecStr)

theorem Unmarked.parseTaskSpecString (h : Unmarked tS c) {vte : ValidTaskElements} {line : Text}
    {n : Nat} {outcome : Except Exn Bool} {tS' : TaskSpec}
    (hrun : tS.parseTaskSpecString vte line n = some (outcome, tS')) : Unmarked tS' c := by
  unfold TaskSpec.parseTaskSpecString at hrun
  dsimp only at hrun
  cases hsub : Java.substring (removeSpaces line) 0 3 with
  | none =>
    simp only [hsub] at hrun
    obtain ⟨-, rfl⟩ := Prod.mk.inj (Option.some.inj hrun)
    exact h
  | some competition =>
    simp only [hsub] at hrun
    cases hcomp : competitionOf competition with
    | none =>
      simp only [hcomp] at hrun
      obtain ⟨-, rfl⟩ := Prod.mk.inj (Option.some.inj hrun)
      exact h
    | some compIdent =>
      simp only [hcomp] at hrun
      obtain ⟨r, hbranch, hr⟩ := Option.bind_eq_some_iff.mp hrun
      obtain ⟨-, rfl⟩ := Prod.mk.inj (Option.some.inj hr)
      exact h.parseBranch hbranch

/-- An open makes no marks, whether it fails or not. The induction is on the lines
    of the file. -/
theorem Unmarked.openTaskSpec (h : Unmarked tS c) {vte : ValidTaskElements} {lines : List Text}
    {n : Nat} {result : Bool} {tS' : TaskSpec}
    (hrun : tS.openTaskSpec vte lines n = some (result, tS')) : Unmarked tS' c := by
  induction lines generalizing tS with
  | nil =>
    obtain ⟨-, rfl⟩ := Prod.mk.inj (Option.some.inj hrun)
    exact h
  | cons line lines ih =>
    obtain ⟨⟨outcome, tS₁⟩, hline, hrest⟩ := Option.bind_eq_some_iff.mp hrun
    have h₁ := h.parseTaskSpecString hline
    dsimp only at hrest
    split at hrest
    · exact ih h₁ hrest
    · obtain ⟨-, rfl⟩ := Prod.mk.inj (Option.some.inj hrest)
      exact h₁

/-! ### One step -/

variable {s s' : Session} {l : SessionAction}

theorem Selection.getSelectedTask_unmarked {sel : Selection} (h : sel.competition.InRepository)
    (tS : TaskSpec) : (sel.getSelectedTask tS).1.getState = .init := by
  cases sel with
  | bnt _ _ _ | bmt _ _ | btt _ _ _ _ | ctt _ _ _ _ => rfl
  | cbt _ => exact absurd rfl h.1
  | ppt _ => exact absurd rfl h.2

/-- The panels in the repository give tasks without a mark. -/
theorem newTasksUnmarked (hstep : (session orders).step s l s')
    (h : s.mC.compIdent.InRepository) : NewTasksUnmarked s l := by
  cases l with
  | add sel =>
    obtain ⟨-, hsel, -⟩ := hstep
    exact Selection.getSelectedTask_unmarked (hsel ▸ h) s.tS
  | update pos sel =>
    obtain ⟨-, hsel, -⟩ := hstep
    exact Selection.getSelectedTask_unmarked (hsel ▸ h) s.tS
  | loadConfig _ _ _ | save _ | openFile _ _ | delete _ _ _ | up _ | down _ | mark _ _
  | competitionFinished | controller _ => trivial

/-- Up to the end of a competition only the actual one gets marks. -/
theorem Unmarked.step (h : Unmarked s.tS c) (hstep : (session orders).step s l s')
    (hnew : c = s.mC.compIdent → NewTasksUnmarked s l) (hne : l ≠ .competitionFinished)
    (hmark : s.mC.competitionMode = true → c ≠ s.mC.compIdent) : Unmarked s'.tS c := by
  cases l with
  | loadConfig proceed loaded vte =>
    rcases Session.loadConfig_cases hstep with rfl | ⟨-, -, rfl⟩
    · exact h
    · exact h
  | save written =>
    rcases Session.save_cases hstep with rfl | ⟨-, -, -, rfl⟩
    · exact h
    · exact h
  | openFile proceed lines =>
    obtain ⟨-, -, hopened⟩ := hstep
    split at hopened
    · rw [hopened]
      exact h
    · -- also what a failed open has read
      obtain ⟨result, tS', ⟨n, hn⟩, rfl⟩ := hopened
      have hloaded := h.openTaskSpec (hn n (Nat.le_refl n))
      cases result with
      | false => exact hloaded
      | true => exact hloaded
  | add sel =>
    obtain ⟨-, -, rfl⟩ := hstep
    rw [Session.add_tS]
    exact (h.selected sel).edit (.add _) fun hc t ht => List.mem_singleton.mp ht ▸ hnew hc
  | update pos sel =>
    obtain ⟨-, -, rfl⟩ := hstep
    unfold Session.update
    rw [Session.edited_tS]
    exact (h.selected sel).edit (.update pos _)
      fun hc t ht => List.mem_singleton.mp ht ▸ hnew hc
  | delete pos sel confirmed =>
    obtain ⟨-, -, rfl⟩ := hstep
    unfold Session.delete
    dsimp only
    split
    · rw [Session.edited_tS]
      exact (h.selected sel).edit (.delete pos) fun _ t ht => absurd ht List.not_mem_nil
    · exact h.selected sel
  | up pos =>
    obtain ⟨-, rfl⟩ := hstep
    unfold Session.up
    rw [Session.moved_tS]
    exact h.edit (.moveUp pos) fun _ t ht => absurd ht List.not_mem_nil
  | down pos =>
    obtain ⟨-, rfl⟩ := hstep
    unfold Session.down
    rw [Session.moved_tS]
    exact h.edit (.moveDown pos) fun _ t ht => absurd ht List.not_mem_nil
  | mark tripletIndex column =>
    -- the columns of the marks are there in competition mode only
    obtain ⟨-, hmode, -, rfl⟩ := hstep
    exact h.setTaskState (hmark hmode) tripletIndex column
  | competitionFinished => exact absurd rfl hne
  | controller a =>
    obtain ⟨-, mC', -, rfl⟩ := hstep
    exact h

namespace MarksConfined

variable {P : CompetitionIdentifier → Prop}

theorem init : MarksConfined P {} where
  outside _ c _ t ht := by cases c <;> exact absurd ht List.not_mem_nil
  inside hmode := absurd hmode (by decide)

/-- Both parts at once: a competition that is not the actual one of a run. -/
theorem unmarked (h : MarksConfined P s) (hP : P c)
    (hne : s.mC.competitionMode = true → c ≠ s.mC.compIdent) : Unmarked s.tS c := by
  by_cases hmode : s.mC.competitionMode = true
  · exact h.inside hmode c hP (hne hmode)
  · exact h.outside (by simpa using hmode) c hP

theorem step (h : MarksConfined P s) (hstep : (session orders).step s l s')
    (hnew : P s.mC.compIdent → NewTasksUnmarked s l) : MarksConfined P s' := by
  by_cases hne : l = .competitionFinished
  · subst hne
    rcases Session.competitionFinished_cases hstep with rfl | ⟨-, -, -, rfl⟩
    · exact h
    · -- whatever had a mark is reset
      have hreset : ∀ c, P c → Unmarked (s.tS.resetStates orders s.mC.compIdent) c :=
        fun c hP => .resetStates fun hc => h.unmarked hP fun _ => hc
      exact ⟨fun _ => hreset, fun _ c hP _ => hreset c hP⟩
  · -- in competition mode before the step the mode and the competition stay
    have hkept : ∀ c, P c → (s'.mC.competitionMode = true → c ≠ s'.mC.compIdent) →
        Unmarked s'.tS c := by
      intro c hP hc
      have hactual : s.mC.competitionMode = true → c ≠ s.mC.compIdent := by
        intro hmode
        rw [← Session.compIdent_kept hstep hmode]
        exact hc (Session.mode_kept hstep hne hmode)
      exact (h.unmarked hP hactual).step hstep (fun heq => hnew (heq ▸ hP)) hne hactual
    refine ⟨fun hmode c hP => hkept c hP fun hmode' => ?_, fun _ c hP hc => hkept c hP fun _ => hc⟩
    exact absurd (hmode.symm.trans hmode') Bool.false_ne_true

end MarksConfined

/-- Competition mode ends where all subgoals of the competition have a mark. -/
theorem marked_of_mode_ends (hstep : (session orders).step s l s')
    (hmode : s.mC.competitionMode = true) (hmode' : s'.mC.competitionMode = false) :
    ∀ t ∈ s.tS.tasks s.mC.compIdent, t.getState ≠ .init := by
  have hfinished : l = .competitionFinished := by
    by_contra hne
    exact Bool.false_ne_true (hmode'.symm.trans (Session.mode_kept hstep hne hmode))
  subst hfinished
  rcases Session.competitionFinished_cases hstep with rfl | ⟨-, -, hchecked, -⟩
  · exact absurd (hmode'.symm.trans hmode) Bool.false_ne_true
  · intro t ht
    simpa using List.all_eq_true.mp hchecked t ht

/-! ### Runs -/

/-- **Marks never leak from one run into the next.** In every state of a session no
    task has a mark outside of competition mode, and inside of it only tasks of the
    actual competition have one; of the two competitions whose classes are not part
    of the repository this holds as long as their panels give tasks without a mark.
    And competition mode ends only when every task of the competition has a mark. -/
theorem marks_confined (orders : TaskOrders) :
    (∀ s, Reachable (session orders) s → MarksConfined CompetitionIdentifier.InRepository s) ∧
      (∀ s, Reachable ((session orders).restrict NewTasksUnmarked) s →
        MarksConfined (fun _ => True) s) ∧
      ∀ s l s', (session orders).step s l s' → s.mC.competitionMode = true →
        s'.mC.competitionMode = false → ∀ t ∈ s.tS.tasks s.mC.compIdent, t.getState ≠ .init := by
  have hinit : ∀ P s, (session orders).init s → MarksConfined P s := by
    intro P s hs
    rw [show s = {} from hs]
    exact .init
  refine ⟨invariant (hinit _) ?_, invariant (hinit _) ?_, fun s l s' => marked_of_mode_ends⟩
  · exact fun s l s' h hstep => h.step hstep (newTasksUnmarked hstep)
  · exact fun s l s' h hstep => h.step hstep.2 fun _ => hstep.1

/-- A BNT task passes, and the competition is finished. -/
theorem marks_confined_once : ∃ s : Session,
    (session someOrders).step s .competitionFinished (s.competitionFinished someOrders) ∧
      MarksConfined CompetitionIdentifier.InRepository s ∧
      (∀ t ∈ s.tS.tasks s.mC.compIdent, t.getState ≠ .init) ∧
      s.tS.tasks .bnt = [.bnt ⟨some "S1".toList, some "N".toList, some "1".toList, .passed⟩] ∧
      (s.competitionFinished someOrders).tS.tasks .bnt =
        [.bnt ⟨some "S1".toList, some "N".toList, some "1".toList, .init⟩] := by
  have hloaded : Reachable (session someOrders) _ :=
    .step (SessionAction.loadConfig true true smallTables) (.init rfl)
      (And.intro rfl (And.intro rfl rfl))
  have hadded : Reachable (session someOrders) _ :=
    .step (SessionAction.add someSelection) hloaded (And.intro rfl (And.intro rfl rfl))
  have hsaved : Reachable (session someOrders) _ :=
    .step (SessionAction.save true) hadded
      (And.intro rfl (And.intro rfl (And.intro (prints_bnt _) rfl)))
  have hstarted : Reachable (session someOrders) _ :=
    .step (SessionAction.controller .timerStart) hsaved (And.intro trivial
      (Exists.intro _ (And.intro (And.intro rfl (And.intro rfl (And.intro rfl rfl))) rfl)))
  have hmarked : Reachable (session someOrders) _ :=
    .step (SessionAction.mark 0 1) hstarted
      (And.intro rfl (And.intro rfl (And.intro (by decide) rfl)))
  have hstopped : Reachable (session someOrders) _ :=
    .step (SessionAction.controller .timerStop) hmarked (And.intro trivial
      (Exists.intro _ (And.intro (And.intro rfl (And.intro rfl (And.intro rfl rfl))) rfl)))
  obtain ⟨hconfined, -, hends⟩ := marks_confined someOrders
  have hfinish : ∀ s : Session, s.mC.call = .idle → s.mC.mG.competitionFinishedButton = true →
      (session someOrders).step s .competitionFinished (s.competitionFinished someOrders) :=
    fun s hidle hbutton => ⟨hidle, hbutton, rfl⟩
  refine ⟨_, ?_, hconfined _ hstopped, ?_, rfl, rfl⟩
  · exact hfinish _ rfl rfl
  · exact hends _ _ _ (hfinish _ rfl rfl) rfl rfl

end RefereeBox
