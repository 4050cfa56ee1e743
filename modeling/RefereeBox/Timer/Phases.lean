import Mathlib.Data.List.Infix
import Mathlib.Tactic.NormNum
import RefereeBox.Model.TaskTimer

/-! # The Phases of a Run

  A start begins with the setup time; the run time begins at the end of it, or
  as soon as a task specification is acknowledged. The deadlines are laws about
  the history of the timer: what the latest start was, when the run time of this
  start began, and whether its setup time was missed. The invariant ties the
  two flags and the two stamps of the timer to this history (`Timed`).

  It is assumed that the clock does not go back, and that the times of a start
  are not negative and fit in a long as milliseconds (`Clocked`). The difference
  of two readings may still wrap around; it is never too long then.
-/

namespace RefereeBox

open Transition

/-! ### What is assumed -/

/-- A time in seconds that fits in a long as milliseconds. -/
def FitsMillis (x : Int64) : Prop := 0 ≤ x.toInt * 1000 ∧ x.toInt * 1000 < 2 ^ 63

instance (x : Int64) : Decidable (FitsMillis x) := inferInstanceAs (Decidable (_ ∧ _))

def Clocked (s : TimerRun) : TimerAction → Prop
  | .startNewTimer configTime runTime now =>
    FitsMillis configTime ∧ FitsMillis runTime ∧ s.clock ≤ now
  | .taskSpecSent now => s.clock ≤ now
  | .tick _ checked stopped ran => s.clock ≤ checked ∧ checked ≤ stopped ∧ stopped ≤ ran
  | .stopTimer | .resetTimer => True

theorem toInt_millis {x : Int64} (h : FitsMillis x) : (x * 1000).toInt = x.toInt * 1000 := by
  rw [Int64.toInt_mul, show (1000 : Int64).toInt = 1000 from rfl]
  have hlow := h.1
  have hhigh := h.2
  exact Int.bmod_eq_of_le (by omega) (by omega)

/-- What has elapsed on the clock, for a limit that the code finds exceeded. -/
theorem elapsed {start now limit : Int64} (hle : start ≤ now) (h : limit ≤ now - start) :
    start.toInt + limit.toInt ≤ now.toInt := by
  rw [Int64.le_iff_toInt_le] at hle h
  rw [Int64.toInt_sub, Int.bmod_def] at h
  -- the wrapped difference is the real one, or less
  split at h <;> omega

/-! ### The history -/

/-- The arguments of a start, and the reading of the clock. -/
structure TimerStart where
  configTime : Int64
  runTime : Int64
  now : Int64

/-- A start that takes effect. -/
def TimerEvent.start (e : TimerEvent) : Option TimerStart :=
  match e.action with
  | .startNewTimer configTime runTime now =>
    if e.before.timerStop = true then some ⟨configTime, runTime, now⟩ else none
  | _ => none

def latestStart (history : List TimerEvent) : Option TimerStart :=
  history.findSome? TimerEvent.start

/-- The run phase begins. -/
def BeginsRun (before after : TaskTimer) : Prop :=
  before.runTimeRunning = false ∧ after.runTimeRunning = true

instance (before after : TaskTimer) : Decidable (BeginsRun before after) :=
  inferInstanceAs (Decidable (_ ∧ _))

/-- The reading of the clock at which an action can begin the run phase. -/
def TimerAction.runReading : TimerAction → Option Int64
  | .taskSpecSent now => some now
  | .tick _ _ stopped _ => some stopped
  | _ => none

/-- When the run phase of the latest start began. -/
def runBegan : List TimerEvent → Option Int64
  | [] => none
  | e :: history =>
    if e.start.isSome = true then none
    else if BeginsRun e.before e.after then e.action.runReading
    else runBegan history

/-- A tick that ends the setup phase. -/
def TimerEvent.EndsSetup (e : TimerEvent) : Prop :=
  (∃ task checked stopped ran, e.action = .tick task checked stopped ran) ∧
    e.before.configTimeRunning = true ∧ e.after.configTimeRunning = false

/-- Neither a start nor an acknowledged task specification. -/
def TimerEvent.Quiet (e : TimerEvent) : Prop :=
  e.start = none ∧ ∀ now, e.action ≠ .taskSpecSent now

/-- Since the latest start a tick ended the setup phase, and no task specification
    came behind it. -/
def SetupMissed (history : List TimerEvent) : Prop :=
  ∃ later e earlier, history = later ++ e :: earlier ∧ e.EndsSetup ∧ ∀ e' ∈ later, e'.Quiet

theorem setupMissed_cons_iff {e : TimerEvent} {history : List TimerEvent} :
    SetupMissed (e :: history) ↔ e.EndsSetup ∨ (e.Quiet ∧ SetupMissed history) := by
  constructor
  · rintro ⟨later, e', earlier, heq, hends, hquiet⟩
    cases later with
    | nil =>
      obtain ⟨rfl, -⟩ := List.cons.inj heq
      exact Or.inl hends
    | cons e'' later =>
      obtain ⟨rfl, htail⟩ := List.cons.inj heq
      exact Or.inr ⟨hquiet _ List.mem_cons_self, later, e', earlier, htail, hends,
        fun x hx => hquiet x (List.mem_cons_of_mem _ hx)⟩
  · rintro (hends | ⟨he, later, e', earlier, rfl, hends, hquiet⟩)
    · exact ⟨[], e, history, rfl, hends, fun _ hx => absurd hx List.not_mem_nil⟩
    · exact ⟨e :: later, e', earlier, rfl, hends, List.forall_mem_cons.mpr ⟨he, hquiet⟩⟩

/-! ### The law -/

/-- The phases and their deadlines: what holds of the timer, and of every step that it
    takes from here. -/
structure TimerLaw (s : TimerRun) : Prop where
  exclusive : ¬ (s.timer.configTimeRunning = true ∧ s.timer.runTimeRunning = true)
  begins : ∀ l s', (taskTimer.restrict Clocked).step s l s' → BeginsRun s.timer s'.timer →
    ∃ start, latestStart s.history = some start ∧
      ((∃ now, l = .taskSpecSent now) ∨
        ∃ task checked stopped ran, l = .tick task checked stopped ran ∧
          start.now.toInt + start.configTime.toInt * 1000 ≤ checked.toInt)
  overrun : ∀ l s', (taskTimer.restrict Clocked).step s l s' →
    .timerOverrun ∈ (l.run s.timer).2 →
      ∃ start began task checked stopped ran, l = .tick task checked stopped ran ∧
        latestStart s.history = some start ∧ runBegan s'.history = some began ∧
        began.toInt + start.runTime.toInt * 1000 ≤ ran.toInt
  inTime : ∀ start, latestStart s.history = some start →
    (s.timer.inTime = false ↔ SetupMissed s.history)

/-! ### The phases of the timer -/

/-- The fields of the timer that belong to its phases. -/
structure TimerPhases where
  configTime : Int64
  runTime : Int64
  startTime : Int64
  startRunTime : Int64
  configTimeRunning : Bool
  runTimeRunning : Bool
  inTime : Bool

/-- The setup phase ends at a reading of the clock. -/
def TimerPhases.endSetup (p : TimerPhases) (now : Int64) (inTime : Bool) : TimerPhases :=
  { p with configTimeRunning := false, startRunTime := now, runTimeRunning := true, inTime := inTime }

namespace TaskTimer

def phases (t : TaskTimer) : TimerPhases where
  configTime := t.configTime
  runTime := t.runTime
  startTime := t.startTime
  startRunTime := t.startRunTime
  configTimeRunning := t.configTimeRunning
  runTimeRunning := t.runTimeRunning
  inTime := t.inTime

variable (t : TaskTimer)

theorem taskSpecSent_phases (now : Int64) :
    (t.taskSpecSent now).1.phases =
      if t.configTimeRunning = true then t.phases.endSetup now true
      else { t.phases with inTime := true } := by
  unfold taskSpecSent
  split <;> rfl

/-- The setup phase is over in a tick. -/
def SetupOver (checked : Int64) : Prop :=
  t.configTimeRunning = true ∧ t.configTime ≤ checked - t.startTime

instance (checked : Int64) : Decidable (t.SetupOver checked) :=
  inferInstanceAs (Decidable (_ ∧ _))

theorem runSetup_phases (checked stopped : Int64) :
    (t.runSetup checked stopped).1.phases =
      if t.SetupOver checked then t.phases.endSetup stopped false else t.phases := by
  unfold runSetup
  by_cases hrunning : t.configTimeRunning = true
  · rw [if_pos hrunning]
    dsimp only
    by_cases hover : t.configTime ≤ checked - t.startTime
    · rw [if_pos hover, if_pos (show t.SetupOver checked from ⟨hrunning, hover⟩)]
      rfl
    · rw [if_neg hover, if_neg fun h : t.SetupOver checked => hover h.2]
      rfl
  · rw [if_neg hrunning, if_neg fun h : t.SetupOver checked => hrunning h.1]

/-- The rest of a tick leaves the phases. -/
theorem runRest_phases (task : Nat) (ran : Int64) :
    (t.runRest task ran).1.phases = t.phases := by
  unfold runRest
  split
  · dsimp only
    split <;> rfl
  · rfl

theorem run_phases (task : Nat) (checked stopped ran : Int64) :
    (t.run task checked stopped ran).1.phases =
      if t.timerStop = false ∧ t.SetupOver checked then t.phases.endSetup stopped false
      else t.phases := by
  unfold run
  by_cases hstop : t.timerStop = true
  · rw [if_pos hstop, if_neg (by simp [hstop])]
    rfl
  · rw [if_neg hstop]
    show ((t.runSetup checked stopped).1.runRest task ran).1.phases = _
    rw [runRest_phases, runSetup_phases]
    have hrun : t.timerStop = false := by simpa using hstop
    simp only [hrun, true_and]

/-- A run that is over: what the task has found. -/
theorem overrun_of_run {task : Nat} {checked stopped ran : Int64}
    (h : .timerOverrun ∈ (t.run task checked stopped ran).2) :
    (t.run task checked stopped ran).1.phases.runTimeRunning = true ∧
      (t.run task checked stopped ran).1.phases.runTime ≤
        ran - (t.run task checked stopped ran).1.phases.startRunTime := by
  unfold run at h ⊢
  by_cases hstop : t.timerStop = true
  · rw [if_pos hstop] at h
    exact absurd h List.not_mem_nil
  · rw [if_neg hstop] at h ⊢
    -- the part for the setup time tells of the maximum time at most
    have hsetup : .timerOverrun ∉ (t.runSetup checked stopped).2 := by
      unfold runSetup setConfigTimeStop
      split
      · dsimp only
        split <;> simp
      · simp
    have hrest := (List.mem_append.mp h).resolve_left hsetup
    show ((t.runSetup checked stopped).1.runRest task ran).1.phases.runTimeRunning = true ∧
      ((t.runSetup checked stopped).1.runRest task ran).1.phases.runTime ≤
        ran - ((t.runSetup checked stopped).1.runRest task ran).1.phases.startRunTime
    rw [runRest_phases]
    generalize (t.runSetup checked stopped).1 = t₁ at hrest
    unfold runRest at hrest
    by_cases hrunning : t₁.runTimeRunning = true
    · rw [if_pos hrunning] at hrest
      dsimp only at hrest
      by_cases hover : t₁.runTime ≤ ran - t₁.startRunTime
      · exact ⟨hrunning, hover⟩
      · rw [if_neg hover] at hrest
        simp at hrest
    · rw [if_neg hrunning] at hrest
      simp at hrest

end TaskTimer

/-! ### The invariant -/

/-- The flags and the stamps of the timer, against its history. -/
structure Timed (p : TimerPhases) (clock : Int64) (history : List TimerEvent) : Prop where
  exclusive : p.configTimeRunning = true → p.runTimeRunning = false
  setup : p.configTimeRunning = true → ∃ start, latestStart history = some start ∧
    FitsMillis start.configTime ∧ FitsMillis start.runTime ∧
    p.configTime = start.configTime * 1000 ∧ p.runTime = start.runTime * 1000 ∧
    p.startTime = start.now ∧ start.now ≤ clock
  run : p.runTimeRunning = true → ∃ start, latestStart history = some start ∧
    FitsMillis start.runTime ∧ p.runTime = start.runTime * 1000 ∧
    runBegan history = some p.startRunTime ∧ p.startRunTime ≤ clock
  inTime : ∀ start, latestStart history = some start →
    (p.inTime = false ↔ SetupMissed history)

theorem latestStart_cons {e : TimerEvent} (h : e.start = none) (history : List TimerEvent) :
    latestStart (e :: history) = latestStart history := by
  unfold latestStart
  rw [List.findSome?_cons, h]

theorem runBegan_cons {e : TimerEvent} (h : e.start = none) (hbegins : ¬ BeginsRun e.before e.after)
    (history : List TimerEvent) : runBegan (e :: history) = runBegan history := by
  rw [runBegan, h, if_neg (by simp), if_neg hbegins]

/-- A start is neither a tick, nor quiet. -/
theorem not_setupMissed_of_start {e : TimerEvent} {history : List TimerEvent} {start : TimerStart}
    (h : e.start = some start) : ¬ SetupMissed (e :: history) := by
  rw [setupMissed_cons_iff]
  rintro (⟨⟨task, checked, stopped, ran, htick⟩, -⟩ | ⟨⟨hquiet, -⟩, -⟩)
  · unfold TimerEvent.start at h
    rw [htick] at h
    cases h
  · rw [h] at hquiet
    cases hquiet

/-- Nor is an acknowledged task specification. -/
theorem not_setupMissed_of_sent {e : TimerEvent} {history : List TimerEvent} {now : Int64}
    (h : e.action = .taskSpecSent now) : ¬ SetupMissed (e :: history) := by
  rw [setupMissed_cons_iff]
  rintro (⟨⟨task, checked, stopped, ran, htick⟩, -⟩ | ⟨⟨-, hquiet⟩, -⟩)
  · rw [h] at htick
    cases htick
  · exact hquiet now h

namespace Timed

variable {p : TimerPhases} {clock clock' : Int64} {history : List TimerEvent} {e : TimerEvent}

/-- Time goes by in a run phase. -/
theorem run_keep (h : Timed p clock history) (hstart : e.start = none)
    (hbegins : ¬ BeginsRun e.before e.after) (hclock : clock ≤ clock')
    (hrun : p.runTimeRunning = true) : ∃ start, latestStart (e :: history) = some start ∧
      FitsMillis start.runTime ∧ p.runTime = start.runTime * 1000 ∧
      runBegan (e :: history) = some p.startRunTime ∧ p.startRunTime ≤ clock' := by
  obtain ⟨start, hlatest, hfits, h1, hbegan, hstamp⟩ := h.run hrun
  rw [latestStart_cons hstart, runBegan_cons hstart hbegins]
  exact ⟨start, hlatest, hfits, h1, hbegan, Int64.le_trans hstamp hclock⟩

/-- An event that leaves the phases, and is neither a start nor an acknowledged task
    specification. -/
theorem keep (h : Timed p clock history) (hquiet : e.Quiet)
    (hphases : e.after.phases = e.before.phases) (hclock : clock ≤ clock') :
    Timed p clock' (e :: history) := by
  obtain ⟨hstart, -⟩ := id hquiet
  -- a phase neither begins nor ends
  have hbegins : ¬ BeginsRun e.before e.after := by
    rintro ⟨hbefore, hafter⟩
    have hsame : e.after.runTimeRunning = e.before.runTimeRunning :=
      congrArg TimerPhases.runTimeRunning hphases
    exact Bool.false_ne_true (hbefore.symm.trans (hsame.symm.trans hafter))
  have hends : ¬ e.EndsSetup := by
    rintro ⟨-, hbefore, hafter⟩
    have hsame : e.after.configTimeRunning = e.before.configTimeRunning :=
      congrArg TimerPhases.configTimeRunning hphases
    exact Bool.false_ne_true (hafter.symm.trans (hsame.trans hbefore))
  refine ⟨h.exclusive, fun hsetup => ?_, h.run_keep hstart hbegins hclock, ?_⟩
  · obtain ⟨start, hlatest, hconfig, hfits, h1, h2, h3, hnow⟩ := h.setup hsetup
    rw [latestStart_cons hstart]
    exact ⟨start, hlatest, hconfig, hfits, h1, h2, h3, Int64.le_trans hnow hclock⟩
  · intro start hlatest
    rw [latestStart_cons hstart] at hlatest
    rw [h.inTime start hlatest, setupMissed_cons_iff, or_iff_right hends]
    exact (and_iff_right hquiet).symm

/-- A reset ends both phases, and leaves the mark of the setup time. -/
theorem reset (h : Timed p clock history) (haction : e.action = .resetTimer) :
    Timed { p with configTime := 0, runTime := 0, configTimeRunning := false,
                   runTimeRunning := false } clock (e :: history) := by
  have hstart : e.start = none := by
    unfold TimerEvent.start
    rw [haction]
  have hends : ¬ e.EndsSetup := by
    rintro ⟨⟨task, checked, stopped, ran, htick⟩, -⟩
    rw [haction] at htick
    cases htick
  have hquiet : e.Quiet := by
    refine ⟨hstart, fun now hsent => ?_⟩
    rw [haction] at hsent
    cases hsent
  refine ⟨fun hcontra => absurd hcontra Bool.false_ne_true,
    fun hcontra => absurd hcontra Bool.false_ne_true,
    fun hcontra => absurd hcontra Bool.false_ne_true, fun start hlatest => ?_⟩
  rw [latestStart_cons hstart] at hlatest
  rw [setupMissed_cons_iff, or_iff_right hends, and_iff_right hquiet]
  exact h.inTime start hlatest

/-- A task specification that is acknowledged behind the setup phase. -/
theorem acknowledged (h : Timed p clock history) (hsetup : ¬ p.configTimeRunning = true) {now : Int64}
    (haction : e.action = .taskSpecSent now) (hbegins : ¬ BeginsRun e.before e.after)
    (hclock : clock ≤ clock') : Timed { p with inTime := true } clock' (e :: history) := by
  have hstart : e.start = none := by
    unfold TimerEvent.start
    rw [haction]
  refine ⟨h.exclusive, fun hcontra => absurd hcontra hsetup, h.run_keep hstart hbegins hclock,
    fun start _ => ?_⟩
  exact iff_of_false (by simp) (not_setupMissed_of_sent haction)

/-- A start begins with the setup phase. -/
theorem started {configTime runTime now : Int64} (startRunTime : Int64)
    (hconfig : FitsMillis configTime) (hrun : FitsMillis runTime)
    (hstart : e.start = some ⟨configTime, runTime, now⟩) :
    Timed ⟨configTime * 1000, runTime * 1000, now, startRunTime, true, false, true⟩ now
      (e :: history) := by
  have hlatest : latestStart (e :: history) = some ⟨configTime, runTime, now⟩ := by
    unfold latestStart
    rw [List.findSome?_cons, hstart]
  refine ⟨fun _ => rfl, fun _ => ?_, fun h => absurd h Bool.false_ne_true, fun _ _ => ?_⟩
  · exact ⟨_, hlatest, hconfig, hrun, rfl, rfl, rfl, Int64.le_refl now⟩
  · exact iff_of_false (by simp) (not_setupMissed_of_start hstart)

/-- The setup phase ends, in a tick or with an acknowledged task specification. -/
theorem setupEnded (h : Timed p clock history) (hsetup : p.configTimeRunning = true) {now : Int64}
    {inTime : Bool} (hstart : e.start = none) (hbegins : BeginsRun e.before e.after)
    (hreading : e.action.runReading = some now) (hnow : now ≤ clock')
    (hintime : inTime = false ↔ SetupMissed (e :: history)) :
    Timed (p.endSetup now inTime) clock' (e :: history) := by
  obtain ⟨start, hlatest, -, hfits, -, h1, -, -⟩ := h.setup hsetup
  refine ⟨fun hcontra => absurd hcontra Bool.false_ne_true,
    fun hcontra => absurd hcontra Bool.false_ne_true, fun _ => ?_, fun _ _ => hintime⟩
  refine ⟨start, (latestStart_cons hstart _).trans hlatest, hfits, h1, ?_, hnow⟩
  unfold runBegan
  rw [hstart, if_neg (by simp), if_pos hbegins]
  exact hreading

end Timed

/-! ### One step -/

variable {s s' : TimerRun} {l : TimerAction}

/-- The event of an action that is neither a start nor an acknowledged task
    specification. -/
theorem event_quiet (hstart : ∀ configTime runTime now,
      l = .startNewTimer configTime runTime now → s.timer.timerStop = false)
    (hsent : ∀ now, l ≠ .taskSpecSent now) (after : TaskTimer) (notified : List TimerNotification) :
    TimerEvent.Quiet ⟨l, s.timer, after, notified⟩ := by
  refine ⟨?_, hsent⟩
  cases l with
  | startNewTimer configTime runTime now =>
    exact if_neg (by rw [hstart configTime runTime now rfl]; exact Bool.false_ne_true)
  | stopTimer | resetTimer | taskSpecSent _ | tick _ _ _ _ => rfl

theorem Timed.step (h : Timed s.timer.phases s.clock s.history) (hclock : Clocked s l)
    (hstep : taskTimer.step s l s') : Timed s'.timer.phases s'.clock s'.history := by
  obtain ⟨-, rfl⟩ := hstep
  cases l with
  | startNewTimer configTime runTime now =>
    obtain ⟨hconfig, hrun, hnow⟩ := hclock
    show Timed (s.timer.startNewTimer configTime runTime now).1.phases now (_ :: s.history)
    by_cases hstop : s.timer.timerStop = true
    · have hphases : (s.timer.startNewTimer configTime runTime now).1.phases =
          ⟨configTime * 1000, runTime * 1000, now, s.timer.startRunTime, true, false, true⟩ := by
        unfold TaskTimer.startNewTimer
        rw [if_pos hstop]
        rfl
      rw [hphases]
      exact .started _ hconfig hrun (if_pos hstop)
    · -- the timer runs already
      have hsame : s.timer.startNewTimer configTime runTime now = (s.timer, []) := if_neg hstop
      rw [hsame]
      exact h.keep (event_quiet (fun _ _ _ _ => by simpa using hstop) (by simp) _ _)
        (congrArg (fun r => r.1.phases) hsame) hnow
  | stopTimer =>
    exact h.keep (event_quiet (by simp) (by simp) _ _) rfl (Int64.le_refl _)
  | resetTimer => exact h.reset rfl
  | taskSpecSent now =>
    show Timed (s.timer.taskSpecSent now).1.phases now (_ :: s.history)
    have hphases := s.timer.taskSpecSent_phases now
    rw [hphases]
    by_cases hsetup : s.timer.configTimeRunning = true
    · rw [if_pos hsetup] at hphases ⊢
      have hrunning : s.timer.runTimeRunning = false := h.exclusive hsetup
      refine h.setupEnded hsetup rfl ?_ rfl (Int64.le_refl now) ?_
      · exact ⟨hrunning, congrArg TimerPhases.runTimeRunning hphases⟩
      · exact iff_of_false (by simp) (not_setupMissed_of_sent rfl)
    · rw [if_neg hsetup] at hphases ⊢
      refine h.acknowledged hsetup rfl ?_ hclock
      rintro ⟨hbefore, hafter⟩
      have hsame := congrArg TimerPhases.runTimeRunning hphases
      exact Bool.false_ne_true (hbefore.symm.trans (hsame.symm.trans hafter))
  | tick task checked stopped ran =>
    obtain ⟨hchecked, hstopped, hran⟩ := hclock
    show Timed (s.timer.run task checked stopped ran).1.phases ran (_ :: s.history)
    -- the readings of a tick come one after the other
    have hphases := s.timer.run_phases task checked stopped ran
    rw [hphases]
    have hreading : s.clock ≤ stopped := Int64.le_trans hchecked hstopped
    by_cases hover : s.timer.timerStop = false ∧ s.timer.SetupOver checked
    · rw [if_pos hover] at hphases ⊢
      obtain ⟨-, hsetup, -⟩ := hover
      have hrunning : s.timer.runTimeRunning = false := h.exclusive hsetup
      refine h.setupEnded hsetup rfl ?_ rfl hran ?_
      · exact ⟨hrunning, congrArg TimerPhases.runTimeRunning hphases⟩
      · -- the tick itself ends the setup
        refine iff_of_true rfl (setupMissed_cons_iff.mpr (Or.inl ⟨⟨_, _, _, _, rfl⟩, hsetup, ?_⟩))
        exact congrArg TimerPhases.configTimeRunning hphases
    · rw [if_neg hover] at hphases ⊢
      exact h.keep (event_quiet (by simp) (by simp) _ _) hphases (Int64.le_trans hreading hran)

/-- The run phase begins with an acknowledged task specification, or in a tick behind
    the deadline of the setup. -/
theorem Timed.begins (h : Timed s.timer.phases s.clock s.history) (hclock : Clocked s l)
    (hstep : taskTimer.step s l s') (hbegins : BeginsRun s.timer s'.timer) :
    ∃ start, latestStart s.history = some start ∧
      ((∃ now, l = .taskSpecSent now) ∨
        ∃ task checked stopped ran, l = .tick task checked stopped ran ∧
          start.now.toInt + start.configTime.toInt * 1000 ≤ checked.toInt) := by
  obtain ⟨-, rfl⟩ := hstep
  obtain ⟨hbefore, hafter⟩ := hbegins
  -- the phases must have moved, which few actions do
  have hsame : (l.run s.timer).1.phases ≠ s.timer.phases := fun hphases => by
    have hrunning := congrArg TimerPhases.runTimeRunning hphases
    exact Bool.false_ne_true (hbefore.symm.trans (hrunning.symm.trans hafter))
  cases l with
  | startNewTimer configTime runTime now =>
    have hafter' : (s.timer.startNewTimer configTime runTime now).1.runTimeRunning = true := hafter
    unfold TaskTimer.startNewTimer at hafter'
    split at hafter'
    · exact absurd hafter' Bool.false_ne_true
    · exact absurd (hbefore.symm.trans hafter') Bool.false_ne_true
  | stopTimer => exact absurd rfl hsame
  | resetTimer => exact absurd hafter Bool.false_ne_true
  | taskSpecSent now =>
    have hphases := s.timer.taskSpecSent_phases now
    by_cases hsetup : s.timer.configTimeRunning = true
    · obtain ⟨start, hlatest, -⟩ := h.setup hsetup
      exact ⟨start, hlatest, Or.inl ⟨now, rfl⟩⟩
    · rw [if_neg hsetup] at hphases
      have hrunning := congrArg TimerPhases.runTimeRunning hphases
      exact absurd (hbefore.symm.trans (hrunning.symm.trans hafter)) Bool.false_ne_true
  | tick task checked stopped ran =>
    have hphases := s.timer.run_phases task checked stopped ran
    by_cases hover : s.timer.timerStop = false ∧ s.timer.SetupOver checked
    · obtain ⟨-, hsetup, hlimit⟩ := hover
      obtain ⟨start, hlatest, hconfig, -, htime, -, hstamp, hnow⟩ := h.setup hsetup
      refine ⟨start, hlatest, Or.inr ⟨task, checked, stopped, ran, rfl, ?_⟩⟩
      -- the stamp of the start is not later than the check
      have hle : s.timer.startTime ≤ checked := by
        rw [show s.timer.startTime = start.now from hstamp]
        exact Int64.le_trans hnow hclock.1
      have helapsed := elapsed hle hlimit
      rw [show s.timer.startTime = start.now from hstamp,
        show s.timer.configTime = start.configTime * 1000 from htime, toInt_millis hconfig] at helapsed
      exact helapsed
    · exact absurd (hphases.trans (if_neg hover)) hsame

/-- Only a tick finds a run to be over, and not before its deadline. -/
theorem Timed.overrun (h : Timed s'.timer.phases s'.clock s'.history)
    (hstep : taskTimer.step s l s') (hover : .timerOverrun ∈ (l.run s.timer).2) :
    ∃ start began task checked stopped ran, l = .tick task checked stopped ran ∧
      latestStart s.history = some start ∧ runBegan s'.history = some began ∧
      began.toInt + start.runTime.toInt * 1000 ≤ ran.toInt := by
  obtain ⟨-, rfl⟩ := hstep
  cases l with
  | tick task checked stopped ran =>
    obtain ⟨hrunning, hlimit⟩ := s.timer.overrun_of_run hover
    obtain ⟨start, hlatest, hfits, htime, hbegan, hstamp⟩ := h.run hrunning
    refine ⟨start, _, task, checked, stopped, ran, rfl, hlatest, hbegan, ?_⟩
    have helapsed := elapsed hstamp hlimit
    have hmillis : ((s.timer.run task checked stopped ran).1.phases.runTime).toInt =
        start.runTime.toInt * 1000 := by
      rw [← toInt_millis hfits]
      exact congrArg Int64.toInt htime
    rw [hmillis] at helapsed
    exact helapsed
  | startNewTimer configTime runTime now =>
    have hnot : .timerOverrun ∉ (s.timer.startNewTimer configTime runTime now).2 := by
      unfold TaskTimer.startNewTimer
      split <;> simp
    exact absurd hover hnot
  | stopTimer => exact absurd hover List.not_mem_nil
  | resetTimer =>
    have hnot : TimerNotification.timerOverrun ∉ s.timer.resetTimer.2 := by
      simp [TaskTimer.resetTimer]
    exact absurd hover hnot
  | taskSpecSent now =>
    have hnot : .timerOverrun ∉ (s.timer.taskSpecSent now).2 := by
      unfold TaskTimer.taskSpecSent TaskTimer.setConfigTimeStop
      split <;> simp
    exact absurd hover hnot

/-! ### Runs -/

theorem timed_of_reachable : ∀ s, Reachable (taskTimer.restrict Clocked) s →
    Timed s.timer.phases s.clock s.history := by
  apply invariant
  · intro s hs
    rw [show s = { clock := s.clock } from hs]
    exact ⟨fun h => absurd h Bool.false_ne_true, fun h => absurd h Bool.false_ne_true,
      fun h => absurd h Bool.false_ne_true, fun start h => by cases h⟩
  · intro s l s' h hstep
    exact h.step hstep.1 hstep.2

/-- **The phases of the timer and their deadlines.** In every run the phases exclude
    each other; the run phase begins with an acknowledged task specification or in a
    tick that is at least the setup time behind the start; an overrun is told at least
    the run time behind the beginning of the run phase; and the timer is not in time
    exactly if a tick of the latest start ended the setup, and no task specification
    came behind it. -/
theorem timer_law : ∀ s, Reachable (taskTimer.restrict Clocked) s → TimerLaw s := by
  intro s hs
  have htimed := timed_of_reachable s hs
  refine ⟨fun ⟨hsetup, hrun⟩ => ?_, fun l s' hstep => ?_, fun l s' hstep => ?_, htimed.inTime⟩
  · exact Bool.false_ne_true ((htimed.exclusive hsetup).symm.trans hrun)
  · exact htimed.begins hstep.1 hstep.2
  · exact (timed_of_reachable s' (.step l hs hstep)).overrun hstep.2

/-- A second for the setup and none for the run: in a tick behind that second the setup
    is missed, and the run is over. -/
theorem timer_law_once : ∃ s s' : TimerRun, TimerLaw s ∧ TimerLaw s' ∧
    (taskTimer.restrict Clocked).step s (.tick 0 1005 1006 1007) s' ∧
    BeginsRun s.timer s'.timer ∧
    .timerOverrun ∈ ((TimerAction.tick 0 1005 1006 1007).run s.timer).2 ∧
    s'.timer.inTime = false := by
  have hstarted : Reachable (taskTimer.restrict Clocked) _ :=
    .step (TimerAction.startNewTimer 1 0 5) (.init (rfl : (⟨{}, 5, []⟩ : TimerRun) = _))
      ⟨⟨by decide, by decide, by decide⟩, trivial, rfl⟩
  have hticked : Reachable (taskTimer.restrict Clocked) _ :=
    .step (TimerAction.tick 0 1005 1006 1007) hstarted
      ⟨⟨by decide, by decide, by decide⟩, And.intro rfl rfl⟩
  exact ⟨_, _, timer_law _ hstarted, timer_law _ hticked,
    ⟨⟨by decide, by decide, by decide⟩, And.intro rfl rfl⟩, by decide, by decide, by decide⟩

end RefereeBox
