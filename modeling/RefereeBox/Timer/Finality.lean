import RefereeBox.Model.TaskTimer

/-! # Stopping the Timer Is Final

  A task that finds the timer stopped cancels itself, and a start schedules a new
  task. So at most one task is effective at a time, and the tasks from before a
  stop have nothing more to tell, if every old task has noticed the stop when the
  next start comes (`StartsFresh`). A start that comes earlier clears the flag
  that the old task has not seen yet, and two tasks are effective.
-/

namespace RefereeBox

open Transition

/-! ### Effective tasks -/

/-- The listeners hear a tick or an overrun. -/
def TimerEvent.Tells (e : TimerEvent) : Prop :=
  (∃ currentTime inTime, .timerTick currentTime inTime ∈ e.notified) ∨ .timerOverrun ∈ e.notified

/-- The event is a run of the task. -/
def TimerEvent.IsTick (e : TimerEvent) (task : Nat) : Prop :=
  ∃ checked stopped ran, e.action = .tick task checked stopped ran

def TimerEvent.IsStop (e : TimerEvent) : Prop :=
  e.action = .stopTimer ∨ e.action = .resetTimer

/-- A task that has not cancelled itself, and will not do so the next time. -/
def TaskTimer.Effective (t : TaskTimer) (task : Nat) : Prop :=
  t.cancelled[task]? = some false ∧ t.timerStop = false

/-- Behind a stop no task tells anything that was scheduled before it, and at most one
    task is effective. -/
structure StopIsFinal (s : TimerRun) : Prop where
  final : ∀ later e earlier, s.history = later ++ e :: earlier → e.IsStop →
    ∀ e' ∈ later, ∀ task, e'.IsTick task → e'.Tells → ¬ task < e.before.cancelled.length
  single : ∀ task task', s.timer.Effective task → s.timer.Effective task' → task = task'

/-- A start takes effect only when all earlier tasks are cancelled. -/
def StartsFresh (s : TimerRun) : TimerAction → Prop
  | .startNewTimer _ _ _ => s.timer.timerStop = true → ∀ b ∈ s.timer.cancelled, b = true
  | _ => True

/-! ### One step -/

namespace TaskTimer

variable (t : TaskTimer)

/-- A run of a task leaves the flag, and cancels no other task. -/
theorem run_schedule (task : Nat) (checked stopped ran : Int64) :
    (t.run task checked stopped ran).1.timerStop = t.timerStop ∧
      ((t.run task checked stopped ran).1.cancelled = t.cancelled ∨
        (t.run task checked stopped ran).1.cancelled = t.cancelled.set task true) := by
  have hsetup : (t.runSetup checked stopped).1.timerStop = t.timerStop ∧
      (t.runSetup checked stopped).1.cancelled = t.cancelled := by
    unfold runSetup
    split
    · dsimp only
      split <;> exact ⟨rfl, rfl⟩
    · exact ⟨rfl, rfl⟩
  have hrest : ∀ t' : TaskTimer, (t'.runRest task ran).1.timerStop = t'.timerStop ∧
      ((t'.runRest task ran).1.cancelled = t'.cancelled ∨
        (t'.runRest task ran).1.cancelled = t'.cancelled.set task true) := by
    intro t'
    unfold runRest
    split
    · dsimp only
      split
      · exact ⟨rfl, Or.inr rfl⟩
      · exact ⟨rfl, Or.inl rfl⟩
    · exact ⟨rfl, Or.inl rfl⟩
  unfold run
  split
  · exact ⟨rfl, Or.inr rfl⟩
  · have h := hrest (t.runSetup checked stopped).1
    rw [hsetup.1, hsetup.2] at h
    exact h

theorem taskSpecSent_schedule (now : Int64) :
    (t.taskSpecSent now).1.timerStop = t.timerStop ∧
      (t.taskSpecSent now).1.cancelled = t.cancelled := by
  unfold taskSpecSent
  split <;> exact ⟨rfl, rfl⟩

/-- A task tells nothing while the timer is stopped. -/
theorem run_silent (task : Nat) (checked stopped ran : Int64) (hstop : t.timerStop = true) :
    (t.run task checked stopped ran).2 = [] := by
  unfold run
  rw [if_pos hstop]

end TaskTimer

/-- The actions and the schedule: a start that takes effect adds a task, the others add
    none and make none effective. -/
theorem TimerAction.run_cases (t : TaskTimer) (l : TimerAction) :
    (t.timerStop = true ∧ (l.run t).1.timerStop = false ∧
        (l.run t).1.cancelled = t.cancelled ++ [false] ∧
        ∃ configTime runTime now, l = .startNewTimer configTime runTime now) ∨
      (((l.run t).1.timerStop = false → t.timerStop = false) ∧
        ((l.run t).1.cancelled = t.cancelled ∨
          ∃ task, (l.run t).1.cancelled = t.cancelled.set task true)) := by
  cases l with
  | startNewTimer configTime runTime now =>
    show (_ ∧ (t.startNewTimer configTime runTime now).1.timerStop = false ∧ _) ∨ _
    by_cases hstop : t.timerStop = true
    · refine Or.inl ⟨hstop, ?_, ?_, configTime, runTime, now, rfl⟩
      · rw [TaskTimer.startNewTimer, if_pos hstop]
      · show (t.startNewTimer configTime runTime now).1.cancelled = _
        rw [TaskTimer.startNewTimer, if_pos hstop]
    · have hsame : t.startNewTimer configTime runTime now = (t, []) := if_neg hstop
      refine Or.inr ⟨fun _ => by simpa using hstop, Or.inl ?_⟩
      exact congrArg (fun r => r.1.cancelled) hsame
  | stopTimer => exact Or.inr ⟨fun h => absurd h.symm Bool.false_ne_true, Or.inl rfl⟩
  | resetTimer => exact Or.inr ⟨fun h => absurd h.symm Bool.false_ne_true, Or.inl rfl⟩
  | taskSpecSent now =>
    have hsent := t.taskSpecSent_schedule now
    exact Or.inr ⟨fun h => hsent.1.symm.trans h, Or.inl hsent.2⟩
  | tick task checked stopped ran =>
    obtain ⟨hstop, hcancelled⟩ := t.run_schedule task checked stopped ran
    exact Or.inr ⟨fun h => hstop.symm.trans h, hcancelled.imp_right fun h => ⟨task, h⟩⟩

/-- The invariant: the effective task is the last one, a stop lies behind a start while
    the timer runs, and stops have been final. -/
structure Scheduled (s : TimerRun) : Prop where
  last : ∀ task, s.timer.Effective task → task + 1 = s.timer.cancelled.length
  stops : ∀ e ∈ s.history, e.IsStop →
    e.before.cancelled.length ≤ s.timer.cancelled.length ∧
      (s.timer.timerStop = false → e.before.cancelled.length < s.timer.cancelled.length)
  final : ∀ later e earlier, s.history = later ++ e :: earlier → e.IsStop →
    ∀ e' ∈ later, ∀ task, e'.IsTick task → e'.Tells → ¬ task < e.before.cancelled.length

variable {s s' : TimerRun} {l : TimerAction}

/-- The effective task is the one that the latest start has scheduled. -/
theorem Scheduled.last_step (h : Scheduled s) (hfresh : StartsFresh s l)
    (hstep : taskTimer.step s l s') :
    ∀ task, s'.timer.Effective task → task + 1 = s'.timer.cancelled.length := by
  obtain ⟨-, rfl⟩ := hstep
  rintro task ⟨htask, hstop⟩
  have htask' : (l.run s.timer).1.cancelled[task]? = some false := htask
  show task + 1 = (l.run s.timer).1.cancelled.length
  rcases l.run_cases s.timer with ⟨hstopped, -, hadded, configTime, runTime, now, rfl⟩ |
    ⟨hrun, hcancelled⟩
  · -- all others are cancelled
    rw [hadded] at htask' ⊢
    have hnot : ¬ task < s.timer.cancelled.length := by
      intro hlt
      rw [List.getElem?_append_left hlt] at htask'
      have hold := hfresh hstopped false (List.mem_of_getElem? htask')
      exact Bool.false_ne_true hold
    have hlt := (List.getElem?_eq_some_iff.mp htask').1
    rw [List.length_append, List.length_singleton] at hlt ⊢
    omega
  · have hstop' : s.timer.timerStop = false := hrun hstop
    rcases hcancelled with heq | ⟨task', heq⟩
    · rw [heq] at htask' ⊢
      exact h.last task ⟨htask', hstop'⟩
    · -- a task that has just cancelled itself is not effective
      rw [heq] at htask' ⊢
      have hne : task' ≠ task := by
        rintro rfl
        obtain ⟨hlt, hval⟩ := List.getElem?_eq_some_iff.mp htask'
        simp at hval
      rw [List.getElem?_set_ne hne] at htask'
      rw [List.length_set]
      exact h.last task ⟨htask', hstop'⟩

theorem Scheduled.stops_step (h : Scheduled s) (hstep : taskTimer.step s l s') :
    ∀ e ∈ s'.history, e.IsStop →
      e.before.cancelled.length ≤ s'.timer.cancelled.length ∧
        (s'.timer.timerStop = false → e.before.cancelled.length < s'.timer.cancelled.length) := by
  obtain ⟨-, rfl⟩ := hstep
  intro e he hstopped
  show _ ≤ (l.run s.timer).1.cancelled.length ∧
    ((l.run s.timer).1.timerStop = false → _ < (l.run s.timer).1.cancelled.length)
  rcases List.mem_cons.mp he with rfl | he
  · -- the stop itself
    rcases hstopped with hl | hl
    · obtain rfl : l = .stopTimer := hl
      exact ⟨Nat.le_refl _, fun hrun => absurd hrun.symm Bool.false_ne_true⟩
    · obtain rfl : l = .resetTimer := hl
      exact ⟨Nat.le_refl _, fun hrun => absurd hrun.symm Bool.false_ne_true⟩
  · obtain ⟨hle, hlt⟩ := h.stops e he hstopped
    rcases l.run_cases s.timer with ⟨-, -, hadded, -⟩ | ⟨hrun, hcancelled⟩
    · -- the new task lies behind every stop
      rw [hadded, List.length_append, List.length_singleton]
      exact ⟨by omega, fun _ => by omega⟩
    · have hlen : (l.run s.timer).1.cancelled.length = s.timer.cancelled.length := by
        rcases hcancelled with heq | ⟨task, heq⟩
        · rw [heq]
        · rw [heq, List.length_set]
      rw [hlen]
      exact ⟨hle, fun hrun' => hlt (hrun hrun')⟩

/-- What a task tells now, it tells as the effective one. -/
theorem Scheduled.final_step (h : Scheduled s) (hstep : taskTimer.step s l s') :
    ∀ later e earlier, s'.history = later ++ e :: earlier → e.IsStop →
      ∀ e' ∈ later, ∀ task, e'.IsTick task → e'.Tells → ¬ task < e.before.cancelled.length := by
  obtain ⟨henabled, rfl⟩ := hstep
  intro later e earlier hhistory hstopped e' he' task htick htells
  cases later with
  | nil => exact absurd he' List.not_mem_nil
  | cons e'' later =>
    obtain ⟨rfl, htail⟩ := List.cons.inj hhistory
    rcases List.mem_cons.mp he' with rfl | hlater
    · -- the last event: the timer runs, and the task is the last one
      obtain ⟨checked, stopped, ran, hl⟩ := htick
      obtain rfl : l = .tick task checked stopped ran := hl
      have hrun : s.timer.timerStop = false := by
        by_contra hne
        have hnil := s.timer.run_silent task checked stopped ran (by simpa using hne)
        rcases htells with ⟨currentTime, inTime, hmem⟩ | hmem
        · exact absurd (hnil ▸ hmem) List.not_mem_nil
        · exact absurd (hnil ▸ hmem) List.not_mem_nil
      have hlast := h.last task ⟨henabled, hrun⟩
      have hmem : e ∈ s.history := htail ▸ List.mem_append_right _ List.mem_cons_self
      have hlt := (h.stops e hmem hstopped).2 hrun
      omega
    · exact h.final later e earlier htail hstopped e' hlater task htick htells

theorem Scheduled.step (h : Scheduled s) (hfresh : StartsFresh s l)
    (hstep : taskTimer.step s l s') : Scheduled s' :=
  ⟨h.last_step hfresh hstep, h.stops_step hstep, h.final_step hstep⟩

/-- A start in front of a task that is not cancelled makes two tasks effective. -/
theorem not_stopIsFinal (hstep : taskTimer.step s l s') (hfresh : ¬ StartsFresh s l) :
    ¬ StopIsFinal s' := by
  obtain ⟨-, rfl⟩ := hstep
  cases l with
  | startNewTimer configTime runTime now =>
    obtain ⟨hstop, hleft⟩ := Classical.not_imp.mp hfresh
    have hmem : false ∈ s.timer.cancelled := by simpa using hleft
    obtain ⟨task, htask⟩ := List.getElem?_of_mem hmem
    have hlt := (List.getElem?_eq_some_iff.mp htask).1
    have hstarted : (s.timer.startNewTimer configTime runTime now).1.cancelled =
        s.timer.cancelled ++ [false] ∧
        (s.timer.startNewTimer configTime runTime now).1.timerStop = false := by
      rw [TaskTimer.startNewTimer, if_pos hstop]
      exact ⟨rfl, rfl⟩
    intro h
    -- the old task and the new one
    have hold : (s.timer.startNewTimer configTime runTime now).1.Effective task := by
      refine ⟨?_, hstarted.2⟩
      rw [hstarted.1, List.getElem?_append_left hlt, htask]
    have hnew : (s.timer.startNewTimer configTime runTime now).1.Effective
        s.timer.cancelled.length := by
      refine ⟨?_, hstarted.2⟩
      rw [hstarted.1, List.getElem?_concat_length]
    have heq := h.single _ _ hold hnew
    omega
  | stopTimer | resetTimer | taskSpecSent _ | tick _ _ _ _ => exact absurd trivial hfresh

/-! ### Runs -/

/-- **Stopping is final.** In every run in which a start takes effect only when all
    earlier tasks are cancelled, no task tells a tick or an overrun behind a stop or a
    reset that it was scheduled before, and at most one task is effective. Any other
    start makes two tasks effective. -/
theorem stop_is_final (s : TimerRun) :
    (Reachable (taskTimer.restrict StartsFresh) s → StopIsFinal s) ∧
      ∀ l s', taskTimer.step s l s' → ¬ StartsFresh s l → ¬ StopIsFinal s' := by
  have hscheduled : ∀ s, Reachable (taskTimer.restrict StartsFresh) s → Scheduled s := by
    apply invariant
    · intro s hs
      rw [show s = { clock := s.clock } from hs]
      refine ⟨fun task h => ?_, fun e he => absurd he List.not_mem_nil, ?_⟩
      · exact absurd h.1 (by simp)
      · intro later e earlier h
        exact absurd h.symm (by simp)
    · intro s l s' h hstep
      exact h.step hstep.1 hstep.2
  refine ⟨fun hs => ⟨(hscheduled s hs).final, fun task task' h h' => ?_⟩,
    fun l s' => not_stopIsFinal⟩
  have hlast := (hscheduled s hs).last task h
  have hlast' := (hscheduled s hs).last task' h'
  omega

/-- A run that is stopped; its task notices, and the next one starts. -/
theorem stop_is_final_once : ∃ s, Reachable (taskTimer.restrict StartsFresh) s ∧
    StopIsFinal s ∧ s.timer.cancelled = [true, false] ∧ s.timer.Effective 1 := by
  have hstarted : Reachable (taskTimer.restrict StartsFresh) _ :=
    .step (TimerAction.startNewTimer 60 60 0) (.init (rfl : (⟨{}, 0, []⟩ : TimerRun) = _))
      ⟨fun _ b hb => absurd hb List.not_mem_nil, trivial, rfl⟩
  have hstopped : Reachable (taskTimer.restrict StartsFresh) _ :=
    .step TimerAction.stopTimer hstarted ⟨trivial, trivial, rfl⟩
  have hnoticed : Reachable (taskTimer.restrict StartsFresh) _ :=
    .step (TimerAction.tick 0 10 10 10) hstopped ⟨trivial, rfl, rfl⟩
  have hagain : Reachable (taskTimer.restrict StartsFresh) _ :=
    .step (TimerAction.startNewTimer 60 60 15) hnoticed ⟨fun _ => by decide, trivial, rfl⟩
  exact ⟨_, hagain, (stop_is_final _).1 hagain, rfl, rfl, rfl⟩

/-- A run is stopped and another one started before the task of the first one runs
    again: it goes on to tell ticks. -/
theorem stop_is_not_final : ∃ s, Run taskTimer { clock := 0 }
    [.startNewTimer 60 60 0, .stopTimer, .startNewTimer 60 60 5, .tick 0 10 10 10] s ∧
      s.timer.Effective 0 ∧ s.timer.Effective 1 ∧ ¬ StopIsFinal s := by
  refine ⟨_,
    .cons (TimerAction.startNewTimer _ _ _) (And.intro trivial rfl) <|
    .cons TimerAction.stopTimer (And.intro trivial rfl) <|
    .cons (TimerAction.startNewTimer _ _ _) (And.intro trivial rfl) <|
    .cons (TimerAction.tick _ _ _ _) (And.intro rfl rfl) <| .nil _,
    ⟨rfl, rfl⟩, ⟨rfl, rfl⟩, fun h => ?_⟩
  refine h.final [_, _] _ [_] rfl (Or.inl rfl) _ List.mem_cons_self 0 ⟨10, 10, 10, rfl⟩ ?_ ?_
  · exact Or.inl ⟨5, true, by decide⟩
  · decide

end RefereeBox
