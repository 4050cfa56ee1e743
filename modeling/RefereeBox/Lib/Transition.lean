import Mathlib.Data.List.Basic

/-! # Labelled Transition Systems

  Systems given by an initial condition and a step relation with labels, the
  states they reach, and the invariant rule. `System.restrict` keeps only the
  steps that meet a condition on the state before the step; what holds of the
  restricted system holds of every run whose steps all meet the condition.
  A `Simulation` takes the runs of one system to runs of another one.
-/

namespace Transition

/-- A labelled transition system. -/
structure System (State Label : Type) where
  init : State → Prop
  step : State → Label → State → Prop

variable {State Label : Type}

/-- The states that some run of the system reaches. -/
inductive Reachable (sys : System State Label) : State → Prop where
  | init {s : State} : sys.init s → Reachable sys s
  | step {s s' : State} (l : Label) : Reachable sys s → sys.step s l s' → Reachable sys s'

/-- The steps of `sys` that are taken in states where `cond` holds for their
    label. -/
def System.restrict (sys : System State Label) (cond : State → Label → Prop) :
    System State Label where
  init := sys.init
  step s l s' := cond s l ∧ sys.step s l s'

/-- **Invariant rule**: what holds initially and is preserved by every step
    holds in every reachable state. -/
theorem invariant {sys : System State Label} {inv : State → Prop}
    (hinit : ∀ s, sys.init s → inv s)
    (hstep : ∀ s l s', inv s → sys.step s l s' → inv s') :
    ∀ s, Reachable sys s → inv s := by
  intro s hr
  induction hr with
  | init h => exact hinit _ h
  | step l _ hs ih => exact hstep _ l _ ih hs

/-- A restricted run is a run. -/
theorem Reachable.of_restrict {sys : System State Label} {cond : State → Label → Prop}
    {s : State} (hr : Reachable (sys.restrict cond) s) : Reachable sys s := by
  induction hr with
  | init h => exact .init h
  | step l _ hs ih => exact .step l ih hs.2

/-- Running a list of labelled steps with a step function. -/
inductive Run (sys : System State Label) : State → List Label → State → Prop where
  | nil (s : State) : Run sys s [] s
  | cons {s s' s'' : State} (l : Label) {ls : List Label} :
      sys.step s l s' → Run sys s' ls s'' → Run sys s (l :: ls) s''

theorem Run.reachable {sys : System State Label} {s s' : State} {ls : List Label}
    (h : Run sys s ls s') (hs : Reachable sys s) : Reachable sys s' := by
  induction h with
  | nil => exact hs
  | cons l hstep _ ih => exact ih (.step l hs hstep)

/-- **Progress rule**: if in every state short of the goal some good step makes the measure
    smaller, then good steps lead to the goal. -/
theorem progress {sys : System State Label} {inv goal : State → Prop} {good : Label → Prop}
    (m : State → Nat)
    (hstep : ∀ s, inv s → ¬ goal s → ∃ l s', good l ∧ sys.step s l s' ∧ inv s' ∧ m s' < m s)
    {s : State} (hs : inv s) :
    ∃ ls s', (∀ l ∈ ls, good l) ∧ Run sys s ls s' ∧ inv s' ∧ goal s' := by
  induction hn : m s using Nat.strongRecOn generalizing s with
  | _ n ih =>
    by_cases hgoal : goal s
    · exact ⟨[], s, fun _ hl => absurd hl List.not_mem_nil, .nil s, hs, hgoal⟩
    · obtain ⟨l, s₁, hgood, hl, hs₁, hlt⟩ := hstep s hs hgoal
      obtain ⟨ls, s', hgoods, hrun, hinv, hgoal'⟩ := ih (m s₁) (hn ▸ hlt) hs₁ rfl
      refine ⟨l :: ls, s', ?_, .cons l hl hrun, hinv, hgoal'⟩
      intro l' hl'
      obtain rfl | hl' := List.mem_cons.mp hl'
      · exact hgood
      · exact hgoods l' hl'

/-! ### Simulation -/

section simulation
variable {AState ALabel : Type}

/-- A forward simulation. `obs` says which step of `abs` a step of `sys` is; one that is
    none leaves the abstract state. -/
structure Simulation (sys : System State Label) (abs : System AState ALabel)
    (obs : Label → Option ALabel) where
  rel : State → AState → Prop
  init : ∀ s, sys.init s → ∃ a, abs.init a ∧ rel s a
  step : ∀ s l s' a, rel s a → sys.step s l s' →
    ∃ a', rel s' a' ∧ ((∃ m, obs l = some m ∧ abs.step a m a') ∨ (obs l = none ∧ a' = a))

variable {sys : System State Label} {abs : System AState ALabel} {obs : Label → Option ALabel}

/-- A run is a run of the abstract system, with the steps that are steps of it. -/
theorem Simulation.run (sim : Simulation sys abs obs) {s s' : State} {ls : List Label}
    (h : Run sys s ls s') {a : AState} (hrel : sim.rel s a) :
    ∃ a', Run abs a (ls.filterMap obs) a' ∧ sim.rel s' a' := by
  induction h generalizing a with
  | nil => exact ⟨a, .nil a, hrel⟩
  | cons l hstep _ ih =>
    obtain ⟨a₁, hrel₁, ⟨m, hm, habs⟩ | ⟨hnone, rfl⟩⟩ := sim.step _ l _ _ hrel hstep
    · obtain ⟨a', hrun, hrel'⟩ := ih hrel₁
      rw [List.filterMap_cons_some hm]
      exact ⟨a', .cons m habs hrun, hrel'⟩
    · rw [List.filterMap_cons_none hnone]
      exact ih hrel₁

theorem Simulation.reachable (sim : Simulation sys abs obs) {s : State} (h : Reachable sys s) :
    ∃ a, Reachable abs a ∧ sim.rel s a := by
  induction h with
  | init h =>
    obtain ⟨a, ha, hrel⟩ := sim.init _ h
    exact ⟨a, .init ha, hrel⟩
  | step l _ hstep ih =>
    obtain ⟨a, ha, hrel⟩ := ih
    obtain ⟨a', hrel', ⟨m, -, habs⟩ | ⟨-, rfl⟩⟩ := sim.step _ l _ _ hrel hstep
    · exact ⟨a', .step m ha habs, hrel'⟩
    · exact ⟨a', ha, hrel'⟩

end simulation

end Transition
