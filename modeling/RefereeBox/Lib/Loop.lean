import Mathlib.Logic.Basic

/-! # Programs with Unbounded Loops

  A program whose loops may run forever is modelled as a function of a
  *fuel*: the number of rounds a loop may still make. `none` means that the
  fuel ran out. A program *converges* to a value when every large enough
  fuel gives that value, which is what "the code returns" means.

  The module provides:

  * `Prog`: the monad of such programs;
  * `Converges`: the program returns, with its composition rules;
  * `doWhile`: the loop `do body while (cond)`, with the unfolding rule and
    the total-correctness rule (invariant and variant);
  * `Stable`: more fuel does not change a value. Programs written with the
    operations above are stable, and for stable programs it can be decided
    part by part whether they return (`returns_bind_iff`,
    `returns_doWhile_iff`).
-/

namespace Loop

universe u v

/-! ### Programs -/

/-- A program: for each fuel, either a value or "not finished yet". -/
def Prog (α : Type u) : Type u := Nat → Option α

instance : Monad Prog where
  pure a := fun _ => some a
  bind p f := fun n => (p n).bind fun a => f a n

variable {α β σ : Type u}

/-- The program returns `a`: every large enough fuel gives `a`. -/
def Converges (p : Prog α) (a : α) : Prop :=
  ∃ n, ∀ m, n ≤ m → p m = some a

/-- The program never returns: no fuel is enough. -/
def Diverges (p : Prog α) : Prop := ∀ n, p n = none

theorem converges_pure (a : α) : Converges (pure a : Prog α) a :=
  ⟨0, fun _ _ => rfl⟩

theorem converges_bind {p : Prog α} {f : α → Prog β} {a : α} {b : β}
    (hp : Converges p a) (hf : Converges (f a) b) : Converges (p >>= f) b := by
  obtain ⟨n, hn⟩ := hp
  obtain ⟨k, hk⟩ := hf
  refine ⟨max n k, fun m hm => ?_⟩
  show (p m).bind (fun a => f a m) = some b
  rw [hn m (Nat.le_trans (Nat.le_max_left n k) hm), Option.bind_some]
  exact hk m (Nat.le_trans (Nat.le_max_right n k) hm)

theorem converges_map {p : Prog α} {a : α} (f : α → β) (hp : Converges p a) :
    Converges (p >>= fun x => pure (f x)) (f a) :=
  converges_bind hp (converges_pure (f a))

/-- A program returns at most one value. -/
theorem Converges.unique {p : Prog α} {a b : α}
    (ha : Converges p a) (hb : Converges p b) : a = b := by
  obtain ⟨n, hn⟩ := ha
  obtain ⟨k, hk⟩ := hb
  have h1 := hn (max n k) (Nat.le_max_left n k)
  have h2 := hk (max n k) (Nat.le_max_right n k)
  exact Option.some.inj (h1.symm.trans h2)

/-! ### The do-while loop -/

/-- The rounds of `do body while (cond)`: each round spends one unit of fuel,
    and the body runs on what is left. -/
def doWhile.rounds (body : σ → Prog σ) (cond : σ → Bool) : Nat → σ → Option σ
  | 0, _ => none
  | n + 1, s => (body s n).bind fun s' =>
      if cond s' then doWhile.rounds body cond n s' else some s'

/-- `do body while (cond)`, started in `s`. -/
def doWhile (body : σ → Prog σ) (cond : σ → Bool) (s : σ) : Prog σ :=
  fun n => doWhile.rounds body cond n s

section rules
variable {body : σ → Prog σ} {cond : σ → Bool}

/-- The last round: the body ends in a state where the condition fails. -/
theorem doWhile_exit {s s' : σ} (hb : Converges (body s) s') (hc : cond s' = false) :
    Converges (doWhile body cond s) s' := by
  obtain ⟨n, hn⟩ := hb
  refine ⟨n + 1, fun m hm => ?_⟩
  obtain ⟨k, rfl⟩ : ∃ k, m = k + 1 := ⟨m - 1, by omega⟩
  show (body s k).bind _ = some s'
  rw [hn k (by omega)]
  simp [hc]

/-- Any other round: the body ends in a state from which the loop goes on. -/
theorem doWhile_next {s s₁ s₂ : σ} (hb : Converges (body s) s₁) (hc : cond s₁ = true)
    (hloop : Converges (doWhile body cond s₁) s₂) :
    Converges (doWhile body cond s) s₂ := by
  obtain ⟨n, hn⟩ := hb
  obtain ⟨k, hk⟩ := hloop
  refine ⟨max n k + 1, fun m hm => ?_⟩
  obtain ⟨j, rfl⟩ : ∃ j, m = j + 1 := ⟨m - 1, by omega⟩
  have hj : max n k ≤ j := by omega
  show (body s j).bind _ = some s₂
  rw [hn j (Nat.le_trans (Nat.le_max_left n k) hj), Option.bind_some]
  simp only [hc, if_true]
  exact hk j (Nat.le_trans (Nat.le_max_right n k) hj)

/-- **Invariants** of a do-while loop: what holds at the start and is kept by every
    round holds of the result. The induction is on the fuel of the result. -/
theorem doWhile_invariant {I : σ → Prop}
    (hround : ∀ s, I s → ∀ n s', body s n = some s' → I s') {n : Nat} {s s' : σ} (hs : I s)
    (h : doWhile body cond s n = some s') : I s' := by
  induction n generalizing s with
  | zero => exact absurd h (by simp [doWhile, doWhile.rounds])
  | succ n ih =>
    obtain ⟨s₁, hbody, hnext⟩ := Option.bind_eq_some_iff.mp (h : (body s n).bind _ = some s')
    have hs₁ := hround s hs n s₁ hbody
    split at hnext
    · exact ih hs₁ hnext
    · rw [← Option.some.inj hnext]
      exact hs₁

/-- **Two loops in step**: a map that takes the bodies and the conditions to each
    other takes the loops to each other. The induction is on the fuel. -/
theorem doWhile_map {ρ : Type u} {body' : ρ → Prog ρ} {cond' : ρ → Bool} (h : σ → ρ)
    (hbody : ∀ s n, body' (h s) n = (body s n).map h) (hcond : ∀ s, cond' (h s) = cond s)
    (s : σ) (n : Nat) : doWhile body' cond' (h s) n = (doWhile body cond s n).map h := by
  show doWhile.rounds body' cond' n (h s) = (doWhile.rounds body cond n s).map h
  induction n generalizing s with
  | zero => rfl
  | succ n ih =>
    rw [doWhile.rounds, doWhile.rounds, hbody]
    cases body s n with
    | none => rfl
    | some s' =>
      simp only [Option.map_some, Option.bind_some, hcond]
      split
      · exact ih s'
      · rfl

end rules

/-! ### Programs that return, and programs that do not -/

/-- The program returns some value. -/
def Returns (p : Prog α) : Prop := ∃ a, Converges p a

/-- A value given at some fuel is the one that is returned. -/
def Stable (p : Prog α) : Prop := ∀ n a, p n = some a → Converges p a

theorem stable_pure (a : α) : Stable (pure a : Prog α) := by
  intro _ b h
  rw [← Option.some.inj h]
  exact converges_pure a

theorem stable_bind {p : Prog α} {f : α → Prog β} (hp : Stable p) (hf : ∀ a, Stable (f a)) :
    Stable (p >>= f) := by
  intro n b h
  obtain ⟨a, ha, hb⟩ := Option.bind_eq_some_iff.mp (h : (p n).bind (fun a => f a n) = some b)
  exact converges_bind (hp n a ha) (hf a n b hb)

theorem Diverges.not_returns {p : Prog α} (h : Diverges p) : ¬ Returns p := by
  rintro ⟨a, n, hn⟩
  have hsome := hn n (Nat.le_refl n)
  rw [h n] at hsome
  exact absurd hsome (by simp)

/-- A sequence returns when its first part does and the second one then does. -/
theorem returns_bind_iff {p : Prog α} {f : α → Prog β} (hp : Stable p) :
    Returns (p >>= f) ↔ ∃ a, Converges p a ∧ Returns (f a) := by
  constructor
  · rintro ⟨b, n, hn⟩
    obtain ⟨a, ha, -⟩ := Option.bind_eq_some_iff.mp
      (hn n (Nat.le_refl n) : (p n).bind (fun a => f a n) = some b)
    refine ⟨a, hp n a ha, b, n, fun m hm => ?_⟩
    -- at every larger fuel the first part gives the same value
    obtain ⟨a', ha', hb⟩ := Option.bind_eq_some_iff.mp
      (hn m hm : (p m).bind (fun a => f a m) = some b)
    rw [(hp n a ha).unique (hp m a' ha')]
    exact hb
  · rintro ⟨a, ha, b, hb⟩
    exact ⟨b, converges_bind ha hb⟩

theorem returns_pure (a : α) : Returns (pure a : Prog α) := ⟨a, converges_pure a⟩

theorem returns_map_iff {p : Prog α} (hp : Stable p) (f : α → β) :
    Returns (p >>= fun a => pure (f a)) ↔ Returns p := by
  rw [returns_bind_iff hp]
  exact ⟨fun ⟨a, ha, _⟩ => ⟨a, ha⟩, fun ⟨a, ha⟩ => ⟨a, ha, returns_pure (f a)⟩⟩

section loops
variable {body : σ → Prog σ} {cond : σ → Bool}

theorem stable_doWhile (hbody : ∀ s, Stable (body s)) (s : σ) : Stable (doWhile body cond s) := by
  intro n
  induction n generalizing s with
  | zero => exact fun t h => absurd h (by simp [doWhile, doWhile.rounds])
  | succ n ih =>
    intro t h
    obtain ⟨s', hs', ht⟩ := Option.bind_eq_some_iff.mp (h : (body s n).bind _ = some t)
    cases hc : cond s' with
    | false =>
      rw [hc] at ht
      rw [← Option.some.inj ht]
      exact doWhile_exit (hbody s n s' hs') hc
    | true =>
      rw [hc] at ht
      exact doWhile_next (hbody s n s' hs') hc (ih s' t ht)

/-- A loop returns when its body does and then, if it goes on, the loop. -/
theorem returns_doWhile_iff (hbody : ∀ s, Stable (body s)) (s : σ) :
    Returns (doWhile body cond s) ↔
      ∃ s', Converges (body s) s' ∧ (cond s' = true → Returns (doWhile body cond s')) := by
  constructor
  · rintro ⟨t, n, hn⟩
    obtain ⟨s', hs', -⟩ := Option.bind_eq_some_iff.mp
      (hn (n + 1) (Nat.le_succ n) : (body s n).bind _ = some t)
    have hconv := hbody s n s' hs'
    refine ⟨s', hconv, fun hc => ⟨t, n, fun m hm => ?_⟩⟩
    obtain ⟨s'', hs'', ht⟩ := Option.bind_eq_some_iff.mp
      (hn (m + 1) (by omega) : (body s m).bind _ = some t)
    rw [← hconv.unique (hbody s m s'' hs''), hc] at ht
    exact ht
  · rintro ⟨s', hs', hloop⟩
    cases hc : cond s' with
    | false => exact ⟨s', doWhile_exit hs' hc⟩
    | true =>
      obtain ⟨t, ht⟩ := hloop hc
      exact ⟨t, doWhile_next hs' hc ht⟩

/-- After a round whose result is known only the rest of the loop counts. -/
theorem returns_doWhile_of_converges (hbody : ∀ s, Stable (body s)) {s s' : σ}
    (h : Converges (body s) s') :
    Returns (doWhile body cond s) ↔ (cond s' = true → Returns (doWhile body cond s')) := by
  rw [returns_doWhile_iff hbody]
  constructor
  · rintro ⟨t, ht, hloop⟩
    rwa [h.unique ht]
  · exact fun hloop => ⟨s', h, hloop⟩

/-- A loop whose body does not return does not return either. -/
theorem not_returns_doWhile_of_body (hbody : ∀ s, Stable (body s)) {s : σ}
    (h : ¬ Returns (body s)) : ¬ Returns (doWhile body cond s) := by
  rw [returns_doWhile_iff hbody]
  rintro ⟨s', hs', -⟩
  exact h ⟨s', hs'⟩

/-- In front of what can only be its last round a loop returns when the body does. -/
theorem returns_doWhile_last (hbody : ∀ s, Stable (body s)) {s : σ} {P : Prop}
    (hround : P → ∃ s', Converges (body s) s' ∧ cond s' = false)
    (hstuck : ¬ P → ¬ Returns (body s)) : Returns (doWhile body cond s) ↔ P := by
  constructor
  · intro h
    exact Classical.byContradiction fun hP => not_returns_doWhile_of_body hbody (hstuck hP) h
  · intro hP
    obtain ⟨s', hs', hc⟩ := hround hP
    exact ⟨s', doWhile_exit hs' hc⟩

/-- **Divergence** of a do-while loop: an invariant that every round keeps, and
    under which the loop always goes on. -/
theorem doWhile_diverges {I : σ → Prop}
    (hround : ∀ s, I s → ∀ n s', body s n = some s' → cond s' = true ∧ I s') {s : σ} (hs : I s) :
    Diverges (doWhile body cond s) := by
  intro n
  induction n generalizing s with
  | zero => rfl
  | succ n ih =>
    show (body s n).bind _ = none
    cases hb : body s n with
    | none => rfl
    | some s' =>
      obtain ⟨hc, hs'⟩ := hround s hs n s' hb
      rw [Option.bind_some, hc]
      exact ih hs'

end loops

end Loop
