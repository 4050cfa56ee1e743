import RefereeBox.Lib.Handoff
import RefereeBox.Model.YPipe

/-! # The Lock-Free Queue Hands Over

  `ypipe_t` is a `Handoff`, although the reader may take any steps between the
  compare-and-swap of a flush that fails and the assignment of `c` behind it: such
  a flush hands over its items when `c` is set.
-/

namespace RefereeBox.Zmq

open Transition

namespace YPipe

variable {α : Type}

/-- The items by where they are. -/
def handoff (p : YPipe α) : Handoff α where
  taken := p.items.take p.front
  ready := (p.items.take p.w).drop p.front
  complete := (p.items.take p.f).drop p.w
  begun := p.items.drop p.f
  asleep := p.c.isNone

/-- The order of the pointers. -/
structure Ok (p : YPipe α) : Prop where
  front : p.front ≤ p.w
  w : p.w ≤ p.f
  f : p.f ≤ p.items.length
  r : ∀ r, p.r = some r → p.front ≤ r ∧ r ≤ p.w
  c : ∀ c, p.c = some c → c = p.w
  asleep : p.c = none → p.front = p.w

theorem Ok.init : Ok ({} : YPipe α) where
  front := Nat.le_refl 0
  w := Nat.le_refl 0
  f := Nat.le_refl 0
  r r hr := by
    obtain rfl := Option.some.inj hr
    exact ⟨Nat.le_refl 0, Nat.le_refl 0⟩
  c c hc := (Option.some.inj hc).symm
  asleep hc := by cases hc

/-! ### Pieces of the list -/

theorem drop_take_append_drop {l : List α} {i j : Nat} (hij : i ≤ j) (hj : j ≤ l.length) :
    (l.take j).drop i ++ l.drop j = l.drop i := by
  have hlength : (l.take j).length = j := by
    rw [List.length_take]
    omega
  calc (l.take j).drop i ++ l.drop j
      = (l.take j).drop i ++ (l.drop j).drop (i - (l.take j).length) := by
        rw [hlength, Nat.sub_eq_zero_of_le hij, List.drop_zero]
    _ = (l.take j ++ l.drop j).drop i := List.drop_append.symm
    _ = l.drop i := by rw [List.take_append_drop]

theorem drop_take_eq_nil {l : List α} {i j : Nat} (hj : j ≤ l.length) :
    (l.take j).drop i = [] ↔ j ≤ i := by
  rw [List.drop_eq_nil_iff, List.length_take]
  omega

/-! ### The writer -/

theorem Ok.write {p : YPipe α} (h : p.Ok) (v : α) (incomplete : Bool) :
    (p.write v incomplete).Ok ∧ (p.write v incomplete).handoff = p.handoff.write v incomplete := by
  have hw := h.w
  have hf := h.f
  have hfront := h.front
  have htake : ∀ k, k ≤ p.f → (p.items ++ [v]).take k = p.items.take k := by
    intro k hk
    rw [List.take_append_of_le_length (by omega)]
  cases incomplete with
  | true =>
    constructor
    · exact {
        front := h.front
        w := h.w
        f := by
          show p.f ≤ (p.items ++ [v]).length
          rw [List.length_append]
          omega
        r := h.r
        c := h.c
        asleep := h.asleep }
    · simp only [YPipe.write, handoff, Handoff.write, if_true]
      rw [htake _ (by omega), htake _ (by omega), htake _ (by omega),
        List.drop_append_of_le_length (by omega)]
  | false =>
    constructor
    · exact {
        front := h.front
        w := by
          show p.w ≤ (p.items ++ [v]).length
          rw [List.length_append]
          omega
        f := Nat.le_refl _
        r := h.r
        c := h.c
        asleep := h.asleep }
    · have hcomplete : ((p.items ++ [v]).take (p.items ++ [v]).length).drop p.w =
          (p.items.take p.f).drop p.w ++ (p.items.drop p.f ++ [v]) := by
        rw [List.take_length, List.drop_append_of_le_length (by omega), ← List.append_assoc,
          drop_take_append_drop hw hf]
      simp only [YPipe.write, back, handoff, Handoff.write, Bool.false_eq_true, if_false]
      rw [hcomplete, htake _ (by omega), htake _ (by omega), List.drop_length]

theorem Ok.unwrite {p : YPipe α} (h : p.Ok) :
    p.unwrite.2.Ok ∧ (p.unwrite.1, p.unwrite.2.handoff) = p.handoff.unwrite := by
  have hw := h.w
  have hf := h.f
  have hfront := h.front
  unfold YPipe.unwrite back
  split
  · next heq =>
    refine ⟨h, ?_⟩
    have hbegun : p.items.drop p.f = [] := by rw [heq, List.drop_length]
    simp only [Handoff.unwrite, handoff, hbegun]
    rfl
  · next hne =>
    have htake : ∀ k, k ≤ p.f → p.items.dropLast.take k = p.items.take k := by
      intro k hk
      rw [List.dropLast_eq_take, List.take_take]
      congr 1
      omega
    constructor
    · exact {
        front := h.front
        w := h.w
        f := by
          show p.f ≤ p.items.dropLast.length
          rw [List.length_dropLast]
          omega
        r := h.r
        c := h.c
        asleep := h.asleep }
    · have hlast : p.items.getLast? = (p.items.drop p.f).getLast? := by
        rw [List.getLast?_drop, if_neg (by omega)]
      have hdrop : p.items.dropLast.drop p.f = (p.items.drop p.f).dropLast := by
        rw [List.dropLast_eq_take, List.dropLast_eq_take, List.drop_take, List.length_drop]
        congr 1
        omega
      simp only [Handoff.unwrite, handoff, hlast, hdrop]
      rw [htake _ (by omega), htake _ (by omega), htake _ (by omega)]

/-- Everything that is complete is handed over. -/
theorem Ok.setC {p : YPipe α} (h : p.Ok) : p.setC.Ok where
  front := Nat.le_trans h.front h.w
  w := Nat.le_refl _
  f := h.f
  r r hr := by
    obtain ⟨hlow, hhigh⟩ := h.r r hr
    exact ⟨hlow, Nat.le_trans hhigh h.w⟩
  c c hc := (Option.some.inj hc).symm
  asleep hc := by cases hc

theorem Ok.handoff_setC {p : YPipe α} (h : p.Ok) (hne : p.w ≠ p.f) :
    p.handoff.flush = (!p.c.isNone, p.setC.handoff) := by
  have hw := h.w
  have hf := h.f
  have hcomplete : p.handoff.complete ≠ [] := by
    intro hnil
    have hle : p.f ≤ p.w := (drop_take_eq_nil hf).mp hnil
    omega
  have hready : (p.items.take p.w).drop p.front ++ (p.items.take p.f).drop p.w =
      (p.items.take p.f).drop p.front := by
    have hlength : p.w ≤ (p.items.take p.f).length := by
      rw [List.length_take]
      omega
    have happend := drop_take_append_drop h.front hlength
    rw [List.take_take, Nat.min_eq_left hw] at happend
    exact happend
  have hnone : (p.items.take p.f).drop p.f = [] := (drop_take_eq_nil hf).mpr (Nat.le_refl _)
  unfold Handoff.flush
  rw [if_neg (by simpa using hcomplete)]
  simp only [handoff, YPipe.setC, hready, hnone]
  rfl

/-- A flush that is done at the compare-and-swap. -/
theorem Ok.flush_true {p p' : YPipe α} (h : p.Ok) (hflush : p.flush = (true, p')) :
    p'.Ok ∧ p.handoff.flush = (true, p'.handoff) := by
  unfold YPipe.flush at hflush
  split at hflush
  · next heq =>
    obtain rfl : p = p' := congrArg Prod.snd hflush
    refine ⟨h, ?_⟩
    have hcomplete : p.handoff.complete = [] := (drop_take_eq_nil h.f).mpr (by omega)
    unfold Handoff.flush
    rw [hcomplete]
    rfl
  · next hne =>
    by_cases hc : p.c = some p.w
    · simp only [cas, hc, ne_eq, not_true_eq_false, if_false, if_true] at hflush
      obtain rfl : p.setC = p' := congrArg Prod.snd hflush
      have hflushed := h.handoff_setC hne
      rw [hc] at hflushed
      exact ⟨h.setC, hflushed⟩
    · simp [cas, hc] at hflush

/-- A flush that finds the reader asleep. -/
theorem Ok.flush_false {p p' : YPipe α} (h : p.Ok) (hflush : p.flush = (false, p')) :
    p' = p ∧ p.c = none ∧ p.w ≠ p.f := by
  unfold YPipe.flush at hflush
  split at hflush
  · cases hflush
  · next hne =>
    by_cases hc : p.c = some p.w
    · simp [cas, hc] at hflush
    · simp only [cas, hc, ne_eq, not_false_eq_true, if_true, if_false, Prod.mk.injEq,
        true_and] at hflush
      refine ⟨hflush.symm, ?_, hne⟩
      cases hcc : p.c with
      | none => rfl
      | some c =>
        rw [hcc, h.c c hcc] at hc
        exact absurd rfl hc

/-! ### The reader -/

theorem checkRead_cas {p : YPipe α} (h : ¬ (some p.front ≠ p.r ∧ p.r ≠ none)) :
    p.checkRead = (decide (some p.front ≠ p.c ∧ p.c ≠ none),
      { (if p.c = some p.front then { p with c := none } else p) with r := p.c }) := by
  unfold YPipe.checkRead
  rw [if_neg h]
  rfl

/-- With something to read. -/
theorem Ok.handoff_checkRead_true {p : YPipe α} (h : p.Ok) (hlt : p.front < p.w) :
    p.handoff.checkRead = (true, p.handoff) := by
  unfold Handoff.checkRead
  split
  · next hnil =>
    have hle : p.w ≤ p.front := (drop_take_eq_nil (Nat.le_trans h.w h.f)).mp hnil
    omega
  · rfl

theorem Ok.handoff_checkRead_false {p : YPipe α} (h : p.Ok) (heq : p.front = p.w) :
    p.handoff.checkRead = (false, { p.handoff with asleep := true }) := by
  have hnil : p.handoff.ready = [] :=
    (drop_take_eq_nil (Nat.le_trans h.w h.f)).mpr (Nat.le_of_eq heq.symm)
  unfold Handoff.checkRead
  split
  · rfl
  · next hcons =>
    rw [hnil] at hcons
    cases hcons

/-- The flushed items are still where they were. -/
theorem Ok.checkRead {p p' : YPipe α} {res : Bool} (h : p.Ok) (hcheck : p.checkRead = (res, p')) :
    p'.Ok ∧ p.handoff.checkRead = (res, p'.handoff) ∧ p'.w = p.w ∧ p'.f = p.f ∧
      p'.items = p.items ∧ p'.front = p.front ∧
      (res = true → ∃ r, p'.r = some r ∧ p.front < r ∧ p'.c ≠ none) := by
  by_cases hprefetched : some p.front ≠ p.r ∧ p.r ≠ none
  · have hdone : p.checkRead = (true, p) := if_pos hprefetched
    rw [hdone] at hcheck
    obtain rfl : true = res := congrArg Prod.fst hcheck
    obtain rfl : p = p' := congrArg Prod.snd hcheck
    obtain ⟨hne, hsome⟩ := hprefetched
    obtain ⟨r, hr⟩ := Option.ne_none_iff_exists'.mp hsome
    obtain ⟨hlow, hhigh⟩ := h.r r hr
    have hlt : p.front < r := by
      rw [hr] at hne
      have hfront : p.front ≠ r := fun heq => hne (congrArg some heq)
      omega
    refine ⟨h, h.handoff_checkRead_true (by omega), rfl, rfl, rfl, rfl, fun _ => ⟨r, hr, hlt, ?_⟩⟩
    intro hc
    have hfront := h.asleep hc
    omega
  · rw [checkRead_cas hprefetched] at hcheck
    by_cases hempty : p.front = p.w
    · -- there is nothing, and `c` is NULL now
      have hres : decide (some p.front ≠ p.c ∧ p.c ≠ none) = false := by
        cases hc : p.c with
        | none => simp
        | some c => simp [hempty, h.c c hc]
      rw [hres] at hcheck
      obtain rfl : false = res := congrArg Prod.fst hcheck
      have hreads : ∀ r, p.c = some r → p.front ≤ r ∧ r ≤ p.w := by
        intro r hr
        have heq := h.c r hr
        omega
      split at hcheck
      · next hc =>
        obtain rfl : _ = p' := congrArg Prod.snd hcheck
        refine ⟨?_, h.handoff_checkRead_false hempty, rfl, rfl, rfl, rfl, fun htrue => by
          cases htrue⟩
        exact {
          front := h.front
          w := h.w
          f := h.f
          r := hreads
          c := fun c hc' => by cases hc'
          asleep := fun _ => hempty }
      · next hc =>
        obtain rfl : { p with r := p.c } = p' := congrArg Prod.snd hcheck
        have hnone : p.c = none := by
          cases hcc : p.c with
          | none => rfl
          | some c =>
            rw [hcc, h.c c hcc, hempty] at hc
            exact absurd rfl hc
        refine ⟨?_, ?_, rfl, rfl, rfl, rfl, fun htrue => by cases htrue⟩
        · exact {
            front := h.front
            w := h.w
            f := h.f
            r := hreads
            c := h.c
            asleep := h.asleep }
        · rw [h.handoff_checkRead_false hempty]
          simp only [handoff, hnone, Option.isNone_none]
    · have hlt : p.front < p.w := Nat.lt_of_le_of_ne h.front hempty
      have hc : p.c = some p.w := by
        cases hcc : p.c with
        | none => exact absurd (h.asleep hcc) hempty
        | some c => rw [h.c c hcc]
      have hne : p.c ≠ some p.front := by
        rw [hc]
        exact fun heq => hempty (Option.some.inj heq).symm
      have hres : decide (some p.front ≠ p.c ∧ p.c ≠ none) = true :=
        decide_eq_true ⟨Ne.symm hne, by simp [hc]⟩
      rw [hres, if_neg hne] at hcheck
      obtain rfl : true = res := congrArg Prod.fst hcheck
      obtain rfl : { p with r := p.c } = p' := congrArg Prod.snd hcheck
      refine ⟨?_, h.handoff_checkRead_true hlt, rfl, rfl, rfl, rfl, fun _ => ⟨p.w, hc, hlt, ?_⟩⟩
      · exact {
          front := h.front
          w := h.w
          f := h.f
          r := by
            intro r hr
            have heq := h.c r hr
            show p.front ≤ r ∧ r ≤ p.w
            omega
          c := h.c
          asleep := h.asleep }
      · show p.c ≠ none
        simp [hc]

theorem Ok.read {p p' : YPipe α} {res : Option α} (h : p.Ok) (hread : p.read = (res, p')) :
    p'.Ok ∧ p.handoff.read = (res, p'.handoff) ∧ p'.w = p.w ∧ p'.f = p.f := by
  unfold YPipe.read at hread
  cases hcheck : p.checkRead with
  | mk ok p₁ =>
    obtain ⟨hok, hhandoff, hw, hf, hitems, hfront, htrue⟩ := h.checkRead hcheck
    rw [hcheck] at hread
    cases ok with
    | false =>
      simp only [Prod.mk.injEq] at hread
      obtain ⟨rfl, rfl⟩ := hread
      exact ⟨hok, Handoff.read_of_checkRead_false hhandoff, hw, hf⟩
    | true =>
      simp only [Prod.mk.injEq] at hread
      obtain ⟨rfl, rfl⟩ := hread
      obtain ⟨r, hr, hlt, hc⟩ := htrue rfl
      have hle := (hok.r r hr).2
      refine ⟨?_, ?_, hw, hf⟩
      · exact {
          front := by
            show p₁.front + 1 ≤ p₁.w
            omega
          w := hok.w
          f := hok.f
          r := by
            intro r' hr'
            obtain rfl : r = r' := Option.some.inj (hr.symm.trans hr')
            refine ⟨?_, hle⟩
            show p₁.front + 1 ≤ r
            omega
          c := hok.c
          asleep := fun hc' => absurd hc' hc }
      · have hsame : p₁.handoff = p.handoff := Handoff.eq_of_checkRead_true hhandoff
        have hbound : p₁.front < (p₁.items.take p₁.w).length := by
          have hlength := hok.f
          have hwf := hok.w
          rw [List.length_take]
          omega
        have hbound' : p₁.front < p₁.items.length := by
          rw [List.length_take] at hbound
          omega
        have hready : p₁.handoff.ready =
            p₁.items[p₁.front] :: (p₁.items.take p₁.w).drop (p₁.front + 1) := by
          show (p₁.items.take p₁.w).drop p₁.front = _
          rw [List.drop_eq_getElem_cons hbound, List.getElem_take]
        rw [← hsame, List.getElem?_eq_getElem hbound', Handoff.read_cons hready]
        simp only [handoff, List.take_append_getElem hbound']

end YPipe

/-! ### The refinement -/

/-- The events as a `Handoff` has them. -/
def YPipeEvent.event {α : Type} : YPipeEvent α → Option (Handoff.Event α)
  | .write value incomplete => some (.write value incomplete)
  | .unwrite res => some (.unwrite res)
  | .flush true => some (.flush true)
  | .flush false => none
  | .setC => some (.flush false)
  | .checkRead res => some (.checkRead res)
  | .read res => some (.read res)

/-- While the writer has to set `c`, it stays NULL. -/
structure HandsOver {α : Type} (s : YPipe α × Bool) (h : Handoff α) : Prop where
  ok : s.1.Ok
  handoff : s.1.handoff = h
  waking : s.2 = true → s.1.c = none ∧ s.1.w ≠ s.1.f

theorem HandsOver.step {α : Type} {s s' : YPipe α × Bool} {h : Handoff α} {l : YPipeEvent α}
    (hs : HandsOver s h) (hstep : sharing.step s l s') :
    ∃ h', HandsOver s' h' ∧ ((∃ m, l.event = some m ∧ Handoff.handing.step h m h') ∨
      (l.event = none ∧ h' = h)) := by
  obtain ⟨p, waking⟩ := s
  obtain ⟨p', waking'⟩ := s'
  obtain ⟨hok, rfl, hwaking⟩ := hs
  -- the reader does not wake itself
  have hreader : ∀ {h' : Handoff α}, p'.Ok → p'.handoff = h' → p'.w = p.w → p'.f = p.f →
      (p.handoff.asleep = true → h'.asleep = true) → waking' = waking →
      HandsOver (p', waking') h' := by
    intro h' hok' hhandoff hw hf hasleep rfl
    refine ⟨hok', hhandoff, fun htrue => ?_⟩
    obtain ⟨hc, hne⟩ := hwaking htrue
    constructor
    · have hnone : p'.c.isNone = true := by
        have heq : p'.c.isNone = h'.asleep := congrArg Handoff.asleep hhandoff
        rw [heq]
        apply hasleep
        show p.c.isNone = true
        rw [hc]
        rfl
      exact Option.isNone_iff_eq_none.mp hnone
    · rw [hw, hf]
      exact hne
  cases l with
  | write v incomplete =>
    obtain ⟨-, hs'⟩ := hstep
    obtain ⟨rfl, rfl⟩ := Prod.mk.inj hs'
    obtain ⟨hok', hhandoff⟩ := hok.write v incomplete
    exact ⟨_, ⟨hok', rfl, fun htrue => by cases htrue⟩, .inl ⟨_, rfl, hhandoff⟩⟩
  | unwrite res =>
    obtain ⟨-, hunwrite, rfl⟩ := hstep
    obtain ⟨hok', hhandoff⟩ := hok.unwrite
    change p.unwrite = (res, p') at hunwrite
    rw [hunwrite] at hok' hhandoff
    exact ⟨_, ⟨hok', rfl, fun htrue => by cases htrue⟩, .inl ⟨_, rfl, hhandoff.symm⟩⟩
  | flush alive =>
    obtain ⟨-, hflush, rfl⟩ := hstep
    change p.flush = (alive, p') at hflush
    cases alive with
    | true =>
      obtain ⟨hok', hhandoff⟩ := hok.flush_true hflush
      exact ⟨_, ⟨hok', rfl, fun htrue => by cases htrue⟩, .inl ⟨_, rfl, hhandoff⟩⟩
    | false =>
      obtain ⟨rfl, hc, hne⟩ := hok.flush_false hflush
      exact ⟨_, ⟨hok, rfl, fun _ => ⟨hc, hne⟩⟩, .inr ⟨rfl, rfl⟩⟩
  | setC =>
    obtain ⟨htrue, hs'⟩ := hstep
    obtain ⟨rfl, rfl⟩ := Prod.mk.inj hs'
    obtain ⟨hc, hne⟩ := hwaking htrue
    have hhandoff := hok.handoff_setC hne
    change p.c = none at hc
    rw [hc] at hhandoff
    exact ⟨_, ⟨hok.setC, rfl, fun htrue => by cases htrue⟩, .inl ⟨_, rfl, hhandoff⟩⟩
  | checkRead res =>
    obtain ⟨hcheck, hsame⟩ := hstep
    obtain ⟨hok', hhandoff, hw, hf, -⟩ := hok.checkRead hcheck
    refine ⟨_, hreader hok' rfl hw hf ?_ hsame, .inl ⟨_, rfl, hhandoff⟩⟩
    intro hasleep
    have hsnd : p.handoff.checkRead.2 = p'.handoff := congrArg Prod.snd hhandoff
    rw [← hsnd]
    exact Handoff.asleep_checkRead hasleep
  | read res =>
    obtain ⟨hread, hsame⟩ := hstep
    obtain ⟨hok', hhandoff, hw, hf⟩ := hok.read hread
    refine ⟨_, hreader hok' rfl hw hf ?_ hsame, .inl ⟨_, rfl, hhandoff⟩⟩
    intro hasleep
    have hsnd : p.handoff.read.2 = p'.handoff := congrArg Prod.snd hhandoff
    rw [← hsnd]
    exact Handoff.asleep_read hasleep

/-- `ypipe_t` hands over. -/
def ypipeHandoff (α : Type) :
    Simulation (@sharing α) Handoff.handing YPipeEvent.event where
  rel := HandsOver
  init s hs := by
    obtain rfl : s = ({}, false) := hs
    exact ⟨{}, rfl, .init, rfl, fun htrue => by cases htrue⟩
  step s l s' h hs hstep := hs.step hstep

/-- In every order of the steps of the two threads the calls give what they give in a
    `Handoff`: the items that are read are the first of the completed ones, a read fails
    only if all flushed items were read, and a flush returns false only if the reader has
    found nothing and has to be woken. -/
theorem ypipe_hands_over {α : Type} {ls : List (YPipeEvent α)} {p : YPipe α} {waking : Bool}
    (hrun : Run sharing ({}, false) ls (p, waking)) :
    Run Handoff.handing {} (ls.filterMap YPipeEvent.event) p.handoff ∧
      Handoff.valuesRead (ls.filterMap YPipeEvent.event) ++
        (p.handoff.ready ++ p.handoff.complete) =
          (Handoff.written (ls.filterMap YPipeEvent.event) ([], [])).1 ∧
      p.handoff.begun = (Handoff.written (ls.filterMap YPipeEvent.event) ([], [])).2 ∧
      p.handoff.Sleeps := by
  obtain ⟨h, hhanding, hrel⟩ := (ypipeHandoff α).run hrun ⟨.init, rfl, fun htrue => by cases htrue⟩
  have hrel : HandsOver (p, waking) h := hrel
  obtain rfl : p.handoff = h := hrel.handoff
  obtain ⟨hwritten, htaken⟩ := Handoff.conserved hhanding
  have hcompleted := congrArg Prod.fst hwritten
  refine ⟨hhanding, ?_, (congrArg Prod.snd hwritten).symm, ?_⟩
  · have hvalues : p.handoff.taken =
        Handoff.valuesRead (ls.filterMap YPipeEvent.event) := htaken
    rw [← hvalues]
    exact hcompleted.symm
  · exact Handoff.Sleeps.of_reachable (hhanding.reachable (.init rfl))

/-- The reader looks again while the writer has found it asleep. -/
theorem ypipe_hands_over_asleep : ∃ p : YPipe Nat, p.handoff.taken = [7] ∧
    Run Handoff.handing {} [.read none, .write 7 false, .read none, .flush false, .read (some 7)]
      p.handoff := by
  have hempty : sharing.step (({}, false) : YPipe Nat × Bool) (.read none)
      ({ c := none }, false) := ⟨rfl, rfl⟩
  have hwrite : sharing.step (({ c := none }, false) : YPipe Nat × Bool) (.write 7 false)
      ({ items := [7], f := 1, c := none }, false) := ⟨rfl, rfl⟩
  have hflush : sharing.step (({ items := [7], f := 1, c := none }, false) : YPipe Nat × Bool)
      (.flush false) ({ items := [7], f := 1, c := none }, true) := ⟨rfl, rfl, rfl⟩
  have hagain : sharing.step (({ items := [7], f := 1, c := none }, true) : YPipe Nat × Bool)
      (.read none) ({ items := [7], r := none, f := 1, c := none }, true) := ⟨rfl, rfl⟩
  have hset : sharing.step
      (({ items := [7], r := none, f := 1, c := none }, true) : YPipe Nat × Bool) .setC
      ({ items := [7], w := 1, r := none, f := 1, c := some 1 }, false) := ⟨rfl, rfl⟩
  have hread : sharing.step
      (({ items := [7], w := 1, r := none, f := 1, c := some 1 }, false) : YPipe Nat × Bool)
      (.read (some 7)) ({ items := [7], front := 1, w := 1, r := some 1, f := 1, c := some 1 },
        false) := ⟨rfl, rfl⟩
  have hrun := Run.cons _ hempty (.cons _ hwrite (.cons _ hflush (.cons _ hagain (.cons _ hset
    (.cons _ hread (.nil _))))))
  exact ⟨_, rfl, (ypipe_hands_over hrun).1⟩

end RefereeBox.Zmq
