import RefereeBox.Editing.Branches
import RefereeBox.Model.XmlEncoder
import RefereeBox.Text.BttText
import RefereeBox.Text.CttText
import RefereeBox.Text.Restore

/-! # When the Encoders Return

  The BTT and CTT loops read one task ahead and take an empty task for the
  end of the list. They do not end

  * behind a last task that the empty task continues: one without a
    situation, or without place and configuration;
  * in CTT, in front of a section with another situation than the three, since
    no branch of the loop reads on.

  A section without a situation in front of the end is itself taken for the
  end: the loops stop there.
-/

namespace RefereeBox

open Loop ControlBreak

/-- The tests of the loops against the sentinel, whose fields are empty. -/
theorem joins_sentinel_iff (situation place configuration : Text) :
    (decide ([] = place) && decide ([] = configuration) || decide ([] = situation)) = true ↔
      ¬ (situation ≠ [] ∧ (place ≠ [] ∨ configuration ≠ [])) := by
  by_cases h1 : situation = [] <;> by_cases h2 : place = [] <;>
    by_cases h3 : configuration = [] <;> simp [h1, h2, h3, eq_comm]

/-! ### BTT -/

/-- A last task behind which the loops stop. -/
def BttTask.Closing (t : BttTask) : Prop :=
  t.situation ≠ [] ∧ (t.place ≠ [] ∨ t.getConfiguration ≠ [])

instance (t : BttTask) : Decidable t.Closing := inferInstanceAs (Decidable (_ ∧ (_ ∨ _)))

/-- A list whose text is printed in finitely many rounds: a section behind the
    first one has no situation, or the last task is a closing one. -/
def BttTask.Ends (L : List BttTask) : Prop :=
  (∃ S ∈ (L.splitBy BttTask.joined).tail, (S.headD {}).situation = []) ∨
    ∀ t ∈ L.getLast?, t.Closing

instance (L : List BttTask) : Decidable (BttTask.Ends L) := inferInstanceAs (Decidable (_ ∨ _))

theorem BttTask.joined_sentinel_iff (t : BttTask) : BttTask.joined t {} = true ↔ ¬ t.Closing :=
  joins_sentinel_iff t.situation t.place t.getConfiguration

theorem BttTask.Closing.stops {t : BttTask} (h : t.Closing) : BttTask.joined t {} = false := by
  by_contra hjoined
  exact (joined_sentinel_iff t).mp (by simpa using hjoined) h

theorem stable_bttSection (s : Cursor BttTask Text) : Stable (bttSection s) :=
  stable_bind (stable_sectionLoop _) fun _ => stable_pure _

/-- A round of the outermost loop reads its section, whatever it writes. -/
theorem bttSection_next {S rest : List BttTask} (hS : S ≠ [])
    (hjoin : S.IsChain fun a b => BttTask.joined a b = true)
    (hstop : ∀ a ∈ S.getLast?, BttTask.joined a (rest.headD {}) = false) (s : Text) (p : BttTask) :
    ∃ s' p', Converges (bttSection (Cursor.before {} s p (S ++ rest)))
      (Cursor.before {} s' p' rest) := by
  -- the section is read to its end, and then the footer is written
  obtain ⟨p', hloop⟩ := sectionLoop_converges (r := bttReport) S rest hS hjoin hstop
    (s ++ (Cursor.before ({} : BttTask) s p (S ++ rest)).current.situation ++ "situation(".toList) p
  have hfooter : ∀ c : Cursor BttTask Text,
      bttFooter c = { c with out := (bttFooter c).out } := by
    intro c
    by_cases hmore : c.current.situation.length ≠ 0 <;> simp [bttFooter, hmore]
  have hprint := converges_map bttFooter hloop
  rw [hfooter] at hprint
  exact ⟨_, p', hprint⟩

theorem bttSection_not_returns {S : List BttTask} (hS : S ≠ [])
    (hjoin : S.IsChain fun a b => BttTask.joined a b = true)
    (hlast : ∀ a ∈ S.getLast?, ¬ a.Closing) (s : Text) (p : BttTask) :
    ¬ Returns (bttSection (Cursor.before {} s p S)) := by
  have hnever := sectionLoop_not_returns (r := bttReport) rfl hS hjoin
    (fun a ha => (BttTask.joined_sentinel_iff a).mpr (hlast a ha))
    (s ++ (Cursor.before ({} : BttTask) s p S).current.situation ++ "situation(".toList) p
  rintro hreturns
  obtain ⟨c, hc, -⟩ := (returns_bind_iff (stable_sectionLoop _)).mp hreturns
  exact hnever ⟨c, hc⟩

/-- The outermost loop in front of sections of the list. The induction is on
    the sections: behind each of them the loop leaves, goes on, or, in the last
    one, does not come out of the section. -/
theorem bttLoop_returns_iff {L : List BttTask} {Ss : List (List BttTask)}
    (hsuff : Ss <:+ L.splitBy BttTask.joined) (hne : Ss ≠ []) (s : Text) (p : BttTask) :
    Returns (doWhile bttSection (fun c => c.current.situation.length ≠ 0)
        (Cursor.before {} s p Ss.flatten)) ↔
      (∃ S ∈ Ss.tail, (S.headD {}).situation = []) ∨ ∀ t ∈ Ss.flatten.getLast?, t.Closing := by
  induction Ss generalizing s p with
  | nil => exact absurd rfl hne
  | cons S Ss ih =>
    have hmem : S ∈ L.splitBy BttTask.joined := hsuff.subset List.mem_cons_self
    have hS := List.ne_nil_of_mem_splitBy hmem
    have hjoin := List.isChain_of_mem_splitBy hmem
    cases Ss with
    | nil =>
      rw [List.flatten_singleton, List.tail_cons, forall_mem_getLast? hS]
      -- behind the last section the loop reads the sentinel
      have hreturns : Returns (doWhile bttSection (fun c => c.current.situation.length ≠ 0)
          (Cursor.before {} s p S)) ↔ (S.getLast hS).Closing := by
        apply returns_doWhile_last stable_bttSection
        · intro hclosing
          have hstop : ∀ a ∈ S.getLast?, BttTask.joined a (([] : List BttTask).headD {}) = false :=
            (forall_mem_getLast? hS).mpr hclosing.stops
          obtain ⟨s', p', hround⟩ := bttSection_next hS hjoin hstop s p
          rw [List.append_nil] at hround
          exact ⟨_, hround, rfl⟩
        · intro hopen
          exact bttSection_not_returns hS hjoin ((forall_mem_getLast? hS).mpr hopen) s p
      rw [hreturns]
      simp
    | cons T Ss =>
      obtain ⟨s', p', hround⟩ := bttSection_next hS hjoin
        (break_of_suffix hsuff (List.cons_ne_nil T Ss) {}) s p
      have hT := List.ne_nil_of_mem_splitBy (hsuff.subset (List.mem_cons_of_mem S List.mem_cons_self))
      have hrest := ih ((List.suffix_cons S _).trans hsuff) (List.cons_ne_nil T Ss) s' p'
      rw [List.flatten_cons, returns_doWhile_of_converges stable_bttSection hround, hrest,
        ← List.flatten_cons, getLast?_flatten_cons S hT, List.tail_cons, List.tail_cons,
        Cursor.before_current, headD_flatten_cons hT]
      -- the loop goes on exactly when the task read ahead has a situation
      by_cases hempty : (T.headD {}).situation = []
      · rw [hempty]
        exact iff_of_true (fun h => absurd h (by decide))
          (Or.inl ⟨T, List.mem_cons_self, hempty⟩)
      · have hmore : decide ((T.headD {}).situation.length ≠ 0) = true := by simpa using hempty
        have hcons : (∃ S ∈ T :: Ss, (S.headD {}).situation = []) ↔
            ∃ S ∈ Ss, (S.headD {}).situation = [] := by
          rw [List.exists_mem_cons_iff]
          exact or_iff_right hempty
        rw [hcons]
        exact ⟨fun h => h hmore, fun h _ => h⟩

theorem stable_bttString (s : Text) (L : List BttTask) : Stable (bttString s L) := by
  cases L with
  | nil => exact stable_pure s
  | cons btt itBtt =>
    exact stable_bind (stable_doWhile stable_bttSection _) fun _ => stable_pure _

theorem bttString_returns_iff (s : Text) (L : List BttTask) :
    Returns (bttString s L) ↔ BttTask.Ends L := by
  cases L with
  | nil => exact iff_of_true (returns_pure s) (Or.inr fun _ h => absurd h (by simp))
  | cons btt itBtt =>
    have hloop := bttLoop_returns_iff List.suffix_rfl
      (List.splitBy_ne_nil.mpr (List.cons_ne_nil btt itBtt)) s {}
    rw [List.flatten_splitBy] at hloop
    exact (returns_map_iff (stable_doWhile stable_bttSection _) _).trans hloop

/-! ### CTT -/

def CttTask.Closing (t : CttTask) : Prop :=
  t.situation ≠ [] ∧ (t.place ≠ [] ∨ t.getConfiguration ≠ [])

instance (t : CttTask) : Decidable t.Closing := inferInstanceAs (Decidable (_ ∧ (_ ∨ _)))

/-- A list whose text is printed in finitely many rounds: the first section
    with another situation than the three has none at all, or there is no such
    section and the last task is a closing one. -/
def CttTask.Ends (L : List CttTask) : Prop :=
  match (L.splitBy CttTask.joined).find? fun S => (S.headD {}).situation ∉ cttSituations with
  | some S => (S.headD {}).situation = []
  | none => ∀ t ∈ L.getLast?, t.Closing

theorem CttTask.joined_sentinel_iff (t : CttTask) : CttTask.joined t {} = true ↔ ¬ t.Closing :=
  joins_sentinel_iff t.situation t.place t.getConfiguration

theorem CttTask.Closing.stops {t : CttTask} (h : t.Closing) : CttTask.joined t {} = false := by
  by_contra hjoined
  exact (joined_sentinel_iff t).mp (by simpa using hjoined) h

theorem stable_cttSectionPart (write : (Text → Text) → TeamStrings → TeamStrings)
    (y : Layout CttTask Char) (header footer : Text) (s : Cursor CttTask TeamStrings) :
    Stable (cttSectionPart write y header footer s) :=
  stable_bind (stable_sectionLoop _) fun _ => stable_pure _

theorem stable_cttSection (s : Cursor CttTask TeamStrings) : Stable (cttSection s) := by
  unfold cttSection
  by_cases h1 : s.current.situation = "initial".toList
  · rw [if_pos h1]
    exact stable_cttSectionPart _ _ _ _ s
  · by_cases h2 : s.current.situation = "team1Goal".toList
    · rw [if_neg h1, if_pos h2]
      exact stable_cttSectionPart _ _ _ _ s
    · by_cases h3 : s.current.situation = "team2Goal".toList
      · rw [if_neg h1, if_neg h2, if_pos h3]
        exact stable_cttSectionPart _ _ _ _ s
      · rw [if_neg h1, if_neg h2, if_neg h3]
        exact stable_pure s

/-- In front of any other situation a round does nothing. -/
theorem cttSection_skip {s : Cursor CttTask TeamStrings} (h : s.current.situation ∉ cttSituations) :
    cttSection s = pure s := by
  have h1 : s.current.situation ≠ "initial".toList := fun h' => h (by rw [h']; decide)
  have h2 : s.current.situation ≠ "team1Goal".toList := fun h' => h (by rw [h']; decide)
  have h3 : s.current.situation ≠ "team2Goal".toList := fun h' => h (by rw [h']; decide)
  unfold cttSection
  rw [if_neg h1, if_neg h2, if_neg h3]

theorem cttSectionPart_not_returns (write : (Text → Text) → TeamStrings → TeamStrings)
    (y : Layout CttTask Char) (header footer : Text) {S : List CttTask} (hS : S ≠ [])
    (hjoin : S.IsChain fun a b => CttTask.joined a b = true)
    (hlast : ∀ a ∈ S.getLast?, ¬ a.Closing) (o : TeamStrings) (p : CttTask) :
    ¬ Returns (cttSectionPart write y header footer (Cursor.before {} o p S)) := by
  have hnever := sectionLoop_not_returns (r := cttReport write y) rfl hS hjoin
    (fun a ha => (CttTask.joined_sentinel_iff a).mpr (hlast a ha)) (write (· ++ header) o) p
  rintro hreturns
  obtain ⟨c, hc, -⟩ := (returns_bind_iff (stable_sectionLoop _)).mp hreturns
  exact hnever ⟨c, hc⟩

theorem cttSection_not_returns {S : List CttTask} (hS : S ≠ [])
    (hjoin : S.IsChain fun a b => CttTask.joined a b = true)
    (hlast : ∀ a ∈ S.getLast?, ¬ a.Closing) (hsit : (S.headD {}).situation ∈ cttSituations)
    (o : TeamStrings) (p : CttTask) : ¬ Returns (cttSection (Cursor.before {} o p S)) := by
  have hpart := fun write y header footer =>
    cttSectionPart_not_returns write y header footer hS hjoin hlast o p
  unfold cttSection
  rw [Cursor.before_current]
  by_cases h1 : (S.headD {}).situation = "initial".toList
  · rw [if_pos h1]
    exact hpart _ _ _ _
  · by_cases h2 : (S.headD {}).situation = "team1Goal".toList
    · rw [if_neg h1, if_pos h2]
      exact hpart _ _ _ _
    · have h3 : (S.headD {}).situation = "team2Goal".toList := by
        rcases List.mem_cons.mp hsit with h | hsit
        · exact absurd h h1
        · rcases List.mem_pair.mp hsit with h | h
          · exact absurd h h2
          · exact h
      rw [if_neg h1, if_neg h2, if_pos h3]
      exact hpart _ _ _ _

/-- The outermost loop in front of a section that no branch is for: it stops
    at once, or never. -/
theorem cttLoop_other {s : Cursor CttTask TeamStrings} (h : s.current.situation ∉ cttSituations) :
    Returns (doWhile cttSection (fun c => c.current.situation.length ≠ 0) s) ↔
      s.current.situation = [] := by
  have hround : Converges (cttSection s) s := by
    rw [cttSection_skip h]
    exact converges_pure s
  -- the loop sees the same task again in every round
  by_cases hempty : s.current.situation = []
  · rw [returns_doWhile_of_converges stable_cttSection hround]
    refine iff_of_true (fun hmore => ?_) hempty
    rw [hempty] at hmore
    exact absurd hmore Bool.false_ne_true
  · refine iff_of_false (doWhile_diverges (I := fun c => c = s) ?_ rfl).not_returns hempty
    rintro c rfl n c' hc'
    rw [cttSection_skip h] at hc'
    have hc' : c = c' := Option.some.inj hc'
    rw [← hc']
    exact ⟨by simpa using hempty, rfl⟩

/-- The outermost loop in front of sections of the list. -/
theorem cttLoop_returns_iff {L : List CttTask} {Ss : List (List CttTask)}
    (hsuff : Ss <:+ L.splitBy CttTask.joined) (hne : Ss ≠ []) (o : TeamStrings) (p : CttTask) :
    Returns (doWhile cttSection (fun c => c.current.situation.length ≠ 0)
        (Cursor.before {} o p Ss.flatten)) ↔
      match Ss.find? fun S => (S.headD {}).situation ∉ cttSituations with
      | some S => (S.headD {}).situation = []
      | none => ∀ t ∈ Ss.flatten.getLast?, t.Closing := by
  induction Ss generalizing o p with
  | nil => exact absurd rfl hne
  | cons S Ss ih =>
    have hmem : S ∈ L.splitBy CttTask.joined := hsuff.subset List.mem_cons_self
    have hS := List.ne_nil_of_mem_splitBy hmem
    have hjoin := List.isChain_of_mem_splitBy hmem
    have hcurrent : (Cursor.before ({} : CttTask) o p (S :: Ss).flatten).current = S.headD {} :=
      headD_flatten_cons hS Ss {}
    -- a section of the three situations is read, any other one is skipped
    by_cases hsit : (S.headD {}).situation ∈ cttSituations
    · rw [List.find?_cons_of_neg (by simpa using hsit)]
      cases Ss with
      | nil =>
        rw [List.flatten_singleton, List.find?_nil]
        dsimp only
        rw [forall_mem_getLast? hS]
        apply returns_doWhile_last stable_cttSection
        · intro hclosing
          have hstop : ∀ a ∈ S.getLast?, CttTask.joined a (([] : List CttTask).headD {}) = false :=
            (forall_mem_getLast? hS).mpr hclosing.stops
          obtain ⟨p', hround⟩ := cttSection_converges hS hjoin hstop hsit false o p
          rw [List.append_nil] at hround
          exact ⟨_, hround, rfl⟩
        · intro hopen
          exact cttSection_not_returns hS hjoin ((forall_mem_getLast? hS).mpr hopen) hsit o p
      | cons T Ss =>
        obtain ⟨p', hround⟩ := cttSection_converges hS hjoin
          (break_of_suffix hsuff (List.cons_ne_nil T Ss) {}) hsit true o p
        have hT := List.ne_nil_of_mem_splitBy
          (hsuff.subset (List.mem_cons_of_mem S List.mem_cons_self))
        have hrest := ih ((List.suffix_cons S _).trans hsuff) (List.cons_ne_nil T Ss)
          (emitCtt S true o) p'
        rw [List.flatten_cons, returns_doWhile_of_converges stable_cttSection hround, hrest,
          ← List.flatten_cons, getLast?_flatten_cons S hT, Cursor.before_current,
          headD_flatten_cons hT]
        by_cases hempty : (T.headD {}).situation = []
        · -- the section behind is taken for the end
          have hother : (T.headD {}).situation ∉ cttSituations := by
            rw [hempty]
            decide
          have hstop : ¬ decide ((T.headD {}).situation.length ≠ 0) = true := by simpa using hempty
          rw [List.find?_cons_of_pos (by simpa using hother)]
          exact iff_of_true (fun h => absurd h hstop) hempty
        · have hmore : decide ((T.headD {}).situation.length ≠ 0) = true := by simpa using hempty
          exact ⟨fun h => h hmore, fun h _ => h⟩
    · rw [List.find?_cons_of_pos (by simpa using hsit), cttLoop_other (by rwa [hcurrent]), hcurrent]

theorem stable_cttString (s : Text) (L : List CttTask) : Stable (cttString s L) := by
  cases L with
  | nil => exact stable_pure s
  | cons ctt itCtt =>
    exact stable_bind (stable_doWhile stable_cttSection _) fun _ => stable_pure _

theorem cttString_returns_iff (s : Text) (L : List CttTask) :
    Returns (cttString s L) ↔ CttTask.Ends L := by
  cases L with
  | nil => exact iff_of_true (returns_pure s) fun _ h => absurd h (by simp)
  | cons ctt itCtt =>
    have hloop := cttLoop_returns_iff List.suffix_rfl
      (List.splitBy_ne_nil.mpr (List.cons_ne_nil ctt itCtt)) ([], []) {}
    rw [List.flatten_splitBy] at hloop
    exact (returns_map_iff (stable_doWhile stable_cttSection _) _).trans hloop

/-! ### The encoders -/

/-- **The encoders return** exactly on the lists that end. -/
theorem encoders_return_iff (tS : TaskSpec) :
    (Returns (tS.getTaskSpecString .btt) ↔ BttTask.Ends tS.bttTaskList) ∧
      (Returns (tS.getTaskSpecString .ctt) ↔ CttTask.Ends tS.cttTaskList) ∧
      (Returns (tS.getTaskSpecXml .ctt) ↔ CttTask.Ends tS.cttTaskList) :=
  ⟨(returns_map_iff (stable_bttString _ _) _).trans (bttString_returns_iff _ _),
    (returns_map_iff (stable_cttString _ _) _).trans (cttString_returns_iff _ _),
    (returns_map_iff (stable_cttString _ _) _).trans (cttString_returns_iff _ _)⟩

/-- The parser accepts a section without a name, and `addTask` a fourth
    situation from the configuration: both lists make the encoder hang. -/
theorem encoders_hang :
    (Converges (({} : TaskSpec).parseTaskSpecString smallTables "BTT<(S1(M20))>".toList)
        (.ok true, { bttTaskList := [⟨[], [], "S1".toList, "M20".toList, .init⟩] }) ∧
      ¬ Returns (({ bttTaskList := [⟨[], [], "S1".toList, "M20".toList, .init⟩] } :
        TaskSpec).getTaskSpecString .btt)) ∧
    ({} : TaskSpec).addTask someOrders .ctt
        (.ctt ⟨"team3Goal".toList, " ".toList, "S1".toList, "M20".toList, .init⟩) =
      (.done, { cttTaskList := [⟨"team3Goal".toList, " ".toList, "S1".toList, "M20".toList, .init⟩] }) ∧
    ¬ Returns (({ cttTaskList :=
        [⟨"team3Goal".toList, " ".toList, "S1".toList, "M20".toList, .init⟩] } :
        TaskSpec).getTaskSpecString .ctt) := by
  refine ⟨⟨?_, ?_⟩, rfl, ?_⟩
  · have hparse : parseBtt "BTT<(S1(M20))>".toList =
        ⟨[⟨[], [], "S1".toList, "M20".toList, .init⟩], false⟩ := by decide
    rw [TaskSpec.parse_of_prefix smallTables {} (c := .btt) (by decide) (by decide)]
    unfold TaskSpec.parseBranch
    simp only [hparse]
    exact converges_map _ (converges_pure _)
  · intro h
    exact absurd ((returns_map_iff (stable_bttString _ _) _).mp h) (by
      rw [bttString_returns_iff]
      decide)
  · intro h
    exact absurd ((returns_map_iff (stable_cttString _ _) _).mp h) (by
      rw [cttString_returns_iff]
      show ¬ "team3Goal".toList = []
      decide)

end RefereeBox
