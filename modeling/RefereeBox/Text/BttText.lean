import RefereeBox.Model.Encoder
import RefereeBox.Text.Document

/-! # The BTT Text

  The loops that print a BTT list converge, and what they print is a
  document: one section for each run of neighbours that the loops do not
  separate, in it one group for each run of equal place and configuration
  (`bttDocument`).

  The innermost loop does not compare situations. So where two neighbours of
  different situations agree in place and configuration, the group runs over
  the boundary (`NoRunOver` excludes this), and the objects of the second
  situation are printed under the first.
-/

namespace RefereeBox

open Loop ControlBreak

/-! ### The document of a list -/

/-- Two neighbours that the loops do not separate by a section break. -/
def BttTask.joined (a b : BttTask) : Bool := bttReport.joined a b

/-- The group of a run of tasks. -/
def bttGroup (g : List BttTask) : ObjectGroup where
  place := (g.headD {}).place
  configuration := (g.headD {}).getConfiguration
  objects := g.map BttTask.object

/-- The section of a run of tasks. -/
def bttSituationOf (S : List BttTask) : Situation where
  name := (S.headD {}).situation
  groups := (S.splitBy fun a b => BttTask.sameGroup b a).map bttGroup

/-- The document that the loops print. -/
def bttDocument (L : List BttTask) : List Situation :=
  (L.splitBy BttTask.joined).map bttSituationOf

/-! ### Convergence -/

/-- A group is printed as its text. -/
theorem groupText_bttLayout (g : List BttTask) (hg : g ≠ []) :
    bttLayout.groupText g = (bttGroup g).text := by
  obtain ⟨a, x, rfl⟩ := List.exists_cons_of_ne_nil hg
  rfl

/-- What one round of the outermost loop appends: the section, and a
    semicolon if another one follows. -/
def emitBtt (S : List BttTask) (more : Bool) (s : Text) : Text :=
  s ++ ((bttSituationOf S).text ++ if more then ";".toList else [])

/-- The groups of a section are printed as their texts. -/
theorem putSection_bttReport (S : List BttTask) (s : Text) :
    bttReport.putSection S s = s ++ ((bttSituationOf S).groups.map ObjectGroup.text).flatten := by
  have hput : bttReport.putSection S s = s ++ bttLayout.sectionText BttTask.sameGroup S :=
    putSection_eq bttLayout {} BttTask.sameGroup BttTask.sameSituation (fun _ _ _ => rfl)
      (fun _ => rfl) S s
  have hgroups : (S.splitBy fun a b => BttTask.sameGroup b a).map bttLayout.groupText =
      (bttSituationOf S).groups.map ObjectGroup.text := by
    unfold bttSituationOf
    rw [List.map_map]
    apply List.map_congr_left
    intro g hg
    have hne : g ≠ [] := List.ne_nil_of_mem_splitBy hg
    exact groupText_bttLayout g hne
  rw [hput, Layout.sectionText, hgroups]

/-- The printed sections, one after the other. -/
theorem putAll_emitBtt (Ss : List (List BttTask)) (s : Text) :
    putAll emitBtt Ss s = s ++ documentText (Ss.map bttSituationOf) := by
  induction Ss generalizing s with
  | nil => simp [putAll, documentText, List.intercalate]
  | cons S Ss ih =>
    rw [putAll, ih]
    cases Ss <;> simp [emitBtt, documentText, List.intercalate]

section convergence
variable {L : List BttTask} (hL : ∀ t ∈ L, t.situation ≠ [] ∧ t.place ≠ [])
include hL

/-- The end marker is not joined to any task. -/
theorem joined_sentinel : ∀ a ∈ L, BttTask.joined a {} = false := by
  intro a ha
  obtain ⟨hsituation, hplace⟩ := hL a ha
  have h1 : [] ≠ a.situation := Ne.symm hsituation
  have h2 : [] ≠ a.place := Ne.symm hplace
  simp [BttTask.joined, Report.joined, bttReport, Layout.report, BttTask.sameGroup,
    BttTask.sameSituation, h1, h2]

/-- One round of the outermost loop prints the section it stands before. -/
theorem bttSection_converges {S : List BttTask} {Ss : List (List BttTask)}
    (hsuff : S :: Ss <:+ L.splitBy BttTask.joined) (s : Text) (p : BttTask) :
    ∃ p', Converges (bttSection (Cursor.before {} s p (S ++ Ss.flatten)))
      (Cursor.before {} (emitBtt S (!Ss.isEmpty) s) p' Ss.flatten) := by
  obtain ⟨hS, hjoin, hstop⟩ := stop_of_suffix hsuff (joined_sentinel hL)
  obtain ⟨a, x, rfl⟩ := List.exists_cons_of_ne_nil hS
  obtain ⟨p', hloop⟩ := sectionLoop_converges (r := bttReport) (a :: x) Ss.flatten hS hjoin hstop
    (s ++ a.situation ++ "situation(".toList) p
  refine ⟨p', ?_⟩
  -- another section follows exactly when the task read ahead has a situation
  have hmore : (Ss.flatten.head?.getD {}).situation = [] ↔ Ss = [] := by
    cases Ss with
    | nil => simp
    | cons T Ts =>
      have hmem : T ∈ L.splitBy BttTask.joined := hsuff.subset (by simp)
      obtain ⟨b, y, rfl⟩ := List.exists_cons_of_ne_nil (List.ne_nil_of_mem_splitBy hmem)
      have hb : b ∈ L := mem_of_mem_splitBy hmem List.mem_cons_self
      simp [(hL b hb).1]
  have hout : bttFooter (Cursor.before {}
      (bttReport.putSection (a :: x) (s ++ a.situation ++ "situation(".toList)) p' Ss.flatten) =
      Cursor.before {} (emitBtt (a :: x) (!Ss.isEmpty) s) p' Ss.flatten := by
    rw [putSection_bttReport]
    by_cases hSs : Ss = [] <;>
      simp [bttFooter, Cursor.before, emitBtt, Situation.text, bttSituationOf, hmore, hSs]
  rw [← hout]
  exact converges_map bttFooter hloop

/-- **The BTT loops end**, and they print the document of the list. -/
theorem bttString_converges (s : Text) :
    Converges (bttString s L) (s ++ documentText (bttDocument L)) := by
  cases L with
  | nil =>
    have : s ++ documentText (bttDocument []) = s := by
      simp [bttDocument, documentText, List.intercalate]
    rw [this]
    exact converges_pure s
  | cons btt itBtt =>
    have hne := List.splitBy_ne_nil (r := BttTask.joined).mpr (List.cons_ne_nil btt itBtt)
    have hflat := List.flatten_splitBy BttTask.joined (btt :: itBtt)
    obtain ⟨p', hloop⟩ := sweep_converges bttSection
      (fun a => a.situation.length ≠ 0) {} emitBtt _ hne
      (List.nil_notMem_splitBy _ _) (fun S Ss hsuff => bttSection_converges hL hsuff)
      (by
        intro a ha
        rw [hflat] at ha
        simp [(hL a ha).1])
      (by decide) s {}
    rw [hflat, putAll_emitBtt] at hloop
    exact converges_map _ hloop

end convergence

/-- The printed BTT text. -/
theorem getTaskSpecString_btt (tS : TaskSpec)
    (hL : ∀ t ∈ tS.bttTaskList, t.situation ≠ [] ∧ t.place ≠ []) :
    Converges (tS.getTaskSpecString .btt)
      (.ok ("BTT<".toList ++ documentText (bttDocument tS.bttTaskList) ++ ">".toList)) :=
  converges_map _ (bttString_converges hL "BTT<".toList)

/-! ### Tasks that a message can hold -/

/-- The subgoal of a task. -/
def BttTask.entry (t : BttTask) : Entry where
  situation := t.situation
  place := t.place
  configuration := t.getConfiguration
  object := t.object

/-- A task of the initial or the goal situation, with a place and an object,
    whose fields contain no delimiter of the format. -/
structure BttTask.Proper (t : BttTask) : Prop where
  situation : t.situation = "initial".toList ∨ t.situation = "goal".toList
  place_ne : t.place ≠ []
  object_ne : t.object ≠ []
  place : NoDelimiter t.place
  configuration : NoDelimiter t.configuration
  object : NoDelimiter t.object

instance BttTask.instDecidableProper (t : BttTask) : Decidable t.Proper :=
  decidable_of_iff ((t.situation = "initial".toList ∨ t.situation = "goal".toList) ∧
      (t.place ≠ [] ∧ t.object ≠ []) ∧
      NoDelimiter t.place ∧ NoDelimiter t.configuration ∧ NoDelimiter t.object)
    ⟨fun ⟨hs, ⟨hp, ho⟩, h1, h2, h3⟩ => ⟨hs, hp, ho, h1, h2, h3⟩,
      fun h => ⟨h.situation, ⟨h.place_ne, h.object_ne⟩, h.place, h.configuration, h.object⟩⟩

theorem BttTask.Proper.situation_ne {t : BttTask} (h : t.Proper) : t.situation ≠ [] := by
  rcases h.situation with h | h <;> rw [h] <;> decide

theorem BttTask.Proper.situation_plain {t : BttTask} (h : t.Proper) :
    NoDelimiter t.situation := by
  unfold NoDelimiter
  rcases h.situation with h | h <;> rw [h] <;> decide

theorem BttTask.getConfiguration_plain {t : BttTask} (h : NoDelimiter t.configuration) :
    NoDelimiter t.getConfiguration := by
  unfold BttTask.getConfiguration
  split
  · exact fun c hc => absurd hc List.not_mem_nil
  · exact h

theorem BttTask.Proper.getConfiguration {t : BttTask} (h : t.Proper) :
    NoDelimiter t.getConfiguration := BttTask.getConfiguration_plain h.configuration

theorem BttTask.Proper.fields {t : BttTask} (h : t.Proper) : NoDelimiter t.situation ∧
    NoDelimiter t.place ∧ NoDelimiter t.getConfiguration ∧ NoDelimiter t.object :=
  ⟨h.situation_plain, h.place, h.getConfiguration, h.object⟩

theorem headD_mem {α : Type} {l : List α} (hl : l ≠ []) (d : α) : l.headD d ∈ l := by
  obtain ⟨a, x, rfl⟩ := List.exists_cons_of_ne_nil hl
  exact List.mem_cons_self

/-- Every text in the document comes from the list. -/
theorem bttDocument_fields {P : Text → Prop} {L : List BttTask}
    (hL : ∀ t ∈ L, P t.situation ∧ P t.place ∧ P t.getConfiguration ∧ P t.object) :
    ∀ s ∈ bttDocument L, s.Fields P := by
  intro s hs
  obtain ⟨S, hS, rfl⟩ := List.mem_map.mp hs
  have hSL : ∀ t ∈ S, t ∈ L := fun t ht => mem_of_mem_splitBy hS ht
  have hSne : S ≠ [] := List.ne_nil_of_mem_splitBy hS
  have hgroup : ∀ g ∈ (bttSituationOf S).groups,
      P g.place ∧ P g.configuration ∧ ∀ o ∈ g.objects, P o := by
    intro g hg
    obtain ⟨x, hx, rfl⟩ := List.mem_map.mp hg
    have hxL : ∀ t ∈ x, t ∈ L := fun t ht => hSL t (mem_of_mem_splitBy hx ht)
    have hxne : x ≠ [] := List.ne_nil_of_mem_splitBy hx
    have hhead := hL _ (hxL _ (headD_mem hxne {}))
    refine ⟨hhead.2.1, hhead.2.2.1, ?_⟩
    intro o ho
    obtain ⟨t, ht, rfl⟩ := List.mem_map.mp ho
    exact (hL t (hxL t ht)).2.2.2
  exact ⟨(hL _ (hSL _ (headD_mem hSne {}))).1, fun g hg => (hgroup g hg).1,
    fun g hg => (hgroup g hg).2.1, fun g hg => (hgroup g hg).2.2⟩

theorem bttDocument_wellFormed {L : List BttTask} (hL : ∀ t ∈ L, NoDelimiter t.situation ∧
    NoDelimiter t.place ∧ NoDelimiter t.getConfiguration ∧ NoDelimiter t.object) :
    ∀ s ∈ bttDocument L, s.WellFormed := by
  intro s hs
  apply (bttDocument_fields hL s hs).wellFormed
  obtain ⟨S, _, rfl⟩ := List.mem_map.mp hs
  intro g hg
  obtain ⟨x, hx, rfl⟩ := List.mem_map.mp hg
  have hxne : x ≠ [] := List.ne_nil_of_mem_splitBy hx
  simpa [bttGroup] using hxne

/-! ### Attribution -/

/-- No group runs over a change of the situation: neighbours of different
    situations differ in place or configuration. -/
def BttTask.NoRunOver (L : List BttTask) : Prop :=
  L.IsChain fun a b => BttTask.sameGroup b a = true → b.situation = a.situation

instance BttTask.instDecidableNoRunOver (L : List BttTask) : Decidable (BttTask.NoRunOver L) :=
  inferInstanceAs (Decidable (L.IsChain _))

/-- A section attributes its objects to their own place and configuration, and
    to the situation of its first task. -/
theorem bttSituationOf_entries (S : List BttTask) :
    (bttSituationOf S).entries = S.map fun t => t.entry.under (S.headD {}).situation := by
  -- place and configuration are the same all over a group
  have hgroup : ∀ g ∈ S.splitBy (fun a b => BttTask.sameGroup b a),
      ((bttGroup g).objects.map fun object =>
        (⟨(S.headD {}).situation, (bttGroup g).place, (bttGroup g).configuration, object⟩ : Entry)) =
        g.map fun t => t.entry.under (S.headD {}).situation := by
    intro g hg
    have hkey := key_eq_head (fun t : BttTask => (t.place, t.getConfiguration)) {}
      ((List.isChain_of_mem_splitBy hg).imp (by
        intro a b hab
        simpa [BttTask.sameGroup] using hab))
    unfold bttGroup
    rw [List.map_map]
    apply List.map_congr_left
    intro t ht
    have hboth := hkey t ht
    rw [Prod.mk.injEq] at hboth
    simp only [Function.comp_apply, ← hboth.1, ← hboth.2]
    rfl
  unfold Situation.entries bttSituationOf
  rw [List.flatMap_map, List.flatMap_congr hgroup, List.flatMap_def, ← List.map_flatten,
    List.flatten_splitBy]

/-- **The document of a list** lists the list's own subgoals exactly when no
    group runs over. -/
theorem documentEntries_bttDocument_iff (L : List BttTask) :
    documentEntries (bttDocument L) = L.map BttTask.entry ↔ BttTask.NoRunOver L := by
  have hentries : documentEntries (bttDocument L) =
      (L.splitBy BttTask.joined).flatMap
        fun S => S.map fun t => t.entry.under (S.headD {}).situation := by
    unfold documentEntries bttDocument
    rw [List.flatMap_map]
    exact List.flatMap_congr fun S _ => bttSituationOf_entries S
  have hlist : L.map BttTask.entry =
      (L.splitBy BttTask.joined).flatMap fun S => S.map BttTask.entry := by
    rw [List.flatMap_def, ← List.map_flatten, List.flatten_splitBy]
  have hjoined : ∀ a b, BttTask.joined a b = true ↔
      BttTask.sameGroup b a = true ∨ b.situation = a.situation := by
    intro a b
    have : BttTask.joined a b = (BttTask.sameGroup b a || BttTask.sameSituation b a) := rfl
    rw [this, Bool.or_eq_true]
    simp [BttTask.sameSituation]
  unfold BttTask.NoRunOver
  rw [hentries, hlist, flatMap_eq_iff fun S => by simp,
    ← forall_section_key_iff BttTask.situation L {} hjoined]
  -- the entries differ in the situation only
  refine forall_congr' fun S => imp_congr_right fun _ => ?_
  rw [List.map_inj_left]
  refine forall_congr' fun t => imp_congr_right fun _ => ?_
  constructor
  · intro h
    exact (congrArg Entry.situation h).symm
  · intro h
    rw [← h]
    rfl

/-- Read a BTT message: the document between the angle brackets. -/
def readBttMessage (s : Text) : List Situation :=
  readDocument ((s.drop "BTT<".toList.length).dropLast)

theorem readBttMessage_text {d : List Situation} (hd : ∀ s ∈ d, s.WellFormed) :
    readBttMessage ("BTT<".toList ++ documentText d ++ ">".toList) = d := by
  have hcut : (("BTT<".toList ++ documentText d ++ ">".toList).drop "BTT<".toList.length).dropLast =
      documentText d := by
    rw [List.append_assoc, List.drop_left]
    exact List.dropLast_concat
  unfold readBttMessage
  rw [hcut, readDocument_documentText d hd]

/-- **Attribution.** Reading the printed BTT text section by section and group
    by group gives the subgoals of the list exactly when no two neighbours of
    different situations agree in place and configuration. -/
theorem btt_text_attribution (tS : TaskSpec) (hL : ∀ t ∈ tS.bttTaskList, t.Proper) :
    ∃ text, Converges (tS.getTaskSpecString .btt) (.ok text) ∧
      (documentEntries (readBttMessage text) = tS.bttTaskList.map BttTask.entry ↔
        BttTask.NoRunOver tS.bttTaskList) := by
  refine ⟨_, getTaskSpecString_btt tS fun t ht => ⟨(hL t ht).situation_ne, (hL t ht).place_ne⟩, ?_⟩
  rw [readBttMessage_text (bttDocument_wellFormed fun t ht => (hL t ht).fields)]
  exact documentEntries_bttDocument_iff tS.bttTaskList

/-- Two tasks at one place: the second one's situation is `goal`. -/
def twoAtOnePlace (configuration : String) : List BttTask :=
  [⟨"initial".toList, " ".toList, "S1".toList, "M20".toList, .init⟩,
    ⟨"goal".toList, configuration.toList, "S1".toList, "M30".toList, .init⟩]

theorem btt_text_attribution_line :
    ∃ text, Converges (({ bttTaskList := twoAtOnePlace "line" } : TaskSpec).getTaskSpecString .btt)
        (.ok text) ∧
      (documentEntries (readBttMessage text) = (twoAtOnePlace "line").map BttTask.entry ↔
        BttTask.NoRunOver (twoAtOnePlace "line")) :=
  btt_text_attribution { bttTaskList := twoAtOnePlace "line" } (by decide)

/-- Without a configuration the goal object of the second task is printed in
    the initial situation. -/
theorem btt_text_misattributes :
    (∀ t ∈ twoAtOnePlace " ", t.Proper) ∧
      (twoAtOnePlace " ").IsChain (fun a b => a.compareTo b ≤ 0) ∧
      Converges (({ bttTaskList := twoAtOnePlace " " } : TaskSpec).getTaskSpecString .btt)
        (.ok "BTT<initialsituation(<S1,(M20,M30)>)>".toList) ∧
      documentEntries (readBttMessage "BTT<initialsituation(<S1,(M20,M30)>)>".toList) ≠
        (twoAtOnePlace " ").map BttTask.entry := by
  refine ⟨by decide, by decide, ?_, by decide⟩
  have htext := getTaskSpecString_btt { bttTaskList := twoAtOnePlace " " } (by decide)
  have hprinted : "BTT<".toList ++ documentText (bttDocument (twoAtOnePlace " ")) ++ ">".toList =
      "BTT<initialsituation(<S1,(M20,M30)>)>".toList := by decide
  rw [← hprinted]
  exact htext

end RefereeBox
