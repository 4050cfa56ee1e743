import RefereeBox.Model.XmlAreas

/-! # Areas Group the Objects

  The lists that the loops over BTT and PPT tasks fill are those of groups:
  the counter that the search ends with is the index of the group of the
  place, in every list, so no `get` fails. The areas printed are the groups
  of the tasks by their places.
-/

namespace RefereeBox

open Grouping

/-! ### The lists of groups -/

/-- The lists of groups. -/
def AreaLists.of {γ : Type} (gs : List (Group Text γ Text)) : AreaLists γ :=
  ⟨gs.map Group.key, gs.map Group.label, gs.map Group.items⟩

theorem searchArea_of_notMem {place : Text} {areas : List Text} (h : place ∉ areas) (n : Nat) :
    searchArea place areas n = (true, n + areas.length) := by
  induction areas generalizing n with
  | nil => rfl
  | cons q areas ih =>
    rw [List.mem_cons, not_or] at h
    rw [searchArea, if_neg h.1, ih h.2, List.length_cons]
    congr 1
    omega

/-- The search ends at the first occurrence of the place. -/
theorem searchArea_append {place : Text} {areas : List Text} (h : place ∉ areas)
    (areas' : List Text) (n : Nat) :
    searchArea place (areas ++ place :: areas') n = (false, n + areas.length) := by
  induction areas generalizing n with
  | nil => rw [List.nil_append, searchArea, if_pos rfl, List.length_nil, Nat.add_zero]
  | cons q areas ih =>
    rw [List.mem_cons, not_or] at h
    rw [List.cons_append, searchArea, if_neg h.1, ih h.2, List.length_cons]
    congr 1
    omega

/-- One task: the lists stay those of groups. -/
theorem AreaLists.addTask_of {γ : Type} (gs : List (Group Text γ Text)) (place : Text) (c : γ)
    (object : Text) :
    (AreaLists.of gs).addTask place c object = .ok (.of (add place c object gs)) := by
  unfold addTask
  by_cases hplace : place ∈ gs.map Group.key
  · obtain ⟨before, g, after, rfl, rfl, hbefore⟩ := exists_group_of_mem hplace
    have hsearch : searchArea g.key (AreaLists.of (before ++ g :: after)).areas 0 =
        (false, before.length) := by
      have := searchArea_append hbefore (after.map Group.key) 0
      simpa [AreaLists.of] using this
    have hget : listGet (AreaLists.of (before ++ g :: after)).objects before.length =
        .ok g.items := by
      simp [listGet, AreaLists.of]
    simp only [hsearch, hget, add_append_cons hbefore]
    simp [AreaLists.of, pure, Except.pure, bind, Except.bind]
  · have hsearch := searchArea_of_notMem hplace 0
    simp only [AreaLists.of] at hsearch ⊢
    simp only [hsearch, if_pos, add_of_notMem hplace]
    simp

/-! ### Gathering -/

theorem pptGather_of (place : PptTask → Text) (l : List PptTask) (gs : List (Group Text Unit Text)) :
    pptGather place l (.of gs) =
      .ok (.of (l.foldl (fun gs t => add (place t) () t.object gs) gs)) := by
  induction l generalizing gs with
  | nil => rfl
  | cons ppt l ih =>
    rw [pptGather, AreaLists.addTask_of]
    exact ih _

/-- The groups behind further tasks. -/
def addBttTasks (l : List BttTask) (gs : List XmlArea) : List XmlArea :=
  l.foldl (fun gs t => add t.place t.getConfiguration t.object gs) gs

/-- Sources and destinations are gathered side by side. -/
theorem bttGather_of (startSit endSit : Text) (l : List BttTask) (gs gsDes : List XmlArea) :
    bttGather startSit endSit l (.of gs) (.of gsDes) =
      .ok (.of (addBttTasks (bttSource startSit l) gs),
        .of (addBttTasks (bttDestination startSit endSit l) gsDes)) := by
  induction l generalizing gs gsDes with
  | nil => rfl
  | cons btt l ih =>
    unfold bttGather
    by_cases hstart : btt.situation = startSit
    · have hsource : bttSource startSit (btt :: l) = btt :: bttSource startSit l := by
        simp [bttSource, hstart]
      have hdestination : bttDestination startSit endSit (btt :: l) =
          bttDestination startSit endSit l := by
        simp [bttDestination, hstart]
      rw [if_pos hstart, AreaLists.addTask_of, hsource, hdestination]
      exact ih _ gsDes
    · have hsource : bttSource startSit (btt :: l) = bttSource startSit l := by
        simp [bttSource, hstart]
      rw [if_neg hstart, hsource]
      by_cases hend : btt.situation = endSit
      · have hdestination : bttDestination startSit endSit (btt :: l) =
            btt :: bttDestination startSit endSit l :=
          List.filter_cons_of_pos (decide_eq_true ⟨hstart, hend⟩)
        rw [if_pos hend, AreaLists.addTask_of, hdestination]
        exact ih gs _
      · have hdestination : bttDestination startSit endSit (btt :: l) =
            bttDestination startSit endSit l := by
          simp [bttDestination, hend]
        rw [if_neg hend, hdestination]
        exact ih gs gsDes

/-! ### Printing -/

/-- The loop over the areas, from any of them on. -/
theorem bttPrint_of (type : Text) (gs gs' : List XmlArea) (s : Text) :
    bttPrint type (.of (gs ++ gs')) (gs'.map Group.key) gs.length s =
      .ok (s ++ gs'.flatMap (areaText type)) := by
  induction gs' generalizing gs s with
  | nil => simp [bttPrint]
  | cons g gs' ih =>
    have hconfig : listGet (AreaLists.of (gs ++ g :: gs')).config gs.length = .ok g.label := by
      simp [listGet, AreaLists.of]
    have hobjects : listGet (AreaLists.of (gs ++ g :: gs')).objects gs.length = .ok g.items := by
      simp [listGet, AreaLists.of]
    have hrest := ih (gs ++ [g]) (s ++ areaText type g)
    rw [List.append_assoc, List.length_append] at hrest
    rw [List.map_cons, bttPrint, hconfig, hobjects, List.flatMap_cons, ← List.append_assoc]
    exact hrest

theorem pptPrint_of (type : Text) (gs gs' : List (Group Text Unit Text)) (s : Text) :
    pptPrint type (.of (gs ++ gs')) (gs'.map Group.key) gs.length s =
      .ok (s ++ gs'.flatMap (pptAreaText type)) := by
  induction gs' generalizing gs s with
  | nil => simp [pptPrint]
  | cons g gs' ih =>
    have hobjects : listGet (AreaLists.of (gs ++ g :: gs')).objects gs.length = .ok g.items := by
      simp [listGet, AreaLists.of]
    have hrest := ih (gs ++ [g]) (s ++ pptAreaText type g)
    rw [List.append_assoc, List.length_append] at hrest
    rw [List.map_cons, pptPrint, hobjects, List.flatMap_cons, ← List.append_assoc]
    exact hrest

/-! ### The branches -/

theorem bttGather_empty (startSit endSit : Text) (l : List BttTask) :
    bttGather startSit endSit l (.empty Text) (.empty Text) =
      .ok (.of (bttAreas (bttSource startSit l)),
        .of (bttAreas (bttDestination startSit endSit l))) :=
  bttGather_of startSit endSit l [] []

theorem bttPrint_all (type : Text) (gs : List XmlArea) (s : Text) :
    bttPrint type (.of gs) (AreaLists.of gs).areas 0 s = .ok (s ++ gs.flatMap (areaText type)) :=
  bttPrint_of type [] gs s

/-- The BTT branch never fails, and prints groups. -/
theorem bttXmlString_eq (s : Text) (l : List BttTask) : bttXmlString s l = .ok (bttXml s l) := by
  cases l with
  | nil => rfl
  | cons btt itBtt =>
    unfold bttXmlString bttXml
    simp only [bttGather_empty, bttPrint_all, bind, Except.bind, pure, Except.pure]

theorem pptGather_empty (place : PptTask → Text) (l : List PptTask) :
    pptGather place l (.empty Unit) = .ok (.of (collect place (fun _ => ()) PptTask.object l)) :=
  pptGather_of place l []

theorem pptPrint_all (type : Text) (gs : List (Group Text Unit Text)) (s : Text) :
    pptPrint type (.of gs) (AreaLists.of gs).areas 0 s =
      .ok (s ++ gs.flatMap (pptAreaText type)) :=
  pptPrint_of type [] gs s

/-- So does the PPT branch. -/
theorem pptXmlString_eq (s : Text) (l : List PptTask) : pptXmlString s l = .ok (pptXml s l) := by
  cases l with
  | nil => rfl
  | cons ppt itPpt =>
    unfold pptXmlString pptXml
    simp only [pptGather_empty, pptPrint_all, bind, Except.bind, pure, Except.pure]

/-- The whole text, with the loops of the two branches. -/
theorem TaskSpec.getTaskSpecXml_loops (tS : TaskSpec) :
    tS.getTaskSpecXml .btt = pure (bttXmlString xmlDeclaration tS.bttTaskList) ∧
      tS.getTaskSpecXml .ppt = pure (pptXmlString xmlDeclaration tS.pptTaskList) := by
  rw [bttXmlString_eq, pptXmlString_eq]
  exact ⟨rfl, rfl⟩

/-! ### The areas -/

/-- The tasks that go into the destination areas, when every task is of the first
    or of the last situation: all that are not of the first one. -/
theorem bttDestination_eq {startSit endSit : Text} {l : List BttTask}
    (h : ∀ t ∈ l, t.situation = startSit ∨ t.situation = endSit) :
    bttDestination startSit endSit l = l.filter fun t => t.situation ≠ startSit := by
  unfold bttDestination
  refine List.filter_congr fun t ht => ?_
  rw [decide_eq_decide]
  exact and_iff_left_of_imp (h t ht).resolve_left

/-- **Areas.** The BTT message lists the objects of the tasks with the first
    situation in Source areas, the others in Destination areas, each grouped by
    place, and every object once. The PPT message lists all objects in Source
    areas grouped by source, and in Destination areas grouped by destination. -/
theorem areas_group_objects :
    (∀ (btt : BttTask) (itBtt : List BttTask),
      (∀ t ∈ btt :: itBtt, t.situation = btt.situation ∨
        t.situation = ((btt :: itBtt).getLast (List.cons_ne_nil btt itBtt)).situation) →
      ∃ areas areasDes : List XmlArea,
        bttXmlString xmlDeclaration (btt :: itBtt) =
          .ok (xmlDeclaration ++ "<competition type=\"BTT\">".toList ++
            areas.flatMap (areaText "Source".toList) ++
            areasDes.flatMap (areaText "Destination".toList) ++ "</competition>".toList) ∧
        IsGrouping BttTask.place BttTask.object
          ((btt :: itBtt).filter fun t => t.situation = btt.situation) areas ∧
        IsGrouping BttTask.place BttTask.object
          ((btt :: itBtt).filter fun t => t.situation ≠ btt.situation) areasDes ∧
        ((areas ++ areasDes).flatMap Group.items).Perm ((btt :: itBtt).map BttTask.object)) ∧
    (∀ l : List PptTask, l ≠ [] →
      ∃ areas areasDes : List (Group Text Unit Text),
        pptXmlString xmlDeclaration l =
          .ok (xmlDeclaration ++ "<competition type=\"PPT\">".toList ++
            areas.flatMap (pptAreaText "Source".toList) ++
            areasDes.flatMap (pptAreaText "Destination".toList) ++ "</competition>".toList) ∧
        IsGrouping PptTask.source PptTask.object l areas ∧
        IsGrouping PptTask.destination PptTask.object l areasDes) := by
  constructor
  · intro btt itBtt hsituation
    have hsource := isGrouping_collect BttTask.place BttTask.getConfiguration BttTask.object
      ((btt :: itBtt).filter fun t => t.situation = btt.situation)
    have hdestination := isGrouping_collect BttTask.place BttTask.getConfiguration BttTask.object
      ((btt :: itBtt).filter fun t => t.situation ≠ btt.situation)
    refine ⟨_, _, ?_, hsource, hdestination, ?_⟩
    · rw [bttXmlString_eq, bttXml]
      simp only [bttDestination_eq hsituation]
      rfl
    · -- the objects of the two parts are those of the whole list
      have hparts := List.filter_append_perm (fun t => decide (t.situation = btt.situation))
        (btt :: itBtt)
      rw [List.flatMap_append]
      refine (hsource.perm.append hdestination.perm).trans ?_
      rw [← List.map_append]
      simpa using hparts.map BttTask.object
  · intro l hne
    have hsource := isGrouping_collect PptTask.source (fun _ => ()) PptTask.object l
    have hdestination := isGrouping_collect PptTask.destination (fun _ => ()) PptTask.object l
    refine ⟨_, _, ?_, hsource, hdestination⟩
    rw [pptXmlString_eq]
    obtain ⟨ppt, itPpt, rfl⟩ := List.exists_cons_of_ne_nil hne
    rfl

/-- Two objects at one place, before and after. -/
def movedObjects : List BttTask :=
  [⟨"initial".toList, "line".toList, "S1".toList, "M20".toList, .init⟩,
    ⟨"initial".toList, "line".toList, "S1".toList, "R20".toList, .init⟩,
    ⟨"goal".toList, "line".toList, "S2".toList, "M20".toList, .init⟩]

theorem areas_group_moved :
    ∃ areas areasDes : List XmlArea,
      IsGrouping BttTask.place BttTask.object
        (movedObjects.filter fun t => t.situation = "initial".toList) areas ∧
      IsGrouping BttTask.place BttTask.object
        (movedObjects.filter fun t => t.situation ≠ "initial".toList) areasDes ∧
      ((areas ++ areasDes).flatMap Group.items).Perm (movedObjects.map BttTask.object) := by
  have hsituation : ∀ t ∈ movedObjects, t.situation = "initial".toList ∨
      t.situation = "goal".toList := by decide
  obtain ⟨areas, areasDes, -, hsource, hdestination, hperm⟩ :=
    areas_group_objects.1 _ (movedObjects.drop 1) hsituation
  exact ⟨areas, areasDes, hsource, hdestination, hperm⟩

end RefereeBox
