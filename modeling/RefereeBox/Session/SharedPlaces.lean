import RefereeBox.Editing.Branches
import RefereeBox.Model.Session
import RefereeBox.Text.BntText

/-! # The Places of the BMT Tasks

  All BMT tasks share one source, one destination and one configuration. Every
  Add writes the shared ones anew, so after a sequence of additions the XML text
  has a single Source area and a single Destination area, at the places that
  were selected last, and each of them lists the objects of all tasks.
-/

namespace RefereeBox

open Grouping Loop Transition

/-- The object is listed in an area at the place. -/
def Listed (areas : List XmlArea) (place object : Text) : Prop :=
  ∃ a ∈ areas, a.key = place ∧ object ∈ a.items

instance (areas : List XmlArea) (place object : Text) : Decidable (Listed areas place object) :=
  inferInstanceAs (Decidable (∃ a ∈ areas, _ ∧ _))

/-- The XML text of a BMT document. -/
def bmtXmlText (d : BmtDocument) : Text :=
  xmlDeclaration ++ "<competition type=\"BMT\">".toList ++ d.text ++ "</competition>".toList

/-! ### Additions -/

theorem Session.add_bmt (orders : TaskOrders) (s : Session) (hbmt : s.mC.compIdent = .bmt)
    (places : BmtStatics) (object : Text) :
    s.add orders (.bmt places object) =
      { s with
        tS := { s.tS with
          bmtTaskList := s.tS.bmtTaskList ++ [{ object := object }]
          bmtStatics := places }
        unsavedChanges := true } := by
  unfold Session.add
  rw [hbmt]
  rfl

/-- A sequence of additions appends the tasks, and keeps the places of the last
    one. The induction is on the sequence. -/
theorem Session.run_add_bmt {orders : TaskOrders} {s s' : Session}
    {adds : List (BmtStatics × Text)}
    (hrun : Run (session orders) s (adds.map fun a => .add (.bmt a.1 a.2)) s') :
    s'.tS = { s.tS with
      bmtTaskList := s.tS.bmtTaskList ++ adds.map fun a => { object := a.2 }
      bmtStatics := (adds.getLast?.map Prod.fst).getD s.tS.bmtStatics } := by
  induction adds generalizing s with
  | nil =>
    cases hrun
    rw [List.map_nil, List.append_nil]
    rfl
  | cons a adds ih =>
    cases hrun with
    | cons l hstep hrest =>
      obtain ⟨-, hbmt, rfl⟩ := hstep
      have hadd := s.add_bmt orders hbmt.symm a.1 a.2
      rw [hadd] at hrest
      -- the rest of the sequence starts behind the first task
      rw [ih hrest, List.map_cons, List.append_assoc, List.singleton_append]
      cases adds with
      | nil => rfl
      | cons a' adds => rw [List.getLast?_cons_cons]; simp [List.getLast?_cons]

/-! ### The XML text -/

/-- With a source and a destination the tasks make one area of each kind. -/
theorem bmtDocument_shared {statics : BmtStatics} {l : List BmtTask} (hne : l ≠ [])
    {source destination : Text} (hsource : statics.placeSource = some source)
    (hdestination : statics.placeDestination = some destination) :
    bmtDocument statics l = .ok
      { placeInitial := printed statics.placeInitial
        areas := [⟨source, printed statics.configuration, l.map BmtTask.object⟩]
        areasDes := [⟨destination, printed statics.configuration, l.map BmtTask.object⟩]
        placeFinal := printed statics.placeFinal } := by
  obtain ⟨t, l, rfl⟩ := List.exists_cons_of_ne_nil hne
  unfold bmtDocument
  rw [hsource, hdestination]
  -- all tasks have the same place, so they fall into one group
  have hgroup : ∀ place : Text, collect (fun _ => place)
      (fun _ => printed statics.configuration) BmtTask.object (t :: l) =
        [⟨place, printed statics.configuration, (t :: l).map BmtTask.object⟩] := by
    intro place
    exact collect_of_forall (fun _ : BmtTask => place) _ _ fun _ _ => rfl
  show Except.ok _ = _
  rw [hgroup, hgroup]

theorem TaskSpec.getTaskSpecXml_bmt {tS : TaskSpec} (hne : tS.bmtTaskList ≠ []) {d : BmtDocument}
    (hd : bmtDocument tS.bmtStatics tS.bmtTaskList = .ok d) :
    Converges (tS.getTaskSpecXml .bmt) (.ok (bmtXmlText d)) := by
  obtain ⟨t, l, hl⟩ := List.exists_cons_of_ne_nil hne
  have hxml : bmtXml xmlDeclaration tS.bmtStatics tS.bmtTaskList = .ok (bmtXmlText d) := by
    rw [hl] at hd ⊢
    unfold bmtXml
    rw [hd]
    rfl
  rw [← hxml]
  exact converges_pure _

/-- **Shared places.** After additions to the BMT tasks, the last of them with a
    source and a destination, the XML text has one Source area at the source and
    one Destination area at the destination selected last. Both list the object
    of every added task. -/
theorem bmt_adds_share_places (orders : TaskOrders) {s s' : Session}
    (adds : List (BmtStatics × Text)) {places : BmtStatics} {object source destination : Text}
    (hrun : Run (session orders) s
      ((adds ++ [(places, object)]).map fun a => .add (.bmt a.1 a.2)) s')
    (hsource : places.placeSource = some source)
    (hdestination : places.placeDestination = some destination) :
    ∃ d objects, Converges (s'.tS.getTaskSpecXml .bmt) (.ok (bmtXmlText d)) ∧
      d.placeInitial = printed places.placeInitial ∧
      d.areas = [⟨source, printed places.configuration, objects⟩] ∧
      d.areasDes = [⟨destination, printed places.configuration, objects⟩] ∧
      d.placeFinal = printed places.placeFinal ∧
      ∀ a ∈ adds ++ [(places, object)],
        Listed d.areas source a.2 ∧ Listed d.areasDes destination a.2 := by
  have hspec := Session.run_add_bmt hrun
  rw [List.getLast?_concat] at hspec
  have hstatics : s'.tS.bmtStatics = places := by rw [hspec]; rfl
  have hlist : s'.tS.bmtTaskList = s.tS.bmtTaskList ++
      (adds ++ [(places, object)]).map fun a => { object := a.2 } := by rw [hspec]
  have hne : s'.tS.bmtTaskList ≠ [] := by
    rw [hlist]
    simp
  have hd := bmtDocument_shared hne hsource hdestination
  rw [← hstatics] at hd
  refine ⟨_, s'.tS.bmtTaskList.map BmtTask.object, TaskSpec.getTaskSpecXml_bmt hne hd,
    by rw [hstatics], by rw [hstatics], by rw [hstatics], by rw [hstatics], fun a ha => ?_⟩
  have hobject : a.2 ∈ s'.tS.bmtTaskList.map BmtTask.object := by
    rw [hlist, List.map_append, List.map_map]
    exact List.mem_append_right _ (List.mem_map.mpr ⟨a, ha, rfl⟩)
  exact ⟨⟨_, List.mem_singleton_self _, rfl, hobject⟩, ⟨_, List.mem_singleton_self _, rfl, hobject⟩⟩

/-- The selections of two BMT tasks. -/
def firstPlaces : BmtStatics :=
  ⟨some "I1".toList, some "S1".toList, some "D1".toList, some "F1".toList, some "line".toList⟩

def secondPlaces : BmtStatics :=
  ⟨some "I1".toList, some "S2".toList, some "D2".toList, some "F1".toList, some "line".toList⟩

/-- A configuration is loaded, the BMT panel is selected, and two tasks are added. -/
theorem run_two_adds : ∃ s s' : Session, Reachable (session someOrders) s ∧
    Run (session someOrders) s
      ([(firstPlaces, "M20".toList), (secondPlaces, "R20".toList)].map fun a =>
        .add (.bmt a.1 a.2)) s' ∧
    s'.tS = { bmtTaskList := [⟨"M20".toList, .init⟩, ⟨"R20".toList, .init⟩]
              bmtStatics := secondPlaces } := by
  have hloaded : Reachable (session someOrders) _ :=
    .step (SessionAction.loadConfig true true smallTables) (.init rfl)
      (And.intro rfl (And.intro rfl rfl))
  have htab : Reachable (session someOrders) _ :=
    .step (SessionAction.controller (.tab .bmt)) hloaded
      ⟨trivial, Exists.intro _ (And.intro (And.intro rfl rfl) rfl)⟩
  refine ⟨_, _, htab,
    .cons (SessionAction.add _) (And.intro rfl (And.intro rfl rfl)) <|
    .cons (SessionAction.add _) (And.intro rfl (And.intro rfl rfl)) <| .nil _, rfl⟩

theorem bmt_adds_share_places_two : ∃ (s' : Session) (d : BmtDocument),
    Converges (s'.tS.getTaskSpecXml .bmt) (.ok (bmtXmlText d)) ∧
      Listed d.areas "S2".toList "M20".toList ∧ Listed d.areas "S2".toList "R20".toList := by
  obtain ⟨s, s', -, hrun, -⟩ := run_two_adds
  obtain ⟨d, objects, hconv, -, -, -, -, hlisted⟩ :=
    bmt_adds_share_places someOrders [(firstPlaces, "M20".toList)] hrun rfl rfl
  exact ⟨s', d, hconv, (hlisted _ List.mem_cons_self).1,
    (hlisted _ (List.mem_cons_of_mem _ List.mem_cons_self)).1⟩

/-- The first task was added at S1 and D1. Neither place is in the text behind the
    second one, whose areas are at S2 and D2. -/
theorem bmt_add_moves_earlier_task : ∃ (s s' : Session) (d : BmtDocument),
    Reachable (session someOrders) s ∧
    Run (session someOrders) s
      ([(firstPlaces, "M20".toList), (secondPlaces, "R20".toList)].map fun a =>
        .add (.bmt a.1 a.2)) s' ∧
    Converges (s'.tS.getTaskSpecXml .bmt) (.ok (bmtXmlText d)) ∧
    ¬ Listed d.areas "S1".toList "M20".toList ∧ ¬ Listed d.areasDes "D1".toList "M20".toList ∧
    Java.contains (bmtXmlText d) "S1".toList = false ∧
    Java.contains (bmtXmlText d) "D1".toList = false := by
  obtain ⟨s, s', hs, hrun, hspec⟩ := run_two_adds
  refine ⟨s, s', ⟨"I1".toList, [⟨"S2".toList, "line".toList, ["M20".toList, "R20".toList]⟩],
    [⟨"D2".toList, "line".toList, ["M20".toList, "R20".toList]⟩], "F1".toList⟩, hs, hrun, ?_,
    by decide, by decide, by decide +kernel, by decide +kernel⟩
  rw [hspec]
  exact TaskSpec.getTaskSpecXml_bmt (List.cons_ne_nil _ _) rfl

end RefereeBox
