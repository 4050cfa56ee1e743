import RefereeBox.Model.XmlEncoder

/-! # The Loops over Areas

  How the BTT and PPT branches of `getTaskSpecString(compIdent, true)` gather
  their areas. The places, the configurations and the objects of the areas
  stand in lists of their own; a counter, kept by the search for a place, is
  the index into all of them.
-/

namespace RefereeBox

/-! ### Gathering -/

/-- The lists that a loop over tasks fills, side by side. -/
structure AreaLists (γ : Type) where
  areas : List Text
  config : List γ
  objects : List (List Text)

def AreaLists.empty (γ : Type) : AreaLists γ := ⟨[], [], []⟩

/-- `list.get(i)`. -/
def listGet {α : Type} (list : List α) (i : Nat) : Except Exn α :=
  match list[i]? with
  | some a => .ok a
  | none => .error .indexOutOfBounds

/-- The search for a place: `isNew`, and the counter where it ends. -/
def searchArea (place : Text) : List Text → Nat → Bool × Nat
  | [], sCount => (true, sCount)
  | q :: areas, sCount =>
    if place = q then (false, sCount) else searchArea place areas (sCount + 1)

/-- What is done for a task: a new area, or one more object in an old one. -/
def AreaLists.addTask {γ : Type} (lists : AreaLists γ) (place : Text) (configuration : γ)
    (object : Text) : Except Exn (AreaLists γ) :=
  let (isNew, sCount) := searchArea place lists.areas 0
  if isNew = true then
    .ok ⟨lists.areas ++ [place], lists.config ++ [configuration], lists.objects ++ [[object]]⟩
  else do
    let gut ← listGet lists.objects sCount
    pure { lists with objects := lists.objects.set sCount (gut ++ [object]) }

/-- The loop of BTT. -/
def bttGather (startSit endSit : Text) : List BttTask → AreaLists Text → AreaLists Text →
    Except Exn (AreaLists Text × AreaLists Text)
  | [], lists, listsDes => .ok (lists, listsDes)
  | btt :: itBtt, lists, listsDes =>
    if btt.situation = startSit then do
      let lists ← lists.addTask btt.place btt.getConfiguration btt.object
      bttGather startSit endSit itBtt lists listsDes
    else if btt.situation = endSit then do
      let listsDes ← listsDes.addTask btt.place btt.getConfiguration btt.object
      bttGather startSit endSit itBtt lists listsDes
    else bttGather startSit endSit itBtt lists listsDes

/-- The two loops of PPT, over the sources and over the destinations. No
    configurations are kept. -/
def pptGather (place : PptTask → Text) : List PptTask → AreaLists Unit →
    Except Exn (AreaLists Unit)
  | [], lists => .ok lists
  | ppt :: itPpt, lists => do
    let lists ← lists.addTask (place ppt) () ppt.object
    pptGather place itPpt lists

/-! ### Printing -/

/-- The areas of BTT are printed from the first one, at `y`, on. -/
def bttPrint (type : Text) (lists : AreaLists Text) : List Text → Nat → Text → Except Exn Text
  | [], _, s => .ok s
  | sq :: areas, y, s => do
    let configuration ← listGet lists.config y
    let objects ← listGet lists.objects y
    bttPrint type lists areas (y + 1) (s ++ areaText type ⟨sq, configuration, objects⟩)

def pptPrint (type : Text) (lists : AreaLists Unit) : List Text → Nat → Text → Except Exn Text
  | [], _, s => .ok s
  | sq :: areas, y, s => do
    let objects ← listGet lists.objects y
    pptPrint type lists areas (y + 1) (s ++ pptAreaText type ⟨sq, (), objects⟩)

/-! ### The branches -/

/-- The BTT branch. -/
def bttXmlString (s : Text) (l : List BttTask) : Except Exn Text :=
  match l with
  | [] => .ok (s ++ "</competition>".toList)
  | btt :: itBtt => do
    let startSit := btt.situation
    let endSit := ((btt :: itBtt).getLast (List.cons_ne_nil btt itBtt)).situation
    let (lists, listsDes) ← bttGather startSit endSit (btt :: itBtt) (.empty Text) (.empty Text)
    let s ← bttPrint "Source".toList lists lists.areas 0
      (s ++ "<competition type=\"BTT\">".toList)
    let s ← bttPrint "Destination".toList listsDes listsDes.areas 0 s
    pure (s ++ "</competition>".toList)

/-- The PPT branch. -/
def pptXmlString (s : Text) (l : List PptTask) : Except Exn Text :=
  match l with
  | [] => .ok s
  | _ :: _ => do
    let lists ← pptGather PptTask.source l (.empty Unit)
    let listsDes ← pptGather PptTask.destination l (.empty Unit)
    let s ← pptPrint "Source".toList lists lists.areas 0
      (s ++ "<competition type=\"PPT\">".toList)
    let s ← pptPrint "Destination".toList listsDes listsDes.areas 0 s
    pure (s ++ "</competition>".toList)

end RefereeBox
