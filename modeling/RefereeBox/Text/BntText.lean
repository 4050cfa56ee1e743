import RefereeBox.Model.Decoder
import RefereeBox.Model.Encoder

/-! # The BNT Text

  What the BNT branch of `parseTaskSpecString` loads from a text: the valid
  triplets that occur in it, from left to right (`Occurrences`). The text
  that `getTaskSpecString` prints for a list of valid triplets has exactly
  these occurrences, which gives the round trip.
-/

namespace RefereeBox

open Loop Pattern

/-! ### Valid triplets -/

/-- The task as a file stores it: without its state. -/
def BntTask.fresh (t : BntTask) : BntTask := { t with state := .init }

/-- The three elements of the task are entries of the tables. -/
def BntTask.IsValid (vte : ValidTaskElements) (t : BntTask) : Prop :=
  ∃ place ∈ vte.validBNTPositions.map Prod.fst, ∃ orientation ∈ vte.validBNTOrientations,
    ∃ pause ∈ vte.validBNTPauses,
      t.place = some place ∧ t.orientation = some orientation ∧ t.pause = some pause

/-- The task that the groups of a match become. -/
def tripletTask (groups : List Text) : BntTask :=
  { place := groups[0]?, orientation := groups[1]?, pause := groups[2]? }

/-- The task was made from a match of the pattern. -/
def BntTask.Fits (vte : ValidTaskElements) (t : BntTask) : Prop :=
  ∃ place ∈ vte.places, ∃ orientation ∈ vte.orientations, ∃ pause ∈ vte.pauses,
    t = tripletTask [place, orientation, pause]

namespace ValidTaskElements

theorem mem_alternatives {table : List Text} {s : Text} (h : s ∈ table) :
    s ∈ alternatives table := by
  rw [alternatives, if_neg (List.ne_nil_of_mem h)]
  exact h

theorem alternatives_of_ne_nil {table : List Text} (h : table ≠ []) :
    alternatives table = table := if_neg h

/-- All three tables have an entry. -/
structure Nonempty (vte : ValidTaskElements) : Prop where
  positions : vte.validBNTPositions ≠ []
  orientations : vte.validBNTOrientations ≠ []
  pauses : vte.validBNTPauses ≠ []

end ValidTaskElements

theorem BntTask.IsValid.fits {vte : ValidTaskElements} {t : BntTask} (h : t.IsValid vte) :
    t.fresh.Fits vte := by
  obtain ⟨place, hplace, orientation, horientation, pause, hpause, h1, h2, h3⟩ := h
  refine ⟨place, ValidTaskElements.mem_alternatives hplace, orientation,
    ValidTaskElements.mem_alternatives horientation, pause,
    ValidTaskElements.mem_alternatives hpause, ?_⟩
  unfold fresh
  rw [h1, h2, h3]
  rfl

theorem BntTask.Fits.isValid {vte : ValidTaskElements} (hne : vte.Nonempty) {t : BntTask}
    (h : t.Fits vte) : t.IsValid vte := by
  obtain ⟨place, hplace, orientation, horientation, pause, hpause, rfl⟩ := h
  have hpos : vte.validBNTPositions.map Prod.fst ≠ [] := by simpa using hne.positions
  rw [ValidTaskElements.places, ValidTaskElements.alternatives_of_ne_nil hpos] at hplace
  rw [ValidTaskElements.orientations,
    ValidTaskElements.alternatives_of_ne_nil hne.orientations] at horientation
  rw [ValidTaskElements.pauses, ValidTaskElements.alternatives_of_ne_nil hne.pauses] at hpause
  exact ⟨place, hplace, orientation, horientation, pause, hpause, rfl, rfl, rfl⟩

@[simp] theorem BntTask.getString_fresh (t : BntTask) : t.fresh.getString = t.getString := rfl

theorem getString_tripletTask (place orientation pause : Text) :
    (tripletTask [place, orientation, pause]).getString =
      '(' :: (place ++ ',' :: (orientation ++ ',' :: (pause ++ [')']))) := by
  unfold BntTask.getString tripletTask
  simp [printed]

/-- `Occurrences vte s ts`: the valid triplets that occur in `s`, from left to
    right, are `ts`. Other text stands around them, and no triplet starts in
    the text in front of the next one. -/
inductive Occurrences (vte : ValidTaskElements) : Text → List BntTask → Prop where
  | stop {s : Text} :
      (∀ u t rest, BntTask.Fits vte t → s ≠ u ++ t.getString ++ rest) → Occurrences vte s []
  | next {gap rest : Text} {t : BntTask} {ts : List BntTask} :
      t.Fits vte →
      (∀ u v t' rest', gap = u ++ v → v ≠ [] → BntTask.Fits vte t' →
        v ++ (t.getString ++ rest) ≠ t'.getString ++ rest') →
      Occurrences vte rest ts → Occurrences vte (gap ++ (t.getString ++ rest)) (t :: ts)

/-- The occurrences stand in the text. -/
theorem Occurrences.occurs {vte : ValidTaskElements} {s : Text} {ts : List BntTask}
    (h : Occurrences vte s ts) : ∀ t ∈ ts, ∃ u rest, s = u ++ t.getString ++ rest := by
  induction h with
  | stop _ => exact fun t ht => absurd ht List.not_mem_nil
  | @next gap rest t ts _ _ _ ih =>
    intro t' ht'
    rcases List.mem_cons.mp ht' with rfl | hmem
    · exact ⟨gap, rest, by rw [List.append_assoc]⟩
    · obtain ⟨u, rest', rfl⟩ := ih t' hmem
      exact ⟨gap ++ (t.getString ++ u), rest', by simp only [List.append_assoc]⟩

theorem Occurrences.fits {vte : ValidTaskElements} {s : Text} {ts : List BntTask}
    (h : Occurrences vte s ts) : ∀ t ∈ ts, t.Fits vte := by
  induction h with
  | stop _ => exact fun t ht => absurd ht List.not_mem_nil
  | next ht _ _ ih =>
    intro t' ht'
    rcases List.mem_cons.mp ht' with rfl | hmem
    · exact ht
    · exact ih t' hmem

/-! ### A match of the pattern -/

/-- No match starts at a character other than the opening bracket. -/
theorem matchHere_tripletPattern_of_ne (vte : ValidTaskElements) {c : Char} {s : Text} (hc : c ≠ '(') :
    matchHere vte.tripletPattern (c :: s) = none := by
  unfold ValidTaskElements.tripletPattern
  rw [matchHere_char_cons, if_neg (Ne.symm hc)]

/-- In text without an opening bracket no match starts. -/
theorem find_append_of_notMem (vte : ValidTaskElements) {gap : Text} (s : Text) (hgap : '(' ∉ gap) :
    find vte.tripletPattern (gap ++ s) = find vte.tripletPattern s := by
  apply find_append_of_none
  intro u v huv hv
  obtain ⟨c, v, rfl⟩ := List.exists_cons_of_ne_nil hv
  apply matchHere_tripletPattern_of_ne vte
  rintro rfl
  exact hgap (by simp [huv])

section pattern
variable {vte : ValidTaskElements} (hp : ∀ p ∈ vte.validBNTPauses, ValidTaskElements.IsPlain p)
include hp

/-- The pattern matches exactly the text of a triplet. -/
theorem matchHere_tripletPattern_iff {s : Text} {m : List Text × Text} :
    matchHere vte.tripletPattern s = some m ↔
      ∃ place ∈ vte.places, ∃ orientation ∈ vte.orientations, ∃ pause ∈ vte.pauses,
        m.1 = [place, orientation, pause] ∧ s = (tripletTask m.1).getString ++ m.2 := by
  have hplace : ∀ a ∈ vte.places, ',' ∉ a := fun a ha hc =>
    (vte.isPlain_of_mem_places a ha ',' hc).2.1 rfl
  have horient : ∀ a ∈ vte.orientations, ',' ∉ a := fun a ha hc =>
    (vte.isPlain_of_mem_orientations a ha ',' hc).2.1 rfl
  have hpause : ∀ a ∈ vte.pauses, ')' ∉ a := fun a ha hc =>
    absurd (vte.isPlain_of_mem_pauses hp a ha ')' hc).1 (by decide)
  unfold ValidTaskElements.tripletPattern
  constructor
  · intro h
    -- element by element, from left to right
    obtain ⟨s₁, rfl, h₁⟩ := matchHere_char_iff.mp h
    obtain ⟨place, hpl, s₂, m₂, rfl, h₂, rfl⟩ := (matchHere_group_iff hplace).mp h₁
    obtain ⟨orientation, hor, s₃, m₃, rfl, h₃, rfl⟩ := (matchHere_group_iff horient).mp h₂
    obtain ⟨pause, hpa, s₄, m₄, rfl, h₄, rfl⟩ := (matchHere_group_iff hpause).mp h₃
    rw [matchHere_nil] at h₄
    cases h₄
    refine ⟨place, hpl, orientation, hor, pause, hpa, rfl, ?_⟩
    simp [getString_tripletTask]
  · intro h
    obtain ⟨caps, rest⟩ := m
    obtain ⟨place, hpl, orientation, hor, pause, hpa, hcaps, hs⟩ := h
    obtain rfl : caps = [place, orientation, pause] := hcaps
    obtain rfl : s = (tripletTask [place, orientation, pause]).getString ++ rest := hs
    -- from right to left, with what has been matched behind
    have hpauseMatch := (matchHere_group_iff (r := []) hpause).mpr
      ⟨pause, hpa, rest, ([], rest), rfl, rfl, rfl⟩
    have horientMatch := (matchHere_group_iff horient).mpr
      ⟨orientation, hor, _, _, rfl, hpauseMatch, rfl⟩
    have hplaceMatch := (matchHere_group_iff hplace).mpr
      ⟨place, hpl, _, _, rfl, horientMatch, rfl⟩
    rw [getString_tripletTask]
    apply matchHere_char_iff.mpr
    refine ⟨_, rfl, ?_⟩
    simpa using hplaceMatch

/-- The successive matches in a sequence of triplets are these triplets. -/
theorem scan_triplets (L : List BntTask) (hL : ∀ t ∈ L, t.Fits vte) (gap tail : Text)
    (hgap : '(' ∉ gap) (htail : '(' ∉ tail) :
    ∃ ms, Scan vte.tripletPattern (gap ++ bntString L ++ tail) ms ∧ ms.map tripletTask = L := by
  induction L generalizing gap with
  | nil =>
    refine ⟨[], .stop ?_, rfl⟩
    have hfind := find_append_of_notMem vte [] (show '(' ∉ gap ++ tail by simp [hgap, htail])
    simpa [bntString, find, ValidTaskElements.tripletPattern, matchHere] using hfind
  | cons t L ih =>
    obtain ⟨ms, hscan, hms⟩ := ih (fun x hx => hL x (List.mem_cons_of_mem t hx)) [] List.not_mem_nil
    obtain ⟨place, hpl, orientation, hor, pause, hpa, rfl⟩ := hL t List.mem_cons_self
    refine ⟨[place, orientation, pause] :: ms, ?_, by simp [hms]⟩
    have hmatch : matchHere vte.tripletPattern
        ((tripletTask [place, orientation, pause]).getString ++ ([] ++ bntString L ++ tail)) =
          some ([place, orientation, pause], [] ++ bntString L ++ tail) :=
      (matchHere_tripletPattern_iff hp).mpr
        ⟨place, hpl, orientation, hor, pause, hpa, rfl, rfl⟩
    have hfind := find_append_of_notMem vte
      ((tripletTask [place, orientation, pause]).getString ++ ([] ++ bntString L ++ tail)) hgap
    rw [find_of_matchHere hmatch] at hfind
    refine .next ?_ hscan
    simpa [bntString, List.append_assoc] using hfind

/-! ### The triplets of a text -/

/-- A position matches exactly where the text of a triplet starts. -/
theorem matchHere_tripletPattern_eq_none_iff {s : Text} :
    matchHere vte.tripletPattern s = none ↔
      ∀ t rest, BntTask.Fits vte t → s ≠ t.getString ++ rest := by
  constructor
  · rintro hnone t rest ⟨place, hpl, orientation, hor, pause, hpa, rfl⟩ hs
    have hsome := (matchHere_tripletPattern_iff hp (m := ([place, orientation, pause], rest))).mpr
      ⟨place, hpl, orientation, hor, pause, hpa, rfl, hs⟩
    rw [hnone] at hsome
    exact absurd hsome (by simp)
  · intro h
    cases hm : matchHere vte.tripletPattern s with
    | none => rfl
    | some m =>
      obtain ⟨place, hpl, orientation, hor, pause, hpa, hcaps, hs⟩ :=
        (matchHere_tripletPattern_iff hp).mp hm
      refine absurd hs (h _ m.2 ?_)
      exact ⟨place, hpl, orientation, hor, pause, hpa, by rw [hcaps]⟩

/-- The successive matches of the pattern are the occurrences of triplets. -/
theorem occurrences_of_scan {s : Text} {ms : List (List Text)}
    (h : Scan vte.tripletPattern s ms) : Occurrences vte s (ms.map tripletTask) := by
  induction h with
  | stop hnone =>
    refine .stop fun u t rest ht hs => ?_
    have := find_none_iff.mp hnone u (t.getString ++ rest) (by rw [hs, List.append_assoc])
    exact (matchHere_tripletPattern_eq_none_iff hp).mp this t rest ht rfl
  | next hsome _ ih =>
    obtain ⟨gap, s', rfl, hmatch, hgap⟩ := exists_of_find hsome
    obtain ⟨place, hpl, orientation, hor, pause, hpa, hcaps, rfl⟩ :=
      (matchHere_tripletPattern_iff hp).mp hmatch
    refine .next ⟨place, hpl, orientation, hor, pause, hpa, ?_⟩ ?_ ih
    · exact congrArg tripletTask hcaps
    · intro u v t rest huv hv ht
      exact (matchHere_tripletPattern_eq_none_iff hp).mp (hgap u v huv hv) t rest ht

end pattern

/-! ### The loop -/

/-- The loop adds the triplets of the successive matches to its list. The
    induction is on the matches; the search that finds nothing ends the loop. -/
theorem bntLoop_converges {re : List (Atom Char)} {s : Text} {ms : List (List Text)}
    (h : Scan re s ms) (m : Java.Matcher) (hre : m.pattern = re) (hs : m.input = s)
    (l : List BntTask) :
    ∃ s', Converges (doWhile (fun s => pure (bntScanStep s)) (fun s => !s.m.hitEnd) ⟨m, l⟩) s' ∧
      s'.bntTaskList = l ++ ms.map tripletTask := by
  induction h generalizing m l with
  | stop hnone =>
    -- the search hits the end, and the list stays
    have hfind : m.find = (false, { m with hitEnd := true }) := by
      rw [Java.Matcher.find, hre, hs, hnone]
    have hstep : bntScanStep ⟨m, l⟩ = ⟨{ m with hitEnd := true }, l⟩ := by
      simp [bntScanStep, hfind]
    refine ⟨⟨{ m with hitEnd := true }, l⟩, ?_, by simp⟩
    apply doWhile_exit _ rfl
    rw [hstep]
    exact converges_pure _
  | @next s rest caps ms hsome _ ih =>
    have hfind : m.find = (true, { m with input := rest, groups := caps, hitEnd := false }) := by
      rw [Java.Matcher.find, hre, hs, hsome]
    have hstep : bntScanStep ⟨m, l⟩ =
        ⟨{ m with input := rest, groups := caps, hitEnd := false }, l ++ [tripletTask caps]⟩ := by
      simp [bntScanStep, hfind, Java.Matcher.group, tripletTask]
    obtain ⟨s', hconv, hlist⟩ := ih { m with input := rest, groups := caps, hitEnd := false } hre rfl
      (l ++ [tripletTask caps])
    refine ⟨s', ?_, by simp [hlist]⟩
    apply doWhile_next _ rfl hconv
    rw [hstep]
    exact converges_pure _

/-- The BNT branch loads the successive matches. -/
theorem parseBnt_converges {vte : ValidTaskElements}
    (hp : ∀ p ∈ vte.validBNTPauses, ValidTaskElements.IsPlain p) {s : Text}
    {ms : List (List Text)} (h : Scan vte.tripletPattern s ms) :
    Converges (parseBnt vte s) ⟨ms.map tripletTask, false⟩ := by
  obtain ⟨s', hconv, hlist⟩ :=
    bntLoop_converges h { pattern := vte.tripletPattern, input := s } rfl rfl []
  unfold parseBnt
  rw [vte.compile_getValidBNTPattern hp]
  have hmap := converges_map (fun s : BntScan => (⟨s.bntTaskList, false⟩ : Filling BntTask)) hconv
  rw [hlist, List.nil_append] at hmap
  exact hmap

/-- The line that is read back for a BNT list. -/
theorem parse_bnt_line {vte : ValidTaskElements}
    (hp : ∀ p ∈ vte.validBNTPauses, ValidTaskElements.IsPlain p) (tS : TaskSpec)
    {line rest : Text} {ms : List (List Text)}
    (hline : removeSpaces line = CompetitionIdentifier.bnt.name ++ rest)
    (h : Scan vte.tripletPattern (removeSpaces line) ms) :
    Converges (tS.parseTaskSpecString vte line)
      (.ok true, { tS with bntTaskList := ms.map tripletTask }) := by
  rw [tS.parse_of_name vte hline]
  exact converges_map _ (converges_map _ (parseBnt_converges hp h))

/-! ### Round trip -/

/-- The printed BNT text. -/
theorem getTaskSpecString_bnt (tS : TaskSpec) :
    Converges (tS.getTaskSpecString .bnt)
      (.ok ("BNT<".toList ++ bntString tS.bntTaskList ++ ">".toList)) :=
  converges_pure _

theorem blank_notMem_bntString {vte : ValidTaskElements}
    (hp : ∀ p ∈ vte.validBNTPauses, ValidTaskElements.IsPlain p) {L : List BntTask}
    (hL : ∀ t ∈ L, t.Fits vte) : ' ' ∉ bntString L := by
  unfold bntString
  rw [List.mem_flatMap]
  rintro ⟨t, ht, hblank⟩
  obtain ⟨place, hpl, orientation, hor, pause, hpa, rfl⟩ := hL t ht
  have h1 : ' ' ∉ place := fun hc => (vte.isPlain_of_mem_places _ hpl _ hc).2.2 rfl
  have h2 : ' ' ∉ orientation := fun hc => (vte.isPlain_of_mem_orientations _ hor _ hc).2.2 rfl
  have h3 : ' ' ∉ pause := fun hc => (vte.isPlain_of_mem_pauses hp _ hpa _ hc).2.2 rfl
  rw [getString_tripletTask] at hblank
  simp [h1, h2, h3] at hblank

theorem bntString_map_fresh (L : List BntTask) : bntString (L.map BntTask.fresh) = bntString L := by
  simp [bntString, List.flatMap_map]

theorem fits_of_mem_map_fresh {vte : ValidTaskElements} {L : List BntTask}
    (hL : ∀ t ∈ L, t.IsValid vte) : ∀ t ∈ L.map BntTask.fresh, t.Fits vte := by
  intro t ht
  obtain ⟨u, hu, rfl⟩ := List.mem_map.mp ht
  exact (hL u hu).fits

/-- The printed triplets are the only matches of their text. -/
theorem scan_printed {vte : ValidTaskElements}
    (hp : ∀ p ∈ vte.validBNTPauses, ValidTaskElements.IsPlain p) {L : List BntTask}
    (hL : ∀ t ∈ L, t.IsValid vte) :
    ∃ ms, Scan vte.tripletPattern ("BNT<".toList ++ bntString L ++ ">".toList) ms ∧
      ms.map tripletTask = L.map BntTask.fresh := by
  have h := scan_triplets hp (L.map BntTask.fresh) (fits_of_mem_map_fresh hL) "BNT<".toList
    ">".toList (by decide) (by decide)
  rwa [bntString_map_fresh] at h

/-- **BNT save and open.** For tables whose pauses are plain digit strings,
    the text printed for a list of valid tasks is read back as this list, in
    the same order and with all repetitions, whatever the state it is loaded
    into; only the states of the tasks start again. -/
theorem bnt_round_trip (vte : ValidTaskElements) (hp : vte.PlainPauses) (tS tS' : TaskSpec)
    (hL : ∀ t ∈ tS.bntTaskList, t.IsValid vte) :
    ∃ text, Converges (tS.getTaskSpecString .bnt) (.ok text) ∧
      Converges (tS'.parseTaskSpecString vte text)
        (.ok true, { tS' with bntTaskList := tS.bntTaskList.map BntTask.fresh }) := by
  have hblank : ' ' ∉ "BNT<".toList ++ bntString tS.bntTaskList ++ ">".toList := by
    have := blank_notMem_bntString hp.isPlain (fits_of_mem_map_fresh hL)
    rw [bntString_map_fresh] at this
    simp [this]
  obtain ⟨ms, hscan, hms⟩ := scan_printed hp.isPlain hL
  refine ⟨_, getTaskSpecString_bnt tS, ?_⟩
  rw [← hms]
  have hspaces := removeSpaces_of_no_blank hblank
  have hname : removeSpaces ("BNT<".toList ++ bntString tS.bntTaskList ++ ">".toList) =
      CompetitionIdentifier.bnt.name ++ ("<".toList ++ (bntString tS.bntTaskList ++ ">".toList)) := by
    rw [hspaces]
    simp [CompetitionIdentifier.name]
  rw [← hspaces] at hscan
  exact parse_bnt_line hp.isPlain tS' hname hscan

/-- The tables of a small arena. -/
def smallTables : ValidTaskElements where
  validBNTPositions := [("S1".toList, ⟨0, 0⟩), ("D2".toList, ⟨3, 1⟩)]
  validBNTOrientations := ["N".toList, "NE".toList, "NbE".toList]
  validBNTPauses := ["1".toList, "10".toList]

theorem bnt_round_trip_small :
    let tS : TaskSpec := { bntTaskList := [⟨some "S1".toList, some "NbE".toList, some "10".toList, .passed⟩,
      ⟨some "D2".toList, some "N".toList, some "1".toList, .init⟩] }
    ∃ text, Converges (tS.getTaskSpecString .bnt) (.ok text) ∧
      Converges (({} : TaskSpec).parseTaskSpecString smallTables text)
        (.ok true, { bntTaskList := tS.bntTaskList.map BntTask.fresh }) :=
  bnt_round_trip smallTables (by unfold ValidTaskElements.PlainPauses; decide) _ {} (by
    intro t ht
    unfold BntTask.IsValid
    rcases List.mem_pair.mp ht with rfl | rfl <;> decide)

/-! ### Any line -/

/-- **What a BNT line loads**: the valid triplets that occur in it, in order.
    The rest of the line is skipped without notice, so printing the list gives
    the line back only if nothing else stands between the angle brackets. -/
theorem bnt_line_loaded {vte : ValidTaskElements} (hp : vte.PlainPauses) (hne : vte.Nonempty)
    (tS : TaskSpec) {line rest : Text}
    (hline : removeSpaces line = CompetitionIdentifier.bnt.name ++ rest) :
    ∃ ts text, Occurrences vte (removeSpaces line) ts ∧
      Converges (tS.parseTaskSpecString vte line) (.ok true, { tS with bntTaskList := ts }) ∧
      Converges (({ tS with bntTaskList := ts } : TaskSpec).getTaskSpecString .bnt) (.ok text) ∧
      (text = removeSpaces line ↔ ∃ L, (∀ t ∈ L, BntTask.IsValid vte t) ∧
        removeSpaces line = "BNT<".toList ++ bntString L ++ ">".toList) := by
  obtain ⟨ms, hscan⟩ := Scan.exists '(' (vte.tripletPattern.tail) (removeSpaces line)
  have hocc := occurrences_of_scan hp.isPlain hscan
  refine ⟨ms.map tripletTask, _, hocc, parse_bnt_line hp.isPlain tS hline hscan,
    getTaskSpecString_bnt _, ?_⟩
  constructor
  · intro htext
    exact ⟨_, fun t ht => (hocc.fits t ht).isValid hne, htext.symm⟩
  · rintro ⟨L, hL, htext⟩
    obtain ⟨ms', hscan', hms'⟩ := scan_printed hp.isPlain hL
    rw [← htext] at hscan'
    -- a text has one sequence of matches
    have hsame := hscan.unique hscan'
    show "BNT<".toList ++ bntString (ms.map tripletTask) ++ ">".toList = _
    rw [hsame, hms', bntString_map_fresh, htext]

end RefereeBox
