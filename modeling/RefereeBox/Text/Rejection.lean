import RefereeBox.Editing.Branches
import RefereeBox.Text.BntText

/-! # Rejected Lines

  When `parseTaskSpecString` rejects a line, and what a failed
  `openTaskSpec` leaves behind. A branch empties its list before it reads the
  line, so a rejected line always costs the old list. Only a line that is too
  short to name a competition is refused with nothing touched, and an open
  that ends there is harmless if no line before it named a competition.

  The shape of the accepted lines is stated on the pieces of the text
  (`Readable`). What an open does to one list is either nothing, or to put
  fixed tasks in its place that do not depend on the old ones (`Settles`).
-/

namespace RefereeBox

open Loop Filling

/-! ### The shape of accepted lines -/

/-- A piece between delimiters can be taken from the text. -/
def HasPiece (delims : String) (s : Text) : Prop := s = [] ∨ ∃ c ∈ s, Java.oneOf delims c = false

theorem split_getElem?_zero {delims : String} {s : Text} :
    (Java.split (Java.oneOf delims) s)[0]? = none ↔ ¬ HasPiece delims s := by
  rw [← List.head?_eq_getElem?, List.head?_eq_none_iff, Java.split_eq_nil_iff]
  unfold HasPiece
  push Not
  simp

/-- Bracket tokens come in pairs: a place, and objects. -/
def PairedTokens : List Text → Prop
  | [] => True
  | [_] => False
  | place :: _ :: tokens => HasPiece "," place ∧ PairedTokens tokens

/-- A situation of a BTT line, or of a CTT message. -/
def ReadableSection (initgoalsituation : Text) : Prop :=
  HasPiece "()" initgoalsituation ∧
    PairedTokens (Java.split (Java.oneOf "()") initgoalsituation).tail

/-- A situation of a CTT message behind the first: an initial situation is
    passed over. -/
def ReadableLaterSection (initgoalsituation : Text) : Prop :=
  HasPiece "()" initgoalsituation ∧
    ((∃ token ∈ (Java.split (Java.oneOf "()") initgoalsituation).head?,
        Java.contains token "initial".toList = true) ∨
      PairedTokens (Java.split (Java.oneOf "()") initgoalsituation).tail)

def ReadableBtt (tSpecStr : Text) : Prop :=
  match Java.split (Java.oneOf "<>") tSpecStr with
  | _ :: spec :: _ => ∀ situation ∈ Java.split (Java.oneOf ";") spec, ReadableSection situation
  | _ => True

def ReadableCtt (tSpecStr : Text) : Prop :=
  match Java.split (Java.oneOf "#") tSpecStr with
  | team1 :: team2 :: teams =>
    ∃ spec1 spec2, (Java.split (Java.oneOf "<>") team1)[1]? = some spec1 ∧
      (Java.split (Java.oneOf "<>") team2)[1]? = some spec2 ∧
      (∀ situation ∈ Java.split (Java.oneOf ";") spec1, ReadableSection situation) ∧
      ∀ team ∈ spec2 :: teams, ∀ situation ∈ Java.split (Java.oneOf ";") team,
        ReadableLaterSection situation
  | _ => True

/-- Of three bracket tokens the first is not empty, and neither is the last. -/
def ReadablePpt (tSpecStr : Text) : Prop :=
  match Java.split (Java.oneOf "<>") tSpecStr with
  | _ :: spec :: _ =>
    match Java.split (Java.oneOf "()") spec with
    | [source, _, destination] => source ≠ [] ∧ destination ≠ []
    | _ => True
  | _ => True

/-- The branch of a competition gets through the text. A BNT text is never
    looked at before the pattern compiles, and nothing in a BMT or a CBT text
    can go wrong. -/
def Readable (vte : ValidTaskElements) (tSpecStr : Text) : CompetitionIdentifier → Prop
  | .bnt => (Java.compile vte.getValidBNTPattern).isSome = true
  | .btt => ReadableBtt tSpecStr
  | .ctt => ReadableCtt tSpecStr
  | .ppt => ReadablePpt tSpecStr
  | .bmt | .cbt => True

/-! ### Which branches fail -/

theorem HasPiece.exists_head {delims : String} {s : Text} (h : HasPiece delims s) :
    ∃ token, (Java.split (Java.oneOf delims) s)[0]? = some token := by
  apply Option.ne_none_iff_exists'.mp
  intro hnone
  exact split_getElem?_zero.mp hnone h

theorem forEach_ok_iff {α β : Type} (l : List β) (f : β → Filling α) :
    (forEach l f).failed = false ↔ ∀ b ∈ l, (f b).failed = false := by
  simp [forEach_failed]

theorem parseGroups_ok_iff {τ : Type} (newTask : Text → Text → Text → τ) (tokens : List Text) :
    (parseGroups newTask tokens).failed = false ↔ PairedTokens tokens := by
  induction tokens using parseGroups.induct with
  | case1 => simp [parseGroups, PairedTokens]
  | case2 token => simp [parseGroups, PairedTokens]
  | case3 token objects tokens ih =>
    unfold parseGroups PairedTokens
    rw [andThen_failed, Bool.or_eq_false_iff, ih, need_failed]
    refine and_congr_left fun _ => ?_
    by_cases hpiece : HasPiece "," token
    · obtain ⟨pose, hpose⟩ := hpiece.exists_head
      simp [hpose, hpiece, forEach_one]
    · simp [split_getElem?_zero.mpr hpiece, hpiece]

theorem parseBttSituation_ok_iff (s : Text) :
    (parseBttSituation s).failed = false ↔ ReadableSection s := by
  unfold parseBttSituation ReadableSection
  rw [need_failed]
  by_cases hpiece : HasPiece "()" s
  · obtain ⟨token, htoken⟩ := hpiece.exists_head
    simp only [htoken, hpiece, true_and]
    exact parseGroups_ok_iff _ _
  · simp [split_getElem?_zero.mpr hpiece, hpiece]

theorem parseBtt_ok_iff (s : Text) : (parseBtt s).failed = false ↔ ReadableBtt s := by
  unfold parseBtt ReadableBtt
  dsimp only
  rcases Java.split (Java.oneOf "<>") s with _ | ⟨name, _ | ⟨spec, rest⟩⟩
  · simp
  · simp
  · rw [forEach_ok_iff]
    exact forall₂_congr fun situation _ => parseBttSituation_ok_iff situation

/-- The first message is read like a BTT line. -/
theorem parseCttSituation_first_ok_iff (s : Text) :
    (parseCttSituation true s).failed = false ↔ ReadableSection s := by
  unfold parseCttSituation ReadableSection
  rw [need_failed]
  by_cases hpiece : HasPiece "()" s
  · obtain ⟨token, htoken⟩ := hpiece.exists_head
    simp only [htoken, hpiece, true_and, Bool.not_true, Bool.and_false, Bool.false_eq_true,
      if_false]
    exact parseGroups_ok_iff _ _
  · simp [split_getElem?_zero.mpr hpiece, hpiece]

theorem parseCttSituation_later_ok_iff (s : Text) :
    (parseCttSituation false s).failed = false ↔ ReadableLaterSection s := by
  unfold parseCttSituation ReadableLaterSection
  rw [need_failed]
  by_cases hpiece : HasPiece "()" s
  · obtain ⟨token, htoken⟩ := hpiece.exists_head
    have hhead : (Java.split (Java.oneOf "()") s).head? = some token := by
      rw [List.head?_eq_getElem?, htoken]
    simp only [htoken, hhead, hpiece, true_and, Bool.not_false, Bool.and_true, Option.mem_def,
      Option.some.injEq, exists_eq_left']
    by_cases hinitial : Java.contains token "initial".toList = true
    · simp only [hinitial, if_true, true_or, done_failed]
    · rw [if_neg hinitial, or_iff_right hinitial]
      exact parseGroups_ok_iff _ _
  · simp [split_getElem?_zero.mpr hpiece, hpiece]

theorem parseCtt_ok_iff (s : Text) : (parseCtt s).failed = false ↔ ReadableCtt s := by
  unfold parseCtt ReadableCtt
  rcases Java.split (Java.oneOf "#") s with _ | ⟨team1, _ | ⟨team2, teams⟩⟩
  · simp
  · simp
  · dsimp only
    rw [need_failed]
    cases h1 : (Java.split (Java.oneOf "<>") team1)[1]? with
    | none => simp
    | some spec1 =>
      dsimp only
      rw [need_failed]
      cases h2 : (Java.split (Java.oneOf "<>") team2)[1]? with
      | none => simp
      | some spec2 =>
        simp only [andThen_failed, Bool.or_eq_false_iff, Option.some.injEq, exists_and_left,
          exists_eq_left']
        -- the first message, and all others with the second one
        refine and_congr ?_ ?_
        · unfold parseCttMessage
          rw [forEach_ok_iff]
          exact forall₂_congr fun situation _ => parseCttSituation_first_ok_iff situation
        · rw [forEach_ok_iff]
          refine forall₂_congr fun team _ => ?_
          unfold parseCttMessage
          rw [forEach_ok_iff]
          exact forall₂_congr fun situation _ => parseCttSituation_later_ok_iff situation

theorem parseCbt_ok (s : Text) : (parseCbt s).failed = false := by
  unfold parseCbt
  split
  · rw [forEach_ok_iff]
    intro position _
    rw [forEach_one]
  · rfl

/-- The last character of a piece can be cut off if there is one. -/
theorem exists_substring_init (s : Text) :
    (∃ t, Java.substring s 0 (s.length - 1) = some t) ↔ s ≠ [] := by
  unfold Java.substring
  constructor
  · rintro ⟨t, ht⟩ rfl
    simp at ht
  · intro hne
    have hpos := List.length_pos_iff.mpr hne
    rw [if_pos (by omega)]
    exact ⟨_, rfl⟩

theorem exists_substring_tail (s : Text) :
    (∃ t, Java.substring s 1 s.length = some t) ↔ s ≠ [] := by
  unfold Java.substring
  constructor
  · rintro ⟨t, ht⟩ rfl
    simp at ht
  · intro hne
    have hpos := List.length_pos_iff.mpr hne
    rw [if_pos (by omega)]
    exact ⟨_, rfl⟩

theorem need_ok_iff {α β : Type} (o : Option β) (f : β → Filling α) :
    (need o f).failed = false ↔ ∃ b, o = some b ∧ (f b).failed = false := by
  cases o with
  | none => simp
  | some b => simp

theorem parsePpt_ok_iff (s : Text) : (parsePpt s).failed = false ↔ ReadablePpt s := by
  unfold parsePpt ReadablePpt
  rcases Java.split (Java.oneOf "<>") s with _ | ⟨name, _ | ⟨spec, rest⟩⟩
  · simp
  · simp
  · dsimp only
    rcases Java.split (Java.oneOf "()") spec with
      _ | ⟨source, _ | ⟨objects, _ | ⟨destination, _ | ⟨token, tokens⟩⟩⟩⟩
    · simp
    · simp
    · simp
    · dsimp only
      rw [← exists_substring_init source, ← exists_substring_tail destination, need_ok_iff]
      -- nothing can go wrong behind the two commas
      simp only [need_ok_iff, forEach_one, and_true, exists_and_right]
    · simp

/-! ### What a branch does to the lists -/

/-- Whatever the list of the competition was, it is replaced by the same
    tasks. -/
def Fixes (f : TaskSpec → TaskSpec) (c : CompetitionIdentifier) : Prop :=
  ∃ l, ∀ tS, (f tS).tasks c = l

def Keeps (f : TaskSpec → TaskSpec) (c : CompetitionIdentifier) : Prop :=
  ∀ tS, (f tS).tasks c = tS.tasks c

/-- Of all branches only that of BMT writes the static fields, and what it writes
    depends on nothing but them. -/
def OwnStatics (f : TaskSpec → TaskSpec) (c : CompetitionIdentifier) : Prop :=
  ∃ g : BmtStatics → BmtStatics, (∀ tS, (f tS).bmtStatics = g tS.bmtStatics) ∧
    (c ≠ .bmt → ∀ statics, g statics = statics)

theorem Keeps.comp {f g : TaskSpec → TaskSpec} {c : CompetitionIdentifier} (hg : Keeps g c)
    (hf : Keeps f c) : Keeps (fun tS => g (f tS)) c := fun tS => (hg (f tS)).trans (hf tS)

/-- A list that was fixed stays fixed under what keeps it. -/
theorem Keeps.fixes_comp {f g : TaskSpec → TaskSpec} {c : CompetitionIdentifier} (hg : Keeps g c)
    (hf : Fixes f c) : Fixes (fun tS => g (f tS)) c := by
  obtain ⟨l, hl⟩ := hf
  exact ⟨l, fun tS => (hg (f tS)).trans (hl tS)⟩

theorem Fixes.comp {g : TaskSpec → TaskSpec} {c : CompetitionIdentifier} (hg : Fixes g c)
    (f : TaskSpec → TaskSpec) : Fixes (fun tS => g (f tS)) c := by
  obtain ⟨l, hl⟩ := hg
  exact ⟨l, fun tS => hl (f tS)⟩

theorem Fixes.of_comp {f g : TaskSpec → TaskSpec} {c : CompetitionIdentifier} (hf : Fixes f c)
    (hg : Fixes g c ∨ Keeps g c) : Fixes (fun tS => g (f tS)) c := by
  rcases hg with hg | hg
  · exact hg.comp f
  · exact hg.fixes_comp hf

theorem fixes_or_keeps_comp {f g : TaskSpec → TaskSpec} {c : CompetitionIdentifier}
    (hf : Fixes f c ∨ Keeps f c) (hg : Fixes g c ∨ Keeps g c) :
    Fixes (fun tS => g (f tS)) c ∨ Keeps (fun tS => g (f tS)) c := by
  rcases hf with hf | hf
  · exact Or.inl (hf.of_comp hg)
  · exact hg.imp (fun hg => hg.comp f) fun hg => hg.comp hf

theorem exists_tasks_ne_nil (c : CompetitionIdentifier) : ∃ tS : TaskSpec, tS.tasks c ≠ [] := by
  cases c with
  | bnt => exact ⟨{ bntTaskList := [{}] }, List.cons_ne_nil _ _⟩
  | bmt => exact ⟨{ bmtTaskList := [{}] }, List.cons_ne_nil _ _⟩
  | btt => exact ⟨{ bttTaskList := [{}] }, List.cons_ne_nil _ _⟩
  | ctt => exact ⟨{ cttTaskList := [{}] }, List.cons_ne_nil _ _⟩
  | cbt => exact ⟨{ cbtTaskList := [{}] }, List.cons_ne_nil _ _⟩
  | ppt => exact ⟨{ pptTaskList := [{}] }, List.cons_ne_nil _ _⟩

/-- What fixes a list changes some state: the empty list and another one cannot
    both be kept. -/
theorem Fixes.ne_id {f : TaskSpec → TaskSpec} {c : CompetitionIdentifier} (hf : Fixes f c) :
    ¬ ∀ tS, f tS = tS := by
  intro hid
  -- the fixed list is empty, as the list of the empty state
  obtain ⟨l, hl⟩ := hf
  obtain ⟨tS, hne⟩ := exists_tasks_ne_nil c
  have hempty : l = [] := by
    have hl' := hl {}
    rw [hid] at hl'
    rw [← hl']
    cases c <;> rfl
  have hl' := hl tS
  rw [hid, hempty] at hl'
  exact hne hl'

/-- The pattern of valid triplets starts with the opening bracket. -/
theorem ValidTaskElements.exists_of_compile {vte : ValidTaskElements} {pat : List (Pattern.Atom Char)}
    (h : Java.compile vte.getValidBNTPattern = some pat) : ∃ re, pat = .char '(' :: re := by
  have htext : ∃ rest, vte.getValidBNTPattern = '\\' :: '(' :: rest := by
    refine ⟨vte.constructPlacePattern ++ "\\,".toList ++ vte.constructOrientationPattern ++
      "\\,".toList ++ vte.constructPausePattern ++ "\\)".toList, ?_⟩
    unfold getValidBNTPattern
    simp
  obtain ⟨rest, hrest⟩ := htext
  rw [hrest] at h
  have hstep : Java.compile ('\\' :: '(' :: rest) =
      (Java.compileFrom .outside rest).map (.char '(' :: ·) := rfl
  rw [hstep, Option.map_eq_some_iff] at h
  obtain ⟨re, _, rfl⟩ := h
  exact ⟨re, rfl⟩

/-- With a pattern that compiles the BNT branch returns what its matches become. -/
theorem exists_parseBnt_scan {vte : ValidTaskElements} {pat : List (Pattern.Atom Char)}
    (h : Java.compile vte.getValidBNTPattern = some pat) (tSpecStr : Text) :
    ∃ ms, Pattern.Scan pat tSpecStr ms ∧
      Converges (parseBnt vte tSpecStr) ⟨ms.map tripletTask, false⟩ := by
  obtain ⟨re, rfl⟩ := ValidTaskElements.exists_of_compile h
  obtain ⟨ms, hscan⟩ := Pattern.Scan.exists '(' re tSpecStr
  obtain ⟨s', hconv, hlist⟩ :=
    bntLoop_converges hscan { pattern := .char '(' :: re, input := tSpecStr } rfl rfl []
  rw [List.nil_append] at hlist
  refine ⟨ms, hscan, ?_⟩
  unfold parseBnt
  rw [h, ← hlist]
  exact converges_map (fun s : BntScan => (⟨s.bntTaskList, false⟩ : Filling BntTask)) hconv

theorem parseBnt_of_compile_none {vte : ValidTaskElements}
    (h : Java.compile vte.getValidBNTPattern = none) (tSpecStr : Text) :
    Converges (parseBnt vte tSpecStr) fail := by
  unfold parseBnt
  rw [h]
  exact converges_pure _

/-- The BNT branch returns, whatever the tables and the text are. -/
theorem exists_parseBnt (vte : ValidTaskElements) (tSpecStr : Text) :
    ∃ r, Converges (parseBnt vte tSpecStr) r ∧
      (r.failed = false ↔ (Java.compile vte.getValidBNTPattern).isSome = true) := by
  cases hcompile : Java.compile vte.getValidBNTPattern with
  | none => exact ⟨fail, parseBnt_of_compile_none hcompile tSpecStr, by simp⟩
  | some pat =>
    obtain ⟨ms, -, hconv⟩ := exists_parseBnt_scan hcompile tSpecStr
    exact ⟨_, hconv, by simp⟩

/-- Giving a competition a new list. -/
theorem TaskBranch.Separate.settles {τ : Type} {b : TaskBranch τ} {c : CompetitionIdentifier}
    (hb : b.Separate c) (l : List τ) :
    Fixes (fun tS => b.setList tS l) c ∧
      (∀ other, other ≠ c → Keeps (fun tS => b.setList tS l) other) ∧
      OwnStatics (fun tS => b.setList tS l) c :=
  ⟨⟨l.map b.task, fun tS => hb.tasks_setList tS l⟩,
    fun other hne tS => hb.tasks_other tS l other hne,
    ⟨id, fun tS => hb.statics tS l, fun _ _ => rfl⟩⟩

/-- A branch returns. It fixes the list of its competition, whether it gets
    through the text or not, and keeps the rest. -/
theorem exists_parseBranch (vte : ValidTaskElements) (tSpecStr : Text)
    (c : CompetitionIdentifier) :
    ∃ ok f, (∀ tS : TaskSpec, Converges (tS.parseBranch vte tSpecStr c) (ok, f tS)) ∧
      (ok = true ↔ Readable vte tSpecStr c) ∧
      Fixes f c ∧ (∀ other, other ≠ c → Keeps f other) ∧ OwnStatics f c := by
  cases c with
  | bnt =>
    obtain ⟨r, hr, hok⟩ := exists_parseBnt vte tSpecStr
    refine ⟨!r.failed, _, fun tS => ?_, ?_, bntBranch_separate.settles r.added⟩
    · exact converges_map (fun r : Filling BntTask =>
        (!r.failed, ({ tS with bntTaskList := r.added } : TaskSpec))) hr
    · rw [Bool.not_eq_true']
      exact hok
  | bmt =>
    -- this branch sets the static fields as well, and cannot fail
    refine ⟨true, _, fun tS => converges_pure _, iff_of_true rfl trivial,
      ⟨((bmtObjects (bmtTokens tSpecStr)).map fun object => { object := object }).map .bmt,
        fun _ => rfl⟩, ?_, bmtStaticsAfter (bmtTokens tSpecStr), fun _ => rfl,
      fun hne => absurd rfl hne⟩
    intro other hne tS
    cases other <;> first | rfl | exact absurd rfl hne
  | btt =>
    refine ⟨!(parseBtt tSpecStr).failed, _, fun tS => converges_pure _, ?_,
      bttBranch_separate.settles (parseBtt tSpecStr).added⟩
    rw [Bool.not_eq_true']
    exact parseBtt_ok_iff tSpecStr
  | ctt =>
    refine ⟨!(parseCtt tSpecStr).failed, _, fun tS => converges_pure _, ?_,
      cttBranch_separate.settles (parseCtt tSpecStr).added⟩
    rw [Bool.not_eq_true']
    exact parseCtt_ok_iff tSpecStr
  | cbt =>
    refine ⟨!(parseCbt tSpecStr).failed, _, fun tS => converges_pure _, ?_,
      (cbtBranch_separate someOrders).settles (parseCbt tSpecStr).added⟩
    rw [Bool.not_eq_true']
    exact iff_of_true (parseCbt_ok tSpecStr) trivial
  | ppt =>
    refine ⟨!(parsePpt tSpecStr).failed, _, fun tS => converges_pure _, ?_,
      (pptBranch_separate someOrders).settles (parsePpt tSpecStr).added⟩
    rw [Bool.not_eq_true']
    exact parsePpt_ok_iff tSpecStr

/-! ### Lines -/

/-- The line is too short for the name of a competition. -/
def Short (line : Text) : Prop := (removeSpaces line).length < 3

/-- The competition that the line names. -/
def competitionIn (line : Text) : Option CompetitionIdentifier :=
  competitionOf ((removeSpaces line).take 3)

/-- The line names no competition, or has the shape its branch reads. -/
def Accepted (vte : ValidTaskElements) (line : Text) : Prop :=
  ¬ Short line ∧ ∀ c ∈ competitionIn line, Readable vte (removeSpaces line) c

theorem Short.competitionIn {line : Text} (h : Short line) : competitionIn line = none := by
  unfold RefereeBox.competitionIn competitionOf
  rw [List.find?_eq_none]
  intro c _ hname
  have hlen := congrArg List.length (of_decide_eq_true hname)
  have hshort : (removeSpaces line).length < 3 := h
  rw [c.name_length, List.length_take] at hlen
  omega

/-- A line that is long enough is only rejected by a branch. -/
theorem accepted_of_unnamed {vte : ValidTaskElements} {line : Text} (hshort : ¬ Short line)
    (hnone : competitionIn line = none) : Accepted vte line := by
  refine ⟨hshort, fun c hc => ?_⟩
  rw [hnone] at hc
  exact absurd hc (Option.not_mem_none c)

/-- A line gives the same outcome in every state. One that names no competition
    changes nothing; any other one fixes the list it names. -/
theorem exists_parse (vte : ValidTaskElements) (line : Text) :
    ∃ outcome f, (∀ tS : TaskSpec, Converges (tS.parseTaskSpecString vte line) (outcome, f tS)) ∧
      (outcome = .ok true ↔ Accepted vte line) ∧
      (competitionIn line = none → ∀ tS, f tS = tS) ∧
      ∀ c ∈ competitionIn line,
        Fixes f c ∧ (∀ other, other ≠ c → Keeps f other) ∧ OwnStatics f c := by
  -- a line is too short, names no competition, or goes to its branch
  by_cases hshort : Short line
  · have hsub : Java.substring (removeSpaces line) 0 3 = none := by
      have : (removeSpaces line).length < 3 := hshort
      rw [Java.substring, if_neg (by omega)]
    refine ⟨.error .indexOutOfBounds, fun tS => tS, fun tS => ?_, ?_, fun _ _ => rfl, ?_⟩
    · unfold TaskSpec.parseTaskSpecString
      simp only [hsub]
      exact converges_pure _
    · exact iff_of_false (by simp) fun h => h.1 hshort
    · rw [hshort.competitionIn]
      intro c hc
      exact absurd hc (Option.not_mem_none c)
  · have hlen : 3 ≤ (removeSpaces line).length := Nat.not_lt.mp hshort
    have hsub : Java.substring (removeSpaces line) 0 3 = some ((removeSpaces line).take 3) := by
      rw [Java.substring, if_pos (by omega)]
      rfl
    cases hcomp : competitionIn line with
    | none =>
      have hof : competitionOf ((removeSpaces line).take 3) = none := hcomp
      refine ⟨.ok true, fun tS => tS, fun tS => ?_, ?_, fun _ _ => rfl, by simp⟩
      · unfold TaskSpec.parseTaskSpecString
        simp only [hsub, hof]
        exact converges_pure _
      · exact iff_of_true rfl (accepted_of_unnamed hshort hcomp)
    | some c =>
      have hof : competitionOf ((removeSpaces line).take 3) = some c := hcomp
      obtain ⟨ok, f, hconv, hok, hsettles⟩ := exists_parseBranch vte (removeSpaces line) c
      refine ⟨.ok ok, f, fun tS => ?_, ?_, by simp, ?_⟩
      · unfold TaskSpec.parseTaskSpecString
        simp only [hsub, hof]
        exact converges_map (fun r : Bool × TaskSpec => (Except.ok r.1, r.2)) (hconv tS)
      · unfold Accepted
        rw [hcomp]
        simp [hok, hshort]
      · rintro _ ⟨rfl⟩
        exact hsettles

/-! ### Files -/

/-- The file ends an open with a short line before any line of it names a
    competition. -/
def StopsEarly (lines : List Text) : Prop :=
  ∃ skipped line rest, lines = skipped ++ line :: rest ∧
    (∀ l ∈ skipped, competitionIn l = none) ∧ Short line

theorem stopsEarly_cons_iff {line : Text} {lines : List Text} :
    StopsEarly (line :: lines) ↔
      Short line ∨ competitionIn line = none ∧ StopsEarly lines := by
  constructor
  · rintro ⟨skipped, l, rest, hlines, hskipped, hl⟩
    cases skipped with
    | nil =>
      obtain ⟨rfl, -⟩ := List.cons.inj hlines
      exact Or.inl hl
    | cons l' skipped =>
      obtain ⟨rfl, htail⟩ := List.cons.inj hlines
      right
      exact ⟨hskipped line List.mem_cons_self, skipped, l, rest, htail,
        fun x hx => hskipped x (List.mem_cons_of_mem line hx), hl⟩
  · rintro (h | ⟨hnone, skipped, l, rest, rfl, hskipped, hl⟩)
    · exact ⟨[], line, lines, rfl, fun x hx => absurd hx List.not_mem_nil, h⟩
    · refine ⟨line :: skipped, l, rest, rfl, ?_, hl⟩
      intro x hx
      rcases List.mem_cons.mp hx with rfl | hmem
      · exact hnone
      · exact hskipped x hmem

theorem openTaskSpec_next {vte : ValidTaskElements} {tS tS' : TaskSpec} {line : Text}
    {lines : List Text} {r : Bool × TaskSpec}
    (hline : Converges (tS.parseTaskSpecString vte line) (.ok true, tS'))
    (hrest : Converges (tS'.openTaskSpec vte lines) r) :
    Converges (tS.openTaskSpec vte (line :: lines)) r := by
  unfold TaskSpec.openTaskSpec
  exact converges_bind hline hrest

theorem openTaskSpec_stop {vte : ValidTaskElements} {tS tS' : TaskSpec} {line : Text}
    {outcome : Except Exn Bool} (lines : List Text)
    (hline : Converges (tS.parseTaskSpecString vte line) (outcome, tS'))
    (hne : outcome ≠ .ok true) :
    Converges (tS.openTaskSpec vte (line :: lines)) (false, tS') := by
  unfold TaskSpec.openTaskSpec
  refine converges_bind hline ?_
  rcases outcome with e | ok
  · exact converges_pure _
  · cases ok with
    | false => exact converges_pure _
    | true => exact absurd rfl hne

/-- An open returns the same result in every state. It fixes or keeps each
    list; a failed one keeps the state only if it stops early. The induction
    is on the lines: what a line fixes is kept or fixed anew by the others. -/
theorem exists_openTaskSpec (vte : ValidTaskElements) (lines : List Text) :
    ∃ result f, (∀ tS : TaskSpec, Converges (tS.openTaskSpec vte lines) (result, f tS)) ∧
      (result = true ↔ ∀ line ∈ lines, Accepted vte line) ∧
      (∀ c, Fixes f c ∨ Keeps f c) ∧
      (result = false → ((∀ tS, f tS = tS) ↔ StopsEarly lines)) := by
  induction lines with
  | nil =>
    refine ⟨true, fun tS => tS, fun tS => converges_pure _, by simp, fun c => ?_, by simp⟩
    exact Or.inr fun tS => rfl
  | cons line lines ih =>
    obtain ⟨outcome, f, hconv, hok, hnone, hsome⟩ := exists_parse vte line
    -- a line that names no competition keeps them all
    have hline : ∀ c, Fixes f c ∨ Keeps f c := by
      intro c
      cases hcomp : competitionIn line with
      | none => exact Or.inr fun tS => by rw [hnone hcomp]
      | some c' =>
        obtain ⟨hfixes, hkeeps, -⟩ := hsome c' hcomp
        by_cases hc : c = c'
        · exact Or.inl (hc ▸ hfixes)
        · exact Or.inr (hkeeps c hc)
    -- the line either passes the open on or ends it
    by_cases haccepted : Accepted vte line
    · -- the rest of the file is read
      obtain rfl := hok.mpr haccepted
      obtain ⟨result, g, hconv', hresult, hrest, hclean⟩ := ih
      refine ⟨result, fun tS => g (f tS), fun tS => ?_, ?_, fun c => ?_, fun hfalse => ?_⟩
      · exact openTaskSpec_next (hconv tS) (hconv' (f tS))
      · rw [hresult, List.forall_mem_cons]
        exact (and_iff_right haccepted).symm
      · exact fixes_or_keeps_comp (hline c) (hrest c)
      · rw [stopsEarly_cons_iff, or_iff_right haccepted.1]
        cases hcomp : competitionIn line with
        | none =>
          have hcomp_id : (fun tS => g (f tS)) = g := by
            funext tS
            rw [hnone hcomp]
          rw [and_iff_right rfl, ← hclean hfalse, hcomp_id]
        | some c =>
          -- the list that the line has fixed is not the old one
          exact iff_of_false ((hsome c hcomp).1.of_comp (hrest c)).ne_id (by simp)
    · -- the open ends here
      have hne : outcome ≠ .ok true := fun h => haccepted (hok.mp h)
      refine ⟨false, f, fun tS => ?_, ?_, hline, fun _ => ?_⟩
      · exact openTaskSpec_stop lines (hconv tS) hne
      · refine iff_of_false Bool.false_ne_true fun hall => ?_
        exact haccepted (hall line List.mem_cons_self)
      · rw [stopsEarly_cons_iff]
        by_cases hshort : Short line
        · exact iff_of_true (hnone hshort.competitionIn) (Or.inl hshort)
        · obtain ⟨c, hc⟩ : ∃ c, competitionIn line = some c :=
            Option.ne_none_iff_exists'.mp fun hcomp =>
              haccepted (accepted_of_unnamed hshort hcomp)
          refine iff_of_false (hsome c hc).1.ne_id ?_
          rw [hc]
          simp [hshort]

/-! ### Clean failures -/

/-- Reading the line ends, and leaves the state alone unless it succeeds. -/
def RejectsCleanly (vte : ValidTaskElements) (line : Text) : Prop :=
  ∀ tS : TaskSpec, (∃ outcome tS', Converges (tS.parseTaskSpecString vte line) (outcome, tS')) ∧
    ∀ outcome tS', Converges (tS.parseTaskSpecString vte line) (outcome, tS') →
      outcome ≠ .ok true → tS' = tS

/-- Opening the file ends, and leaves the state alone if it returns false. -/
def FailsCleanly (vte : ValidTaskElements) (lines : List Text) : Prop :=
  ∀ tS : TaskSpec, (∃ result tS', Converges (tS.openTaskSpec vte lines) (result, tS')) ∧
    ∀ tS', Converges (tS.openTaskSpec vte lines) (false, tS') → tS' = tS

theorem rejectsCleanly_iff (vte : ValidTaskElements) (line : Text) :
    RejectsCleanly vte line ↔ Accepted vte line ∨ Short line := by
  obtain ⟨outcome, f, hconv, hok, hnone, hsome⟩ := exists_parse vte line
  -- the line has one outcome and one effect in all states
  have hclean : RejectsCleanly vte line ↔ (outcome ≠ .ok true → ∀ tS, f tS = tS) := by
    constructor
    · intro h hne tS
      exact (h tS).2 outcome (f tS) (hconv tS) hne
    · intro h tS
      refine ⟨⟨outcome, f tS, hconv tS⟩, fun outcome' tS' hconv' hne => ?_⟩
      obtain ⟨rfl, rfl⟩ := Prod.mk.inj ((hconv tS).unique hconv')
      exact h hne tS
  rw [hclean]
  constructor
  · intro h
    by_cases haccepted : Accepted vte line
    · exact Or.inl haccepted
    · right
      by_contra hshort
      have hid := h fun hcontra => haccepted (hok.mp hcontra)
      refine haccepted ⟨hshort, fun c hc => ?_⟩
      exact absurd hid (hsome c hc).1.ne_id
  · rintro (haccepted | hshort) hne
    · exact absurd (hok.mpr haccepted) hne
    · exact hnone hshort.competitionIn

theorem failsCleanly_iff (vte : ValidTaskElements) (lines : List Text) :
    FailsCleanly vte lines ↔ (∀ line ∈ lines, Accepted vte line) ∨ StopsEarly lines := by
  obtain ⟨result, f, hconv, hresult, -, hearly⟩ := exists_openTaskSpec vte lines
  -- so has the file
  have hclean : FailsCleanly vte lines ↔ (result = false → ∀ tS, f tS = tS) := by
    constructor
    · intro h hfalse tS
      exact (h tS).2 (f tS) (hfalse ▸ hconv tS)
    · intro h tS
      refine ⟨⟨result, f tS, hconv tS⟩, fun tS' hconv' => ?_⟩
      obtain ⟨rfl, rfl⟩ := Prod.mk.inj ((hconv tS).unique hconv')
      exact h rfl tS
  rw [hclean, ← hresult]
  cases result with
  | true => simp
  | false => simp [hearly]

/-- **Failed opens.** Reading a line leaves the state alone, unless it succeeds,
    exactly when the line is accepted or too short to name a competition. A
    failed open of a file leaves the state alone exactly when no line of it is
    rejected, or it stops early. -/
theorem failed_open_iff (vte : ValidTaskElements) :
    (∀ line, RejectsCleanly vte line ↔ Accepted vte line ∨ Short line) ∧
      ∀ lines, FailsCleanly vte lines ↔
        (∀ line ∈ lines, Accepted vte line) ∨ StopsEarly lines :=
  ⟨rejectsCleanly_iff vte, failsCleanly_iff vte⟩

/-- A file whose only line breaks off in the second group: the BTT list is
    replaced by what stands in front of it. -/
theorem failed_open_replaces_list :
    Converges (({ bttTaskList := [⟨"initial".toList, [], "D2".toList, "R20".toList, .init⟩] } :
        TaskSpec).openTaskSpec smallTables ["BTT<initialsituation(S1,line(M20)S2>".toList])
      (false, { bttTaskList := [⟨"initial".toList, "line".toList, "S1".toList, "M20".toList, .init⟩] }) ∧
    Converges (({ bttTaskList := [⟨"initial".toList, [], "D2".toList, "R20".toList, .init⟩] } :
        TaskSpec).parseTaskSpecString smallTables "BTT<initialsituation(S1,line(M20)S2>".toList)
      (.ok false,
        { bttTaskList := [⟨"initial".toList, "line".toList, "S1".toList, "M20".toList, .init⟩] }) :=
  ⟨converges_pure _, converges_pure _⟩

end RefereeBox
