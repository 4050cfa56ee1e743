import RefereeBox.Text.Rejection

/-! # Lines With Tasks

  When `parseTaskSpecString` puts a task into the list that a line names, whether its
  branch gets through the line or breaks off behind the task. As for the accepted
  lines it is the shape of the text that decides (`Holds`): a group of brackets with
  an object in it, and nothing in front of it at which the branch breaks off.
-/

namespace RefereeBox

open Loop Filling

/-! ### The shape of lines with a task -/

/-- A valid triplet stands in the text. -/
def HoldsBnt (vte : ValidTaskElements) (tSpecStr : Text) : Prop :=
  ∃ pat ∈ Java.compile vte.getValidBNTPattern,
    ∃ u t rest, tSpecStr = u ++ t ++ rest ∧ Pattern.Matches pat t

/-- Among the bracket tokens there is an object behind a place, and the places up to
    there can be read. -/
def HoldsObject : List Text → Prop
  | place :: objects :: tokens => HasPiece "," place ∧ (HasPiece "," objects ∨ HoldsObject tokens)
  | _ => False

def SectionHolds (initgoalsituation : Text) : Prop :=
  HoldsObject (Java.split (Java.oneOf "()") initgoalsituation).tail

/-- In a CTT message behind the first only the goals are read. -/
def LaterSectionHolds (initgoalsituation : Text) : Prop :=
  (∀ token ∈ (Java.split (Java.oneOf "()") initgoalsituation).head?,
      Java.contains token "initial".toList = false) ∧
    SectionHolds initgoalsituation

/-- The situations in front of the one with the task can be read. -/
def HoldsBtt (tSpecStr : Text) : Prop :=
  match Java.split (Java.oneOf "<>") tSpecStr with
  | _ :: spec :: _ => Reaches ReadableSection SectionHolds (Java.split (Java.oneOf ";") spec)
  | _ => False

/-- So can the messages. -/
def HoldsCtt (tSpecStr : Text) : Prop :=
  match Java.split (Java.oneOf "#") tSpecStr with
  | team1 :: team2 :: teams =>
    ∃ spec1 spec2, (Java.split (Java.oneOf "<>") team1)[1]? = some spec1 ∧
      (Java.split (Java.oneOf "<>") team2)[1]? = some spec2 ∧
      (Reaches ReadableSection SectionHolds (Java.split (Java.oneOf ";") spec1) ∨
        (∀ situation ∈ Java.split (Java.oneOf ";") spec1, ReadableSection situation) ∧
          Reaches
            (fun team => ∀ situation ∈ Java.split (Java.oneOf ";") team,
              ReadableLaterSection situation)
            (fun team => Reaches ReadableLaterSection LaterSectionHolds
              (Java.split (Java.oneOf ";") team))
            (spec2 :: teams))
  | _ => False

def HoldsCbt (tSpecStr : Text) : Prop :=
  match Java.split (Java.oneOf "<>") tSpecStr with
  | _ :: spec :: _ => ∃ position ∈ Java.split (Java.oneOf ";") spec, HasPiece "," position
  | _ => False

def HoldsPpt (tSpecStr : Text) : Prop :=
  match Java.split (Java.oneOf "<>") tSpecStr with
  | _ :: spec :: _ =>
    match Java.split (Java.oneOf "()") spec with
    | [source, objects, destination] => source ≠ [] ∧ destination ≠ [] ∧ HasPiece "," objects
    | _ => False
  | _ => False

/-- There is a task for the branch of the competition in the text. A BMT text has
    objects if it has a token between the first five and the last two. -/
def Holds (vte : ValidTaskElements) (tSpecStr : Text) : CompetitionIdentifier → Prop
  | .bnt => HoldsBnt vte tSpecStr
  | .bmt => 7 < (bmtTokens tSpecStr).length
  | .btt => HoldsBtt tSpecStr
  | .ctt => HoldsCtt tSpecStr
  | .cbt => HoldsCbt tSpecStr
  | .ppt => HoldsPpt tSpecStr

/-! ### Which branches add a task -/

theorem split_ne_nil_iff {delims : String} {s : Text} :
    Java.split (Java.oneOf delims) s ≠ [] ↔ HasPiece delims s := by
  rw [← not_iff_not, not_not, ← split_getElem?_zero, ← List.head?_eq_getElem?,
    List.head?_eq_none_iff]

theorem forEach_one_added_ne_nil_iff {τ : Type} (l : List Text) (newTask : Text → τ) :
    (forEach l fun object => one (newTask object)).added ≠ [] ↔ l ≠ [] := by
  rw [forEach_one]
  simp

theorem parseGroups_added_ne_nil_iff {τ : Type} (newTask : Text → Text → Text → τ)
    (tokens : List Text) : (parseGroups newTask tokens).added ≠ [] ↔ HoldsObject tokens := by
  induction tokens using parseGroups.induct with
  | case1 => simp [parseGroups, HoldsObject, done]
  | case2 token => simp [parseGroups, HoldsObject, fail]
  | case3 token objects tokens ih =>
    unfold parseGroups HoldsObject
    rw [andThen_added_ne_nil_iff, ih, need_failed]
    by_cases hpiece : HasPiece "," token
    · obtain ⟨pose, hpose⟩ := hpiece.exists_head
      simp only [hpose, need_some, forEach_one, hpiece, true_and]
      rw [ne_eq, List.map_eq_nil_iff, ← ne_eq, split_ne_nil_iff]
    · simp [split_getElem?_zero.mpr hpiece, hpiece, fail]

/-- Without a bracket token there is no first one either. -/
theorem need_head_added_ne_nil_iff {τ : Type} (s : Text) (f : Text → Filling τ) {p : Text → Prop}
    (hf : ∀ token, (Java.split (Java.oneOf "()") s)[0]? = some token →
      ((f token).added ≠ [] ↔ p token)) :
    (need (Java.split (Java.oneOf "()") s)[0]? f).added ≠ [] ↔
      ∃ token, (Java.split (Java.oneOf "()") s).head? = some token ∧ p token := by
  rw [need_added_ne_nil_iff, List.head?_eq_getElem?]
  exact exists_congr fun token => and_congr_right fun htoken => hf token htoken

/-- A section with a task has a first token. -/
theorem SectionHolds.exists_head {s : Text} (h : SectionHolds s) :
    ∃ token, (Java.split (Java.oneOf "()") s).head? = some token := by
  unfold SectionHolds at h
  cases hs : Java.split (Java.oneOf "()") s with
  | nil =>
    rw [hs] at h
    exact h.elim
  | cons token tokens => exact ⟨token, rfl⟩

theorem parseBttSituation_added_ne_nil_iff (s : Text) :
    (parseBttSituation s).added ≠ [] ↔ SectionHolds s := by
  unfold parseBttSituation
  rw [need_head_added_ne_nil_iff s _ fun token _ => parseGroups_added_ne_nil_iff _ _]
  constructor
  · rintro ⟨-, -, h⟩
    exact h
  · intro h
    obtain ⟨token, htoken⟩ := h.exists_head
    exact ⟨token, htoken, h⟩

theorem parseBtt_added_ne_nil_iff (s : Text) : (parseBtt s).added ≠ [] ↔ HoldsBtt s := by
  unfold parseBtt HoldsBtt
  dsimp only
  rcases Java.split (Java.oneOf "<>") s with _ | ⟨name, _ | ⟨spec, rest⟩⟩
  · simp [done]
  · simp [done]
  · rw [forEach_added_ne_nil_iff]
    exact reaches_congr (fun situation _ => parseBttSituation_ok_iff situation)
      fun situation _ => parseBttSituation_added_ne_nil_iff situation

/-- The first message is read like a BTT line. -/
theorem parseCttSituation_first_added_ne_nil_iff (s : Text) :
    (parseCttSituation true s).added ≠ [] ↔ SectionHolds s := by
  unfold parseCttSituation
  rw [need_head_added_ne_nil_iff s _ (p := fun _ => SectionHolds s) fun token _ => ?_]
  · constructor
    · rintro ⟨-, -, h⟩
      exact h
    · intro h
      obtain ⟨token, htoken⟩ := h.exists_head
      exact ⟨token, htoken, h⟩
  · simp only [Bool.not_true, Bool.and_false, Bool.false_eq_true, if_false]
    exact parseGroups_added_ne_nil_iff _ _

theorem parseCttSituation_later_added_ne_nil_iff (s : Text) :
    (parseCttSituation false s).added ≠ [] ↔ LaterSectionHolds s := by
  unfold parseCttSituation LaterSectionHolds
  rw [need_head_added_ne_nil_iff s _
    (p := fun token => Java.contains token "initial".toList = false ∧ SectionHolds s)
    fun token _ => ?_]
  · constructor
    · rintro ⟨token, htoken, hgoal, h⟩
      refine ⟨fun token' htoken' => ?_, h⟩
      obtain rfl := Option.some.inj (htoken.symm.trans htoken')
      exact hgoal
    · rintro ⟨hgoal, h⟩
      obtain ⟨token, htoken⟩ := h.exists_head
      exact ⟨token, htoken, hgoal token htoken, h⟩
  · by_cases hinitial : Java.contains token "initial".toList = true
    · rw [hinitial]
      simp [done]
    · simp only [hinitial, Bool.not_false, Bool.and_true, Bool.false_eq_true, if_false, true_and]
      exact parseGroups_added_ne_nil_iff _ _

theorem parseCttMessage_ok_iff (s : Text) :
    (parseCttMessage false s).failed = false ↔
      ∀ situation ∈ Java.split (Java.oneOf ";") s, ReadableLaterSection situation := by
  unfold parseCttMessage
  rw [forEach_ok_iff]
  exact forall₂_congr fun situation _ => parseCttSituation_later_ok_iff situation

theorem parseCtt_added_ne_nil_iff (s : Text) : (parseCtt s).added ≠ [] ↔ HoldsCtt s := by
  unfold parseCtt HoldsCtt
  rcases Java.split (Java.oneOf "#") s with _ | ⟨team1, _ | ⟨team2, teams⟩⟩
  · simp [done]
  · simp [done]
  · dsimp only
    rw [need_added_ne_nil_iff]
    refine exists_congr fun spec1 => ?_
    rw [need_added_ne_nil_iff, exists_and_left, Option.mem_def]
    refine and_congr_right fun _ => exists_congr fun spec2 => and_congr_right fun _ => ?_
    rw [andThen_added_ne_nil_iff, forEach_added_ne_nil_iff]
    -- the first message, and all others with the second one
    refine or_congr ?_ (and_congr ?_ (reaches_congr (fun team _ => ?_) fun team _ => ?_))
    · unfold parseCttMessage
      rw [forEach_added_ne_nil_iff]
      exact reaches_congr (fun situation _ => parseCttSituation_first_ok_iff situation)
        fun situation _ => parseCttSituation_first_added_ne_nil_iff situation
    · unfold parseCttMessage
      rw [forEach_ok_iff]
      exact forall₂_congr fun situation _ => parseCttSituation_first_ok_iff situation
    · exact parseCttMessage_ok_iff team
    · unfold parseCttMessage
      rw [forEach_added_ne_nil_iff]
      exact reaches_congr (fun situation _ => parseCttSituation_later_ok_iff situation)
        fun situation _ => parseCttSituation_later_added_ne_nil_iff situation

/-- The CBT branch gets to every position. -/
theorem parseCbt_added_ne_nil_iff (s : Text) : (parseCbt s).added ≠ [] ↔ HoldsCbt s := by
  unfold parseCbt HoldsCbt
  rcases Java.split (Java.oneOf "<>") s with _ | ⟨name, _ | ⟨spec, rest⟩⟩
  · simp [done]
  · simp [done]
  · dsimp only
    rw [forEach_added_ne_nil_iff, reaches_iff_exists fun position _ => by rw [forEach_one]]
    refine exists_congr fun position => and_congr_right fun _ => ?_
    rw [forEach_one_added_ne_nil_iff, split_ne_nil_iff]

theorem parsePpt_added_ne_nil_iff (s : Text) : (parsePpt s).added ≠ [] ↔ HoldsPpt s := by
  unfold parsePpt HoldsPpt
  rcases Java.split (Java.oneOf "<>") s with _ | ⟨name, _ | ⟨spec, rest⟩⟩
  · simp [done]
  · simp [done]
  · dsimp only
    rcases Java.split (Java.oneOf "()") spec with
      _ | ⟨source, _ | ⟨objects, _ | ⟨destination, _ | ⟨token, tokens⟩⟩⟩⟩
    · simp [done]
    · simp [done]
    · simp [done]
    · dsimp only
      rw [← exists_substring_init source, ← exists_substring_tail destination,
        need_added_ne_nil_iff]
      simp only [need_added_ne_nil_iff, forEach_one_added_ne_nil_iff, split_ne_nil_iff,
        Option.mem_def, exists_and_right]
    · simp [done]

theorem bmtObjects_ne_nil_iff (tokens : List Text) : bmtObjects tokens ≠ [] ↔ 7 < tokens.length := by
  unfold bmtObjects
  rw [← List.length_pos_iff, List.length_drop, List.length_take]
  omega

/-- The matches of the pattern become the tasks. -/
theorem parseBnt_added_ne_nil_iff {vte : ValidTaskElements} {tSpecStr : Text} {r : Filling BntTask}
    (h : Converges (parseBnt vte tSpecStr) r) : r.added ≠ [] ↔ HoldsBnt vte tSpecStr := by
  unfold HoldsBnt
  cases hcompile : Java.compile vte.getValidBNTPattern with
  | none =>
    rw [h.unique (parseBnt_of_compile_none hcompile tSpecStr)]
    simp [fail]
  | some pat =>
    obtain ⟨ms, hscan, hconv⟩ := exists_parseBnt_scan hcompile tSpecStr
    rw [h.unique hconv]
    simp only [Option.mem_def, Option.some.injEq, exists_eq_left']
    rw [← hscan.ne_nil_iff, ne_eq, List.map_eq_nil_iff]

/-! ### Branches and lines -/

/-- The branch leaves a task in its list exactly if the text holds one. -/
theorem parseBranch_tasks_ne_nil_iff {vte : ValidTaskElements} {tS tS' : TaskSpec}
    {tSpecStr : Text} {c : CompetitionIdentifier} {ok : Bool}
    (h : Converges (tS.parseBranch vte tSpecStr c) (ok, tS')) :
    tS'.tasks c ≠ [] ↔ Holds vte tSpecStr c := by
  have htasks {τ : Type} (task : τ → Task) (l : List τ) : l.map task ≠ [] ↔ l ≠ [] := by
    rw [ne_eq, List.map_eq_nil_iff]
  cases c with
  | bnt =>
    obtain ⟨r, hr, -⟩ := exists_parseBnt vte tSpecStr
    have hconv : Converges (tS.parseBranch vte tSpecStr .bnt)
        (!r.failed, { tS with bntTaskList := r.added }) :=
      converges_map (fun r : Filling BntTask =>
        (!r.failed, ({ tS with bntTaskList := r.added } : TaskSpec))) hr
    obtain ⟨-, rfl⟩ := Prod.mk.inj (h.unique hconv)
    exact (htasks .bnt _).trans (parseBnt_added_ne_nil_iff hr)
  | bmt =>
    obtain ⟨-, rfl⟩ := Prod.mk.inj (h.unique (converges_pure _))
    refine (htasks .bmt _).trans (Iff.trans ?_ (bmtObjects_ne_nil_iff _))
    rw [ne_eq, List.map_eq_nil_iff]
  | btt =>
    obtain ⟨-, rfl⟩ := Prod.mk.inj (h.unique (converges_pure _))
    exact (htasks .btt _).trans (parseBtt_added_ne_nil_iff _)
  | ctt =>
    obtain ⟨-, rfl⟩ := Prod.mk.inj (h.unique (converges_pure _))
    exact (htasks .ctt _).trans (parseCtt_added_ne_nil_iff _)
  | cbt =>
    obtain ⟨-, rfl⟩ := Prod.mk.inj (h.unique (converges_pure _))
    exact (htasks .cbt _).trans (parseCbt_added_ne_nil_iff _)
  | ppt =>
    obtain ⟨-, rfl⟩ := Prod.mk.inj (h.unique (converges_pure _))
    exact (htasks .ppt _).trans (parsePpt_added_ne_nil_iff _)

/-- The line holds a task for the competition that it names. -/
def Yields (vte : ValidTaskElements) (c : CompetitionIdentifier) (line : Text) : Prop :=
  Holds vte (removeSpaces line) c

/-- **Lines with tasks.** Behind a line the list of the competition that it names is
    empty exactly if the line holds no task for it, whatever the list was before and
    whether the line is rejected or not. -/
theorem parse_tasks_ne_nil_iff {vte : ValidTaskElements} {tS tS' : TaskSpec} {line : Text}
    {c : CompetitionIdentifier} {outcome : Except Exn Bool} (hc : competitionIn line = some c)
    (h : Converges (tS.parseTaskSpecString vte line) (outcome, tS')) :
    tS'.tasks c ≠ [] ↔ Yields vte c line := by
  have hlong : ¬ Short line := by
    intro hshort
    rw [hshort.competitionIn] at hc
    cases hc
  have hlen : 3 ≤ (removeSpaces line).length := Nat.not_lt.mp hlong
  have hsub : Java.substring (removeSpaces line) 0 3 = some ((removeSpaces line).take 3) := by
    rw [Java.substring, if_pos (by omega)]
    rfl
  have hof : competitionOf ((removeSpaces line).take 3) = some c := hc
  obtain ⟨ok, f, hconv, -⟩ := exists_parseBranch vte (removeSpaces line) c
  have hline : Converges (tS.parseTaskSpecString vte line) (.ok ok, f tS) := by
    unfold TaskSpec.parseTaskSpecString
    simp only [hsub, hof]
    exact converges_map (fun r : Bool × TaskSpec => (Except.ok r.1, r.2)) (hconv tS)
  obtain ⟨-, rfl⟩ := Prod.mk.inj (h.unique hline)
  exact parseBranch_tasks_ne_nil_iff (hconv tS)

end RefereeBox
