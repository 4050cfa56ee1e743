import RefereeBox.Java.Reader
import RefereeBox.Lib.Filling
import RefereeBox.Lib.Loop
import RefereeBox.Model.Tasks
import RefereeBox.Model.ValidTaskElements

/-! # Reading a Task Specification

  `TaskSpec.parseTaskSpecString` and `TaskSpec.openTaskSpec`. A branch first
  replaces the list of its competition by an empty one and then adds the
  tasks it reads, one by one; an exception in between ends the branch, and
  the tasks added before it stay in the list.
-/

namespace RefereeBox

open Loop Filling

/-- `removeSpaces`: the tokens between the blanks, joined. -/
def removeSpaces (str : Text) : Text :=
  ((str.splitOnP (· = ' ')).filter fun token => !token.isEmpty).flatten

/-! ### BNT -/

/-- The state of the BNT loop: the matcher and the list. -/
structure BntScan where
  m : Java.Matcher
  bntTaskList : List BntTask
deriving DecidableEq, Repr

/-- The body of the BNT loop. -/
def bntScanStep (s : BntScan) : BntScan :=
  match s.m.find with
  | (true, m) =>
    { m := m
      bntTaskList := s.bntTaskList ++
        [{ place := m.group 1, orientation := m.group 2, pause := m.group 3 }] }
  | (false, m) => { s with m := m }

/-- The list and whether the branch failed: a pattern that does not compile
    is an exception, raised when the list is already empty. -/
def parseBnt (vte : ValidTaskElements) (tSpecStr : Text) : Prog (Filling BntTask) :=
  match Java.compile vte.getValidBNTPattern with
  | none => pure fail
  | some pat => do
    -- the body runs at least once, also on a line without a triplet
    let s ← doWhile (fun s => pure (bntScanStep s)) (fun s => !s.m.hitEnd)
      { m := { pattern := pat, input := tSpecStr }, bntTaskList := [] }
    pure { added := s.bntTaskList, failed := false }

/-! ### BMT -/

/-- The tokens of a BMT line. -/
def bmtTokens (tSpecStr : Text) : List Text := Java.split (Java.oneOf "<>,()") tSpecStr

/-- The object tokens: the fifth to the last but two. Each becomes a task. -/
def bmtObjects (tokens : List Text) : List Text := (tokens.take (tokens.length - 2)).drop 5

/-- The static fields behind the BMT loop. They are set in every round, to the
    same values; without a round they stay as they were. -/
def bmtStaticsAfter (tokens : List Text) (statics : BmtStatics) : BmtStatics :=
  if (bmtObjects tokens).isEmpty then statics
  else
    { placeInitial := tokens[1]?
      placeSource := tokens[2]?
      placeDestination := tokens[3]?
      configuration := tokens[4]?
      placeFinal := tokens[tokens.length - 1]? }

/-! ### BTT and CTT -/

/-- The loop over the bracket tokens of one situation. Two tokens make a
    group: place and configuration, and the objects. -/
def parseGroups {τ : Type} (newTask : Text → Text → Text → τ) : List Text → Filling τ
  | [] => done
  | [_] => fail -- the objects' token is past the end of the array
  | token :: objects :: tokens =>
    let test := Java.split (Java.oneOf ",") token
    (need test[0]? fun pose =>
      let config := test[1]?.getD []
      forEach (Java.split (Java.oneOf ",") objects) fun object =>
        one (newTask pose config object)).andThen
    (parseGroups newTask tokens)

/-- The situation that the text in front of the first bracket names. -/
def bttSituation (token : Text) : Text :=
  if Java.contains token "goal".toList then "goal".toList
  else if Java.contains token "initial".toList then "initial".toList
  else []

/-- One situation of a BTT line. -/
def parseBttSituation (initgoalsituation : Text) : Filling BttTask :=
  let tokens := Java.split (Java.oneOf "()") initgoalsituation
  need tokens[0]? fun token =>
    parseGroups (fun pose config object =>
      { situation := bttSituation token, place := pose, configuration := config, object := object })
      tokens.tail

def parseBtt (tSpecStr : Text) : Filling BttTask :=
  let taskspec := Java.split (Java.oneOf "<>") tSpecStr
  match taskspec with
  | _ :: spec :: _ => forEach (Java.split (Java.oneOf ";") spec) parseBttSituation
  | _ => done

/-- The situation of a CTT section in the message of team 1 (`first`) or of a
    later team. -/
def cttSituation (first : Bool) (token : Text) : Text :=
  if Java.contains token "goal".toList then
    (if first then "team1Goal".toList else "team2Goal".toList)
  else if Java.contains token "initial".toList then "initial".toList
  else []

/-- One situation of a CTT message. The initial situation is read from the
    first message only. -/
def parseCttSituation (first : Bool) (initgoalsituation : Text) : Filling CttTask :=
  let tokens := Java.split (Java.oneOf "()") initgoalsituation
  need tokens[0]? fun token =>
    if Java.contains token "initial".toList && !first then done
    else
      parseGroups (fun pose config object =>
        { situation := cttSituation first token, place := pose, configuration := config,
          object := object })
        tokens.tail

/-- One message of a CTT line. -/
def parseCttMessage (first : Bool) (team : Text) : Filling CttTask :=
  forEach (Java.split (Java.oneOf ";") team) (parseCttSituation first)

/-- The first two messages lose their brackets first; further ones are read
    as they are. -/
def parseCtt (tSpecStr : Text) : Filling CttTask :=
  match Java.split (Java.oneOf "#") tSpecStr with
  | team1 :: team2 :: teams =>
    need (Java.split (Java.oneOf "<>") team1)[1]? fun team1 =>
    need (Java.split (Java.oneOf "<>") team2)[1]? fun team2 =>
      (parseCttMessage true team1).andThen (forEach (team2 :: teams) (parseCttMessage false))
  | _ => done -- less than two messages

/-! ### CBT and PPT -/

def parseCbt (tSpecStr : Text) : Filling CbtTask :=
  match Java.split (Java.oneOf "<>") tSpecStr with
  | _ :: spec :: _ =>
    forEach (Java.split (Java.oneOf ";") spec) fun position =>
      forEach (Java.split (Java.oneOf ",") position) fun token => one { place := token }
  | _ => done

/-- Three bracket tokens: the source with a comma behind it, the objects, the
    destination with a comma in front of it. -/
def parsePpt (tSpecStr : Text) : Filling PptTask :=
  match Java.split (Java.oneOf "<>") tSpecStr with
  | _ :: spec :: _ =>
    match Java.split (Java.oneOf "()") spec with
    | [source, objects, destination] =>
      need (Java.substring source 0 (source.length - 1)) fun src =>
      need (Java.substring destination 1 destination.length) fun dest =>
        forEach (Java.split (Java.oneOf ",") objects) fun object =>
          one { source := src, object := object, destination := dest }
    | _ => done -- any other number of tokens
  | _ => done

/-! ### Lines and files -/

/-- The competition that a line names in its first three characters. -/
def competitionOf (competition : Text) : Option CompetitionIdentifier :=
  [CompetitionIdentifier.bnt, .bmt, .btt, .ctt, .cbt, .ppt].find? fun c => c.name = competition

/-- The branch of one competition: whether it ends without an exception, and
    the state it leaves. -/
def TaskSpec.parseBranch (vte : ValidTaskElements) (tS : TaskSpec) (tSpecStr : Text) :
    CompetitionIdentifier → Prog (Bool × TaskSpec)
  | .bnt => do
    let r ← parseBnt vte tSpecStr
    pure (!r.failed, { tS with bntTaskList := r.added })
  | .bmt =>
    let tokens := bmtTokens tSpecStr
    pure (true,
      { tS with
        bmtTaskList := (bmtObjects tokens).map fun object => { object := object }
        bmtStatics := bmtStaticsAfter tokens tS.bmtStatics })
  | .btt =>
    let r := parseBtt tSpecStr
    pure (!r.failed, { tS with bttTaskList := r.added })
  | .ctt =>
    let r := parseCtt tSpecStr
    pure (!r.failed, { tS with cttTaskList := r.added })
  | .cbt =>
    let r := parseCbt tSpecStr
    pure (!r.failed, { tS with cbtTaskList := r.added })
  | .ppt =>
    let r := parsePpt tSpecStr
    pure (!r.failed, { tS with pptTaskList := r.added })

/-- `parseTaskSpecString(tSpecStr)`. An exception in a branch is caught and
    makes the result false; a line of less than three characters raises one
    outside of that. -/
def TaskSpec.parseTaskSpecString (vte : ValidTaskElements) (tS : TaskSpec) (tSpecStr : Text) :
    Prog (Except Exn Bool × TaskSpec) :=
  let tSpecStr := removeSpaces tSpecStr
  match Java.substring tSpecStr 0 3 with
  | none => pure (.error .indexOutOfBounds, tS)
  | some competition =>
    match competitionOf competition with
    | none => pure (.ok true, tS) -- no branch
    | some compIdent => do
      let (result, tS') ← tS.parseBranch vte tSpecStr compIdent
      pure (.ok result, tS')

/-- `openTaskSpec` on the lines of the file. An exception is caught there. -/
def TaskSpec.openTaskSpec (vte : ValidTaskElements) (tS : TaskSpec) :
    List Text → Prog (Bool × TaskSpec)
  | [] => pure (true, tS)
  | strLine :: lines => do
    let (outcome, tS') ← tS.parseTaskSpecString vte strLine
    match outcome with
    | .ok true => tS'.openTaskSpec vte lines
    | _ => pure (false, tS')

/-- `openTaskSpec(file)`, on a file that can be read. -/
def TaskSpec.openFile (vte : ValidTaskElements) (tS : TaskSpec) (content : Text) :
    Prog (Bool × TaskSpec) :=
  tS.openTaskSpec vte (Java.readLines content)

/-! ### What a line selects -/

/-- Joining the tokens between the blanks deletes the blanks. -/
theorem removeSpaces_eq_filter (s : Text) : removeSpaces s = s.filter (· ≠ ' ') := by
  unfold removeSpaces
  induction s with
  | nil => rfl
  | cons c s ih =>
    obtain ⟨t, ts, hts⟩ : ∃ t ts, s.splitOnP (· = ' ') = t :: ts :=
      List.exists_cons_of_ne_nil (List.splitOnP_ne_nil _ s)
    rw [hts] at ih
    have hflat : ((t :: ts).filter fun token => !token.isEmpty).flatten =
        t ++ (ts.filter fun token => !token.isEmpty).flatten := by
      cases t <;> simp
    rw [hflat] at ih
    by_cases hc : c = ' '
    · rw [List.splitOnP_cons_eq_if_modifyHead, if_pos (by simpa using hc), hts,
        List.filter_cons_of_neg (by simp), hflat, ih, List.filter_cons_of_neg (by simpa using hc)]
    · rw [List.splitOnP_cons_eq_if_modifyHead, if_neg (by simpa using hc), hts,
        List.filter_cons_of_pos (by simpa using hc), ← ih]
      simp

theorem removeSpaces_of_no_blank {s : Text} (h : ' ' ∉ s) : removeSpaces s = s := by
  rw [removeSpaces_eq_filter, List.filter_eq_self]
  intro c hc
  have : c ≠ ' ' := fun hblank => h (hblank ▸ hc)
  simpa using this

@[simp] theorem competitionOf_name (c : CompetitionIdentifier) : competitionOf c.name = some c := by
  cases c <;> decide

theorem CompetitionIdentifier.name_length (c : CompetitionIdentifier) : c.name.length = 3 := by
  cases c <;> rfl

/-- A line that starts with the name of a competition goes to its branch. -/
theorem TaskSpec.parse_of_name (vte : ValidTaskElements) (tS : TaskSpec) {line rest : Text}
    {c : CompetitionIdentifier} (h : removeSpaces line = c.name ++ rest) :
    tS.parseTaskSpecString vte line =
      tS.parseBranch vte (removeSpaces line) c >>= fun r => pure (.ok r.1, r.2) := by
  have hlen := c.name_length
  have hsub : Java.substring (removeSpaces line) 0 3 = some c.name := by
    rw [h, Java.substring, if_pos (by rw [List.length_append, hlen]; omega)]
    simp [← hlen]
  unfold TaskSpec.parseTaskSpecString
  simp only [hsub, competitionOf_name]

/-- A line without blanks that starts with the name of a competition. -/
theorem TaskSpec.parse_of_prefix (vte : ValidTaskElements) (tS : TaskSpec) {line : Text}
    {c : CompetitionIdentifier} (hblank : ' ' ∉ line) (hname : c.name <+: line) :
    tS.parseTaskSpecString vte line = tS.parseBranch vte line c >>= fun r => pure (.ok r.1, r.2) := by
  obtain ⟨rest, hrest⟩ := hname
  have hspaces := removeSpaces_of_no_blank hblank
  have h := tS.parse_of_name vte (hspaces.trans hrest.symm)
  rwa [hspaces] at h

end RefereeBox
