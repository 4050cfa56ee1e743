import RefereeBox.Lib.Transition
import RefereeBox.Model.MainController

/-! # Request/Reply Alternation

  The main controller with its two servers, the timer and any messages of
  clients, in any order. Every send that `sendTaskSpecToClient` issues is
  recorded with what held on its socket.

  `activeConnection` is true of a server that listens as well as of one with a
  team, so the guard of the send does not tell whether there is a request to
  answer. As long as Send Spec is used with servers that are ready for it
  (`SendsReady`), every send is legal.
-/

namespace RefereeBox

open Transition

/-! ### The system -/

inductive Action where
  /-- Load Config; `loaded` says whether the file was. -/
  | loadConfig (loaded : Bool)
  | saveFile
  | openFile
  /-- An edit that calls `setUnsavedChanges`. -/
  | edit
  | tab (tab : CompetitionIdentifier)
  | timerStart
  | timerStop
  | timerOverrun
  /-- Send Spec, with the text of the actual specification. -/
  | sendSpec (taskSpec : Text)
  /-- The receive of `sendTaskSpecToClient` returns a message of a client. -/
  | acknowledge (m : Request)
  /-- The receive of `sendTaskSpecToClient` times out. -/
  | timeout
  | disconnect
  | competitionFinished
  /-- The join of `shutdownSocket` returns. -/
  | joined
  /-- The server thread of a team receives a message of a client. -/
  | connect (team : Team) (m : Request)
deriving DecidableEq, Repr

/-- Every action needs its button enabled, and the event thread free. A socket
    accepts a receive only while no request is unanswered. -/
def refereeing : System MainController Action where
  init s := s = {}
  step s l s' :=
    match l with
    | .loadConfig loaded =>
      s.call = .idle ∧ s.mG.loadConfigButton = true ∧ s' = s.loadConfig loaded
    | .saveFile => s.call = .idle ∧ s.mG.saveButton = true ∧ s' = s.setSavedChanges
    | .openFile =>
      s.call = .idle ∧ s.mG.saveButton = true ∧ s.competitionMode = false ∧
        s' = s.setSavedChanges.tabbChange s.compIdent
    | .edit => s.call = .idle ∧ s' = s.setUnsavedChanges
    | .tab tab => s.call = .idle ∧ s' = s.tabbChange tab
    | .timerStart =>
      s.call = .idle ∧ s.mG.timerStartStopButton = true ∧ s.mG.timerSelected = false ∧
        s' = s.timerStarted
    | .timerStop =>
      s.call = .idle ∧ s.mG.timerStartStopButton = true ∧ s.mG.timerSelected = true ∧
        s' = s.timerStopped
    | .timerOverrun => s.timerStop = false ∧ s' = s.timerOverrun -- on the timer's thread
    | .sendSpec taskSpec =>
      s.call = .idle ∧ s.mG.sendTripletsButton = true ∧ s' = s.sendSpec taskSpec
    | .acknowledge m =>
      ∃ team rest, s.call = .awaitingAck team rest ∧
        (s.channel team).server.refereeSocket.isOpen = true ∧
        (s.channel team).unanswered = false ∧ s' = s.receiveAck team rest (some m)
    | .timeout =>
      ∃ team rest, s.call = .awaitingAck team rest ∧ s' = s.receiveAck team rest none
    | .disconnect => s.call = .idle ∧ s.mG.disconnectButton = true ∧ s' = s.disconnect
    | .competitionFinished =>
      s.call = .idle ∧ s.mG.competitionFinishedButton = true ∧ s' = s.competitionFinished
    | .joined =>
      s.call = .joining ∧ s.serverTeam2.server.receiving = false ∧ s' = s.socketClosed
    | .connect team m =>
      (s.channel team).server.receiving = true ∧ (s.channel team).unanswered = false ∧
        s' = s.teamConnected team m

/-- A legal send answers a request, while nobody waits in a receive, and does not
    follow a send whose acknowledgement timed out. -/
def IssuedSend.Legal (i : IssuedSend) : Prop :=
  i.unanswered = true ∧ i.receiving = false ∧ i.afterTimeout = false

/-- The server does nothing on a send, or it has a team whose last send has not
    timed out. -/
def Channel.Ready (ch : Channel) : Prop :=
  ch.server.activeConnection = true → ch.server.teamName ≠ [] ∧ ch.timedOut = false

/-- Send Spec is used only when the servers that a part of the text goes to are
    ready. -/
def SendsReady (s : MainController) : Action → Prop
  | .sendSpec taskSpec =>
    ((s.parts taskSpec).1.isSome = true → s.serverTeam1.Ready) ∧
      ((s.parts taskSpec).2.isSome = true → s.serverTeam2.Ready)
  | _ => True

/-! ### One channel -/

/-- What the flags of a server say about its socket, where `awaiting` is whether
    the event thread waits for an answer on it. -/
structure Channel.Coherent (awaiting : Prop) (ch : Channel) : Prop where
  receiving : ch.server.receiving = true →
    ch.server.activeConnection = true ∧ ch.server.refereeSocket.peer = none ∧
      ch.server.teamName = []
  connected : ch.server.activeConnection = true → ch.server.teamName ≠ [] →
    ch.server.refereeSocket.peer.isSome = true ∧
      (ch.server.refereeSocket.reply = none ∨ ch.timedOut = true ∨ awaiting)

theorem Channel.disconnectClient_receiving (ch : Channel) :
    ch.disconnectClient.2.server.receiving = ch.server.receiving := by
  unfold Channel.disconnectClient TaskServer.disconnectClient
  by_cases hteam : ch.server.teamName ≠ []
  · simp only [if_pos hteam]
  · simp only [if_neg hteam]

namespace Channel.Coherent

variable {awaiting : Prop} {ch : Channel}

theorem imp {awaiting' : Prop} (h : ch.Coherent awaiting) (himp : awaiting → awaiting') :
    ch.Coherent awaiting' where
  receiving := h.receiving
  connected hactive hteam :=
    ⟨(h.connected hactive hteam).1, (h.connected hactive hteam).2.imp_right (Or.imp_right himp)⟩

theorem listen (h : ch.Coherent awaiting) : ch.listen.Coherent awaiting := by
  unfold Channel.listen TaskServer.createServerSocket TaskServer.listenForConnection
  by_cases hactive : ch.server.activeConnection = true
  · have hnot : ¬ ch.server.activeConnection = false := by simp [hactive]
    rw [if_neg hnot, if_neg hnot, hactive, Bool.and_true]
    exact ⟨h.receiving, h.connected⟩
  · have hinactive : ch.server.activeConnection = false := by simpa using hactive
    rw [if_pos hinactive, if_pos hinactive]
    exact ⟨fun _ => ⟨rfl, rfl, rfl⟩, fun _ hteam => absurd rfl hteam⟩

theorem run (m : Request) : (ch.run m).Coherent awaiting := by
  unfold Channel.run TaskServer.run
  constructor
  · dsimp only
    split <;> exact fun hreceiving => absurd hreceiving (by simp)
  · dsimp only
    split <;> exact fun _ _ => ⟨rfl, Or.inl rfl⟩

theorem receiveAck (h : ch.Coherent awaiting) (answer : Option Request)
    (hreceiving : answer.isSome = true → ch.server.receiving = false) :
    (ch.receiveAck answer).2.Coherent False := by
  cases answer with
  | none =>
    refine ⟨h.receiving, fun hactive hteam => ?_⟩
    exact ⟨(h.connected hactive hteam).1, Or.inr (Or.inl rfl)⟩
  | some m =>
    have hnot : ch.server.receiving = false := hreceiving rfl
    exact ⟨fun hr => absurd (hnot.symm.trans hr) (by decide), fun _ _ => ⟨rfl, Or.inl rfl⟩⟩

theorem disconnectClient (h : ch.Coherent awaiting) :
    ch.disconnectClient.2.Coherent awaiting := by
  unfold Channel.disconnectClient TaskServer.disconnectClient
  by_cases hteam : ch.server.teamName ≠ []
  · simp only [if_pos hteam]
    refine ⟨fun hreceiving => ?_, fun hactive => absurd hactive (by simp)⟩
    exact absurd (h.receiving hreceiving).2.2 hteam
  · simp only [if_neg hteam]
    exact h

theorem shutdownSocket (hreceiving : ch.server.receiving = false) :
    ch.shutdownSocket.Coherent awaiting where
  receiving hr := absurd (hreceiving.symm.trans hr) (by decide)
  connected hactive := absurd hactive (by simp [Channel.shutdownSocket, TaskServer.shutdownSocket])

/-- A send, whether the socket accepts it or not. -/
theorem send (h : ch.Coherent awaiting) {tSpec : Text} {ch' : Channel}
    (hsend : ch.send tSpec = some ch') :
    ch.server.activeConnection = true ∧ ch'.server.receiving = ch.server.receiving ∧
      ch'.Coherent True := by
  unfold Channel.send TaskServer.sendTaskSpec at hsend
  by_cases hinactive : ch.server.activeConnection = false
  · rw [if_pos hinactive] at hsend
    exact absurd hsend (by simp)
  · rw [if_neg hinactive] at hsend
    obtain rfl := Option.some.inj hsend
    refine ⟨by simpa using hinactive, ?_, ?_⟩
    · dsimp only
      split <;> rfl
    · constructor
      · dsimp only
        split <;> exact h.receiving
      · dsimp only
        split <;> exact fun hactive hteam =>
          ⟨(h.connected hactive hteam).1, Or.inr (Or.inr trivial)⟩

/-- A ready server that sends has a request to answer. -/
theorem legal (h : ch.Coherent False) (hready : ch.Ready)
    (hactive : ch.server.activeConnection = true) (team : Team) :
    (⟨team, ch.unanswered, ch.server.receiving, ch.timedOut⟩ : IssuedSend).Legal := by
  obtain ⟨hteam, htimeout⟩ := hready hactive
  obtain ⟨hpeer, hreply⟩ := h.connected hactive hteam
  have hnone : ch.server.refereeSocket.reply = none := by
    rcases hreply with hnone | htimed | hfalse
    · exact hnone
    · exact absurd (htimeout.symm.trans htimed) (by decide)
    · exact hfalse.elim
  refine ⟨?_, ?_, htimeout⟩
  · simp [Channel.unanswered, hpeer, hnone]
  · by_contra hreceiving
    exact hteam (h.receiving (by simpa using hreceiving)).2.2

end Channel.Coherent

/-! ### The invariant -/

namespace MainController

/-- Between the two parts of a specification: the answer, or the timeout, has
    been taken, and the event thread is free. -/
def answered (s : MainController) (team : Team) (answer : Option Request) : MainController :=
  let (result, ch) := (s.channel team).receiveAck answer
  let s := s.setChannel team ch
  { s with
    call := .idle
    mG := if result = true then s.mG.taskSpecSent else s.mG }

theorem receiveAck_eq (s : MainController) (team : Team) (rest : Option Text)
    (answer : Option Request) :
    s.receiveAck team rest answer = (s.answered team answer).sendRest rest := by
  cases team <;> cases rest <;> rfl

end MainController

structure Strict (s : MainController) : Prop where
  channel : ∀ team, (s.channel team).Coherent (∃ rest, s.call = .awaitingAck team rest)
  waiting : ∀ team rest, s.call = .awaitingAck team rest →
    (s.channel team).server.receiving = false
  rest : ∀ team tSpec, s.call = .awaitingAck team (some tSpec) →
    team = .team1 ∧ s.serverTeam2.Ready
  sends : ∀ i ∈ s.sends, i.Legal

namespace Strict

variable {s s' : MainController}

theorem init : Strict {} where
  channel team := by
    cases team <;> exact ⟨fun h => absurd h (by decide), fun h => absurd h (by decide)⟩
  waiting _ _ h := absurd h (by simp)
  rest _ _ h := absurd h (by simp)
  sends _ h := absurd h List.not_mem_nil

/-- A change of the view and of the other flags. -/
theorem congr (h : Strict s) (h1 : s'.serverTeam1 = s.serverTeam1)
    (h2 : s'.serverTeam2 = s.serverTeam2) (hcall : s'.call = s.call) (hsends : s'.sends = s.sends) :
    Strict s' := by
  have hchannel := MainController.channel_congr h1 h2
  refine ⟨?_, ?_, ?_, ?_⟩
  · rw [hchannel, hcall]
    exact h.channel
  · rw [hchannel, hcall]
    exact h.waiting
  · rw [h2, hcall]
    exact h.rest
  · rw [hsends]
    exact h.sends

/-- A change of one server. -/
theorem setChannel (h : Strict s) {team : Team} {ch : Channel}
    (hch : ch.Coherent (∃ rest, s.call = .awaitingAck team rest))
    (hwaiting : (∃ rest, s.call = .awaitingAck team rest) → ch.server.receiving = false)
    (hready : ∀ tSpec, s.call = .awaitingAck .team1 (some tSpec) → team = .team2 → ch.Ready) :
    Strict (s.setChannel team ch) where
  channel other := by
    rw [MainController.setChannel_call]
    by_cases hother : other = team
    · subst hother
      rw [MainController.channel_setChannel]
      exact hch
    · rw [MainController.channel_setChannel_of_ne s hother]
      exact h.channel other
  waiting other rest hcall := by
    rw [MainController.setChannel_call] at hcall
    by_cases hother : other = team
    · subst hother
      rw [MainController.channel_setChannel]
      exact hwaiting ⟨rest, hcall⟩
    · rw [MainController.channel_setChannel_of_ne s hother]
      exact h.waiting other rest hcall
  rest other tSpec hcall := by
    rw [MainController.setChannel_call] at hcall
    obtain ⟨rfl, hrest⟩ := h.rest other tSpec hcall
    refine ⟨rfl, ?_⟩
    cases team with
    | team1 => exact hrest
    | team2 => exact hready tSpec hcall rfl
  sends := by
    rw [MainController.setChannel_sends]
    exact h.sends

theorem not_awaiting (hidle : s.call = .idle) (team : Team) :
    ¬ ∃ rest, s.call = .awaitingAck team rest := by
  rintro ⟨rest, hcall⟩
  rw [hidle] at hcall
  exact absurd hcall (by simp)

/-- While the event thread is free. -/
theorem setChannel_of_idle (h : Strict s) (hidle : s.call = .idle) {team : Team} {ch : Channel}
    (hch : ch.Coherent (∃ rest, s.call = .awaitingAck team rest)) :
    Strict (s.setChannel team ch) :=
  h.setChannel hch (fun hwait => absurd hwait (not_awaiting hidle team))
    fun _ hcall => absurd ⟨_, hcall⟩ (not_awaiting hidle .team1)

/-! ### Servers -/

theorem listen (h : Strict s) (hidle : s.call = .idle) (team : Team) : Strict (s.listen team) :=
  h.setChannel_of_idle hidle (h.channel team).listen

theorem createServers (h : Strict s) (hidle : s.call = .idle) : Strict s.createServers := by
  have h1 := h.listen hidle .team1
  unfold MainController.createServers
  dsimp only
  split
  · exact h1.listen hidle .team2
  · exact h1

/-- A server thread that receives was not sent to, and has no part to send. -/
theorem teamConnected (h : Strict s) {team : Team} (m : Request)
    (hreceiving : (s.channel team).server.receiving = true) : Strict (s.teamConnected team m) := by
  have hset : Strict (s.setChannel team ((s.channel team).run m)) := by
    refine h.setChannel (.run m) (fun _ => ?_) fun tSpec hcall hteam => ?_
    · unfold Channel.run TaskServer.run
      dsimp only
      split <;> rfl
    · subst hteam
      obtain ⟨hactive, -, hname⟩ := (h.channel .team2).receiving hreceiving
      exact absurd hname ((h.rest .team1 tSpec hcall).2 hactive).1
  unfold MainController.teamConnected
  dsimp only
  split
  · exact hset
  · exact hset.congr rfl rfl rfl rfl

theorem disconnectClient (h : Strict s) : Strict s.disconnectClient := by
  have hset : Strict (s.setChannel .team1 s.serverTeam1.disconnectClient.2) := by
    refine h.setChannel (h.channel .team1).disconnectClient (fun ⟨rest, hcall⟩ => ?_)
      fun _ _ hteam => absurd hteam (by decide)
    exact (Channel.disconnectClient_receiving _).trans (h.waiting .team1 rest hcall)
  exact hset.congr rfl rfl rfl rfl

theorem disconnect (h : Strict s) (hidle : s.call = .idle) : Strict s.disconnect :=
  h.disconnectClient.listen hidle .team1

/-- No call waits for a server while the thread is joined. -/
theorem joining (h : Strict s) (hidle : s.call = .idle) : Strict { s with call := .joining } where
  channel team := (h.channel team).imp fun hwait => absurd hwait (not_awaiting hidle team)
  waiting _ _ hcall := absurd hcall (by simp)
  rest _ _ hcall := absurd hcall (by simp)
  sends := h.sends

theorem shutdownSocket (h : Strict s) (hidle : s.call = .idle) : Strict s.shutdownSocket := by
  unfold MainController.shutdownSocket
  split
  · exact h.joining hidle
  · exact h

theorem socketClosed (h : Strict s) (hjoining : s.call = .joining)
    (hreceiving : s.serverTeam2.server.receiving = false) : Strict s.socketClosed where
  channel team := by
    have hno : ¬ ∃ rest, s.call = .awaitingAck team rest := by
      rintro ⟨rest, hcall⟩
      rw [hjoining] at hcall
      exact absurd hcall (by simp)
    cases team with
    | team1 => exact (h.channel .team1).imp fun hwait => absurd hwait hno
    | team2 => exact .shutdownSocket hreceiving
  waiting _ _ hcall := absurd hcall (by simp [MainController.socketClosed])
  rest _ _ hcall := absurd hcall (by simp [MainController.socketClosed])
  sends := h.sends

/-! ### Send Spec -/

/-- A send to a ready server is legal, and the event thread waits for its
    answer. -/
theorem issue (h : Strict s) (hidle : s.call = .idle) {team : Team} {tSpec : Text}
    {rest : Option Text} (hready : (s.channel team).Ready)
    (hrest : rest.isSome = true → team = .team1 ∧ s.serverTeam2.Ready)
    (hissue : s.issue team tSpec rest = some s') : Strict s' := by
  -- no call waits for any of the servers
  have hcoherent : ∀ other, (s.channel other).Coherent False := fun other =>
    (h.channel other).imp fun hwait => not_awaiting hidle other hwait
  obtain ⟨ch', hsend, rfl⟩ := Option.map_eq_some_iff.mp hissue
  obtain ⟨hactive, hreceiving, hch'⟩ := (hcoherent team).send hsend
  have hlegal := (hcoherent team).legal hready hactive team
  have hchannel : MainController.channel { s.setChannel team ch' with
      call := .awaitingAck team rest
      sends := s.sends ++ [⟨team, (s.channel team).unanswered, (s.channel team).server.receiving,
        (s.channel team).timedOut⟩] } = (s.setChannel team ch').channel :=
    MainController.channel_congr rfl rfl
  refine ⟨fun other => ?_, fun other rest' hcall => ?_, fun other tSpec' hcall => ?_, ?_⟩
  · rw [hchannel]
    by_cases hother : other = team
    · subst hother
      rw [MainController.channel_setChannel]
      exact hch'.imp fun _ => ⟨rest, rfl⟩
    · rw [MainController.channel_setChannel_of_ne s hother]
      exact (hcoherent other).imp False.elim
  · obtain ⟨rfl, -⟩ := ControllerCall.awaitingAck.inj hcall
    rw [hchannel, MainController.channel_setChannel]
    exact hreceiving.trans hlegal.2.1
  · obtain ⟨rfl, rfl⟩ := ControllerCall.awaitingAck.inj hcall
    obtain ⟨rfl, hready2⟩ := hrest rfl
    exact ⟨rfl, hready2⟩
  · intro i hi
    rcases List.mem_append.mp hi with hold | hnew
    · exact h.sends i hold
    · rw [List.mem_singleton.mp hnew]
      exact hlegal

theorem sendRest (h : Strict s) (hidle : s.call = .idle) {rest : Option Text}
    (hready : rest.isSome = true → s.serverTeam2.Ready) : Strict (s.sendRest rest) := by
  have hstay : Strict { s with call := .idle } := h.congr rfl rfl hidle.symm rfl
  unfold MainController.sendRest
  cases rest with
  | none => exact hstay
  | some tSpec =>
    dsimp only
    -- a socket that refuses the send leaves the call
    cases hissue : s.issue .team2 tSpec none with
    | none => exact hstay
    | some s' =>
      exact h.issue hidle (show (s.channel .team2).Ready from hready rfl)
        (fun hsome => absurd hsome (by decide)) hissue

theorem sendSpec (h : Strict s) (hidle : s.call = .idle) {taskSpec : Text}
    (hready : SendsReady s (.sendSpec taskSpec)) : Strict (s.sendSpec taskSpec) := by
  obtain ⟨hready1, hready2⟩ := hready
  unfold MainController.sendSpec
  cases hfirst : (s.parts taskSpec).1 with
  | none => exact h.sendRest hidle hready2
  | some tSpec =>
    rw [hfirst] at hready1
    dsimp only
    -- if the send to team 1 is refused, the part for team 2 goes out at once
    cases hissue : s.issue .team1 tSpec (s.parts taskSpec).2 with
    | none => exact h.sendRest hidle hready2
    | some s' =>
      exact h.issue hidle (show (s.channel .team1).Ready from hready1 rfl)
        (fun hsome => ⟨rfl, hready2 hsome⟩) hissue

/-- The answer, or the timeout. The call that waited for it is over. -/
theorem answered (h : Strict s) {team : Team} {rest : Option Text} (answer : Option Request)
    (hcall : s.call = .awaitingAck team rest) : Strict (s.answered team answer) := by
  have hch := (h.channel team).receiveAck answer fun _ => h.waiting team rest hcall
  have hchannel : (s.answered team answer).channel =
      (s.setChannel team ((s.channel team).receiveAck answer).2).channel :=
    MainController.channel_congr rfl rfl
  refine ⟨fun other => ?_, fun _ _ hidle => absurd hidle (by simp [MainController.answered]),
    fun _ _ hidle => absurd hidle (by simp [MainController.answered]), ?_⟩
  · rw [hchannel]
    by_cases hother : other = team
    · subst hother
      rw [MainController.channel_setChannel]
      exact hch.imp False.elim
    · -- no call has waited for the other server
      rw [MainController.channel_setChannel_of_ne s hother]
      refine (h.channel other).imp ?_
      rintro ⟨rest', hcall'⟩
      rw [hcall] at hcall'
      exact absurd (ControllerCall.awaitingAck.inj hcall').1.symm hother
  · show ∀ i ∈ (s.setChannel team _).sends, i.Legal
    rw [MainController.setChannel_sends]
    exact h.sends

/-- Then the part for team 2 goes out. -/
theorem receiveAck (h : Strict s) {team : Team} {rest : Option Text} (answer : Option Request)
    (hcall : s.call = .awaitingAck team rest) : Strict (s.receiveAck team rest answer) := by
  rw [MainController.receiveAck_eq]
  refine (h.answered answer hcall).sendRest rfl fun hsome => ?_
  obtain ⟨tSpec, rfl⟩ := Option.isSome_iff_exists.mp hsome
  obtain ⟨rfl, hready2⟩ := h.rest team tSpec hcall
  exact hready2

/-! ### Every action -/

theorem tabbChange (h : Strict s) (hidle : s.call = .idle) (tab : CompetitionIdentifier) :
    Strict (s.tabbChange tab) := by
  have htab : Strict { s with compIdent := tab } := h.congr rfl rfl rfl rfl
  unfold MainController.tabbChange
  dsimp only
  split
  · exact h
  · split
    · exact htab.createServers hidle
    · exact htab.shutdownSocket hidle

theorem timerStopped (h : Strict s) : Strict s.timerStopped := by
  have hflags : Strict { s with
      timerStop := true
      mG := { s.mG with timerSelected := false } } := h.congr rfl rfl rfl rfl
  exact hflags.disconnectClient.congr rfl rfl rfl rfl

theorem timerOverrun (h : Strict s) : Strict s.timerOverrun := by
  have htext : Strict { s with mG := { s.mG with timerTextStop := false } } :=
    h.congr rfl rfl rfl rfl
  unfold MainController.timerOverrun
  dsimp only
  -- the disconnection comes last
  apply disconnectClient
  split
  · exact htext.timerStopped.congr rfl rfl rfl rfl
  · exact htext.congr rfl rfl rfl rfl

/-- An action keeps the invariant if Send Spec is used with ready servers. -/
theorem step (h : Strict s) {l : Action} (hready : SendsReady s l)
    (hstep : refereeing.step s l s') : Strict s' := by
  cases l with
  | loadConfig loaded =>
    obtain ⟨hidle, -, rfl⟩ := hstep
    have hview : Strict { s with
        mG := if loaded = true then s.mG.configFileLoaded else s.mG } := h.congr rfl rfl rfl rfl
    exact hview.createServers hidle
  | saveFile =>
    obtain ⟨-, -, rfl⟩ := hstep
    exact h.congr rfl rfl rfl rfl
  | openFile =>
    obtain ⟨hidle, -, -, rfl⟩ := hstep
    have hsaved : Strict s.setSavedChanges := h.congr rfl rfl rfl rfl
    exact hsaved.tabbChange hidle s.compIdent
  | edit =>
    obtain ⟨-, rfl⟩ := hstep
    exact h.congr rfl rfl rfl rfl
  | tab tab =>
    obtain ⟨hidle, rfl⟩ := hstep
    exact h.tabbChange hidle tab
  | timerStart =>
    obtain ⟨-, -, -, rfl⟩ := hstep
    exact h.congr rfl rfl rfl rfl
  | timerStop =>
    obtain ⟨-, -, -, rfl⟩ := hstep
    exact h.timerStopped
  | timerOverrun =>
    obtain ⟨-, rfl⟩ := hstep
    exact h.timerOverrun
  | sendSpec taskSpec =>
    obtain ⟨hidle, -, rfl⟩ := hstep
    exact h.sendSpec hidle hready
  | acknowledge m =>
    -- the part for team 2 is sent from here
    obtain ⟨team, rest, hcall, -, -, rfl⟩ := hstep
    exact h.receiveAck (some m) hcall
  | timeout =>
    obtain ⟨team, rest, hcall, rfl⟩ := hstep
    exact h.receiveAck none hcall
  | disconnect =>
    obtain ⟨hidle, -, rfl⟩ := hstep
    exact h.disconnect hidle
  | competitionFinished =>
    obtain ⟨hidle, -, rfl⟩ := hstep
    have hflags : Strict { s with
        competitionMode := false
        timerStop := true
        mG := { s.mG.setCompetitionMode false with timerStartStopButton := true } } :=
      h.congr rfl rfl rfl rfl
    exact hflags.disconnect hidle
  | joined =>
    obtain ⟨hjoining, hreceiving, rfl⟩ := hstep
    exact h.socketClosed hjoining hreceiving
  | connect team m =>
    obtain ⟨hreceiving, -, rfl⟩ := hstep
    exact h.teamConnected m hreceiving

end Strict

/-! ### Runs -/

/-- **Strict alternation.** In every run in which Send Spec is used only with
    servers that are ready for it, every send answers a request that has been
    received, while no server thread waits in a receive, and never follows a
    send whose acknowledgement timed out. -/
theorem sends_alternate :
    ∀ s, Reachable (refereeing.restrict SendsReady) s → ∀ i ∈ s.sends, i.Legal := by
  have hstrict : ∀ s, Reachable (refereeing.restrict SendsReady) s → Strict s := by
    apply invariant
    · rintro s rfl
      exact Strict.init
    · intro s l s' h hstep
      exact h.step hstep.1 hstep.2
  intro s hs
  exact (hstrict s hs).sends

/-- Send Spec is enabled and the servers are ready when a team has connected and
    the timer runs: any specification can be sent so. -/
theorem ready_send (teamName tSpec : Text) (hne : teamName ≠ []) (hstop : teamName ≠ stopThread) :
    ∃ s, Reachable (refereeing.restrict SendsReady) s ∧
      s.sends = [⟨.team1, true, false, false⟩] := by
  have hloaded : Reachable (refereeing.restrict SendsReady) _ :=
    .step (Action.loadConfig true) (.init rfl) ⟨trivial, And.intro rfl (And.intro rfl rfl)⟩
  have hsaved : Reachable (refereeing.restrict SendsReady) _ :=
    .step Action.saveFile hloaded ⟨trivial, And.intro rfl (And.intro rfl rfl)⟩
  have hconnected : Reachable (refereeing.restrict SendsReady)
      { serverTeam1 := ⟨⟨⟨true, some (.client 0), none⟩, teamName, true, false⟩, false⟩
        mG := ⟨false, true, true, false, true, false, false, false, teamName⟩ } := by
    refine .step (Action.connect .team1 ⟨.client 0, teamName⟩) hsaved
      ⟨trivial, And.intro rfl (And.intro rfl ?_)⟩
    unfold MainController.teamConnected Channel.run TaskServer.run
    simp only [if_neg hstop]
    rfl
  have hrunning : Reachable (refereeing.restrict SendsReady) _ :=
    .step Action.timerStart hconnected
      ⟨trivial, And.intro rfl (And.intro rfl (And.intro rfl rfl))⟩
  have hsent : Reachable (refereeing.restrict SendsReady) _ :=
    .step (Action.sendSpec tSpec) hrunning
      ⟨⟨fun _ _ => ⟨hne, rfl⟩, fun hsome => absurd hsome Bool.false_ne_true⟩,
        And.intro rfl (And.intro rfl rfl)⟩
  exact ⟨_, hsent, rfl⟩

theorem sends_alternate_once :
    ∃ s, Reachable (refereeing.restrict SendsReady) s ∧
      ⟨.team1, true, false, false⟩ ∈ s.sends ∧ IssuedSend.Legal ⟨.team1, true, false, false⟩ := by
  obtain ⟨s, hs, hsends⟩ := ready_send "A".toList "S".toList (by decide) (by decide)
  have hmem : ⟨.team1, true, false, false⟩ ∈ s.sends := by
    rw [hsends]
    exact List.mem_singleton_self _
  exact ⟨s, hs, hmem, sends_alternate s hs _ hmem⟩

/-- Send Spec stays enabled when the team is disconnected, and the server that
    listens again is sent to while its thread waits for a request. After a
    timeout the same send follows directly. In CTT the part for team 2 goes to
    a server that no team has connected to. -/
theorem sends_out_of_turn :
    (∃ s, Run refereeing {} [.loadConfig true, .saveFile, .connect .team1 ⟨.client 0, "A".toList⟩,
        .timerStart, .disconnect, .sendSpec "S".toList] s ∧
      s.sends = [⟨.team1, false, true, false⟩]) ∧
    (∃ s, Run refereeing {} [.loadConfig true, .saveFile, .connect .team1 ⟨.client 0, "A".toList⟩,
        .timerStart, .sendSpec "S".toList, .timeout, .sendSpec "S".toList] s ∧
      s.sends = [⟨.team1, true, false, false⟩, ⟨.team1, false, false, true⟩]) ∧
    (∃ s, Run refereeing {} [.loadConfig true, .tab .ctt, .saveFile,
        .connect .team1 ⟨.client 0, "A".toList⟩, .timerStart, .sendSpec "S1#S2".toList,
        .acknowledge ⟨.client 0, acknowledgement⟩] s ∧
      s.sends = [⟨.team1, true, false, false⟩, ⟨.team2, false, true, false⟩]) ∧
    ¬ IssuedSend.Legal ⟨.team1, false, true, false⟩ ∧
    ¬ IssuedSend.Legal ⟨.team1, false, false, true⟩ ∧
    ¬ IssuedSend.Legal ⟨.team2, false, true, false⟩ := by
  refine ⟨?_, ?_, ?_, fun h => absurd h.1 (by decide), fun h => absurd h.1 (by decide),
    fun h => absurd h.1 (by decide)⟩
  · refine ⟨_,
      .cons (Action.loadConfig true) (And.intro rfl (And.intro rfl rfl)) <|
      .cons Action.saveFile (And.intro rfl (And.intro rfl rfl)) <|
      .cons (Action.connect _ _) (And.intro rfl (And.intro rfl rfl)) <|
      .cons Action.timerStart (And.intro rfl (And.intro rfl (And.intro rfl rfl))) <|
      .cons Action.disconnect (And.intro rfl (And.intro rfl rfl)) <|
      .cons (Action.sendSpec _) (And.intro rfl (And.intro rfl rfl)) <| .nil _, ?_⟩
    decide
  · refine ⟨_,
      .cons (Action.loadConfig true) (And.intro rfl (And.intro rfl rfl)) <|
      .cons Action.saveFile (And.intro rfl (And.intro rfl rfl)) <|
      .cons (Action.connect _ _) (And.intro rfl (And.intro rfl rfl)) <|
      .cons Action.timerStart (And.intro rfl (And.intro rfl (And.intro rfl rfl))) <|
      .cons (Action.sendSpec _) (And.intro rfl (And.intro rfl rfl)) <|
      .cons Action.timeout (Exists.intro _ (Exists.intro _ (And.intro rfl rfl))) <|
      .cons (Action.sendSpec _) (And.intro rfl (And.intro rfl rfl)) <| .nil _, ?_⟩
    decide
  · refine ⟨_,
      .cons (Action.loadConfig true) (And.intro rfl (And.intro rfl rfl)) <|
      .cons (Action.tab .ctt) (And.intro rfl rfl) <|
      .cons Action.saveFile (And.intro rfl (And.intro rfl rfl)) <|
      .cons (Action.connect _ _) (And.intro rfl (And.intro rfl rfl)) <|
      .cons Action.timerStart (And.intro rfl (And.intro rfl (And.intro rfl rfl))) <|
      .cons (Action.sendSpec _) (And.intro rfl (And.intro rfl rfl)) <|
      .cons (Action.acknowledge _) (Exists.intro _ (Exists.intro _
        (And.intro rfl (And.intro rfl (And.intro rfl rfl))))) <| .nil _, ?_⟩
    decide

end RefereeBox
