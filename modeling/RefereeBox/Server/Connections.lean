import RefereeBox.Server.Alternation

/-! # The Connections of a Competition

  Who is connected to the two servers, who waits for a team, and what the label
  of the view says about it, on their own (`linking`). The main controller refines
  them: what goes over the sockets does not matter here, but for the first message
  of a client, which is taken for the name of its team.

  The controller disconnects the team of server 1 only. In CTT the team of server 2
  stays when the competition is finished (`competition_frees_servers`). The two
  servers share the label, and it is cleared whenever one of the two teams is gone
  (`label_shows_teams`).
-/

namespace RefereeBox

open Transition

/-! ### Links -/

/-- A server without its messages: whether its socket is open, its team, and whether
    its thread waits for one. -/
structure Link where
  isOpen : Bool := false
  teamName : Text := []
  activeConnection : Bool := false
  receiving : Bool := false
deriving DecidableEq, Repr

namespace Link

variable (k : Link)

def listen : Link :=
  if k.activeConnection = false then
    { isOpen := true, teamName := [], activeConnection := true, receiving := true }
  else k

/-- The first message of a client, or that of the dummy client. -/
def run (m : Request) : Link :=
  { k with
    receiving := false
    teamName := if m.text = stopThread then k.teamName else m.text }

def shutdownSocket : Link := { k with isOpen := false, activeConnection := false, teamName := [] }

def disconnectClient : Link := if k.teamName ≠ [] then k.shutdownSocket else k

/-- No team, and a thread that waits for one on an open socket. -/
structure Free : Prop where
  isOpen : k.isOpen = true
  name : k.teamName = []
  active : k.activeConnection = true
  receiving : k.receiving = true

/-- Only an active server has a team or a thread, and not both. -/
structure Coherent : Prop where
  isOpen : k.activeConnection = true → k.isOpen = true
  connected : k.teamName ≠ [] → k.activeConnection = true
  receiving : k.receiving = true → k.activeConnection = true ∧ k.teamName = []

/-- An active server without a team has a thread that waits for one. -/
def Attended : Prop := k.activeConnection = true → k.teamName = [] → k.receiving = true

end Link

namespace Link.Coherent

variable {k : Link}

theorem listen (h : k.Coherent) : k.listen.Coherent := by
  unfold Link.listen
  split
  · exact ⟨fun _ => rfl, fun hname => absurd rfl hname, fun _ => ⟨rfl, rfl⟩⟩
  · exact h

theorem listen_name (h : k.Coherent) : k.listen.teamName = k.teamName := by
  unfold Link.listen
  split
  · next hactive =>
    by_contra hname
    exact absurd (hactive.symm.trans (h.connected (Ne.symm hname))) Bool.false_ne_true
  · rfl

theorem run (h : k.Coherent) (hreceiving : k.receiving = true) (m : Request) :
    (k.run m).Coherent where
  isOpen := h.isOpen
  connected _ := (h.receiving hreceiving).1
  receiving hrun := absurd hrun Bool.false_ne_true

theorem shutdownSocket (h : k.receiving = false) : k.shutdownSocket.Coherent where
  isOpen hactive := absurd hactive Bool.false_ne_true
  connected hname := absurd rfl hname
  receiving hreceiving := absurd (h.symm.trans hreceiving) Bool.false_ne_true

/-- The thread of a server with a team is finished. -/
theorem finished (h : k.Coherent) (hname : k.teamName ≠ []) : k.receiving = false := by
  by_contra hreceiving
  exact hname (h.receiving (by simpa using hreceiving)).2

theorem disconnectClient (h : k.Coherent) : k.disconnectClient.Coherent := by
  unfold Link.disconnectClient
  split
  · next hname => exact shutdownSocket (h.finished hname)
  · exact h

/-- An attended server is free when no team is connected. -/
theorem free (h : k.Coherent) (hattended : k.Attended) (hactive : k.activeConnection = true) :
    k.Free ↔ k.teamName = [] :=
  ⟨Link.Free.name, fun hname => ⟨h.isOpen hactive, hname, hactive, hattended hactive hname⟩⟩

end Link.Coherent

namespace Link.Attended

variable {k : Link}

theorem listen (h : k.Attended) : k.listen.Attended := by
  unfold Link.listen
  split
  · exact fun _ _ => rfl
  · exact h

/-- A team has connected. -/
theorem run {m : Request} (hne : m.text ≠ []) (hstop : m.text ≠ stopThread) :
    (k.run m).Attended := by
  intro _ hname
  unfold Link.run at hname
  dsimp only at hname
  rw [if_neg hstop] at hname
  exact absurd hname hne

theorem shutdownSocket : k.shutdownSocket.Attended :=
  fun hactive => absurd hactive Bool.false_ne_true

theorem disconnectClient (h : k.Attended) : k.disconnectClient.Attended := by
  unfold Link.disconnectClient
  split
  · exact shutdownSocket
  · exact h

end Link.Attended

theorem Link.disconnectClient_name (k : Link) : k.disconnectClient.teamName = [] := by
  unfold Link.disconnectClient
  split
  · rfl
  · next hname => exact not_not.mp hname

theorem Link.listen_active (k : Link) : k.listen.activeConnection = true := by
  unfold Link.listen
  split
  · rfl
  · next hactive => simpa using hactive

/-! ### Connections -/

/-- The links of the two servers, the competition, whether the event thread is in the
    join of `shutdownSocket`, and the label. -/
structure Connections where
  compIdent : CompetitionIdentifier := .bnt
  joining : Bool := false
  team1 : Link := {}
  team2 : Link := {}
  connectedLabel : Text := noTeam
deriving DecidableEq, Repr

namespace Connections

variable (v : Connections)

def link : Team → Link
  | .team1 => v.team1
  | .team2 => v.team2

def setLink (team : Team) (k : Link) : Connections :=
  match team with
  | .team1 => { v with team1 := k }
  | .team2 => { v with team2 := k }

def listen (team : Team) : Connections := v.setLink team (v.link team).listen

def createServers : Connections :=
  let v := v.listen .team1
  if v.compIdent = .ctt then v.listen .team2 else v

def label (teamName : Text) : Text :=
  if v.connectedLabel ≠ noTeam then v.connectedLabel ++ " and ".toList ++ teamName else teamName

def teamConnected (team : Team) (m : Request) : Connections :=
  { v.setLink team ((v.link team).run m) with
    connectedLabel := if m.text = stopThread then v.connectedLabel else v.label m.text }

def disconnectClient : Connections :=
  { v with
    team1 := v.team1.disconnectClient
    connectedLabel := if v.team1.teamName ≠ [] then noTeam else v.connectedLabel }

def shutdownSocket : Connections :=
  if v.team2.activeConnection = true then { v with joining := true } else v

def socketClosed : Connections :=
  { v with team2 := v.team2.shutdownSocket, joining := false, connectedLabel := noTeam }

def tabbChange (tab : CompetitionIdentifier) : Connections :=
  if tab = .ctt then { v with compIdent := tab }.createServers
  else { v with compIdent := tab }.shutdownSocket

def HasTeam : Prop := v.team1.teamName ≠ [] ∨ v.team2.teamName ≠ []

/-- The label differs from `no team connected` iff a team is connected. -/
def Shown : Prop := v.connectedLabel ≠ noTeam ↔ v.HasTeam

theorem disconnectClient_twice : v.disconnectClient.disconnectClient = v.disconnectClient := by
  have hname := v.team1.disconnectClient_name
  unfold Connections.disconnectClient
  dsimp only
  rw [hname, if_neg (by simp), show v.team1.disconnectClient.disconnectClient =
    v.team1.disconnectClient from if_neg (by simp [hname])]

end Connections

/-- The connections on their own: which of the actions move them, and how. A change of
    the tab is undone in competition mode. -/
def linking : System Connections Action where
  init v := v = {}
  step v l v' :=
    match l with
    | .loadConfig _ => v' = v.createServers
    | .openFile => v.joining = false ∧ v' = v.tabbChange v.compIdent
    | .tab tab => v.joining = false ∧ (v' = v ∨ v' = v.tabbChange tab)
    | .timerStop | .timerOverrun => v' = v.disconnectClient
    | .disconnect | .competitionFinished => v.joining = false ∧ v' = v.disconnectClient.listen .team1
    | .joined => v.joining = true ∧ v.team2.receiving = false ∧ v' = v.socketClosed
    | .connect team m => (v.link team).receiving = true ∧ v' = v.teamConnected team m
    | _ => v' = v

/-! ### The controller -/

namespace Channel

variable (ch : Channel)

def link : Link where
  isOpen := ch.server.refereeSocket.isOpen
  teamName := ch.server.teamName
  activeConnection := ch.server.activeConnection
  receiving := ch.server.receiving

@[simp] theorem listen_link : ch.listen.link = ch.link.listen := by
  unfold Channel.listen TaskServer.createServerSocket TaskServer.listenForConnection Link.listen
  by_cases h : ch.server.activeConnection = false
  · simp [Channel.link, h, RepSocket.bound]
  · simp [Channel.link, h]

@[simp] theorem run_link (m : Request) : (ch.run m).link = ch.link.run m := by
  unfold Channel.run TaskServer.run Link.run Channel.link
  dsimp only
  split <;> rfl

@[simp] theorem disconnectClient_link :
    ch.disconnectClient.2.link = ch.link.disconnectClient := by
  unfold Channel.disconnectClient TaskServer.disconnectClient Link.disconnectClient
  by_cases h : ch.server.teamName = []
  · simp [Channel.link, h]
  · simp [Channel.link, h, RepSocket.close, Link.shutdownSocket]

theorem disconnectClient_result :
    ch.disconnectClient.1 = true ↔ ch.server.teamName ≠ [] := by
  unfold Channel.disconnectClient TaskServer.disconnectClient
  by_cases h : ch.server.teamName = []
  · simp [h]
  · simp [h]

theorem send_link {tSpec : Text} {ch' : Channel} (h : ch.send tSpec = some ch') :
    ch'.link = ch.link := by
  obtain ⟨server, hsend, rfl⟩ := Option.map_eq_some_iff.mp h
  unfold TaskServer.sendTaskSpec at hsend
  by_cases hactive : ch.server.activeConnection = false
  · rw [if_pos hactive] at hsend
    exact absurd hsend (by simp)
  · rw [if_neg hactive] at hsend
    obtain rfl := Option.some.inj hsend
    unfold Channel.link
    dsimp only
    split <;> rfl

theorem receiveAck_link (answer : Option Request) : (ch.receiveAck answer).2.link = ch.link := by
  cases answer <;> rfl

end Channel

namespace MainController

variable {s s' : MainController}

def connections (s : MainController) : Connections where
  compIdent := s.compIdent
  joining := s.call = .joining
  team1 := s.serverTeam1.link
  team2 := s.serverTeam2.link
  connectedLabel := s.mG.connectedLabel

theorem channel_link (team : Team) : (s.channel team).link = s.connections.link team := by
  cases team <;> rfl

@[simp] theorem setChannel_connections (team : Team) (ch : Channel) :
    (s.setChannel team ch).connections = s.connections.setLink team ch.link := by
  cases team <;> rfl

@[simp] theorem listen_connections (team : Team) :
    (s.listen team).connections = s.connections.listen team := by
  unfold MainController.listen Connections.listen
  rw [setChannel_connections, Channel.listen_link, channel_link]

@[simp] theorem createServers_connections :
    s.createServers.connections = s.connections.createServers := by
  have hcomp : (s.connections.listen .team1).compIdent = (s.listen .team1).compIdent := rfl
  unfold MainController.createServers Connections.createServers
  dsimp only
  rw [hcomp]
  split <;> simp

theorem teamConnected_connections (team : Team) (m : Request) :
    (s.teamConnected team m).connections = s.connections.teamConnected team m := by
  have hset : (s.setChannel team ((s.channel team).run m)).connections =
      s.connections.setLink team ((s.connections.link team).run m) := by
    rw [setChannel_connections, Channel.run_link, channel_link]
  unfold MainController.teamConnected Connections.teamConnected
  rw [← hset]
  dsimp only
  split
  · cases team <;> rfl
  · cases team <;> rfl

@[simp] theorem disconnectClient_connections :
    s.disconnectClient.connections = s.connections.disconnectClient := by
  have hlink := s.serverTeam1.disconnectClient_link
  have hresult := s.serverTeam1.disconnectClient_result
  unfold MainController.disconnectClient Connections.disconnectClient MainController.connections
  dsimp only
  rw [hlink]
  by_cases hname : s.serverTeam1.server.teamName ≠ []
  · rw [if_pos (hresult.mpr hname), if_pos (show s.serverTeam1.link.teamName ≠ [] from hname)]
    rfl
  · rw [if_neg (mt hresult.mp hname), if_neg (show ¬ s.serverTeam1.link.teamName ≠ [] from hname)]

/-! A specification that is sent does not touch the connections. -/

theorem issue_connections {team : Team} {tSpec : Text} {rest : Option Text}
    (hjoining : s.call ≠ .joining) (h : s.issue team tSpec rest = some s') :
    s'.connections = s.connections := by
  obtain ⟨ch, hsend, rfl⟩ := Option.map_eq_some_iff.mp h
  have hlink : ch.link = s.connections.link team :=
    (Channel.send_link _ hsend).trans (channel_link team)
  cases team <;> simp_all [connections, setChannel, Connections.link]

theorem sendRest_connections (rest : Option Text) (hjoining : s.call ≠ .joining) :
    (s.sendRest rest).connections = s.connections := by
  have hidle : ({ s with call := .idle } : MainController).connections = s.connections := by
    simp [connections, hjoining]
  unfold sendRest
  cases rest with
  | none => exact hidle
  | some tSpec =>
    dsimp only
    cases hissue : s.issue .team2 tSpec none with
    | none => exact hidle
    | some s' => exact issue_connections hjoining hissue

theorem sendSpec_connections (taskSpec : Text) (hjoining : s.call ≠ .joining) :
    (s.sendSpec taskSpec).connections = s.connections := by
  unfold sendSpec
  cases (s.parts taskSpec).1 with
  | none => exact sendRest_connections _ hjoining
  | some tSpec =>
    dsimp only
    cases hissue : s.issue .team1 tSpec (s.parts taskSpec).2 with
    | none => exact sendRest_connections _ hjoining
    | some s' => exact issue_connections hjoining hissue

theorem receiveAck_connections {team : Team} {rest : Option Text} (answer : Option Request)
    (hjoining : s.call ≠ .joining) : (s.receiveAck team rest answer).connections = s.connections := by
  have hlink : ((s.channel team).receiveAck answer).2.link = s.connections.link team :=
    (Channel.receiveAck_link _ answer).trans (channel_link team)
  rw [receiveAck_eq, sendRest_connections rest (by simp [answered])]
  unfold answered
  dsimp only
  split
  · cases team <;> simp_all [connections, setChannel, Connections.link, MainGUI.taskSpecSent]
  · cases team <;> simp_all [connections, setChannel, Connections.link]

/-! ### Every action -/

theorem loadConfig_connections (loaded : Bool) :
    (s.loadConfig loaded).connections = s.connections.createServers := by
  unfold loadConfig
  rw [createServers_connections]
  cases loaded <;> rfl

theorem shutdownSocket_connections :
    s.shutdownSocket.connections = s.connections.shutdownSocket := by
  have hactive : s.connections.team2.activeConnection = s.serverTeam2.server.activeConnection := rfl
  unfold MainController.shutdownSocket Connections.shutdownSocket
  rw [hactive]
  split <;> rfl

/-- Outside of competition mode. -/
theorem tabbChange_connections (tab : CompetitionIdentifier) (hmode : s.competitionMode = false) :
    (s.tabbChange tab).connections = s.connections.tabbChange tab := by
  have htab : ({ s with compIdent := tab } : MainController).connections =
      { s.connections with compIdent := tab } := rfl
  unfold MainController.tabbChange Connections.tabbChange
  rw [if_neg (by simp [hmode]), ← htab]
  dsimp only
  split
  · exact createServers_connections
  · exact shutdownSocket_connections

theorem timerStopped_connections :
    s.timerStopped.connections = s.connections.disconnectClient := by
  have hflags : ({ s with timerStop := true, mG := { s.mG with timerSelected := false } } :
      MainController).connections = s.connections := rfl
  have hdisconnect := disconnectClient_connections
    (s := { s with timerStop := true, mG := { s.mG with timerSelected := false } })
  rw [hflags] at hdisconnect
  exact hdisconnect

/-- With the button selected the team is disconnected twice. -/
theorem timerOverrun_connections :
    s.timerOverrun.connections = s.connections.disconnectClient := by
  have hstopped := timerStopped_connections
    (s := { s with mG := { s.mG with timerTextStop := false } })
  have htext : ({ s with mG := { s.mG with timerTextStop := false } } : MainController).connections =
      s.connections := rfl
  rw [htext] at hstopped
  unfold timerOverrun
  rw [disconnectClient_connections]
  dsimp only
  split
  · exact (congrArg Connections.disconnectClient hstopped).trans
      s.connections.disconnectClient_twice
  · rfl

theorem disconnect_connections :
    s.disconnect.connections = s.connections.disconnectClient.listen .team1 := by
  unfold disconnect
  simp

theorem competitionFinished_connections :
    s.competitionFinished.connections = s.connections.disconnectClient.listen .team1 := by
  unfold competitionFinished
  rw [disconnect_connections]
  rfl

/-- **The controller refines the connections.** -/
theorem link_step {l : Action} (hstep : refereeing.step s l s') :
    linking.step s.connections l s'.connections := by
  have hfree : s.call = .idle → s.connections.joining = false := fun hidle => by
    simp [connections, hidle]
  -- every action comes down to calls that have been treated above
  cases l with
  | loadConfig loaded =>
    obtain ⟨-, -, rfl⟩ := hstep
    exact loadConfig_connections loaded
  | saveFile =>
    obtain ⟨-, -, rfl⟩ := hstep
    rfl
  | openFile =>
    obtain ⟨hidle, -, hmode, rfl⟩ := hstep
    exact ⟨hfree hidle, tabbChange_connections (s := s.setSavedChanges) s.compIdent hmode⟩
  | edit =>
    obtain ⟨-, rfl⟩ := hstep
    rfl
  | tab tab =>
    obtain ⟨hidle, rfl⟩ := hstep
    refine ⟨hfree hidle, ?_⟩
    by_cases hmode : s.competitionMode = true
    · -- the old tab is selected again
      left
      unfold MainController.tabbChange
      rw [if_pos hmode]
    · right
      exact tabbChange_connections tab (by simpa using hmode)
  | timerStart =>
    obtain ⟨-, -, -, rfl⟩ := hstep
    rfl
  | timerStop =>
    obtain ⟨-, -, -, rfl⟩ := hstep
    exact timerStopped_connections
  | timerOverrun =>
    obtain ⟨-, rfl⟩ := hstep
    exact timerOverrun_connections
  | sendSpec taskSpec =>
    obtain ⟨hidle, -, rfl⟩ := hstep
    exact sendSpec_connections taskSpec (by simp [hidle])
  | acknowledge m =>
    obtain ⟨team, rest, hcall, -, -, rfl⟩ := hstep
    exact receiveAck_connections (some m) (by simp [hcall])
  | timeout =>
    obtain ⟨team, rest, hcall, rfl⟩ := hstep
    exact receiveAck_connections none (by simp [hcall])
  | disconnect =>
    obtain ⟨hidle, -, rfl⟩ := hstep
    exact ⟨hfree hidle, disconnect_connections⟩
  | competitionFinished =>
    obtain ⟨hidle, -, rfl⟩ := hstep
    exact ⟨hfree hidle, competitionFinished_connections⟩
  | joined =>
    obtain ⟨hjoining, hreceiving, rfl⟩ := hstep
    exact ⟨by simp [connections, hjoining], hreceiving, rfl⟩
  | connect team m =>
    obtain ⟨hreceiving, -, rfl⟩ := hstep
    refine ⟨?_, teamConnected_connections team m⟩
    rw [← channel_link]
    exact hreceiving

end MainController

/-! ### The invariant -/

/-- A client sends the name of its team first. Server 2 may hear of the dummy client in
    the join of `shutdownSocket`. -/
def NamesTeams (s : MainController) : Action → Prop
  | .connect team m =>
    m.text ≠ [] ∧ m.text ≠ stopThread ∨ team = .team2 ∧ s.call = .joining ∧ m.text = stopThread
  | _ => True

namespace Connections

def NamesTeams (v : Connections) : Action → Prop
  | .connect team m =>
    m.text ≠ [] ∧ m.text ≠ stopThread ∨
      team = .team2 ∧ v.joining = true ∧ m.text = stopThread
  | _ => True

/-- Every active server without a team waits for one. Server 2 has lost its thread when
    it is joined. -/
structure Attended (v : Connections) : Prop where
  coherent1 : v.team1.Coherent
  coherent2 : v.team2.Coherent
  team1 : v.team1.Attended
  team2 : v.joining = false → v.team2.Attended

/-- In CTT server 2 is active, and no join is on its way. -/
def Created (v : Connections) : Prop :=
  v.compIdent = .ctt → v.joining = false ∧ v.team2.activeConnection = true

namespace Attended

variable {v v' : Connections}

theorem init : Attended {} where
  coherent1 := ⟨fun h => absurd h (by decide), fun h => absurd rfl h, fun h => absurd h (by decide)⟩
  coherent2 := ⟨fun h => absurd h (by decide), fun h => absurd rfl h, fun h => absurd h (by decide)⟩
  team1 h := absurd h (by decide)
  team2 _ h := absurd h (by decide)

theorem listen (h : v.Attended) : (v.listen .team1).Attended where
  coherent1 := h.coherent1.listen
  coherent2 := h.coherent2
  team1 := h.team1.listen
  team2 := h.team2

theorem disconnectClient (h : v.Attended) : v.disconnectClient.Attended where
  coherent1 := h.coherent1.disconnectClient
  coherent2 := h.coherent2
  team1 := h.team1.disconnectClient
  team2 := h.team2

theorem createServers (h : v.Attended) : v.createServers.Attended := by
  have h1 := h.listen
  unfold Connections.createServers
  dsimp only
  split
  · exact ⟨h1.coherent1, h1.coherent2.listen, h1.team1, fun hj => (h1.team2 hj).listen⟩
  · exact h1

theorem shutdownSocket (h : v.Attended) : v.shutdownSocket.Attended := by
  unfold Connections.shutdownSocket
  split
  · exact ⟨h.coherent1, h.coherent2, h.team1, fun hj => absurd hj.symm Bool.false_ne_true⟩
  · exact h

theorem tabbChange (h : v.Attended) (tab : CompetitionIdentifier) :
    (v.tabbChange tab).Attended := by
  have htab : ({ v with compIdent := tab } : Connections).Attended :=
    ⟨h.coherent1, h.coherent2, h.team1, h.team2⟩
  unfold Connections.tabbChange
  split
  · exact htab.createServers
  · exact htab.shutdownSocket

theorem teamConnected (h : v.Attended) {team : Team} {m : Request}
    (hreceiving : (v.link team).receiving = true) (hcond : v.NamesTeams (.connect team m)) :
    (v.teamConnected team m).Attended := by
  cases team with
  | team1 =>
    have hname : m.text ≠ [] ∧ m.text ≠ stopThread := by
      rcases hcond with hname | ⟨hteam, -⟩
      · exact hname
      · exact absurd hteam (by decide)
    exact ⟨h.coherent1.run hreceiving m, h.coherent2, .run hname.1 hname.2, h.team2⟩
  | team2 =>
    refine ⟨h.coherent1, h.coherent2.run hreceiving m, h.team1, fun hj => ?_⟩
    rcases hcond with hname | ⟨-, hjoining, -⟩
    · exact .run hname.1 hname.2
    · -- the dummy client speaks in the join only
      exact absurd (hj.symm.trans hjoining) Bool.false_ne_true

theorem step {l : Action} (h : v.Attended) (hcond : v.NamesTeams l)
    (hstep : linking.step v l v') : v'.Attended := by
  cases l with
  | loadConfig loaded =>
    obtain rfl : v' = _ := hstep
    exact h.createServers
  | openFile =>
    obtain ⟨-, rfl⟩ := hstep
    exact h.tabbChange _
  | tab tab =>
    obtain ⟨-, rfl | rfl⟩ := hstep
    · exact h
    · exact h.tabbChange tab
  | timerStop | timerOverrun =>
    obtain rfl : v' = _ := hstep
    exact h.disconnectClient
  | disconnect | competitionFinished =>
    obtain ⟨-, rfl⟩ := hstep
    exact h.disconnectClient.listen
  | joined =>
    obtain ⟨-, hreceiving, rfl⟩ := hstep
    exact ⟨h.coherent1, .shutdownSocket hreceiving, h.team1, fun _ => .shutdownSocket⟩
  | connect team m =>
    obtain ⟨hreceiving, rfl⟩ := hstep
    exact h.teamConnected hreceiving hcond
  | saveFile | edit | timerStart | sendSpec _ | acknowledge _ | timeout =>
    obtain rfl : v' = v := hstep
    exact h

end Attended

namespace Created

variable {v v' : Connections}

theorem createServers (hjoining : v.compIdent = .ctt → v.joining = false) :
    v.createServers.Created := by
  unfold Connections.createServers
  dsimp only
  split
  · next hctt => exact fun _ => ⟨hjoining hctt, Link.listen_active _⟩
  · next hctt => exact fun h => absurd h hctt

theorem tabbChange (hjoining : v.joining = false) (tab : CompetitionIdentifier) :
    (v.tabbChange tab).Created := by
  unfold Connections.tabbChange
  split
  · exact createServers fun _ => hjoining
  · next hctt =>
    unfold Connections.shutdownSocket
    split <;> exact fun h => absurd h hctt

theorem step {l : Action} (h : v.Created) (hstep : linking.step v l v') : v'.Created := by
  cases l with
  | loadConfig loaded =>
    obtain rfl : v' = _ := hstep
    exact createServers fun hctt => (h hctt).1
  | openFile =>
    obtain ⟨hjoining, rfl⟩ := hstep
    exact tabbChange hjoining _
  | tab tab =>
    obtain ⟨hjoining, rfl | rfl⟩ := hstep
    · exact h
    · exact tabbChange hjoining tab
  | timerStop | timerOverrun =>
    obtain rfl : v' = _ := hstep
    exact h
  | disconnect | competitionFinished =>
    obtain ⟨-, rfl⟩ := hstep
    exact h
  | joined =>
    obtain ⟨hjoining, -, rfl⟩ := hstep
    -- the tab was changed to another competition before
    exact fun hctt => absurd (hjoining.symm.trans (h hctt).1) (by decide)
  | connect team m =>
    obtain ⟨-, rfl⟩ := hstep
    cases team <;> exact h
  | saveFile | edit | timerStart | sendSpec _ | acknowledge _ | timeout =>
    obtain rfl : v' = v := hstep
    exact h

end Created

theorem listen_joining (v : Connections) (team : Team) : (v.listen team).joining = v.joining := by
  cases team <;> rfl

theorem createServers_joining (v : Connections) : v.createServers.joining = v.joining := by
  unfold Connections.createServers
  dsimp only
  split
  · rw [listen_joining, listen_joining]
  · exact listen_joining _ _

/-- A join lasts until it returns. -/
theorem joining_kept {v v' : Connections} {l : Action} (hstep : linking.step v l v')
    (hne : l ≠ .joined) (hjoining : v.joining = true) : v'.joining = true := by
  cases l with
  | loadConfig loaded =>
    obtain rfl : v' = _ := hstep
    rw [createServers_joining]
    exact hjoining
  | openFile | tab _ | disconnect | competitionFinished =>
    -- the event thread is free
    exact absurd (hstep.1.symm.trans hjoining) Bool.false_ne_true
  | timerStop | timerOverrun =>
    obtain rfl : v' = _ := hstep
    exact hjoining
  | joined => exact absurd rfl hne
  | connect team m =>
    obtain ⟨-, rfl⟩ := hstep
    cases team <;> exact hjoining
  | saveFile | edit | timerStart | sendSpec _ | acknowledge _ | timeout =>
    obtain rfl : v' = v := hstep
    exact hjoining

end Connections

theorem NamesTeams.connections {s : MainController} {l : Action} (h : NamesTeams s l) :
    s.connections.NamesTeams l := by
  cases l with
  | connect team m => simpa [NamesTeams, Connections.NamesTeams, MainController.connections] using h
  | _ => trivial

/-- In every run in which clients send the names of their teams. -/
theorem attended_of_reachable : ∀ s, Reachable (refereeing.restrict NamesTeams) s →
    s.connections.Attended ∧ s.connections.Created := by
  apply invariant
  · intro s hs
    rw [show s = {} from hs]
    exact ⟨.init, fun h => absurd h (by decide)⟩
  · intro s l s' h hstep
    have hlink := MainController.link_step hstep.2
    exact ⟨h.1.step hstep.1.connections hlink, h.2.step hlink⟩

/-! ### Servers after a competition -/

/-- **The servers of a finished competition.** In every run in which clients send the
    names of their teams, server 1 is free right after a competition is finished, and in
    CTT server 2 is so iff it had no team. -/
theorem competition_frees_servers {s s' : MainController}
    (hs : Reachable (refereeing.restrict NamesTeams) s)
    (hstep : refereeing.step s .competitionFinished s') :
    (s'.serverTeam1.link.Free ∧ (s'.compIdent = .ctt → s'.serverTeam2.link.Free)) ↔
      (s.compIdent = .ctt → s.serverTeam2.server.teamName = []) := by
  obtain ⟨hattended, hcreated⟩ := attended_of_reachable s hs
  obtain ⟨hjoining, hfinished⟩ := MainController.link_step hstep
  have hcomp : s'.compIdent = s.compIdent := congrArg Connections.compIdent hfinished
  have hlink1 : s'.serverTeam1.link = s.serverTeam1.link.disconnectClient.listen :=
    congrArg Connections.team1 hfinished
  have hlink2 : s'.serverTeam2.link = s.serverTeam2.link := congrArg Connections.team2 hfinished
  -- server 1 has been disconnected, and listens again
  have hfree1 : s'.serverTeam1.link.Free := by
    have hcoherent := hattended.coherent1.disconnectClient
    have hname : s.serverTeam1.link.disconnectClient.listen.teamName = [] :=
      hcoherent.listen_name.trans (Link.disconnectClient_name _)
    rw [hlink1]
    exact (hcoherent.listen.free hattended.team1.disconnectClient.listen
      (Link.listen_active _)).mpr hname
  -- nobody has touched server 2
  have hfree2 : s.compIdent = .ctt →
      (s'.serverTeam2.link.Free ↔ s.serverTeam2.server.teamName = []) := by
    intro hctt
    rw [hlink2]
    exact hattended.coherent2.free (hattended.team2 hjoining) (hcreated hctt).2
  rw [hcomp]
  exact ⟨fun h hctt => (hfree2 hctt).mp (h.2 hctt),
    fun h => ⟨hfree1, fun hctt => (hfree2 hctt).mpr (h hctt)⟩⟩

/-- A team in BNT; server 1 listens for the next one. -/
theorem competition_frees_servers_once : ∃ s s',
    Reachable (refereeing.restrict NamesTeams) s ∧
      refereeing.step s .competitionFinished s' ∧ s'.serverTeam1.link.Free := by
  have hloaded : Reachable (refereeing.restrict NamesTeams) _ :=
    .step (Action.loadConfig true) (.init rfl) ⟨trivial, And.intro rfl (And.intro rfl rfl)⟩
  have hsaved : Reachable (refereeing.restrict NamesTeams) _ :=
    .step Action.saveFile hloaded ⟨trivial, And.intro rfl (And.intro rfl rfl)⟩
  have hconnected : Reachable (refereeing.restrict NamesTeams) _ :=
    .step (Action.connect .team1 ⟨.client 0, "A".toList⟩) hsaved
      ⟨Or.inl (by decide), And.intro rfl (And.intro rfl rfl)⟩
  have hstarted : Reachable (refereeing.restrict NamesTeams) _ :=
    .step Action.timerStart hconnected
      ⟨trivial, And.intro rfl (And.intro rfl (And.intro rfl rfl))⟩
  have hstopped : Reachable (refereeing.restrict NamesTeams) _ :=
    .step Action.timerStop hstarted
      ⟨trivial, And.intro rfl (And.intro rfl (And.intro rfl rfl))⟩
  exact ⟨_, _, hstopped, And.intro rfl (And.intro rfl rfl),
    ((competition_frees_servers hstopped (And.intro rfl (And.intro rfl rfl))).mpr
      fun hctt => absurd hctt (by decide)).1⟩

/-- In CTT the team of server 2 stays when the competition is finished. -/
theorem second_team_stays : ∃ s,
    Run (refereeing.restrict NamesTeams) {} [.loadConfig true, .tab .ctt, .saveFile,
      .connect .team1 ⟨.client 0, "A".toList⟩, .connect .team2 ⟨.client 1, "B".toList⟩,
      .timerStart, .timerStop, .competitionFinished] s ∧
    s.compIdent = .ctt ∧ s.serverTeam2.server.teamName = "B".toList ∧
      s.serverTeam2.server.receiving = false ∧ ¬ s.serverTeam2.link.Free := by
  refine ⟨_,
    .cons (Action.loadConfig true) ⟨trivial, And.intro rfl (And.intro rfl rfl)⟩ <|
    .cons (Action.tab .ctt) ⟨trivial, And.intro rfl rfl⟩ <|
    .cons Action.saveFile ⟨trivial, And.intro rfl (And.intro rfl rfl)⟩ <|
    .cons (Action.connect _ _) ⟨Or.inl (by decide), And.intro rfl (And.intro rfl rfl)⟩ <|
    .cons (Action.connect _ _) ⟨Or.inl (by decide), And.intro rfl (And.intro rfl rfl)⟩ <|
    .cons Action.timerStart ⟨trivial, And.intro rfl (And.intro rfl (And.intro rfl rfl))⟩ <|
    .cons Action.timerStop ⟨trivial, And.intro rfl (And.intro rfl (And.intro rfl rfl))⟩ <|
    .cons Action.competitionFinished ⟨trivial, And.intro rfl (And.intro rfl rfl)⟩ <| .nil _,
    rfl, rfl, rfl, fun hfree => absurd hfree.name (by decide)⟩

/-! ### The label -/

theorem noTeam_not_append (name teamName : Text) : name ++ " and ".toList ++ teamName ≠ noTeam := by
  intro h
  have hinfix : " and ".toList <:+: noTeam := h ▸ ⟨name, teamName, rfl⟩
  exact absurd hinfix (by decide)

namespace Connections

variable {v v' : Connections}

/-- When an action keeps the label true. A team may not have the name that stands for
    none, and no team may be disconnected while the other one stays. -/
def KeepsLabel (v : Connections) : Action → Prop
  | .connect _ m => m.text = noTeam → v.HasTeam
  | .timerStop | .timerOverrun | .disconnect | .competitionFinished =>
    v.team1.teamName ≠ [] → v.team2.teamName = []
  | .joined => v.team1.teamName = []
  | _ => True

/-- With a true label. -/
theorem Shown.label_eq_iff (h : v.Shown) (teamName : Text) :
    v.label teamName = noTeam ↔ ¬ v.HasTeam ∧ teamName = noTeam := by
  unfold Connections.label
  by_cases hlabel : v.connectedLabel ≠ noTeam
  · -- the name is appended
    rw [if_pos hlabel]
    have hteam := h.mp hlabel
    exact ⟨fun heq => absurd heq (noTeam_not_append _ _), fun heq => absurd hteam heq.1⟩
  · rw [if_neg hlabel]
    simp [mt h.mpr hlabel]

theorem Shown.teamConnected (h : v.Shown) {team : Team} {m : Request}
    (hcond : v.NamesTeams (.connect team m)) :
    (v.teamConnected team m).Shown ↔ (m.text = noTeam → v.HasTeam) := by
  rcases hcond with ⟨hne, hstop⟩ | ⟨rfl, -, hstop⟩
  · -- there is a team now, so the label must not say that there is none
    have hteam : (v.teamConnected team m).HasTeam := by
      unfold Connections.teamConnected HasTeam Link.run
      rw [if_neg hstop]
      cases team with
      | team1 => exact Or.inl hne
      | team2 => exact Or.inr hne
    have hlabel : (v.teamConnected team m).connectedLabel = v.label m.text := if_neg hstop
    unfold Shown
    rw [hlabel, iff_true_right hteam, Ne, h.label_eq_iff]
    exact ⟨fun hno htext => by_contra fun hteams => hno ⟨hteams, htext⟩,
      fun himp hno => hno.1 (himp hno.2)⟩
  · -- the dummy client is no team
    have hlabel : (v.teamConnected .team2 m).connectedLabel = v.connectedLabel := if_pos hstop
    have hteam : (v.teamConnected .team2 m).HasTeam ↔ v.HasTeam := by
      unfold Connections.teamConnected HasTeam Link.run
      rw [if_pos hstop]
      rfl
    unfold Shown
    rw [hlabel, hteam, hstop]
    exact iff_of_true h fun heq => absurd heq (by decide)

theorem Shown.disconnectClient (h : v.Shown) :
    v.disconnectClient.Shown ↔ (v.team1.teamName ≠ [] → v.team2.teamName = []) := by
  have hname := v.team1.disconnectClient_name
  unfold Shown HasTeam Connections.disconnectClient
  dsimp only
  rw [hname]
  by_cases hteam : v.team1.teamName ≠ []
  · simp [hteam]
  · rw [if_neg hteam]
    have hshown : v.connectedLabel ≠ noTeam ↔ v.team1.teamName ≠ [] ∨ v.team2.teamName ≠ [] := h
    simp_all

/-- A server that listens gets no team and loses none. -/
theorem Attended.listen_shown (h : v.Attended) : (v.listen .team1).Shown ↔ v.Shown := by
  have hname := h.coherent1.listen_name
  unfold Shown HasTeam Connections.listen setLink link
  dsimp only
  rw [hname]

theorem Attended.createServers_shown (h : v.Attended) : v.createServers.Shown ↔ v.Shown := by
  have hname := h.coherent2.listen_name
  unfold Connections.createServers
  dsimp only
  split
  · rw [← h.listen_shown]
    unfold Shown HasTeam Connections.listen setLink link
    dsimp only
    rw [hname]
  · exact h.listen_shown

theorem Attended.tabbChange_shown (h : v.Attended) (tab : CompetitionIdentifier) :
    (v.tabbChange tab).Shown ↔ v.Shown := by
  have htab : ({ v with compIdent := tab } : Connections).Attended :=
    ⟨h.coherent1, h.coherent2, h.team1, h.team2⟩
  unfold Connections.tabbChange
  split
  · exact htab.createServers_shown
  · unfold Connections.shutdownSocket
    split <;> rfl

/-- The label is true after an action iff the action keeps it. -/
theorem Shown.step {l : Action} (h : v.Shown) (hattended : v.Attended) (hcond : v.NamesTeams l)
    (hstep : linking.step v l v') : v'.Shown ↔ v.KeepsLabel l := by
  cases l with
  | loadConfig loaded =>
    obtain rfl : v' = _ := hstep
    exact iff_of_true (hattended.createServers_shown.mpr h) trivial
  | openFile =>
    obtain ⟨-, rfl⟩ := hstep
    exact iff_of_true ((hattended.tabbChange_shown _).mpr h) trivial
  | tab tab =>
    obtain ⟨-, rfl | rfl⟩ := hstep
    · exact iff_of_true h trivial
    · exact iff_of_true ((hattended.tabbChange_shown tab).mpr h) trivial
  | timerStop | timerOverrun =>
    obtain rfl : v' = _ := hstep
    exact h.disconnectClient
  | disconnect | competitionFinished =>
    obtain ⟨-, rfl⟩ := hstep
    exact hattended.disconnectClient.listen_shown.trans h.disconnectClient
  | joined =>
    obtain ⟨-, -, rfl⟩ := hstep
    -- the label is cleared, and server 2 has no team any more
    unfold Shown HasTeam KeepsLabel socketClosed Link.shutdownSocket
    simp
  | connect team m =>
    obtain ⟨-, rfl⟩ := hstep
    exact h.teamConnected hcond
  | saveFile | edit | timerStart | sendSpec _ | acknowledge _ | timeout =>
    obtain rfl : v' = v := hstep
    exact iff_of_true h trivial

end Connections

/-- When an action keeps the label true. No team may have the name that stands for none,
    and none may be disconnected while the other one stays. -/
def KeepsLabel (s : MainController) : Action → Prop
  | .connect _ m =>
    m.text = noTeam → s.serverTeam1.server.teamName ≠ [] ∨ s.serverTeam2.server.teamName ≠ []
  | .timerStop | .timerOverrun | .disconnect | .competitionFinished =>
    s.serverTeam1.server.teamName ≠ [] → s.serverTeam2.server.teamName = []
  | .joined => s.serverTeam1.server.teamName = []
  | _ => True

theorem KeepsLabel.connections {s : MainController} {l : Action} :
    KeepsLabel s l ↔ s.connections.KeepsLabel l := by
  cases l <;> rfl

/-- In every run in which clients send the names of their teams and every action keeps
    the label true. -/
theorem shown_of_reachable :
    ∀ s, Reachable (refereeing.restrict fun s l => NamesTeams s l ∧ KeepsLabel s l) s →
      s.connections.Attended ∧ s.connections.Shown := by
  apply invariant
  · intro s hs
    rw [show s = {} from hs]
    refine ⟨.init, iff_of_false (fun hlabel => hlabel rfl) ?_⟩
    rintro (hteam | hteam)
    · exact hteam rfl
    · exact hteam rfl
  · intro s l s' ⟨hattended, hshown⟩ ⟨⟨hnames, hkeeps⟩, hstep⟩
    have hlink := MainController.link_step hstep
    exact ⟨hattended.step hnames.connections hlink,
      (hshown.step hattended hnames.connections hlink).mpr (KeepsLabel.connections.mp hkeeps)⟩

/-- **The label.** In every run in which clients send the names of their teams and every
    action keeps the label true, it differs from `no team connected` iff a team is
    connected to one of the servers. An action that does not keep it leaves a label that
    is wrong. -/
theorem label_shows_teams {s : MainController}
    (hs : Reachable (refereeing.restrict fun s l => NamesTeams s l ∧ KeepsLabel s l) s) :
    (s.mG.connectedLabel ≠ noTeam ↔
        s.serverTeam1.server.teamName ≠ [] ∨ s.serverTeam2.server.teamName ≠ []) ∧
      ∀ l s', NamesTeams s l → refereeing.step s l s' → ¬ KeepsLabel s l →
        ¬ (s'.mG.connectedLabel ≠ noTeam ↔
          s'.serverTeam1.server.teamName ≠ [] ∨ s'.serverTeam2.server.teamName ≠ []) := by
  refine ⟨(shown_of_reachable s hs).2, fun l s' hnames hstep hkeeps hshown' => ?_⟩
  obtain ⟨hattended, hshown⟩ := shown_of_reachable s hs
  have hiff := hshown.step hattended hnames.connections (MainController.link_step hstep)
  exact hkeeps (KeepsLabel.connections.mpr (hiff.mp hshown'))

/-- A team connects, and the label shows it. -/
theorem label_shows_teams_once : ∃ s,
    Reachable (refereeing.restrict fun s l => NamesTeams s l ∧ KeepsLabel s l) s ∧
      s.serverTeam2.server.teamName = "B".toList ∧ s.mG.connectedLabel ≠ noTeam := by
  have hloaded : Reachable
      (refereeing.restrict fun s l => NamesTeams s l ∧ KeepsLabel s l) _ :=
    .step (Action.loadConfig true) (.init rfl)
      ⟨⟨trivial, trivial⟩, And.intro rfl (And.intro rfl rfl)⟩
  have hcreated : Reachable
      (refereeing.restrict fun s l => NamesTeams s l ∧ KeepsLabel s l) _ :=
    .step (Action.tab .ctt) hloaded ⟨⟨trivial, trivial⟩, And.intro rfl rfl⟩
  have hconnected : Reachable
      (refereeing.restrict fun s l => NamesTeams s l ∧ KeepsLabel s l) _ :=
    .step (Action.connect .team2 ⟨.client 0, "B".toList⟩) hcreated
      ⟨⟨Or.inl (by decide), fun htext => absurd htext (by decide)⟩,
        And.intro rfl (And.intro rfl rfl)⟩
  exact ⟨_, hconnected, rfl, (label_shows_teams hconnected).1.mpr (Or.inr (by decide))⟩

/-- With a team on each server in CTT the label is cleared when the first one is
    disconnected, and when the tab is changed. -/
theorem label_is_cleared :
    (∃ s, Run (refereeing.restrict NamesTeams) {} [.loadConfig true, .tab .ctt,
        .connect .team1 ⟨.client 0, "A".toList⟩, .connect .team2 ⟨.client 1, "B".toList⟩,
        .disconnect] s ∧
      s.mG.connectedLabel = noTeam ∧ s.serverTeam2.server.teamName = "B".toList) ∧
    ∃ s, Run (refereeing.restrict NamesTeams) {} [.loadConfig true, .tab .ctt,
        .connect .team1 ⟨.client 0, "A".toList⟩, .connect .team2 ⟨.client 1, "B".toList⟩,
        .tab .bnt, .joined] s ∧
      s.mG.connectedLabel = noTeam ∧ s.serverTeam1.server.teamName = "A".toList := by
  refine ⟨⟨_,
    .cons (Action.loadConfig true) ⟨trivial, And.intro rfl (And.intro rfl rfl)⟩ <|
    .cons (Action.tab .ctt) ⟨trivial, And.intro rfl rfl⟩ <|
    .cons (Action.connect _ _) ⟨Or.inl (by decide), And.intro rfl (And.intro rfl rfl)⟩ <|
    .cons (Action.connect _ _) ⟨Or.inl (by decide), And.intro rfl (And.intro rfl rfl)⟩ <|
    .cons Action.disconnect ⟨trivial, And.intro rfl (And.intro rfl rfl)⟩ <| .nil _, rfl, rfl⟩, ⟨_,
    .cons (Action.loadConfig true) ⟨trivial, And.intro rfl (And.intro rfl rfl)⟩ <|
    .cons (Action.tab .ctt) ⟨trivial, And.intro rfl rfl⟩ <|
    .cons (Action.connect _ _) ⟨Or.inl (by decide), And.intro rfl (And.intro rfl rfl)⟩ <|
    .cons (Action.connect _ _) ⟨Or.inl (by decide), And.intro rfl (And.intro rfl rfl)⟩ <|
    .cons (Action.tab .bnt) ⟨trivial, And.intro rfl rfl⟩ <|
    .cons Action.joined ⟨trivial, And.intro rfl (And.intro rfl rfl)⟩ <| .nil _, rfl, rfl⟩⟩

end RefereeBox
