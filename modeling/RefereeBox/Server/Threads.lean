import RefereeBox.Model.ServerThread

/-! # One Receiver on an Open Socket

  At any time at most one server thread has not finished: the last one. While it
  has not, the connection is active and there is no team, so nobody closes the
  socket: `disconnectClient` asks for a team first, and `shutdownSocket` joins the
  thread before it closes. That is the invariant (`OneThread`); with it the
  server with its threads refines `TaskServer`. It is about the steps of the
  model, where the timer does not close the socket between the `send` and the
  `recv` of one call.

  A server is dead when its connection is active, there is no team, and no thread
  is left to receive one. The thread makes it so when it takes a message for the
  order to stop, or for a team without a name, outside of `shutdownSocket`
  (`NamesTeam`).
-/

namespace RefereeBox

open Transition

namespace ThreadedServer

variable {s s' : ThreadedServer} {l : ServerAction}

/-! ### The socket -/

theorem refereeSocket_modify (f : RepSocket → RepSocket) (hne : s.sockets ≠ []) :
    (s.modifySocket (s.sockets.length - 1) f).refereeSocket = f s.refereeSocket := by
  have hpos : 0 < s.sockets.length := List.length_pos_iff.mpr hne
  unfold refereeSocket modifySocket
  dsimp only
  rw [List.length_modify, List.getElem?_modify, List.getElem?_eq_getElem (by omega)]
  simp

theorem modifySocket_ne_nil (i : Nat) (f : RepSocket → RepSocket) (hne : s.sockets ≠ []) :
    (s.modifySocket i f).sockets ≠ [] := by
  intro hnil
  have hlen := List.length_modify f s.sockets i
  rw [show s.sockets.modify i f = [] from hnil] at hlen
  exact hne (List.length_eq_zero_iff.mp hlen.symm)

/-- The two calls of `listen` on a server without a connection. -/
theorem listen_of_inactive (hoff : s.activeConnection = false) :
    s.createServerSocket.listenForConnection = { s with
      sockets := s.sockets ++ [RepSocket.bound]
      activeConnection := true
      teamName := []
      threads := s.threads ++ [.started] } := by
  unfold createServerSocket listenForConnection
  simp only [if_pos hoff]

/-- On one with a connection each of them is refused. -/
theorem listen_of_active (hon : s.activeConnection = true) :
    s.createServerSocket.listenForConnection = s := by
  have hne : ¬ s.activeConnection = false := by simp [hon]
  unfold createServerSocket
  rw [if_neg hne]
  exact if_neg hne

/-! ### The invariant -/

structure OneThread (s : ThreadedServer) : Prop where
  last : ∀ thread t, s.threads[thread]? = some t → t ≠ .finished →
    thread + 1 = s.threads.length
  unfinished : ∀ t ∈ s.threads, t ≠ .finished → s.activeConnection = true ∧ s.teamName = []
  socket : ∀ socket, .waiting socket ∈ s.threads → socket + 1 = s.sockets.length
  named : s.teamName ≠ [] → s.activeConnection = true
  isOpen : s.activeConnection = true → s.sockets ≠ [] ∧ s.refereeSocket.isOpen = true
  issued : ∀ o ∈ s.issued, o.isOpen = true

namespace OneThread

theorem init : OneThread {} where
  last _ _ h := by simp at h
  unfinished _ h := absurd h List.not_mem_nil
  socket _ h := absurd h List.not_mem_nil
  named h := absurd rfl h
  isOpen h := absurd h (by decide)
  issued _ h := absurd h List.not_mem_nil

/-- With a team, and without a connection, all threads have finished. -/
theorem all_finished (h : OneThread s) (hor : s.activeConnection = false ∨ s.teamName ≠ []) :
    ∀ t ∈ s.threads, t = .finished := by
  intro t ht
  by_contra hne
  obtain ⟨hactive, hname⟩ := h.unfinished t ht hne
  rcases hor with hoff | hteam
  · exact Bool.false_ne_true (hoff.symm.trans hactive)
  · exact hteam hname

/-- A thread that has not finished is the last one. -/
theorem getLast?_eq (h : OneThread s) {t : ThreadState} (ht : t ∈ s.threads) (hne : t ≠ .finished) :
    s.threads.getLast? = some t := by
  obtain ⟨thread, hthread⟩ := List.getElem?_of_mem ht
  have hlen := h.last thread t hthread hne
  rw [List.getLast?_eq_getElem?, ← hthread]
  congr 1
  omega

/-- So all have finished when the last one has. -/
theorem all_finished_of_last (h : OneThread s)
    (hlast : ∀ t, s.threads.getLast? = some t → t = .finished) : ∀ t ∈ s.threads, t = .finished := by
  intro t ht
  by_contra hne
  exact hne (hlast t (h.getLast?_eq ht hne))

/-- Behind the last thread there is nobody left. -/
theorem all_finished_set (h : OneThread s) {thread : Nat} {t : ThreadState}
    (hthread : s.threads[thread]? = some t) (hne : t ≠ .finished) :
    ∀ t' ∈ s.threads.set thread .finished, t' = .finished := by
  intro t' ht'
  by_contra hne'
  obtain ⟨i, hi⟩ := List.getElem?_of_mem ht'
  have hlen := h.last thread t hthread hne
  by_cases heq : thread = i
  · subst heq
    have hlt := (List.getElem?_eq_some_iff.mp hthread).1
    rw [List.getElem?_set_self hlt] at hi
    exact hne' (Option.some.inj hi).symm
  · rw [List.getElem?_set_ne heq] at hi
    have hlen' := h.last i t' hi hne'
    omega

/-- Operations are issued on the open socket. -/
theorem issue_open (h : OneThread s) (hactive : s.activeConnection = true) (ops : List SocketOp) :
    ∀ o ∈ (s.issue ops).issued, o.isOpen = true := by
  intro o ho
  rcases List.mem_append.mp ho with hold | hnew
  · exact h.issued o hold
  · obtain ⟨op, -, rfl⟩ := List.mem_map.mp hnew
    exact (h.isOpen hactive).2

/-- An operation on `refereeSocket` that does not close it. -/
theorem modify (h : OneThread s) {f : RepSocket → RepSocket}
    (hf : ∀ socket, (f socket).isOpen = socket.isOpen) :
    OneThread (s.modifySocket (s.sockets.length - 1) f) := by
  have hlen := List.length_modify f s.sockets (s.sockets.length - 1)
  refine ⟨h.last, h.unfinished, fun socket hsocket => ?_, h.named, fun hactive => ?_, h.issued⟩
  · exact (h.socket socket hsocket).trans hlen.symm
  · obtain ⟨hne, hopen⟩ := h.isOpen hactive
    refine ⟨modifySocket_ne_nil _ f hne, ?_⟩
    rw [refereeSocket_modify f hne, hf]
    exact hopen

/-- The socket is closed when all threads have finished. -/
theorem close (h : OneThread s) (hall : ∀ t ∈ s.threads, t = .finished) : OneThread s.closeSocket where
  last thread t hthread hne := absurd (hall t (List.mem_of_getElem? hthread)) hne
  unfinished t ht hne := absurd (hall t ht) hne
  socket _ hsocket := absurd (hall _ hsocket) (by simp)
  named hname := absurd rfl hname
  isOpen hactive := absurd hactive Bool.false_ne_true
  issued := h.issued

/-- The call that the caller is in does not matter. -/
theorem of_call (h : OneThread s) (call : ServerCall) : OneThread { s with call := call } :=
  ⟨h.last, h.unfinished, h.socket, h.named, h.isOpen, h.issued⟩

theorem listen (h : OneThread s) (hoff : s.activeConnection = false) :
    OneThread s.createServerSocket.listenForConnection := by
  rw [listen_of_inactive hoff]
  have hall := h.all_finished (Or.inl hoff)
  refine ⟨fun thread t hthread hne => ?_, fun _ _ _ => ⟨rfl, rfl⟩, fun socket hsocket => ?_,
    fun hname => absurd rfl hname, fun _ => ⟨by simp, ?_⟩, h.issued⟩
  · have hlt := (List.getElem?_eq_some_iff.mp hthread).1
    show thread + 1 = (s.threads ++ [ThreadState.started]).length
    have hthread' : (s.threads ++ [ThreadState.started])[thread]? = some t := hthread
    have hnot : ¬ thread < s.threads.length := by
      intro hold
      rw [List.getElem?_append_left hold] at hthread'
      exact hne (hall t (List.mem_of_getElem? hthread'))
    simp only [List.length_append, List.length_singleton] at hlt ⊢
    omega
  · rcases List.mem_append.mp hsocket with hold | hnew
    · exact absurd (hall _ hold) (by simp)
    · exact absurd (List.mem_singleton.mp hnew) (by simp)
  · unfold refereeSocket
    simp [RepSocket.bound]

theorem begin (h : OneThread s) {thread : Nat} (hthread : s.threads[thread]? = some .started) :
    OneThread (s.begin thread) := by
  have hlt := (List.getElem?_eq_some_iff.mp hthread).1
  obtain ⟨hactive, hname⟩ := h.unfinished _ (List.mem_of_getElem? hthread) (by simp)
  obtain ⟨hne, hopen⟩ := h.isOpen hactive
  have hpos : 0 < s.sockets.length := List.length_pos_iff.mpr hne
  have hmem : ∀ t ∈ (s.begin thread).threads, t ∈ s.threads ∨ t = .waiting (s.sockets.length - 1) :=
    fun t ht => List.mem_or_eq_of_mem_set ht
  refine ⟨fun i t hi hunfinished => ?_, fun t ht hunfinished => ?_, fun socket hsocket => ?_, h.named,
    h.isOpen, h.issue_open hactive [.recv]⟩
  · have hi' : (s.threads.set thread (.waiting (s.sockets.length - 1)))[i]? = some t := hi
    show i + 1 = (s.threads.set thread (.waiting (s.sockets.length - 1))).length
    rw [List.length_set]
    by_cases heq : thread = i
    · subst heq
      exact h.last thread _ hthread (by simp)
    · rw [List.getElem?_set_ne heq] at hi'
      exact h.last i t hi' hunfinished
  · exact ⟨hactive, hname⟩
  · rcases hmem _ hsocket with hold | hnew
    · exact h.socket socket hold
    · cases hnew
      show s.sockets.length - 1 + 1 = s.sockets.length
      omega

theorem receive (h : OneThread s) {thread socket : Nat}
    (hthread : s.threads[thread]? = some (.waiting socket)) (m : Request) :
    OneThread (s.receive thread socket m) := by
  have hmem := List.mem_of_getElem? hthread
  obtain ⟨hactive, -⟩ := h.unfinished _ hmem (by simp)
  have hall := h.all_finished_set hthread (by simp)
  -- the thread waits on the actual socket
  have hsocket : socket = s.sockets.length - 1 := by
    have hlen := h.socket socket hmem
    omega
  subst hsocket
  have hmodified := h.modify (f := RepSocket.recv m) fun _ => rfl
  exact ⟨fun i t hi hne => absurd (hall t (List.mem_of_getElem? hi)) hne,
    fun t ht hne => absurd (hall t ht) hne, fun _ ht => absurd (hall _ ht) (by simp),
    fun _ => hactive, hmodified.isOpen, h.issued⟩

theorem step (h : OneThread s) (hstep : serverThreads.step s l s') : OneThread s' := by
  cases l with
  | listen =>
    obtain ⟨-, rfl⟩ := hstep
    by_cases hoff : s.activeConnection = false
    · exact h.listen hoff
    · rw [listen_of_active (Bool.eq_true_of_not_eq_false hoff)]
      exact h
  | sendTaskSpecToClient tSpec =>
    obtain ⟨-, rfl⟩ := hstep
    unfold sendTaskSpecToClient
    by_cases hoff : s.activeConnection = false
    · rw [if_pos hoff]
      exact h
    · rw [if_neg hoff]
      have hactive : s.activeConnection = true := by simpa using hoff
      have hmodified := h.modify (f := RepSocket.send tSpec) fun _ => rfl
      exact ⟨h.last, h.unfinished, hmodified.socket, h.named, hmodified.isOpen,
        h.issue_open hactive _⟩
  | receiveAck answer =>
    obtain ⟨-, rfl⟩ := hstep
    -- a timeout leaves the socket as it is
    cases answer with
    | none => exact h.of_call .idle
    | some m => exact (h.modify (f := RepSocket.recv m) fun _ => rfl).of_call .idle
  | disconnectClient =>
    obtain rfl : s' = _ := hstep
    unfold disconnectClient
    split
    · -- with a team there is no thread on the socket
      next hname => exact h.close (h.all_finished (Or.inr hname))
    · exact h
  | shutdownSocket =>
    obtain ⟨-, rfl⟩ := hstep
    unfold shutdownSocket
    split
    · exact h.of_call .joining
    · exact h
  | joined =>
    obtain ⟨-, hlast, rfl⟩ := hstep
    exact (h.close (h.all_finished_of_last hlast)).of_call .idle
  | begin thread =>
    obtain ⟨hthread, rfl⟩ := hstep
    exact h.begin hthread
  | receive thread m =>
    obtain ⟨socket, hthread, rfl⟩ := hstep
    exact h.receive hthread m

end OneThread

theorem oneThread_of_reachable : ∀ s, Reachable serverThreads s → OneThread s := by
  apply invariant
  · intro s hs
    rw [show s = {} from hs]
    exact .init
  · intro s l s' h hstep
    exact h.step hstep

end ThreadedServer

/-! ### Refinement -/

namespace ThreadedServer

/-- The server without its threads: the server thread is in `recv` from its start on. -/
def server (s : ThreadedServer) : TaskServer where
  refereeSocket := s.refereeSocket
  teamName := s.teamName
  activeConnection := s.activeConnection
  receiving := s.threads.any (· ≠ .finished)

end ThreadedServer

/-- What an action is on the server without its threads. -/
def ServerAction.Performs (t t' : TaskServer) : ServerAction → Prop
  | .listen => t' = t.createServerSocket.listenForConnection
  | .sendTaskSpecToClient tSpec => t' = (t.sendTaskSpec tSpec).getD t
  | .receiveAck answer => t' = (t.receiveAck answer).2
  | .disconnectClient => t' = t.disconnectClient.2
  | .joined => t.receiving = false ∧ t' = t.shutdownSocket
  | .receive _ m => t.receiving = true ∧ t' = t.run m
  | .shutdownSocket | .begin _ => t' = t

namespace ThreadedServer

variable {s s' : ThreadedServer} {l : ServerAction}

/-- While the caller waits there is a socket. -/
theorem sockets_of_reachable : ∀ s, Reachable serverThreads s →
    OneThread s ∧ (s.call ≠ .idle → s.sockets ≠ []) := by
  apply invariant
  · intro s hs
    rw [show s = {} from hs]
    exact ⟨.init, fun h => absurd rfl h⟩
  · rintro s l s' ⟨hone, hsockets⟩ hstep
    refine ⟨hone.step hstep, fun hcall => ?_⟩
    cases l with
    | listen =>
      obtain ⟨hidle, rfl⟩ := hstep
      by_cases hoff : s.activeConnection = false
      · rw [listen_of_inactive hoff]
        exact List.append_ne_nil_of_right_ne_nil _ (List.cons_ne_nil _ _)
      · rw [listen_of_active (Bool.eq_true_of_not_eq_false hoff)] at hcall
        exact absurd hidle hcall
    | sendTaskSpecToClient tSpec =>
      obtain ⟨hidle, rfl⟩ := hstep
      unfold sendTaskSpecToClient at hcall ⊢
      by_cases hoff : s.activeConnection = false
      · rw [if_pos hoff] at hcall
        exact absurd hidle hcall
      · rw [if_neg hoff]
        exact modifySocket_ne_nil _ _ (hone.isOpen (by simpa using hoff)).1
    | receiveAck answer =>
      obtain ⟨-, rfl⟩ := hstep
      cases answer with
      | none => exact absurd rfl hcall
      | some m => exact absurd rfl hcall
    | disconnectClient =>
      obtain rfl : s' = _ := hstep
      unfold disconnectClient at hcall ⊢
      split at hcall
      · next hname =>
        rw [if_pos hname]
        exact modifySocket_ne_nil _ _ (hsockets hcall)
      · next hname =>
        rw [if_neg hname]
        exact hsockets hcall
    | shutdownSocket =>
      obtain ⟨hidle, rfl⟩ := hstep
      unfold shutdownSocket at hcall ⊢
      split at hcall
      · next hactive =>
        rw [if_pos hactive]
        exact (hone.isOpen hactive).1
      · exact absurd hidle hcall
    | joined =>
      obtain ⟨-, -, rfl⟩ := hstep
      exact absurd rfl hcall
    | begin thread =>
      obtain ⟨-, rfl⟩ := hstep
      exact hsockets hcall
    | receive thread m =>
      obtain ⟨socket, -, rfl⟩ := hstep
      exact modifySocket_ne_nil _ _ (hsockets hcall)

theorem server_modify (f : RepSocket → RepSocket) (hne : s.sockets ≠ []) :
    (s.modifySocket (s.sockets.length - 1) f).server =
      { s.server with refereeSocket := f s.refereeSocket } := by
  unfold server
  rw [refereeSocket_modify f hne]
  rfl

theorem server_close (hne : s.sockets ≠ []) : s.closeSocket.server = s.server.shutdownSocket := by
  have hmodified := server_modify RepSocket.close hne
  unfold closeSocket TaskServer.shutdownSocket
  exact congrArg (fun t : TaskServer => { t with activeConnection := false, teamName := [] }) hmodified

/-- The new thread is the one that receives. -/
theorem server_listen (s : ThreadedServer) : s.createServerSocket.listenForConnection.server =
    s.server.createServerSocket.listenForConnection := by
  unfold TaskServer.createServerSocket TaskServer.listenForConnection
  by_cases hoff : s.activeConnection = false
  · have hoff' : s.server.activeConnection = false := hoff
    rw [listen_of_inactive hoff]
    simp only [hoff', if_true]
    unfold server refereeSocket
    simp
  · have hoff' : ¬ s.server.activeConnection = false := hoff
    rw [listen_of_active (Bool.eq_true_of_not_eq_false hoff)]
    simp only [if_neg hoff']

theorem receiving_eq_false (h : ∀ t ∈ s.threads, t = .finished) : s.server.receiving = false := by
  rw [server, List.any_eq_false]
  intro t ht
  simpa using h t ht

theorem receiving_eq_true {thread : Nat} {t : ThreadState} (h : s.threads[thread]? = some t)
    (hne : t ≠ .finished) : s.server.receiving = true := by
  rw [server, List.any_eq_true]
  exact ⟨t, List.mem_of_getElem? h, by simpa using hne⟩

/-- A thread that has been started counts as one in `recv`. -/
theorem server_begin {thread : Nat} (hthread : s.threads[thread]? = some .started) :
    (s.begin thread).server = s.server := by
  have hlt := (List.getElem?_eq_some_iff.mp hthread).1
  have hafter : (s.begin thread).server.receiving = true :=
    receiving_eq_true (List.getElem?_set_self hlt) (by simp)
  have hbefore : s.server.receiving = true := receiving_eq_true hthread (by simp)
  show (⟨_, _, _, (s.begin thread).server.receiving⟩ : TaskServer) = ⟨_, _, _, s.server.receiving⟩
  rw [hafter, hbefore]
  rfl

/-- The thread that receives is the last one, on the actual socket. -/
theorem server_receive (hone : OneThread s) {thread socket : Nat}
    (hthread : s.threads[thread]? = some (.waiting socket)) (m : Request) :
    (s.receive thread socket m).server = s.server.run m := by
  have hmem := List.mem_of_getElem? hthread
  obtain ⟨hactive, -⟩ := hone.unfinished _ hmem (by simp)
  have hafter : (s.receive thread socket m).server.receiving = false :=
    receiving_eq_false (hone.all_finished_set hthread (by simp))
  obtain rfl : socket = s.sockets.length - 1 := by
    have hlen := hone.socket socket hmem
    omega
  have hsocket : (s.receive thread (s.sockets.length - 1) m).server.refereeSocket =
      s.refereeSocket.recv m := refereeSocket_modify (RepSocket.recv m) (hone.isOpen hactive).1
  show (⟨(s.receive thread (s.sockets.length - 1) m).server.refereeSocket,
    if m.text = stopThread then s.teamName else m.text, s.activeConnection,
    (s.receive thread (s.sockets.length - 1) m).server.receiving⟩ : TaskServer) = _
  rw [hafter, hsocket]
  unfold TaskServer.run
  by_cases hstop : m.text = stopThread
  · rw [if_pos hstop, if_pos hstop]
    rfl
  · rw [if_neg hstop, if_neg hstop]
    rfl

/-- **Refinement**: the server with its threads does what the server does. -/
theorem performs (hs : Reachable serverThreads s) (hstep : serverThreads.step s l s') :
    l.Performs s.server s'.server := by
  obtain ⟨hone, hsockets⟩ := sockets_of_reachable s hs
  cases l with
  | listen =>
    obtain ⟨-, rfl⟩ := hstep
    exact server_listen s
  | sendTaskSpecToClient tSpec =>
    obtain ⟨-, rfl⟩ := hstep
    show _ = (s.server.sendTaskSpec tSpec).getD s.server
    unfold sendTaskSpecToClient TaskServer.sendTaskSpec
    by_cases hoff : s.activeConnection = false
    · rw [if_pos hoff, if_pos (show s.server.activeConnection = false from hoff)]
      rfl
    · rw [if_neg hoff, if_neg (show ¬ s.server.activeConnection = false from hoff)]
      exact server_modify (RepSocket.send tSpec) (hone.isOpen (by simpa using hoff)).1
  | receiveAck answer =>
    obtain ⟨hcall, rfl⟩ := hstep
    cases answer with
    | none => rfl
    | some m => exact server_modify (RepSocket.recv m) (hsockets (by rw [hcall]; simp))
  | disconnectClient =>
    obtain rfl : s' = _ := hstep
    show _ = s.server.disconnectClient.2
    unfold disconnectClient TaskServer.disconnectClient
    by_cases hname : s.teamName ≠ []
    · rw [if_pos hname, if_pos (show s.server.teamName ≠ [] from hname)]
      exact server_close (hone.isOpen (hone.named hname)).1
    · rw [if_neg hname, if_neg (show ¬ s.server.teamName ≠ [] from hname)]
  | shutdownSocket =>
    obtain ⟨-, rfl⟩ := hstep
    show _ = s.server
    unfold shutdownSocket
    split <;> rfl
  | joined =>
    obtain ⟨hcall, hlast, rfl⟩ := hstep
    refine ⟨receiving_eq_false (hone.all_finished_of_last hlast), ?_⟩
    exact server_close (hsockets (by rw [hcall]; simp))
  | begin thread =>
    obtain ⟨hthread, rfl⟩ := hstep
    exact server_begin hthread
  | receive thread m =>
    obtain ⟨socket, hthread, rfl⟩ := hstep
    exact ⟨receiving_eq_true hthread (by simp), server_receive hone hthread m⟩

end ThreadedServer

/-! ### One receiver -/

/-- At most one thread waits, and only on an active connection without a team; and no
    operation was issued on a socket behind its close. -/
structure OneReceiver (s : ThreadedServer) : Prop where
  single : ∀ thread thread' socket socket' : Nat,
    s.threads[thread]? = some (.waiting socket) → s.threads[thread']? = some (.waiting socket') →
      thread = thread'
  inactive : s.activeConnection = false →
    s.teamName = [] ∧ ∀ socket, ThreadState.waiting socket ∉ s.threads
  named : s.teamName ≠ [] → ∀ socket, ThreadState.waiting socket ∉ s.threads
  issued : ∀ o ∈ s.issued, o.isOpen = true

/-- **One receiver, never a closed socket**: in every state that the caller, the threads
    and the clients can reach together. -/
theorem one_receiver : ∀ s, Reachable serverThreads s → OneReceiver s := by
  intro s hs
  have hone := ThreadedServer.oneThread_of_reachable s hs
  -- both exclude a thread that has not finished
  have hnobody : s.activeConnection = false ∨ s.teamName ≠ [] →
      ∀ socket, ThreadState.waiting socket ∉ s.threads := by
    intro hor socket hmem
    exact absurd (hone.all_finished hor _ hmem) (by simp)
  refine ⟨fun thread thread' socket socket' h h' => ?_, fun hoff => ⟨?_, hnobody (Or.inl hoff)⟩,
    fun hname => hnobody (Or.inr hname), hone.issued⟩
  · -- both are the last one
    have hlast := hone.last thread _ h (by simp)
    have hlast' := hone.last thread' _ h' (by simp)
    omega
  · by_contra hname
    exact Bool.false_ne_true (hoff.symm.trans (hone.named hname))

/-- A client connects, gets a task specification, and is disconnected. -/
theorem one_receiver_once : ∃ s, Reachable serverThreads s ∧ OneReceiver s ∧
    s.activeConnection = false ∧
    s.issued = [⟨.recv, true⟩, ⟨.send, true⟩, ⟨.recv, true⟩] := by
  have hlistens : Reachable serverThreads _ :=
    .step ServerAction.listen (.init rfl) (And.intro rfl rfl)
  have hwaits : Reachable serverThreads _ :=
    .step (ServerAction.begin 0) hlistens (And.intro rfl rfl)
  have hconnected : Reachable serverThreads _ :=
    .step (ServerAction.receive 0 ⟨.client 0, "A".toList⟩) hwaits
      (Exists.intro 0 (And.intro rfl rfl))
  have hsent : Reachable serverThreads _ :=
    .step (ServerAction.sendTaskSpecToClient "BNT<>".toList) hconnected (And.intro rfl rfl)
  have hacknowledged : Reachable serverThreads _ :=
    .step (ServerAction.receiveAck (some ⟨.client 0, acknowledgement⟩)) hsent (And.intro rfl rfl)
  have hdisconnected : Reachable serverThreads _ :=
    .step ServerAction.disconnectClient hacknowledged rfl
  exact ⟨_, hdisconnected, one_receiver _ hdisconnected, rfl, rfl⟩

/-! ### No dead listener -/

/-- The caller is in no call, and no thread is on its way to its `recv`. -/
def Quiescent (s : ThreadedServer) : Prop := s.call = .idle ∧ ThreadState.started ∉ s.threads

/-- Without a team a quiescent server waits for one. -/
def Listens (s : ThreadedServer) : Prop :=
  Quiescent s → s.activeConnection = true → s.teamName = [] →
    ∃ socket, s.threads.getLast? = some (.waiting socket) ∧ socket + 1 = s.sockets.length ∧
      s.refereeSocket.isOpen = true

/-- The connection is active, but there is neither a team nor a thread. -/
structure Dead (s : ThreadedServer) : Prop where
  active : s.activeConnection = true
  name : s.teamName = []
  nobody : ∀ t ∈ s.threads, t = .finished

/-- Outside of `shutdownSocket` a server thread receives the name of a team. -/
def NamesTeam (s : ThreadedServer) : ServerAction → Prop
  | .receive _ m => s.call ≠ .joining → m.text ≠ [] ∧ m.text ≠ stopThread
  | _ => True

theorem Dead.not_listens {s : ThreadedServer} (h : Dead s) (hidle : s.call = .idle) :
    ¬ Listens s := by
  intro hlistens
  have hquiescent : Quiescent s := ⟨hidle, fun hmem => absurd (h.nobody _ hmem) (by simp)⟩
  obtain ⟨socket, hlast, -⟩ := hlistens hquiescent h.active h.name
  exact absurd (h.nobody _ (List.mem_of_getLast? hlast)) (by simp)

/-- Nothing but `shutdownSocket` helps a dead server. -/
theorem Dead.step {s s' : ThreadedServer} {l : ServerAction} (h : Dead s)
    (hstep : serverThreads.step s l s') (hne : l ≠ .joined) : Dead s' := by
  cases l with
  | listen =>
    obtain ⟨-, rfl⟩ := hstep
    rw [ThreadedServer.listen_of_active h.active]
    exact h
  | sendTaskSpecToClient tSpec =>
    obtain ⟨-, rfl⟩ := hstep
    unfold ThreadedServer.sendTaskSpecToClient
    rw [if_neg (by simp [h.active])]
    exact ⟨h.active, h.name, h.nobody⟩
  | receiveAck answer =>
    obtain ⟨-, rfl⟩ := hstep
    cases answer with
    | none => exact ⟨h.active, h.name, h.nobody⟩
    | some m => exact ⟨h.active, h.name, h.nobody⟩
  | disconnectClient =>
    obtain rfl : s' = _ := hstep
    -- there is no team to disconnect
    unfold ThreadedServer.disconnectClient
    rw [if_neg (not_not.mpr h.name)]
    exact h
  | shutdownSocket =>
    obtain ⟨-, rfl⟩ := hstep
    unfold ThreadedServer.shutdownSocket
    rw [if_pos h.active]
    exact ⟨h.active, h.name, h.nobody⟩
  | joined => exact absurd rfl hne
  | begin thread =>
    obtain ⟨hthread, -⟩ := hstep
    exact absurd (h.nobody _ (List.mem_of_getElem? hthread)) (by simp)
  | receive thread m =>
    obtain ⟨socket, hthread, -⟩ := hstep
    exact absurd (h.nobody _ (List.mem_of_getElem? hthread)) (by simp)

/-- A message that is no name leaves the server dead. -/
theorem dead_of_not_namesTeam {s s' : ThreadedServer} {l : ServerAction}
    (hs : Reachable serverThreads s) (hstep : serverThreads.step s l s')
    (hcond : ¬ NamesTeam s l) : Dead s' := by
  have hone := ThreadedServer.oneThread_of_reachable s hs
  cases l with
  | receive thread m =>
    obtain ⟨-, hno⟩ := Classical.not_imp.mp hcond
    obtain ⟨socket, hthread, rfl⟩ := hstep
    obtain ⟨hactive, hname⟩ := hone.unfinished _ (List.mem_of_getElem? hthread) (by simp)
    refine ⟨hactive, ?_, hone.all_finished_set hthread (by simp)⟩
    show (if m.text = stopThread then s.teamName else m.text) = []
    split
    · exact hname
    · next hstop =>
      by_contra hne
      exact hno ⟨hne, hstop⟩
  | listen | sendTaskSpecToClient _ | receiveAck _ | disconnectClient | shutdownSocket | joined
  | begin _ => exact absurd trivial hcond

/-- Outside of the join there is a thread for the team that is to come. -/
def Awaits (s : ThreadedServer) : Prop :=
  s.call ≠ .joining → s.activeConnection = true → s.teamName = [] → ∃ t ∈ s.threads, t ≠ .finished

theorem Awaits.step {s s' : ThreadedServer} {l : ServerAction} (h : Awaits s)
    (hcond : NamesTeam s l) (hstep : serverThreads.step s l s') : Awaits s' := by
  cases l with
  | listen =>
    obtain ⟨-, rfl⟩ := hstep
    by_cases hoff : s.activeConnection = false
    · rw [ThreadedServer.listen_of_inactive hoff]
      exact fun _ _ _ => ⟨.started, List.mem_append_right _ (List.mem_singleton.mpr rfl), by simp⟩
    · rw [ThreadedServer.listen_of_active (Bool.eq_true_of_not_eq_false hoff)]
      exact h
  | sendTaskSpecToClient tSpec =>
    obtain ⟨hidle, rfl⟩ := hstep
    unfold ThreadedServer.sendTaskSpecToClient
    split
    · exact h
    · exact fun _ => h (by rw [hidle]; simp)
  | receiveAck answer =>
    obtain ⟨hcall, rfl⟩ := hstep
    cases answer with
    | none => exact fun _ => h (by rw [hcall]; simp)
    | some m => exact fun _ => h (by rw [hcall]; simp)
  | disconnectClient =>
    obtain rfl : s' = _ := hstep
    unfold ThreadedServer.disconnectClient
    split
    · exact fun _ hactive => absurd hactive Bool.false_ne_true
    · exact h
  | shutdownSocket =>
    obtain ⟨-, rfl⟩ := hstep
    unfold ThreadedServer.shutdownSocket
    split
    · exact fun hcall => absurd rfl hcall
    · exact h
  | joined =>
    obtain ⟨-, -, rfl⟩ := hstep
    exact fun _ hactive => absurd hactive Bool.false_ne_true
  | begin thread =>
    obtain ⟨hthread, rfl⟩ := hstep
    -- the thread goes on to its `recv`
    have hlt := (List.getElem?_eq_some_iff.mp hthread).1
    exact fun _ _ _ => ⟨.waiting (s.sockets.length - 1), List.mem_set hlt _, by simp⟩
  | receive thread m =>
    obtain ⟨socket, -, rfl⟩ := hstep
    intro hcall _ hname
    -- the message is the name of a team
    obtain ⟨hne, hstop⟩ := hcond hcall
    have hname' : (if m.text = stopThread then s.teamName else m.text) = [] := hname
    rw [if_neg hstop] at hname'
    exact absurd hname' hne

/-- **No dead listener.** In every run in which a server thread receives names of teams
    only, other than in `shutdownSocket`, a quiescent server that is active and without
    a team waits on its open socket for one. Any other message makes the server dead: it
    stays so until a `shutdownSocket`, and it does not listen. -/
theorem no_dead_listener (s : ThreadedServer) :
    (Reachable (serverThreads.restrict NamesTeam) s → Listens s) ∧
      (∀ l s', Reachable serverThreads s → serverThreads.step s l s' → ¬ NamesTeam s l →
        Dead s') ∧
      (∀ l s', Dead s → serverThreads.step s l s' → l ≠ .joined → Dead s') ∧
      (Dead s → s.call = .idle → ¬ Listens s) := by
  have hawaits : ∀ s, Reachable (serverThreads.restrict NamesTeam) s → Awaits s := by
    apply invariant
    · intro s hs
      rw [show s = {} from hs]
      exact fun _ hactive => absurd hactive Bool.false_ne_true
    · intro s l s' h hstep
      exact h.step hstep.1 hstep.2
  refine ⟨fun hs ⟨hidle, hbegun⟩ hactive hname => ?_,
    fun l s' hs => dead_of_not_namesTeam hs, fun l s' h => h.step, fun h => h.not_listens⟩
  have hone := ThreadedServer.oneThread_of_reachable s hs.of_restrict
  obtain ⟨t, ht, hne⟩ := hawaits s hs (by rw [hidle]; simp) hactive hname
  cases t with
  | started => exact absurd ht hbegun
  | finished => exact absurd rfl hne
  | waiting socket =>
    exact ⟨socket, hone.getLast?_eq ht hne, hone.socket socket ht, (hone.isOpen hactive).2⟩

/-- The server listens again when a team is gone. -/
theorem no_dead_listener_once : ∃ s, Reachable (serverThreads.restrict NamesTeam) s ∧
    Listens s ∧ Quiescent s ∧ s.activeConnection = true ∧ s.teamName = [] := by
  have hlistens : Reachable (serverThreads.restrict NamesTeam) _ :=
    .step ServerAction.listen (.init rfl) ⟨trivial, And.intro rfl rfl⟩
  have hwaits : Reachable (serverThreads.restrict NamesTeam) _ :=
    .step (ServerAction.begin 0) hlistens ⟨trivial, And.intro rfl rfl⟩
  have hconnected : Reachable (serverThreads.restrict NamesTeam) _ :=
    .step (ServerAction.receive 0 ⟨.client 0, "A".toList⟩) hwaits
      ⟨fun _ => by decide, Exists.intro 0 (And.intro rfl rfl)⟩
  have hdisconnected : Reachable (serverThreads.restrict NamesTeam) _ :=
    .step ServerAction.disconnectClient hconnected ⟨trivial, rfl⟩
  have hagain : Reachable (serverThreads.restrict NamesTeam) _ :=
    .step ServerAction.listen hdisconnected ⟨trivial, And.intro rfl rfl⟩
  have hready : Reachable (serverThreads.restrict NamesTeam) _ :=
    .step (ServerAction.begin 1) hagain ⟨trivial, And.intro rfl rfl⟩
  exact ⟨_, hready, (no_dead_listener _).1 hready, ⟨rfl, by decide⟩, rfl, rfl⟩

/-- The first message of a client is empty, or the order to stop: nobody is left to hear
    of a team, and to disconnect does not help. -/
theorem listener_dies :
    (∃ s, Run serverThreads {}
        [.listen, .begin 0, .receive 0 ⟨.client 0, []⟩, .disconnectClient, .listen] s ∧
      Quiescent s ∧ Dead s ∧ ¬ Listens s) ∧
    ∃ s, Run serverThreads {} [.listen, .begin 0, .receive 0 ⟨.client 0, stopThread⟩] s ∧
      Quiescent s ∧ Dead s ∧ ¬ Listens s := by
  have hdead : ∀ s : ThreadedServer, s.activeConnection = true → s.teamName = [] →
      s.threads = [.finished] → Dead s := fun s hactive hname hthreads =>
    ⟨hactive, hname, fun t ht => List.mem_singleton.mp (hthreads ▸ ht)⟩
  refine ⟨⟨_,
    .cons ServerAction.listen (And.intro rfl rfl) <|
    .cons (ServerAction.begin _) (And.intro rfl rfl) <|
    .cons (ServerAction.receive _ _) (Exists.intro 0 (And.intro rfl rfl)) <|
    .cons ServerAction.disconnectClient rfl <|
    .cons ServerAction.listen (And.intro rfl rfl) <| .nil _,
    ⟨rfl, by decide⟩, hdead _ rfl rfl rfl, (hdead _ rfl rfl rfl).not_listens rfl⟩, ⟨_,
    .cons ServerAction.listen (And.intro rfl rfl) <|
    .cons (ServerAction.begin _) (And.intro rfl rfl) <|
    .cons (ServerAction.receive _ _) (Exists.intro 0 (And.intro rfl rfl)) <| .nil _,
    ⟨rfl, by decide⟩, hdead _ rfl rfl rfl, (hdead _ rfl rfl rfl).not_listens rfl⟩⟩

end RefereeBox
