import Mathlib.Data.List.Count
import RefereeBox.Server.Network

/-! # Delivery to the Announced Team

  A team name and an acknowledgement are the same kind of request, so the
  server can take one for the other. As long as each receive gets the kind of
  request it waits for, from the client it waits for (`Proper`), the
  specification reaches the announced team only, and true is returned only
  when that team has it.

  The invariant has a part about the queue (`Mailbox`: whose requests are
  under way), a part about the client whose request was received last
  (`Linked`, with `Standing` for how far that client has come), and the record.
-/

namespace RefereeBox

open Transition

/-- Each receive gets what it waits for: the server thread no acknowledgement
    left over from an earlier connection, `sendTaskSpecToClient` no request of
    another client than the one it sent to; and a second send in reply to the
    same request repeats the first. -/
def Proper (s : Network) : Label → Prop
  | .run m => m.text ≠ acknowledgement
  | .acknowledge m =>
    ∃ tSpec i, s.call = .awaitingAck tSpec (some (.client i)) ∧ m.sender = .client i
  | .send tSpec =>
    s.server.activeConnection = true →
      ∀ earlier, s.server.refereeSocket.reply = some earlier → earlier = tSpec
  | _ => True

/-! ### The requests of a client

    A client sends its name and later its acknowledgement, each once. -/

/-- The client waits for the reply to its name. -/
def Client.Waiting (c : Client) : Prop :=
  c.progress = .awaiting ∧ c.inbox = none ∧ c.taskSpecFromServer = none

/-- The reply to its name is `tSpec`, whether it has been received or not. -/
def Client.Got (tSpec : Text) (c : Client) : Prop :=
  c.progress = .awaiting ∧ c.inbox = some tSpec ∨
    (c.progress = .answered ∨ c.progress = .acknowledged) ∧ c.taskSpecFromServer = some tSpec

theorem Client.deliver_of_progress {c : Client} {tSpec : Text} (h : c.progress ≠ .awaiting) :
    c.deliver tSpec = c := by
  rw [Client.deliver, if_neg]
  exact fun hcond => h hcond.1

theorem Client.Got.deliver {c : Client} {tSpec : Text} (h : c.Got tSpec) (tSpec' : Text) :
    c.deliver tSpec' = c := by
  rcases h with ⟨-, hinbox⟩ | ⟨hlater, -⟩
  · rw [Client.deliver, if_neg]
    rintro ⟨-, -, hnone⟩
    rw [hinbox] at hnone
    exact absurd hnone (by simp)
  · apply Client.deliver_of_progress
    rcases hlater with hlater | hlater <;> rw [hlater] <;> decide

/-- The client has acknowledged, and the server has received it. -/
def Through (queue : List Request) (i : Nat) (c : Client) : Prop :=
  c.progress = .acknowledged ∧ ackOf i ∉ queue

/-- What is known of a client whose request was received last, when `reply` has
    been sent to it since. -/
def Standing (queue : List Request) (i : Nat) (c : Client) : Option Text → Prop
  | none => c.Waiting ∨ Through queue i c
  | some tSpec => c.Got tSpec ∨ c.gone = true ∧ c.Waiting ∨ Through queue i c

/-- The requests under way are those of waiting and of acknowledging clients. -/
structure Mailbox (names : TeamNames) (queue : List Request) (clients : Nat → Client) : Prop where
  request : ∀ i text, (⟨.client i, text⟩ : Request) ∈ queue →
    text = names.name i ∧ (clients i).Waiting ∨
      text = acknowledgement ∧ (clients i).progress = .acknowledged
  once : ∀ i text, queue.count (⟨.client i, text⟩ : Request) ≤ 1
  start : ∀ i, (clients i).progress = .start →
    (clients i).inbox = none ∧ (clients i).taskSpecFromServer = none

section mailbox
variable {names : TeamNames} {queue queue' : List Request} {clients : Nat → Client}

/-- A request is under way once, so what has been received is gone. -/
theorem Mailbox.notMem_erase (h : Mailbox names queue clients) (i : Nat) (text : Text) :
    (⟨.client i, text⟩ : Request) ∉ queue.erase ⟨.client i, text⟩ := by
  intro hmem
  have hpos := List.count_pos_iff.mpr hmem
  have hone := h.once i text
  rw [List.count_erase_self] at hpos
  omega

theorem Mailbox.sublist (h : Mailbox names queue clients) (hsub : queue'.Sublist queue) :
    Mailbox names queue' clients where
  request i text hmem := h.request i text (hsub.subset hmem)
  once i text := (hsub.count_le _).trans (h.once i text)
  start := h.start

/-- The request of the dummy client is not one of a client. -/
theorem Mailbox.stop (h : Mailbox names queue clients) :
    Mailbox names (queue ++ [⟨.dummyClient, stopThread⟩]) clients where
  request i text hmem := by
    rcases List.mem_append.mp hmem with hmem | hmem
    · exact h.request i text hmem
    · exact absurd (List.mem_singleton.mp hmem) (by simp)
  once i text := by
    have hzero : List.count (⟨.client i, text⟩ : Request) [⟨.dummyClient, stopThread⟩] = 0 :=
      List.count_eq_zero.mpr (by simp)
    rw [List.count_append, hzero]
    exact h.once i text
  start := h.start

/-- A step of one client that sends nothing. -/
theorem Mailbox.update (h : Mailbox names queue clients) (i : Nat) (c : Client)
    (hwaiting : names.nameOf i ∈ queue → (clients i).Waiting → c.Waiting)
    (hack : (clients i).progress = .acknowledged → c.progress = .acknowledged)
    (hstart : c.progress = .start → c.inbox = none ∧ c.taskSpecFromServer = none) :
    Mailbox names queue (Function.update clients i c) where
  request j text hmem := by
    by_cases hj : j = i
    · subst hj
      rw [Function.update_self]
      rcases h.request j text hmem with ⟨rfl, hw⟩ | ⟨rfl, ha⟩
      · exact Or.inl ⟨rfl, hwaiting hmem hw⟩
      · exact Or.inr ⟨rfl, hack ha⟩
    · rw [Function.update_of_ne hj]
      exact h.request j text hmem
  once := h.once
  start j hj := by
    by_cases heq : j = i
    · subst heq
      rw [Function.update_self] at hj ⊢
      exact hstart hj
    · rw [Function.update_of_ne heq] at hj ⊢
      exact h.start j hj

/-- A client sends its next request. -/
theorem Mailbox.append (h : Mailbox names queue clients) (i : Nat) (text : Text)
    (hnew : (⟨.client i, text⟩ : Request) ∉ queue)
    (hrequest : text = names.name i ∧ (clients i).Waiting ∨
      text = acknowledgement ∧ (clients i).progress = .acknowledged) :
    Mailbox names (queue ++ [⟨.client i, text⟩]) clients where
  request j text' hmem := by
    rcases List.mem_append.mp hmem with hmem | hmem
    · exact h.request j text' hmem
    · obtain ⟨hj, rfl⟩ := Request.mk.inj (List.mem_singleton.mp hmem)
      obtain rfl := Peer.client.inj hj
      exact hrequest
  once j text' := by
    rw [List.count_append]
    by_cases heq : (⟨.client j, text'⟩ : Request) = ⟨.client i, text⟩
    · rw [heq, List.count_eq_zero.mpr hnew, List.count_singleton_self]
    · have hzero : List.count (⟨.client j, text'⟩ : Request) [⟨.client i, text⟩] = 0 :=
        List.count_eq_zero.mpr fun hmem => heq (List.mem_singleton.mp hmem)
      rw [hzero]
      exact h.once j text'
  start := h.start

theorem Mailbox.deliver (h : Mailbox names queue clients) {i : Nat} (tSpec : Text)
    (hname : names.nameOf i ∉ queue) :
    Mailbox names queue (Function.update clients i ((clients i).deliver tSpec)) := by
  refine h.update i _ (fun hmem => absurd hmem hname) ?_ ?_
  · intro hack
    unfold Client.deliver
    split <;> exact hack
  · unfold Client.deliver
    split
    · next hcond =>
      intro hstart
      rw [hcond.1] at hstart
      exact absurd hstart (by decide)
    · exact h.start i

theorem Mailbox.sendName (h : Mailbox names queue clients) {i : Nat}
    (hstart : (clients i).progress = .start) :
    Mailbox names (queue ++ [names.nameOf i])
      (Function.update clients i { clients i with progress := .awaiting }) := by
  have hempty := h.start i hstart
  have hnone : ∀ text, (⟨.client i, text⟩ : Request) ∉ queue := by
    intro text hmem
    rcases h.request i text hmem with ⟨-, hw, -⟩ | ⟨-, ha⟩
    · rw [hstart] at hw
      exact absurd hw (by decide)
    · rw [hstart] at ha
      exact absurd ha (by decide)
  have hupdate := h.update i { clients i with progress := .awaiting }
    (fun hmem => absurd hmem (hnone _)) (fun ha => by rw [hstart] at ha; exact absurd ha (by decide))
    (fun hs => absurd hs (by simp))
  refine hupdate.append i (names.name i) (hnone _) (Or.inl ⟨rfl, ?_⟩)
  rw [Function.update_self]
  exact ⟨rfl, hempty.1, hempty.2⟩

theorem Mailbox.receive (h : Mailbox names queue clients) {i : Nat} {tSpec : Text}
    (hprogress : (clients i).progress = .awaiting) (hinbox : (clients i).inbox = some tSpec) :
    Mailbox names queue (Function.update clients i { clients i with
      progress := .answered
      taskSpecFromServer := some tSpec }) := by
  refine h.update i _ ?_ ?_ (fun hs => absurd hs (by simp))
  · rintro - ⟨-, hnone, -⟩
    rw [hinbox] at hnone
    exact absurd hnone (by simp)
  · intro hack
    rw [hprogress] at hack
    exact absurd hack (by decide)

theorem Mailbox.sendAck (h : Mailbox names queue clients) {i : Nat}
    (hprogress : (clients i).progress = .answered) :
    Mailbox names (queue ++ [ackOf i])
      (Function.update clients i { clients i with progress := .acknowledged }) := by
  have hnone : ∀ text, (⟨.client i, text⟩ : Request) ∉ queue := by
    intro text hmem
    rcases h.request i text hmem with ⟨-, hw, -⟩ | ⟨-, ha⟩
    · rw [hprogress] at hw
      exact absurd hw (by decide)
    · rw [hprogress] at ha
      exact absurd ha (by decide)
  have hupdate := h.update i { clients i with progress := .acknowledged }
    (fun hmem => absurd hmem (hnone _)) (fun _ => rfl) (fun hs => absurd hs (by simp))
  refine hupdate.append i acknowledgement (hnone _) (Or.inr ⟨rfl, ?_⟩)
  rw [Function.update_self]

theorem Mailbox.leave (h : Mailbox names queue clients) (i : Nat) :
    Mailbox names queue (Function.update clients i { clients i with gone := true }) :=
  h.update i _ (fun _ hw => hw) (fun ha => ha) (h.start i)

end mailbox

/-! ### The client the server is connected to -/

/-- The server's fields, and the client whose request it received last. -/
structure Linked (names : TeamNames) (server : TaskServer) (queue : List Request)
    (clients : Nat → Client) : Prop where
  isOpen : server.refereeSocket.isOpen = server.activeConnection
  receiving : server.receiving = true →
    server.activeConnection = true ∧ server.refereeSocket.peer = none ∧ server.teamName = []
  peer : ∀ i, server.activeConnection = true → server.refereeSocket.peer = some (.client i) →
    server.teamName = names.name i ∧ names.nameOf i ∉ queue ∧
      Standing queue i (clients i) server.refereeSocket.reply

section linked
variable {names : TeamNames} {server : TaskServer} {queue queue' : List Request}
  {clients : Nat → Client}

theorem Standing.progress_ne {i : Nat} {c : Client} {reply : Option Text}
    (h : Standing queue i c reply) : c.progress ≠ .start := by
  intro hstart
  unfold Standing Client.Waiting Client.Got Through at h
  rw [hstart] at h
  cases reply <;> simp at h

/-- What is known of a client stays true while the queue has no new
    acknowledgement of it. -/
theorem Standing.of_queue {i : Nat} {c : Client} {reply : Option Text}
    (h : Standing queue i c reply) (hack : ackOf i ∈ queue' → ackOf i ∈ queue) :
    Standing queue' i c reply := by
  have hthrough : Through queue i c → Through queue' i c :=
    fun ⟨hprogress, hnot⟩ => ⟨hprogress, fun hmem => hnot (hack hmem)⟩
  cases reply with
  | none => exact h.imp_right hthrough
  | some tSpec => exact h.imp_right (Or.imp_right hthrough)

theorem Standing.receive {i : Nat} {c : Client} {reply : Option Text} {tSpec : Text}
    (h : Standing queue i c reply) (hprogress : c.progress = .awaiting) (hgone : c.gone = false)
    (hinbox : c.inbox = some tSpec) :
    Standing queue i { c with progress := .answered, taskSpecFromServer := some tSpec } reply := by
  -- with a reply in its inbox the client is neither before it nor through
  have hnotWaiting : ¬ c.Waiting := by
    rintro ⟨-, hnone, -⟩
    rw [hinbox] at hnone
    exact absurd hnone (by simp)
  have hnotThrough : ¬ Through queue i c := by
    rintro ⟨hack, -⟩
    rw [hprogress] at hack
    exact absurd hack (by decide)
  cases reply with
  | none => exact absurd h (not_or.mpr ⟨hnotWaiting, hnotThrough⟩)
  | some sent =>
    rcases h with hgot | ⟨hg, -⟩ | hthrough
    · rcases hgot with ⟨-, hsent⟩ | ⟨hlater, -⟩
      · left
        right
        exact ⟨Or.inl rfl, hinbox.symm.trans hsent⟩
      · rw [hprogress] at hlater
        exact absurd hlater (by decide)
    · rw [hgone] at hg
      exact absurd hg (by decide)
    · exact absurd hthrough hnotThrough

/-- Only the client that got the reply can be about to acknowledge. -/
theorem Standing.sendAck {i : Nat} {c : Client} {reply : Option Text}
    (h : Standing queue i c reply) (hprogress : c.progress = .answered) :
    Standing queue' i { c with progress := .acknowledged } reply := by
  have hnotWaiting : ¬ c.Waiting := by
    rintro ⟨haw, -⟩
    rw [hprogress] at haw
    exact absurd haw (by decide)
  have hnotThrough : ¬ Through queue i c := by
    rintro ⟨hack, -⟩
    rw [hprogress] at hack
    exact absurd hack (by decide)
  cases reply with
  | none => exact absurd h (not_or.mpr ⟨hnotWaiting, hnotThrough⟩)
  | some sent =>
    rcases h with hgot | ⟨-, hw⟩ | hthrough
    · rcases hgot with ⟨haw, -⟩ | ⟨-, hsent⟩
      · rw [hprogress] at haw
        exact absurd haw (by decide)
      · left
        right
        exact ⟨Or.inr rfl, hsent⟩
    · exact absurd hw hnotWaiting
    · exact absurd hthrough hnotThrough

theorem Standing.leave {i : Nat} {c : Client} {reply : Option Text}
    (h : Standing queue i c reply) : Standing queue i { c with gone := true } reply := by
  cases reply with
  | none => exact h
  | some sent => exact h.imp_right (Or.imp_left fun hw => ⟨rfl, hw.2⟩)

/-- A reply to the request, or the same reply again. -/
theorem Standing.deliver {i : Nat} {c : Client} {reply : Option Text} {tSpec : Text}
    (h : Standing queue i c reply) (hgone : c.gone = false)
    (hsame : ∀ earlier, reply = some earlier → earlier = tSpec) :
    Standing queue i (c.deliver tSpec) (some tSpec) := by
  by_cases hw : c.Waiting
  · have hdeliver : c.deliver tSpec = { c with inbox := some tSpec } := by
      rw [Client.deliver, if_pos ⟨hw.1, hgone, hw.2.1⟩]
    rw [hdeliver]
    left
    left
    exact ⟨hw.1, rfl⟩
  · -- the client has its reply already
    have hkept : (c.Got tSpec ∨ Through queue i c) ∧ c.deliver tSpec = c := by
      cases reply with
      | none =>
        have hthrough : Through queue i c := h.resolve_left hw
        exact ⟨Or.inr hthrough, Client.deliver_of_progress (by rw [hthrough.1]; decide)⟩
      | some sent =>
        obtain rfl := hsame sent rfl
        rcases h with hgot | ⟨-, hw'⟩ | hthrough
        · exact ⟨Or.inl hgot, hgot.deliver sent⟩
        · exact absurd hw' hw
        · exact ⟨Or.inr hthrough, Client.deliver_of_progress (by rw [hthrough.1]; decide)⟩
    rw [hkept.2]
    exact hkept.1.imp_right Or.inr

/-- A reply to a client that is gone. -/
theorem Standing.drop {i : Nat} {c : Client} {reply : Option Text} {tSpec : Text}
    (h : Standing queue i c reply) (hgone : c.gone = true)
    (hsame : ∀ earlier, reply = some earlier → earlier = tSpec) :
    Standing queue i c (some tSpec) := by
  cases reply with
  | none => exact Or.inr (h.imp_left fun hw => ⟨hgone, hw⟩)
  | some sent =>
    obtain rfl := hsame sent rfl
    exact h

/-! ### Steps of a client -/

/-- A step that keeps what is known of every client keeps what is known of the
    connected one. -/
theorem Linked.keep (h : Linked names server queue clients) {clients' : Nat → Client}
    (hkeep : ∀ i reply, names.nameOf i ∉ queue → Standing queue i (clients i) reply →
      names.nameOf i ∉ queue' ∧ Standing queue' i (clients' i) reply) :
    Linked names server queue' clients' where
  isOpen := h.isOpen
  receiving := h.receiving
  peer i hactive hpeer := by
    obtain ⟨hteam, hname, hstanding⟩ := h.peer i hactive hpeer
    exact ⟨hteam, hkeep i _ hname hstanding⟩

theorem Linked.update (h : Linked names server queue clients) (i : Nat) (c : Client)
    (hkeep : ∀ reply, Standing queue i (clients i) reply → Standing queue i c reply) :
    Linked names server queue (Function.update clients i c) := by
  refine h.keep fun j reply hname hstanding => ⟨hname, ?_⟩
  by_cases hj : j = i
  · subst hj
    rw [Function.update_self]
    exact hkeep reply hstanding
  · rw [Function.update_of_ne hj]
    exact hstanding

theorem Linked.sendName (h : Linked names server queue clients) {i : Nat}
    (hstart : (clients i).progress = .start) (c : Client) :
    Linked names server (queue ++ [names.nameOf i]) (Function.update clients i c) := by
  refine h.keep fun j reply hname hstanding => ?_
  -- the connected client is past its start
  have hj : j ≠ i := by
    rintro rfl
    exact hstanding.progress_ne hstart
  rw [Function.update_of_ne hj]
  constructor
  · intro hmem
    rcases List.mem_append.mp hmem with hmem | hmem
    · exact hname hmem
    · exact hj (Peer.client.inj (Request.mk.inj (List.mem_singleton.mp hmem)).1)
  · apply hstanding.of_queue
    intro hmem
    rcases List.mem_append.mp hmem with hmem | hmem
    · exact hmem
    · exact absurd (Peer.client.inj (Request.mk.inj (List.mem_singleton.mp hmem)).1) hj

theorem Linked.sendAck (h : Linked names server queue clients) {i : Nat}
    (hprogress : (clients i).progress = .answered) :
    Linked names server (queue ++ [ackOf i])
      (Function.update clients i { clients i with progress := .acknowledged }) := by
  refine h.keep fun j reply hname hstanding => ⟨?_, ?_⟩
  · intro hmem
    rcases List.mem_append.mp hmem with hmem | hmem
    · exact hname hmem
    · exact names.ne_ack j (Request.mk.inj (List.mem_singleton.mp hmem)).2
  · by_cases hj : j = i
    · subst hj
      rw [Function.update_self]
      exact hstanding.sendAck hprogress
    · rw [Function.update_of_ne hj]
      apply hstanding.of_queue
      intro hmem
      rcases List.mem_append.mp hmem with hmem | hmem
      · exact hmem
      · exact absurd (Peer.client.inj (Request.mk.inj (List.mem_singleton.mp hmem)).1) hj

/-! ### Steps of the server -/

theorem Linked.sublist (h : Linked names server queue clients) (hsub : queue' ⊆ queue) :
    Linked names server queue' clients :=
  h.keep fun _ _ hname hstanding =>
    ⟨fun hmem => hname (hsub hmem), hstanding.of_queue fun hmem => hsub hmem⟩

theorem Linked.stop (h : Linked names server queue clients) :
    Linked names server (queue ++ [⟨.dummyClient, stopThread⟩]) clients := by
  have hother : ∀ i text, (⟨.client i, text⟩ : Request) ∈ queue ++ [⟨.dummyClient, stopThread⟩] →
      (⟨.client i, text⟩ : Request) ∈ queue := by
    intro i text hmem
    rcases List.mem_append.mp hmem with hmem | hmem
    · exact hmem
    · exact absurd (List.mem_singleton.mp hmem) (by simp)
  exact h.keep fun i _ hname hstanding =>
    ⟨fun hmem => hname (hother i _ hmem), hstanding.of_queue (hother i _)⟩

/-- A server that listens again has received nothing. -/
theorem Linked.listen (h : Linked names server queue clients) :
    Linked names server.createServerSocket.listenForConnection
      (if server.activeConnection = true then queue else queue') clients := by
  unfold TaskServer.createServerSocket TaskServer.listenForConnection
  by_cases hactive : server.activeConnection = true
  · have hnot : ¬ server.activeConnection = false := by simp [hactive]
    rw [if_pos hactive, if_neg hnot, if_neg hnot]
    exact h
  · have hinactive : server.activeConnection = false := by simpa using hactive
    rw [if_neg hactive, if_pos hinactive, if_pos hinactive]
    exact ⟨rfl, fun _ => ⟨rfl, rfl, rfl⟩, fun i _ hpeer => by simp [RepSocket.bound] at hpeer⟩

/-- The server thread takes a name: its sender waits for the reply. -/
theorem Linked.run (h : Linked names server queue clients) (hmail : Mailbox names queue clients)
    {m : Request} (hm : m ∈ queue) (hack : m.text ≠ acknowledgement) :
    Linked names (server.run m) (queue.erase m) clients := by
  obtain ⟨sender, text⟩ := m
  unfold TaskServer.run
  refine ⟨?_, ?_, ?_⟩
  · split <;> exact h.isOpen
  · split <;> exact fun hreceiving => absurd hreceiving (by simp)
  · intro i hactive hpeer
    obtain rfl : sender = .client i := by
      split at hpeer <;> exact Option.some.inj hpeer
    obtain ⟨rfl, hw⟩ : text = names.name i ∧ (clients i).Waiting := by
      rcases hmail.request i text hm with hname | ⟨hcontra, -⟩
      · exact hname
      · exact absurd hcontra hack
    rw [if_neg (names.ne_stop i)]
    exact ⟨rfl, hmail.notMem_erase i _, Or.inl hw⟩

/-- The socket replies: what the others know has to follow. -/
theorem Linked.send (h : Linked names server queue clients) {clients' : Nat → Client}
    {tSpec : Text} (hactive : server.activeConnection = true)
    (hstanding : ∀ i, server.refereeSocket.peer = some (.client i) →
      Standing queue i (clients i) server.refereeSocket.reply →
        Standing queue i (clients' i) (some tSpec)) :
    Linked names { server with refereeSocket := server.refereeSocket.send tSpec } queue
      clients' := by
  refine ⟨h.isOpen, h.receiving, fun i _ hi => ?_⟩
  obtain ⟨hteam, hname, hknown⟩ := h.peer i hactive hi
  exact ⟨hteam, hname, hstanding i hi hknown⟩

theorem Linked.disconnect (h : Linked names server queue clients) :
    Linked names server.disconnectClient.2 queue clients := by
  unfold TaskServer.disconnectClient
  by_cases hteam : server.teamName ≠ []
  · rw [if_pos hteam]
    refine ⟨rfl, fun hreceiving => ?_, fun i hactive => absurd hactive (by simp)⟩
    exact absurd (h.receiving hreceiving).2.2 hteam
  · rw [if_neg hteam]
    exact h

theorem Linked.joined (hreceiving : server.receiving = false) :
    Linked names server.shutdownSocket queue clients where
  isOpen := rfl
  receiving hcontra := absurd (hreceiving.symm.trans hcontra) (by decide)
  peer i hactive := absurd hactive (by simp [TaskServer.shutdownSocket])

/-- The acknowledgement of the connected client arrives: it has acknowledged, and
    got what was sent to it. -/
theorem Linked.acknowledge (h : Linked names server queue clients)
    (hmail : Mailbox names queue clients) {i : Nat} {text tSpec : Text}
    (hactive : server.activeConnection = true)
    (hpeer : server.refereeSocket.peer = some (.client i))
    (hreply : server.refereeSocket.reply = some tSpec)
    (hm : (⟨.client i, text⟩ : Request) ∈ queue) :
    Linked names (server.receiveAck (some ⟨.client i, text⟩)).2
        (queue.erase ⟨.client i, text⟩) clients ∧
      (clients i).progress = .acknowledged ∧ (clients i).taskSpecFromServer = some tSpec := by
  obtain ⟨hteam, hname, hstanding⟩ := h.peer i hactive hpeer
  obtain ⟨rfl, hack⟩ : text = acknowledgement ∧ (clients i).progress = .acknowledged := by
    rcases hmail.request i text hm with ⟨rfl, -⟩ | hack
    · exact absurd hm hname
    · exact hack
  -- a client that has acknowledged has got its reply
  refine ⟨⟨h.isOpen, fun hreceiving => ?_, fun j _ hj => ?_⟩, hack, ?_⟩
  · have hnone := (h.receiving hreceiving).2.1
    rw [hpeer] at hnone
    exact absurd hnone (by simp)
  · obtain rfl := Peer.client.inj (Option.some.inj hj)
    exact ⟨hteam, fun hmem => hname (List.mem_of_mem_erase hmem),
      Or.inr ⟨hack, hmail.notMem_erase i _⟩⟩
  · rw [hreply] at hstanding
    rcases hstanding with hgot | ⟨-, hw, -⟩ | ⟨-, hnot⟩
    · rcases hgot with ⟨haw, -⟩ | ⟨-, hsent⟩
      · rw [hack] at haw
        exact absurd haw (by decide)
      · exact hsent
    · rw [hack] at hw
      exact absurd hw (by decide)
    · exact absurd hm hnot

end linked

/-! ### The invariant -/

/-- The client that the call sent to is of the server's team, has acknowledged,
    and has exactly the string. -/
def Confirmed (names : TeamNames) (clients : Nat → Client) (r : Return) : Prop :=
  ∃ i, r.addressee = some (.client i) ∧ names.name i = r.teamName ∧
    (clients i).progress = .acknowledged ∧ (clients i).taskSpecFromServer = some r.tSpec

/-- Nobody who has acknowledged is touched. -/
def KeepsAcknowledged (clients clients' : Nat → Client) : Prop :=
  ∀ i, (clients i).progress = .acknowledged → (clients' i).progress = .acknowledged ∧
    (clients' i).taskSpecFromServer = (clients i).taskSpecFromServer

structure Sound (names : TeamNames) (s : Network) : Prop where
  mailbox : Mailbox names s.queue s.clients
  linked : Linked names s.server s.queue s.clients
  call : ∀ tSpec i, s.call = .awaitingAck tSpec (some (.client i)) →
    s.server.activeConnection = true →
      s.server.refereeSocket.peer = some (.client i) ∧
        s.server.refereeSocket.reply = some tSpec
  deliveries : ∀ d ∈ s.deliveries, names.name d.client = d.teamName
  returns : ∀ r ∈ s.returns, r.result = true → Confirmed names s.clients r

section sound
variable {names : TeamNames} {s s' : Network}

theorem Confirmed.keep {clients clients' : Nat → Client} {r : Return}
    (h : Confirmed names clients r) (hkeep : KeepsAcknowledged clients clients') :
    Confirmed names clients' r := by
  obtain ⟨i, haddressee, hname, hack, hgot⟩ := h
  obtain ⟨hack', hgot'⟩ := hkeep i hack
  exact ⟨i, haddressee, hname, hack', hgot'.trans hgot⟩

theorem KeepsAcknowledged.update {clients : Nat → Client} {i : Nat} {c : Client}
    (h : (clients i).progress = .acknowledged → c.progress = .acknowledged ∧
      c.taskSpecFromServer = (clients i).taskSpecFromServer) :
    KeepsAcknowledged clients (Function.update clients i c) := by
  intro j hack
  by_cases hj : j = i
  · subst hj
    rw [Function.update_self]
    exact h hack
  · rw [Function.update_of_ne hj]
    exact ⟨hack, rfl⟩

theorem Sound.init : Sound names {} where
  mailbox := ⟨fun _ _ hmem => absurd hmem List.not_mem_nil, fun _ _ => by simp,
    fun _ _ => ⟨rfl, rfl⟩⟩
  linked := ⟨rfl, fun h => absurd h (by decide), fun _ h => absurd h (by decide)⟩
  call _ _ h := absurd h (by simp)
  deliveries _ h := absurd h List.not_mem_nil
  returns _ h := absurd h List.not_mem_nil

/-- A step of a client. -/
theorem Sound.client (h : Sound names s) {i : Nat} {c : Client} {queue : List Request}
    (hmail : Mailbox names queue (Function.update s.clients i c))
    (hlinked : Linked names s.server queue (Function.update s.clients i c))
    (hkeep : (s.clients i).progress = .acknowledged → c.progress = .acknowledged ∧
      c.taskSpecFromServer = (s.clients i).taskSpecFromServer) :
    Sound names { s with queue := queue, clients := Function.update s.clients i c } where
  mailbox := hmail
  linked := hlinked
  call := h.call
  deliveries := h.deliveries
  returns r hr htrue := (h.returns r hr htrue).keep (.update hkeep)

/-- A step of the server outside of `sendTaskSpecToClient`. -/
theorem Sound.server (h : Sound names s) {server : TaskServer} {queue : List Request}
    {call : Call} (hmail : Mailbox names queue s.clients)
    (hlinked : Linked names server queue s.clients)
    (hcall : ∀ tSpec i, call = .awaitingAck tSpec (some (.client i)) →
      server.activeConnection = true → server.refereeSocket.peer = some (.client i) ∧
        server.refereeSocket.reply = some tSpec) :
    Sound names { s with server := server, queue := queue, call := call } :=
  ⟨hmail, hlinked, hcall, h.deliveries, h.returns⟩

/-- A call has returned. -/
theorem Sound.return (h : Sound names s) (r : Return)
    (hr : r.result = true → Confirmed names s.clients r) :
    Sound names { s with call := .idle, returns := s.returns ++ [r] } where
  mailbox := h.mailbox
  linked := h.linked
  call _ _ hcall := absurd hcall (by simp)
  deliveries := h.deliveries
  returns r' hr' htrue := by
    rcases List.mem_append.mp hr' with hold | hnew
    · exact h.returns r' hold htrue
    · obtain rfl := List.mem_singleton.mp hnew
      exact hr htrue

/-- The reply of an active server goes to the client it is connected to. -/
theorem Sound.carry (h : Sound names s) {tSpec : Text} {addressee : Option Peer}
    (hactive : s.server.activeConnection = true)
    (hpeer : s.server.refereeSocket.peer = addressee)
    (hsame : ∀ earlier, s.server.refereeSocket.reply = some earlier → earlier = tSpec) :
    Sound names (Network.carry tSpec addressee { s with
      server := { s.server with refereeSocket := s.server.refereeSocket.send tSpec }
      call := .awaitingAck tSpec addressee }) := by
  have hcall : ∀ tSpec' i, Call.awaitingAck tSpec addressee =
      .awaitingAck tSpec' (some (.client i)) → s.server.activeConnection = true →
        (s.server.refereeSocket.send tSpec).peer = some (.client i) ∧
          (s.server.refereeSocket.send tSpec).reply = some tSpec' := by
    intro tSpec' i hcall _
    obtain ⟨rfl, rfl⟩ := Call.awaitingAck.inj hcall
    exact ⟨hpeer, rfl⟩
  -- a client that has gone gets nothing; any other one gets the reply
  unfold Network.carry
  split
  · next i =>
    obtain ⟨hteam, hname, -⟩ := h.linked.peer i hactive hpeer
    by_cases hgone : (s.clients i).gone = true
    · rw [if_pos hgone]
      refine h.server h.mailbox (h.linked.send hactive fun j hj hknown => ?_) hcall
      obtain rfl := Peer.client.inj (Option.some.inj (hpeer.symm.trans hj))
      exact hknown.drop hgone hsame
    · rw [if_neg hgone]
      refine ⟨h.mailbox.deliver tSpec hname, h.linked.send hactive fun j hj hknown => ?_, hcall,
        fun d hd => ?_, fun r hr htrue => (h.returns r hr htrue).keep (.update fun hack => ?_)⟩
      · obtain rfl := Peer.client.inj (Option.some.inj (hpeer.symm.trans hj))
        show Standing s.queue i (Function.update s.clients i ((s.clients i).deliver tSpec) i)
          (some tSpec)
        rw [Function.update_self]
        exact hknown.deliver (by simpa using hgone) hsame
      · rcases List.mem_append.mp hd with hold | hnew
        · exact h.deliveries d hold
        · rw [List.mem_singleton.mp hnew]
          exact hteam.symm
      · rw [Client.deliver_of_progress (by rw [hack]; decide)]
        exact ⟨hack, rfl⟩
  · next hother =>
    refine h.server h.mailbox (h.linked.send hactive fun i hi => ?_) hcall
    exact absurd (hpeer.symm.trans hi) (hother i)

theorem Sound.send (h : Sound names s) {tSpec : Text} (hidle : s.call = .idle)
    (hproper : Proper s (.send tSpec)) : Sound names (s.send tSpec) := by
  unfold Network.send TaskServer.sendTaskSpec
  -- an inactive server returns false at once
  by_cases hactive : s.server.activeConnection = true
  · rw [if_neg (by simp [hactive])]
    exact h.carry hactive rfl (hproper hactive)
  · rw [if_pos (by simpa using hactive)]
    have hsound := h.return ⟨tSpec, none, s.server.teamName, false⟩ (fun htrue => absurd htrue
      Bool.false_ne_true)
    rw [← hidle] at hsound
    exact hsound

/-- The receive of a call takes the acknowledgement of the client it sent to. -/
theorem Sound.acknowledge (h : Sound names s) {tSpec text : Text} {i : Nat}
    (hcall : s.call = .awaitingAck tSpec (some (.client i)))
    (hopen : s.server.refereeSocket.isOpen = true)
    (hm : (⟨.client i, text⟩ : Request) ∈ s.queue) :
    Sound names { s.receiveAck tSpec (some (.client i)) (some ⟨.client i, text⟩) with
      queue := s.queue.erase ⟨.client i, text⟩ } := by
  have hactive : s.server.activeConnection = true := h.linked.isOpen.symm.trans hopen
  obtain ⟨hpeer, hreply⟩ := h.call tSpec i hcall hactive
  obtain ⟨hteam, -, -⟩ := h.linked.peer i hactive hpeer
  obtain ⟨hlinked, hack, hgot⟩ := h.linked.acknowledge h.mailbox hactive hpeer hreply hm
  -- first the server, then the return of the call
  have hserver : Sound names { s with
      server := (s.server.receiveAck (some ⟨.client i, text⟩)).2
      queue := s.queue.erase ⟨.client i, text⟩
      call := .idle } :=
    h.server (h.mailbox.sublist List.erase_sublist) hlinked fun _ _ hcontra => absurd hcontra (by simp)
  exact hserver.return _ fun _ => ⟨i, rfl, hteam.symm, hack, hgot⟩

theorem Sound.timeout (h : Sound names s) (tSpec : Text) (addressee : Option Peer) :
    Sound names (s.receiveAck tSpec addressee none) :=
  h.return _ fun htrue => absurd htrue Bool.false_ne_true

/-! ### Every step -/

/-- A proper step keeps the invariant. -/
theorem Sound.step (h : Sound names s) {l : Label} (hproper : Proper s l)
    (hstep : (taskDelivery names).step s l s') : Sound names s' := by
  cases l with
  | listen kept =>
    obtain ⟨hidle, hsub, rfl⟩ := hstep
    refine h.server ?_ h.linked.listen fun tSpec i hcall => ?_
    · split
      · exact h.mailbox
      · exact h.mailbox.sublist hsub
    · rw [hidle] at hcall
      exact absurd hcall (by simp)
  | run m =>
    obtain ⟨hreceiving, hm, rfl⟩ := hstep
    refine h.server (h.mailbox.sublist List.erase_sublist) (h.linked.run h.mailbox hm hproper)
      fun tSpec i hcall _ => ?_
    -- a call that sent to a client had received its request
    obtain ⟨hactive, hnone, -⟩ := h.linked.receiving hreceiving
    have hpeer := (h.call tSpec i hcall hactive).1
    rw [hnone] at hpeer
    exact absurd hpeer (by simp)
  | send tSpec =>
    obtain ⟨hidle, rfl⟩ := hstep
    exact h.send hidle hproper
  | acknowledge m =>
    obtain ⟨tSpec, addressee, hcall, hopen, hm, rfl⟩ := hstep
    obtain ⟨tSpec', i, hcall', hsender⟩ := hproper
    obtain ⟨rfl, rfl⟩ := Call.awaitingAck.inj (hcall.symm.trans hcall')
    obtain ⟨sender, text⟩ := m
    obtain rfl : sender = .client i := hsender
    exact h.acknowledge hcall hopen hm
  | timeout =>
    obtain ⟨tSpec, addressee, -, rfl⟩ := hstep
    exact h.timeout tSpec addressee
  | disconnect =>
    obtain rfl := hstep
    refine h.server h.mailbox h.linked.disconnect fun tSpec i hcall => ?_
    unfold TaskServer.disconnectClient
    split
    · exact fun hcontra => absurd hcontra (by simp)
    · exact h.call tSpec i hcall
  | shutdown =>
    obtain ⟨-, -, rfl⟩ := hstep
    exact h.server h.mailbox.stop h.linked.stop fun _ _ hcall => absurd hcall (by simp)
  | joined =>
    obtain ⟨-, hreceiving, rfl⟩ := hstep
    exact h.server h.mailbox (.joined hreceiving) fun _ _ hcall => absurd hcall (by simp)
  | sendName i =>
    obtain ⟨hstart, -, rfl⟩ := hstep
    refine h.client (h.mailbox.sendName hstart) (h.linked.sendName hstart _) fun hack => ?_
    rw [hstart] at hack
    exact absurd hack (by decide)
  | receive i =>
    obtain ⟨tSpec, hprogress, halive, hinbox, rfl⟩ := hstep
    refine h.client (h.mailbox.receive hprogress hinbox) (h.linked.update i _ fun reply hknown =>
      hknown.receive hprogress halive hinbox) fun hack => ?_
    rw [hprogress] at hack
    exact absurd hack (by decide)
  | sendAck i =>
    obtain ⟨hprogress, -, rfl⟩ := hstep
    refine h.client (h.mailbox.sendAck hprogress) (h.linked.sendAck hprogress) fun hack => ?_
    rw [hprogress] at hack
    exact absurd hack (by decide)
  | leave i =>
    obtain rfl := hstep
    exact h.client (h.mailbox.leave i) (h.linked.update i _ fun reply hknown => hknown.leave)
      fun hack => ⟨hack, rfl⟩

end sound

/-! ### Runs -/

/-- What a delivery promises: it was to a client of the server's team, and where
    `sendTaskSpecToClient` returned true, the client it sent to is of the
    server's team and has received exactly the string. -/
structure Network.Faithful (names : TeamNames) (s : Network) : Prop where
  deliveries : ∀ d ∈ s.deliveries, names.name d.client = d.teamName
  returns : ∀ r ∈ s.returns, r.result = true → ∃ i, r.addressee = some (.client i) ∧
    names.name i = r.teamName ∧ (s.clients i).taskSpecFromServer = some r.tSpec

/-- **Delivery to the announced team.** In every run whose steps are proper,
    whatever the order of connects, deaths, timeouts and repeated sends, every
    delivery is to the announced team, and true is returned only when it has
    the specification. -/
theorem delivered_to_team (names : TeamNames) :
    ∀ s, Reachable ((taskDelivery names).restrict Proper) s → s.Faithful names := by
  have hsound : ∀ s, Reachable ((taskDelivery names).restrict Proper) s → Sound names s := by
    apply invariant
    · rintro s rfl
      exact Sound.init
    · intro s l s' h hstep
      exact h.step hstep.1 hstep.2
  intro s hs
  refine ⟨(hsound s hs).deliveries, fun r hr htrue => ?_⟩
  obtain ⟨i, haddressee, hname, -, hgot⟩ := (hsound s hs).returns r hr htrue
  exact ⟨i, haddressee, hname, hgot⟩

/-- The exchange as it is meant to be is proper: any one client gets any
    specification, and the call returns true. -/
theorem undisturbed_exchange (names : TeamNames) (i : Nat) (tSpec : Text) :
    ∃ s, Reachable ((taskDelivery names).restrict Proper) s ∧
      s.deliveries = [⟨i, tSpec, names.name i⟩] ∧
      s.returns = [⟨tSpec, some (.client i), names.name i, true⟩] := by
  let server : TaskServer := ⟨⟨true, some (.client i), none⟩, names.name i, true, false⟩
  let clients (c : Client) : Nat → Client := Function.update (fun _ => {}) i c
  have hconnected : Reachable ((taskDelivery names).restrict Proper)
      { server := server, clients := clients { progress := .awaiting } } := by
    have hlisten : Reachable ((taskDelivery names).restrict Proper)
        { server := ({} : TaskServer).createServerSocket.listenForConnection } :=
      .step (.listen []) (.init rfl) ⟨trivial, And.intro rfl (And.intro (List.Sublist.refl _) rfl)⟩
    have hname : Reachable ((taskDelivery names).restrict Proper)
        { server := ({} : TaskServer).createServerSocket.listenForConnection
          queue := [names.nameOf i]
          clients := clients { progress := .awaiting } } :=
      .step (.sendName i) hlisten ⟨trivial, And.intro rfl (And.intro rfl rfl)⟩
    refine .step (.run (names.nameOf i)) hname ⟨names.ne_ack i, And.intro rfl (And.intro ?_ ?_)⟩
    · exact List.mem_singleton_self _
    · have hrun : ({} : TaskServer).createServerSocket.listenForConnection.run (names.nameOf i) =
          server := if_neg (names.ne_stop i)
      rw [hrun, List.erase_cons_head]
  have hsent : Reachable ((taskDelivery names).restrict Proper)
      { server := { server with refereeSocket := server.refereeSocket.send tSpec }
        call := .awaitingAck tSpec (some (.client i))
        clients := clients { progress := .awaiting, inbox := some tSpec }
        deliveries := [⟨i, tSpec, names.name i⟩] } := by
    refine .step (.send tSpec) hconnected
      ⟨fun _ earlier h => absurd h (by simp [server]), And.intro rfl ?_⟩
    simp [Network.send, TaskServer.sendTaskSpec, Network.carry, server, clients, Client.deliver]
  have hreceived : Reachable ((taskDelivery names).restrict Proper) _ :=
    .step (.receive i) hsent ⟨trivial, Exists.intro tSpec (And.intro (by simp [clients])
      (And.intro (by simp [clients]) (And.intro (by simp [clients]) rfl)))⟩
  have hacked : Reachable ((taskDelivery names).restrict Proper) _ :=
    .step (.sendAck i) hreceived ⟨trivial, And.intro (by simp) (And.intro (by simp [clients]) rfl)⟩
  have hreturned : Reachable ((taskDelivery names).restrict Proper) _ :=
    .step (.acknowledge (ackOf i)) hacked ⟨⟨tSpec, i, rfl, rfl⟩, Exists.intro tSpec
      (Exists.intro (some (.client i)) (And.intro rfl (And.intro rfl (And.intro (by simp) rfl))))⟩
  exact ⟨_, hreturned, rfl, rfl⟩

/-- Two teams with one client each. -/
def twoTeams : TeamNames where
  name i := if i = 0 then "A".toList else "B".toList
  ne_nil i := by split <;> decide
  ne_ack i := by split <;> decide
  ne_stop i := by split <;> decide

theorem delivered_to_team_exchange :
    ∃ s, Reachable ((taskDelivery twoTeams).restrict Proper) s ∧
      s.deliveries = [⟨0, "S1".toList, "A".toList⟩] ∧
      s.returns = [⟨"S1".toList, some (.client 0), "A".toList, true⟩] ∧ s.Faithful twoTeams := by
  obtain ⟨s, hs, hdeliveries, hreturns⟩ := undisturbed_exchange twoTeams 0 "S1".toList
  exact ⟨s, hs, hdeliveries, hreturns, delivered_to_team twoTeams s hs⟩

/-- The name of a second client that is in the queue is taken for the answer to
    the first send; the next send goes to that client. And an acknowledgement
    that comes late is taken for the answer to the next send. -/
theorem second_client_gets_spec :
    (∃ s, Run (taskDelivery twoTeams) {} [.listen [], .sendName 0, .run (twoTeams.nameOf 0),
        .sendName 1, .send "S1".toList, .acknowledge (twoTeams.nameOf 1), .send "S1".toList] s ∧
      ⟨1, "S1".toList, "A".toList⟩ ∈ s.deliveries ∧ twoTeams.name 1 ≠ "A".toList) ∧
    ∃ s, Run (taskDelivery twoTeams) {} [.listen [], .sendName 0, .run (twoTeams.nameOf 0),
        .send "S1".toList, .timeout, .receive 0, .sendAck 0, .send "S2".toList,
        .acknowledge (ackOf 0)] s ∧
      ⟨"S2".toList, some (.client 0), "A".toList, true⟩ ∈ s.returns ∧
      (s.clients 0).taskSpecFromServer = some "S1".toList := by
  constructor
  · refine ⟨_,
      .cons (Label.listen []) (And.intro rfl (And.intro (List.Sublist.refl _) rfl)) <|
      .cons (Label.sendName 0) (And.intro rfl (And.intro rfl rfl)) <|
      .cons (Label.run _) (And.intro rfl (And.intro ?_ rfl)) <|
      .cons (Label.sendName 1) (And.intro rfl (And.intro rfl rfl)) <|
      .cons (Label.send _) (And.intro rfl rfl) <|
      .cons (Label.acknowledge _) (Exists.intro _ (Exists.intro _
        (And.intro rfl (And.intro rfl (And.intro ?_ rfl))))) <|
      .cons (Label.send _) (And.intro rfl rfl) <| .nil _, ?_, ?_⟩
    all_goals decide
  · refine ⟨_,
      .cons (Label.listen []) (And.intro rfl (And.intro (List.Sublist.refl _) rfl)) <|
      .cons (Label.sendName 0) (And.intro rfl (And.intro rfl rfl)) <|
      .cons (Label.run _) (And.intro rfl (And.intro ?_ rfl)) <|
      .cons (Label.send _) (And.intro rfl rfl) <|
      .cons Label.timeout (Exists.intro _ (Exists.intro _ (And.intro rfl rfl))) <|
      .cons (Label.receive 0) (Exists.intro _ (And.intro rfl (And.intro rfl (And.intro rfl rfl)))) <|
      .cons (Label.sendAck 0) (And.intro rfl (And.intro rfl rfl)) <|
      .cons (Label.send _) (And.intro rfl rfl) <|
      .cons (Label.acknowledge _) (Exists.intro _ (Exists.intro _
        (And.intro rfl (And.intro rfl (And.intro ?_ rfl))))) <| .nil _, ?_, ?_⟩
    all_goals decide

end RefereeBox
