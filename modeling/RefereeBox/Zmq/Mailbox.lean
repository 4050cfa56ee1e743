import RefereeBox.Model.Mailbox
import RefereeBox.Zmq.YPipe

/-! # No Command Is Left in a Mailbox

  The receiver gets the commands in the order in which the senders had the mutex,
  and it does not wait for a signal that nobody will send while there is a command
  for it. The assertions of `recv` and of the signaler hold. There can be two
  signals in the signaler, when a sender finds the receiver asleep before it has
  removed the signal that it woke up from.
-/

namespace RefereeBox.Zmq

open Transition

variable {Command : Type}

/-- The signals that are there and that are owed, by where the receiver is. -/
def Signals (receiver : RecvPhase) (active asleep : Bool) (unread : Prop)
    (signaler owing : Nat) : Prop :=
  match receiver, active with
  | .returned, false | .waiting, false =>
    if asleep then signaler = 0 ∧ owing = 0 else signaler + owing = 1 ∧ unread
  | .returned, true => asleep = false ∧ signaler = 1 ∧ owing = 0
  | .emptied, false =>
    if asleep then signaler = 1 ∧ owing = 0
    else signaler + owing = 2 ∧ 0 < signaler ∧ unread
  | .woken, true => asleep = false ∧ signaler = 1 ∧ owing = 0 ∧ unread
  | _, _ => False

/-- The items of the thread in the critical section. -/
def SendPhase.Holds (h : Handoff Command) : SendPhase → Prop
  | .unlocked => h.complete = []
  | .written => h.complete ≠ []
  | .waking => h.complete ≠ [] ∧ h.asleep = true

/-- The invariant. -/
structure Posted (s : Mailing Command) : Prop where
  ok : s.mailbox.cpipe.Ok
  sent : s.mailbox.cpipe.handoff.completed = s.sent
  begun : s.mailbox.cpipe.handoff.begun = []
  received : s.mailbox.cpipe.handoff.taken = s.received
  sender : s.sender.Holds s.mailbox.cpipe.handoff
  signals : Signals s.receiver s.mailbox.active s.mailbox.cpipe.handoff.asleep
    (s.mailbox.cpipe.handoff.ready ≠ []) s.mailbox.signaler s.owing

namespace Signals

variable {receiver : RecvPhase} {active asleep : Bool} {unread unread' : Prop}
  {signaler owing : Nat}

/-- More can be read. -/
theorem mono (h : Signals receiver active asleep unread signaler owing)
    (hunread : unread → unread') : Signals receiver active asleep unread' signaler owing := by
  cases receiver <;> cases active <;> cases asleep <;> simp_all [Signals]

/-- A sender that has found the receiver asleep owes a signal. -/
theorem flush (h : Signals receiver active true unread signaler owing) (hunread : unread') :
    Signals receiver active false unread' signaler (owing + 1) := by
  cases receiver <;> cases active <;> simp_all [Signals]

theorem signal (h : Signals receiver active asleep unread signaler owing) (howing : 0 < owing) :
    Signals receiver active asleep unread (signaler + 1) (owing - 1) := by
  cases receiver <;> cases active <;> cases asleep <;> simp_all [Signals] <;> omega

/-- The receiver removes the signal that it woke up from. -/
theorem clear (h : Signals .emptied false asleep unread signaler owing) :
    Signals .waiting false asleep unread (signaler - 1) owing := by
  cases asleep with
  | true =>
    obtain ⟨hsignaler, howing⟩ := h
    exact ⟨by omega, howing⟩
  | false =>
    obtain ⟨hsum, hpos, hunread⟩ := h
    exact ⟨by omega, hunread⟩

theorem wake (h : Signals .waiting false asleep unread signaler owing) (hsignaler : 0 < signaler) :
    Signals .woken true asleep unread signaler owing := by
  cases asleep with
  | true =>
    obtain ⟨hnone, -⟩ := h
    omega
  | false =>
    obtain ⟨hsum, hunread⟩ := h
    exact ⟨rfl, by omega, by omega, hunread⟩

end Signals

namespace Posted

variable {s s' : Mailing Command}

theorem init : Posted ({ mailbox := Mailbox.new Command } : Mailing Command) := by
  have hread : YPipe.read ({} : YPipe Command) = (none, (YPipe.read {}).2) := rfl
  obtain ⟨hok, -⟩ := YPipe.Ok.init.read hread
  exact {
    ok := hok
    sent := rfl
    begun := rfl
    received := rfl
    sender := rfl
    signals := ⟨rfl, rfl⟩ }

/-- The critical section. -/
theorem write (h : Posted s) (cmd : Command) : Posted (s.write cmd) := by
  obtain ⟨hok, hhandoff⟩ := h.ok.write cmd false
  have hwrite : (s.write cmd).mailbox.cpipe.handoff = s.mailbox.cpipe.handoff.write cmd false :=
    hhandoff
  have hcompleted := Handoff.completed_write s.mailbox.cpipe.handoff cmd false
  rw [h.begun, h.sent] at hcompleted
  exact {
    ok := hok
    sent := by
      rw [hwrite]
      exact hcompleted
    begun := by
      rw [hwrite]
      rfl
    received := by
      rw [hwrite]
      exact h.received
    sender := by
      rw [hwrite]
      show s.mailbox.cpipe.handoff.complete ++ (s.mailbox.cpipe.handoff.begun ++ [cmd]) ≠ []
      simp
    signals := by
      rw [hwrite]
      exact h.signals }

/-- All commands are handed over. -/
theorem of_flush (h : Posted s) {p : YPipe Command} (hok : p.Ok)
    (hcomplete : s.mailbox.cpipe.handoff.complete ≠ [])
    (hp : p.handoff = s.mailbox.cpipe.handoff.flush.2) {owing : Nat}
    (hsignals : Signals s.receiver s.mailbox.active false (p.handoff.ready ≠ [])
      s.mailbox.signaler owing) :
    Posted { s.withPipe p with sender := .unlocked, owing := owing } where
  ok := hok
  sent := by
    show p.handoff.completed = s.sent
    rw [hp, Handoff.completed_flush, h.sent]
  begun := by
    show p.handoff.begun = []
    rw [hp, Handoff.begun_flush, h.begun]
  received := by
    show p.handoff.taken = s.received
    rw [hp, Handoff.taken_flush, h.received]
  sender := by
    show p.handoff.complete = []
    rw [hp, Handoff.flush_eq hcomplete]
  signals := by
    have hasleep : p.handoff.asleep = false := by rw [hp, Handoff.flush_eq hcomplete]
    show Signals s.receiver s.mailbox.active p.handoff.asleep _ s.mailbox.signaler owing
    rw [hasleep]
    exact hsignals

theorem flush (h : Posted s) (hsender : s.sender = .written) : Posted s.flush := by
  have hcomplete : s.mailbox.cpipe.handoff.complete ≠ [] := by
    have hholds := h.sender
    rw [hsender] at hholds
    exact hholds
  cases hflush : s.mailbox.cpipe.flush with
  | mk alive p =>
    have heq : s.flush =
        { s.withPipe p with sender := if alive then .unlocked else .waking } := by
      unfold Mailing.flush
      rw [hflush]
    rw [heq]
    cases alive with
    | true =>
      obtain ⟨hok, hhandoff⟩ := h.ok.flush_true hflush
      rw [Handoff.flush_eq hcomplete] at hhandoff
      obtain ⟨hasleep, hp⟩ := Prod.mk.inj hhandoff
      apply h.of_flush hok hcomplete
      · rw [Handoff.flush_eq hcomplete, hp]
      · have hsignals := h.signals
        rw [(Bool.not_eq_true' _).mp hasleep] at hsignals
        apply hsignals.mono
        intro hready
        rw [← hp]
        simp [hready]
    | false =>
      -- the compare-and-swap has failed: `c` is not set yet, and nothing is handed over
      obtain ⟨rfl, hc, hne⟩ := h.ok.flush_false hflush
      exact {
        ok := h.ok
        sent := h.sent
        begun := h.begun
        received := h.received
        sender := by
          refine ⟨hcomplete, ?_⟩
          show s.mailbox.cpipe.c.isNone = true
          rw [hc]
          rfl
        signals := h.signals }

theorem setC (h : Posted s) (hsender : s.sender = .waking) : Posted s.setC := by
  have hholds := h.sender
  rw [hsender] at hholds
  obtain ⟨hcomplete, hasleep⟩ := hholds
  have hne : s.mailbox.cpipe.w ≠ s.mailbox.cpipe.f := by
    intro heq
    exact hcomplete ((YPipe.drop_take_eq_nil h.ok.f).mpr (Nat.le_of_eq heq.symm))
  have hhandoff := congrArg Prod.snd (h.ok.handoff_setC hne)
  apply h.of_flush h.ok.setC hcomplete hhandoff.symm
  have hsignals := h.signals
  rw [hasleep] at hsignals
  apply hsignals.flush
  have hready : s.mailbox.cpipe.setC.handoff.ready =
      s.mailbox.cpipe.handoff.ready ++ s.mailbox.cpipe.handoff.complete := by
    rw [← show _ = s.mailbox.cpipe.setC.handoff from hhandoff, Handoff.flush_eq hcomplete]
  rw [hready]
  simp [hcomplete]

theorem signal (h : Posted s) (howing : 0 < s.owing) : Posted s.signal where
  ok := h.ok
  sent := h.sent
  begun := h.begun
  received := h.received
  sender := h.sender
  signals := h.signals.signal howing

/-- The receiver reads. -/
theorem of_read (h : Posted s) {p : YPipe Command} {res : Option Command}
    (hread : s.mailbox.cpipe.read = (res, p)) {receiver : RecvPhase} {active : Bool}
    (hsignals : Signals receiver active p.handoff.asleep (p.handoff.ready ≠ [])
      s.mailbox.signaler s.owing) :
    Posted { (s.withPipe p).withActive active with
      receiver := receiver
      received := s.received ++ res.toList } := by
  obtain ⟨hok, hhandoff, -⟩ := h.ok.read hread
  have hp : s.mailbox.cpipe.handoff.read.2 = p.handoff := congrArg Prod.snd hhandoff
  have hcomplete := Handoff.complete_read s.mailbox.cpipe.handoff
  have hasleep : s.mailbox.cpipe.handoff.asleep = true →
      s.mailbox.cpipe.handoff.read.2.asleep = true := Handoff.asleep_read
  exact {
    ok := hok
    sent := by
      show p.handoff.completed = s.sent
      rw [← hp, Handoff.completed_read, h.sent]
    begun := by
      show p.handoff.begun = []
      rw [← hp, Handoff.begun_read, h.begun]
    received := by
      show p.handoff.taken = s.received ++ res.toList
      rw [← h.received]
      exact Handoff.taken_read hhandoff
    sender := by
      have hholds := h.sender
      show s.sender.Holds p.handoff
      rw [← hp]
      cases hsender : s.sender with
      | unlocked =>
        rw [hsender] at hholds
        exact hcomplete.trans hholds
      | written =>
        rw [hsender] at hholds
        exact fun hnil => hholds (hcomplete.symm.trans hnil)
      | waking =>
        rw [hsender] at hholds
        exact ⟨fun hnil => hholds.1 (hcomplete.symm.trans hnil), hasleep hholds.2⟩
    signals := hsignals }

theorem read (h : Posted s) (hreceiver : s.receiver = .returned)
    (hactive : s.mailbox.active = true) : Posted s.read := by
  have hsignals := h.signals
  rw [hreceiver, hactive] at hsignals
  obtain ⟨hasleep, hsignaler, howing⟩ := hsignals
  cases hread : s.mailbox.cpipe.read with
  | mk res p =>
    obtain ⟨-, hhandoff, -⟩ := h.ok.read hread
    cases hready : s.mailbox.cpipe.handoff.ready with
    | nil =>
      rw [Handoff.read_nil hready] at hhandoff
      obtain ⟨rfl, hp⟩ := Prod.mk.inj hhandoff
      have hemptied : Signals .emptied false p.handoff.asleep (p.handoff.ready ≠ [])
          s.mailbox.signaler s.owing := by
        rw [← hp]
        exact ⟨hsignaler, howing⟩
      have hposted := h.of_read hread hemptied
      unfold Mailing.read
      rw [hread]
      rw [Option.toList_none, List.append_nil] at hposted
      exact hposted
    | cons cmd ready =>
      rw [Handoff.read_cons hready] at hhandoff
      obtain ⟨rfl, hp⟩ := Prod.mk.inj hhandoff
      have hreturned : Signals .returned true p.handoff.asleep (p.handoff.ready ≠ [])
          s.mailbox.signaler s.owing := by
        rw [← hp]
        exact ⟨hasleep, hsignaler, howing⟩
      have hposted := h.of_read hread hreturned
      unfold Mailing.read
      rw [hread]
      rw [← hreceiver, ← hactive] at hposted
      exact hposted

/-- There is a signal to remove. -/
theorem emptied (h : Posted s) (hreceiver : s.receiver = .emptied) :
    0 < s.mailbox.signaler ∧ s.mailbox.active = false := by
  have hsignals := h.signals
  rw [hreceiver] at hsignals
  cases hactive : s.mailbox.active with
  | true =>
    rw [hactive] at hsignals
    exact hsignals.elim
  | false =>
    rw [hactive] at hsignals
    refine ⟨?_, rfl⟩
    unfold Signals at hsignals
    simp only at hsignals
    split at hsignals
    · omega
    · omega

theorem clear (h : Posted s) (hreceiver : s.receiver = .emptied) : Posted s.clear where
  ok := h.ok
  sent := h.sent
  begun := h.begun
  received := h.received
  sender := h.sender
  signals := by
    obtain ⟨-, hactive⟩ := h.emptied hreceiver
    have hsignals := h.signals
    rw [hreceiver, hactive] at hsignals
    show Signals .waiting s.mailbox.active _ _ (s.mailbox.signaler - 1) s.owing
    rw [hactive]
    exact hsignals.clear

/-- The receiver begins to wait, or stops. -/
theorem passive (h : Posted s) {receiver : RecvPhase} (hactive : s.mailbox.active = false)
    (hbefore : s.receiver = .returned ∨ s.receiver = .waiting)
    (hafter : receiver = .returned ∨ receiver = .waiting) :
    Posted { s with receiver := receiver } where
  ok := h.ok
  sent := h.sent
  begun := h.begun
  received := h.received
  sender := h.sender
  signals := by
    have hsignals := h.signals
    show Signals receiver s.mailbox.active _ _ _ _
    rw [hactive] at hsignals ⊢
    obtain hbefore | hbefore := hbefore <;> obtain rfl | rfl := hafter <;>
      · rw [hbefore] at hsignals
        exact hsignals

theorem waiting (h : Posted s) (hreceiver : s.receiver = .waiting) :
    s.mailbox.active = false := by
  have hsignals := h.signals
  rw [hreceiver] at hsignals
  cases hactive : s.mailbox.active with
  | true =>
    rw [hactive] at hsignals
    exact hsignals.elim
  | false => rfl

theorem wake (h : Posted s) (hreceiver : s.receiver = .waiting)
    (hsignaler : 0 < s.mailbox.signaler) : Posted s.wake where
  ok := h.ok
  sent := h.sent
  begun := h.begun
  received := h.received
  sender := h.sender
  signals := by
    have hsignals := h.signals
    rw [hreceiver, h.waiting hreceiver] at hsignals
    exact hsignals.wake hsignaler

/-- There is a command behind the signal. -/
theorem woken (h : Posted s) (hreceiver : s.receiver = .woken) :
    s.mailbox.active = true ∧ s.mailbox.cpipe.handoff.asleep = false ∧ s.mailbox.signaler = 1 ∧
      s.owing = 0 ∧ ∃ cmd ready, s.mailbox.cpipe.handoff.ready = cmd :: ready := by
  have hsignals := h.signals
  rw [hreceiver] at hsignals
  cases hactive : s.mailbox.active with
  | false =>
    rw [hactive] at hsignals
    exact hsignals.elim
  | true =>
    rw [hactive] at hsignals
    obtain ⟨hasleep, hsignaler, howing, hready⟩ := hsignals
    exact ⟨rfl, hasleep, hsignaler, howing, List.exists_cons_of_ne_nil hready⟩

theorem get (h : Posted s) (hreceiver : s.receiver = .woken) : Posted s.get := by
  obtain ⟨hactive, hasleep, hsignaler, howing, cmd, ready, hready⟩ := h.woken hreceiver
  cases hread : s.mailbox.cpipe.read with
  | mk res p =>
    obtain ⟨-, hhandoff, -⟩ := h.ok.read hread
    rw [Handoff.read_cons hready] at hhandoff
    obtain ⟨rfl, hp⟩ := Prod.mk.inj hhandoff
    have hreturned : Signals .returned true p.handoff.asleep (p.handoff.ready ≠ [])
        s.mailbox.signaler s.owing := by
      rw [← hp]
      exact ⟨hasleep, hsignaler, howing⟩
    have hposted := h.of_read hread hreturned
    unfold Mailing.get
    rw [hread]
    rw [← hactive] at hposted
    exact hposted

theorem step (h : Posted s) {l : MailboxEvent Command} (hstep : mailing.step s l s') :
    Posted s' := by
  cases l with
  | write cmd =>
    obtain ⟨-, rfl⟩ := hstep
    exact h.write cmd
  | flush =>
    obtain ⟨hsender, rfl⟩ := hstep
    exact h.flush hsender
  | setC =>
    obtain ⟨hsender, rfl⟩ := hstep
    exact h.setC hsender
  | signal =>
    obtain ⟨howing, rfl⟩ := hstep
    exact h.signal howing
  | read =>
    obtain ⟨hreceiver, hactive, rfl⟩ := hstep
    exact h.read hreceiver hactive
  | clear =>
    obtain ⟨hreceiver, rfl⟩ := hstep
    exact h.clear hreceiver
  | wait =>
    obtain ⟨hreceiver, hactive, rfl⟩ := hstep
    exact h.passive hactive (.inl hreceiver) (.inr rfl)
  | timeout =>
    obtain ⟨hreceiver, rfl⟩ := hstep
    exact h.passive (h.waiting hreceiver) (.inr hreceiver) (.inl rfl)
  | wake =>
    obtain ⟨hreceiver, hsignaler, rfl⟩ := hstep
    exact h.wake hreceiver hsignaler
  | get =>
    obtain ⟨hreceiver, rfl⟩ := hstep
    exact h.get hreceiver

theorem of_reachable (hs : Reachable mailing s) : Posted s := by
  induction hs with
  | init hinit =>
    obtain rfl : _ = ({ mailbox := Mailbox.new Command } : Mailing Command) := hinit
    exact init
  | step l _ hstep ih => exact ih.step hstep

theorem received_prefix (h : Posted s) : s.received <+: s.sent := by
  rw [← h.sent, ← h.received]
  exact List.prefix_append _ _

/-- There are at most two signals. -/
theorem signaler_le (h : Posted s) : s.mailbox.signaler + s.owing ≤ 2 := by
  have hsignals := h.signals
  revert hsignals
  generalize s.receiver = receiver
  generalize s.mailbox.active = active
  unfold Signals
  intro hsignals
  split at hsignals
  · split at hsignals <;> omega
  · split at hsignals <;> omega
  · omega
  · split at hsignals <;> omega
  · omega
  · exact hsignals.elim

/-- A passive receiver that nobody signals to or will signal to has read what is flushed. -/
theorem nothing_ready (h : Posted s)
    (hreceiver : s.receiver = .returned ∨ s.receiver = .waiting)
    (hactive : s.mailbox.active = false) (howing : s.owing = 0)
    (hsignaler : s.mailbox.signaler = 0) : s.mailbox.cpipe.handoff.ready = [] := by
  have hasleep : s.mailbox.cpipe.handoff.asleep = true := by
    cases hasleep : s.mailbox.cpipe.handoff.asleep with
    | true => rfl
    | false =>
      have hsignals := h.signals
      rw [hactive, hasleep, howing, hsignaler] at hsignals
      obtain hreceiver | hreceiver := hreceiver
      · rw [hreceiver] at hsignals
        exact absurd hsignals.1 (by decide)
      · rw [hreceiver] at hsignals
        exact absurd hsignals.1 (by decide)
  have hc : s.mailbox.cpipe.c = none := Option.isNone_iff_eq_none.mp hasleep
  have hfront := h.ok.asleep hc
  exact (YPipe.drop_take_eq_nil (Nat.le_trans h.ok.w h.ok.f)).mpr (by omega)

theorem signaled (h : Posted s) (hreceiver : s.receiver = .returned ∨ s.receiver = .waiting)
    (hactive : s.mailbox.active = false) (hready : s.mailbox.cpipe.handoff.ready ≠ []) :
    0 < s.mailbox.signaler ∨ 0 < s.owing := by
  by_cases hsignaler : 0 < s.mailbox.signaler
  · exact .inl hsignaler
  · by_cases howing : 0 < s.owing
    · exact .inr howing
    · exact absurd (h.nothing_ready hreceiver hactive (by omega) (by omega)) hready

/-- Outside of the critical section all commands are flushed. -/
theorem ready_of_unlocked (h : Posted s) (hsender : s.sender = .unlocked)
    (hne : s.received ≠ s.sent) : s.mailbox.cpipe.handoff.ready ≠ [] := by
  intro hready
  have hcomplete : s.mailbox.cpipe.handoff.complete = [] := by
    have hholds := h.sender
    rw [hsender] at hholds
    exact hholds
  apply hne
  rw [← h.sent, ← h.received, Handoff.completed, hready, hcomplete]
  simp

end Posted

/-- **Mailboxes.** In every order of the steps of any number of senders and the receiver,
    what is received are the first of the commands sent; a signal that is removed is there,
    and there is a command behind the one that is waited for; and a passive receiver has a
    signal or is owed one as long as a command that was flushed is not received, wherever a
    sender is in the critical section, and without one there as long as any is not received. -/
theorem mailbox_delivers (s : Mailing Command) (hs : Reachable mailing s) :
    s.received <+: s.sent ∧ s.mailbox.signaler ≤ 2 ∧
    (s.receiver = .emptied → 0 < s.mailbox.signaler) ∧
    (s.receiver = .woken → s.mailbox.cpipe.read.1 ≠ none) ∧
    (s.receiver = .returned ∨ s.receiver = .waiting → s.mailbox.active = false →
      s.mailbox.cpipe.handoff.ready ≠ [] → 0 < s.mailbox.signaler ∨ 0 < s.owing) ∧
    (s.receiver = .returned ∨ s.receiver = .waiting → s.mailbox.active = false →
      s.sender = .unlocked → s.received ≠ s.sent → 0 < s.mailbox.signaler ∨ 0 < s.owing) := by
  have h := Posted.of_reachable hs
  have hle := h.signaler_le
  refine ⟨h.received_prefix, by omega, fun hreceiver => (h.emptied hreceiver).1, ?_, h.signaled,
    ?_⟩
  · intro hreceiver hnone
    obtain ⟨-, -, -, -, cmd, ready, hready⟩ := h.woken hreceiver
    have hread : s.mailbox.cpipe.read = (none, s.mailbox.cpipe.read.2) := Prod.ext hnone rfl
    obtain ⟨-, hhandoff, -⟩ := h.ok.read hread
    rw [Handoff.read_cons hready] at hhandoff
    cases congrArg Prod.fst hhandoff
  · intro hreceiver hactive hsender hne
    exact h.signaled hreceiver hactive (h.ready_of_unlocked hsender hne)

/-- One command is received, and the receiver looks for another one. -/
def Mailing.emptiedOnce : Mailing Nat :=
  let s := ((({ mailbox := Mailbox.new Nat } : Mailing Nat).write 1).flush).setC.signal
  { s with receiver := .waiting }.wake.get.read

theorem emptiedOnce_reachable : Reachable mailing Mailing.emptiedOnce := by
  have hsent : Reachable mailing
      ((({ mailbox := Mailbox.new Nat } : Mailing Nat).write 1).flush).setC.signal :=
    .step .signal (.step .setC (.step .flush (.step (.write 1) (.init rfl) ⟨rfl, rfl⟩) ⟨rfl, rfl⟩)
      ⟨rfl, rfl⟩) ⟨by decide, rfl⟩
  have hwaiting : Reachable mailing _ := .step .wait hsent ⟨rfl, rfl, rfl⟩
  have hwoken : Reachable mailing _ := .step .wake hwaiting ⟨rfl, by decide, rfl⟩
  have hreceived : Reachable mailing _ := .step .get hwoken ⟨rfl, rfl⟩
  exact .step .read hreceived ⟨rfl, rfl, rfl⟩

/-- The second sender is faster than the receiver. -/
theorem mailbox_delivers_two : ∃ s : Mailing Nat, s.mailbox.signaler = 2 ∧ s.sent = [1, 2] ∧
    s.received <+: s.sent := by
  have hsent : Reachable mailing (((Mailing.emptiedOnce.write 2).flush).setC).signal :=
    .step .signal (.step .setC (.step .flush (.step (.write 2) emptiedOnce_reachable ⟨rfl, rfl⟩)
      ⟨rfl, rfl⟩) ⟨rfl, rfl⟩) ⟨by decide, rfl⟩
  exact ⟨_, rfl, rfl, (mailbox_delivers _ hsent).1⟩

end RefereeBox.Zmq
