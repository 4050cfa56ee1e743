import RefereeBox.Model.Pipe
import RefereeBox.Zmq.YPipe

/-! # Flow Control in Pipes

  A pipe never holds more messages than its high water mark. A writer that was
  refused is activated again once the reader has read as many messages as its low
  water mark says, and a reader that has found nothing is activated once there is
  something; neither of them waits for a command that is not sent. A message that
  was begun is never refused.
-/

namespace RefereeBox.Zmq

open Transition

/-! ### Counts -/

/-- The number of messages, by their last parts. -/
def messages : List Item → Nat
  | [] => 0
  | .msg f :: items => (if f.more then 0 else 1) + messages items
  | .delimiter :: items => messages items

theorem messages_append (items items' : List Item) :
    messages (items ++ items') = messages items + messages items' := by
  induction items with
  | nil => simp [messages]
  | cons i items ih =>
    cases i with
    | msg f =>
      simp only [List.cons_append, messages, ih]
      omega
    | delimiter => simp only [List.cons_append, messages, ih]

theorem messages_more {items : List Item} (h : ∀ i ∈ items, i.more = true) :
    messages items = 0 := by
  induction items with
  | nil => rfl
  | cons i items ih =>
    have hi := h i (by simp)
    have hitems := ih fun j hj => h j (by simp [hj])
    cases i with
    | msg f => simp_all [messages, Item.more]
    | delimiter => cases hi

/-- The numbers that the writer has and will get, up to `last`. -/
def Rising : Nat → List Nat → Nat → Prop
  | n, [], last => n = last
  | n, m :: ms, last => n ≤ m ∧ Rising m ms last

theorem Rising.le {n last : Nat} {ms : List Nat} (h : Rising n ms last) : n ≤ last := by
  induction ms generalizing n with
  | nil => exact Nat.le_of_eq h
  | cons m ms ih => exact Nat.le_trans h.1 (ih h.2)

theorem Rising.mem {n last m : Nat} {ms : List Nat} (h : Rising n ms last) (hm : m ∈ ms) :
    n ≤ m ∧ m ≤ last := by
  induction ms generalizing n with
  | nil => cases hm
  | cons k ks ih =>
    obtain ⟨hle, hrest⟩ := h
    obtain rfl | hm := List.mem_cons.mp hm
    · exact ⟨hle, hrest.le⟩
    · obtain ⟨hge, hlast⟩ := ih hrest hm
      exact ⟨Nat.le_trans hle hge, hlast⟩

theorem Rising.snoc {n last last' : Nat} {ms : List Nat} (h : Rising n ms last)
    (hle : last ≤ last') : Rising n (ms ++ [last']) last' := by
  induction ms generalizing n with
  | nil =>
    obtain rfl : n = last := h
    exact ⟨hle, rfl⟩
  | cons m ms ih => exact ⟨h.1, ih h.2⟩

namespace Pipe

/-- What the commands to the writer confirm. -/
def confirmed (commands : List WriterCommand) : List Nat :=
  commands.filterMap fun c =>
    match c with
    | .activateWriter msgsRead => some msgsRead
    | .pipeTerm => none

theorem confirmed_append (cs cs' : List WriterCommand) :
    confirmed (cs ++ cs') = confirmed cs ++ confirmed cs' := List.filterMap_append

/-- The low water mark of `create_pipe`. -/
theorem lwm_le (hwm : Nat) (hpos : 0 < hwm) :
    0 < (createPipe hwm).reader.lwm ∧ (createPipe hwm).reader.lwm ≤ hwm := by
  unfold createPipe maxWmDelta
  by_cases hlarge : hwm > 1024 * 2
  · simp only [hlarge, if_true]
    omega
  · simp only [hlarge, if_false]
    omega

/-- The invariant of the counters: the reader confirms every multiple of `lwm`. -/
structure Counts (hwm : Nat) (s : Pipe) : Prop where
  high : s.writer.hwm = hwm
  low : s.reader.lwm = (createPipe hwm).reader.lwm
  read : s.reader.msgsRead = messages s.pipe.handoff.taken
  written : s.writer.msgsWritten = messages s.pipe.handoff.completed
  begun : ∀ i ∈ s.pipe.handoff.begun, i.more = true
  rising : 0 < hwm → Rising s.writer.msgsRead (confirmed s.toWriter)
    (s.reader.lwm * (s.reader.msgsRead / s.reader.lwm))
  window : 0 < hwm → s.writer.msgsWritten ≤ s.writer.msgsRead + hwm
  full : s.writer.active = false → s.writer.terminating = false →
    0 < hwm ∧ s.writer.msgsWritten = s.writer.msgsRead + hwm
  partly : s.pipe.handoff.begun ≠ [] → s.writer.terminating = false →
    0 < hwm → s.writer.msgsWritten < s.writer.msgsRead + hwm
  terminating : s.writer.terminating = true → s.writer.active = false

/-- The invariant of the queue: an activation of the reader is sent when it is asleep, and
    it is not active until the activation is there. -/
structure Wakes (s : Pipe) : Prop where
  ok : s.pipe.Ok
  waking : s.waking = true → s.pipe.c = none ∧ s.pipe.w ≠ s.pipe.f
  asleep : s.pipe.handoff.asleep = true →
    s.reader.active = false ∧ .activateReader ∉ s.toReader
  sent : .activateReader ∈ s.toReader → s.reader.active = false ∧ s.pipe.handoff.ready ≠ [] ∧
    s.toReader.count .activateReader = 1
  awake : s.pipe.handoff.asleep = false → .activateReader ∉ s.toReader →
    s.reader.active = false → s.reader.terminating = true

namespace Counts

variable {hwm : Nat} {s : Pipe}

/-- What is confirmed was read, and what was read was written. -/
theorem confirmed_le (h : Counts hwm s) (hpos : 0 < hwm) :
    s.writer.msgsRead ≤ s.reader.msgsRead :=
  Nat.le_trans (h.rising hpos).le (Nat.mul_div_le _ _)

theorem read_le (h : Counts hwm s) : s.reader.msgsRead ≤ s.writer.msgsWritten := by
  rw [h.read, h.written, Handoff.completed, messages_append]
  exact Nat.le_add_right _ _

theorem pipeFull_iff (h : Counts hwm s) :
    s.pipeFull = true ↔ 0 < hwm ∧ s.writer.msgsWritten = s.writer.msgsRead + hwm := by
  unfold Pipe.pipeFull
  rw [h.high]
  simp only [gt_iff_lt, Bool.and_eq_true, decide_eq_true_eq]
  constructor
  · intro ⟨hpos, hfull⟩
    have hle := h.confirmed_le hpos
    have hle' := h.read_le
    exact ⟨hpos, by omega⟩
  · intro ⟨hpos, hfull⟩
    exact ⟨hpos, by omega⟩

/-- The flow is not touched. -/
theorem congr {s' : Pipe} (h : Counts hwm s) (hwriter : s'.writer = s.writer)
    (hlwm : s'.reader.lwm = s.reader.lwm) (hread : s'.reader.msgsRead = s.reader.msgsRead)
    (htaken : messages s'.pipe.handoff.taken = messages s.pipe.handoff.taken)
    (hcompleted : messages s'.pipe.handoff.completed = messages s.pipe.handoff.completed)
    (hbegun : s'.pipe.handoff.begun = s.pipe.handoff.begun)
    (hconfirmed : confirmed s'.toWriter = confirmed s.toWriter) : Counts hwm s' where
  high := by rw [hwriter, h.high]
  low := by rw [hlwm, h.low]
  read := by rw [hread, htaken, h.read]
  written := by rw [hwriter, hcompleted, h.written]
  begun := by
    rw [hbegun]
    exact h.begun
  rising := by
    rw [hwriter, hconfirmed, hlwm, hread]
    exact h.rising
  window := by
    rw [hwriter]
    exact h.window
  full := by
    rw [hwriter]
    exact h.full
  partly := by
    rw [hwriter, hbegun]
    exact h.partly
  terminating := by
    rw [hwriter]
    exact h.terminating

theorem terminateReader (h : Counts hwm s) : Counts hwm s.terminateReader := by
  unfold Pipe.terminateReader
  split
  · exact h
  · refine h.congr rfl rfl rfl rfl rfl rfl ?_
    rw [confirmed_append]
    exact List.append_nil _

/-- A multiple of the low water mark is confirmed. -/
theorem rising_count {lwm n : Nat} {commands : List WriterCommand} {msgsRead msgsRead' : Nat}
    (hlwm : 0 < lwm) (h : Rising n (confirmed commands) (lwm * (msgsRead / lwm)))
    (hread : msgsRead' = msgsRead ∨ msgsRead' = msgsRead + 1) :
    Rising n (confirmed (if 0 < lwm ∧ msgsRead' % lwm = 0 then
      commands ++ [.activateWriter msgsRead'] else commands)) (lwm * (msgsRead' / lwm)) := by
  split
  · next hmultiple =>
    have hlast : lwm * (msgsRead' / lwm) = msgsRead' :=
      Nat.mul_div_cancel' (Nat.dvd_of_mod_eq_zero hmultiple.2)
    have hle := Nat.mul_div_le msgsRead lwm
    rw [confirmed_append, hlast]
    exact h.snoc (by omega)
  · next hother =>
    have hmod : ¬ msgsRead' % lwm = 0 := fun hzero => hother ⟨hlwm, hzero⟩
    obtain rfl | rfl := hread
    · exact h
    · rw [Nat.succ_div_of_mod_ne_zero hmod]
      exact h

/-- A part is read. -/
theorem count (h : Counts hwm s) {p : YPipe Item} {f : Frame}
    (hread : s.pipe.handoff.read = (some (.msg f), p.handoff)) :
    Counts hwm ({ s with pipe := p }.count f) := by
  have hp : s.pipe.handoff.read.2 = p.handoff := congrArg Prod.snd hread
  have hcompleted : p.handoff.completed = s.pipe.handoff.completed := by
    rw [← hp, Handoff.completed_read]
  have hbegun : p.handoff.begun = s.pipe.handoff.begun := by rw [← hp, Handoff.begun_read]
  have htaken : p.handoff.taken = s.pipe.handoff.taken ++ [.msg f] := Handoff.taken_read hread
  exact {
    high := h.high
    low := h.low
    read := by
      show (if f.more then s.reader.msgsRead else s.reader.msgsRead + 1) =
        messages p.handoff.taken
      rw [htaken, messages_append, ← h.read]
      cases hmore : f.more <;> simp [messages, hmore]
    written := by
      show s.writer.msgsWritten = messages p.handoff.completed
      rw [hcompleted, h.written]
    begun := by
      show ∀ i ∈ p.handoff.begun, i.more = true
      rw [hbegun]
      exact h.begun
    rising := by
      intro hpos
      obtain ⟨hlwm, -⟩ := lwm_le hwm hpos
      rw [← h.low] at hlwm
      apply rising_count hlwm (h.rising hpos)
      split
      · exact .inl rfl
      · exact .inr rfl
    window := h.window
    full := h.full
    partly := by
      show p.handoff.begun ≠ [] → _
      rw [hbegun]
      exact h.partly
    terminating := h.terminating }

/-- The writer finds the pipe full. -/
theorem refuse (h : Counts hwm s) (hfull : s.pipeFull = true) (hbegun : s.pipe.handoff.begun = []) :
    Counts hwm { s with writer := { s.writer with active := false } } where
  high := h.high
  low := h.low
  read := h.read
  written := h.written
  begun := h.begun
  rising := h.rising
  window := h.window
  full _ _ := h.pipeFull_iff.mp hfull
  partly hne := absurd hbegun hne
  terminating _ := rfl

/-- A message that was begun is not refused. -/
theorem pipeFull_begun (h : Counts hwm s) (hbegun : s.pipe.handoff.begun ≠ [])
    (hterm : s.writer.terminating = false) : s.pipeFull = false := by
  rw [← Bool.not_eq_true]
  intro hfull
  obtain ⟨hpos, heq⟩ := h.pipeFull_iff.mp hfull
  have hlt := h.partly hbegun hterm hpos
  omega

theorem checkWrite (h : Counts hwm s) : Counts hwm s.checkWrite.2 := by
  unfold Pipe.checkWrite
  split
  · exact h
  · next hactive =>
    split
    · next hfull =>
      apply h.refuse hfull
      by_contra hbegun
      cases hterm : s.writer.terminating with
      | false =>
        rw [h.pipeFull_begun hbegun hterm] at hfull
        cases hfull
      | true => exact hactive (h.terminating hterm)
    · exact h

/-- The room for one more message. -/
theorem room (h : Counts hwm s) (hwrite : s.checkWrite.1 = true) :
    s.writer.active = true ∧ (0 < hwm → s.writer.msgsWritten < s.writer.msgsRead + hwm) := by
  unfold Pipe.checkWrite at hwrite
  split at hwrite
  · cases hwrite
  · next hactive =>
    split at hwrite
    · cases hwrite
    · next hfull =>
      refine ⟨(Bool.not_eq_false _).mp hactive, fun hpos => ?_⟩
      have hwindow := h.window hpos
      have hne : s.writer.msgsWritten ≠ s.writer.msgsRead + hwm := fun heq =>
        hfull (h.pipeFull_iff.mpr ⟨hpos, heq⟩)
      omega

theorem checkWrite_true (hwrite : s.checkWrite.1 = true) : s.checkWrite.2 = s := by
  unfold Pipe.checkWrite at hwrite ⊢
  split
  · rfl
  · next hactive =>
    rw [if_neg hactive] at hwrite
    split
    · next hfull =>
      rw [if_pos hfull] at hwrite
      cases hwrite
    · rfl

theorem write (h : Counts hwm s) (hok : s.pipe.Ok) (f : Frame) : Counts hwm (s.write f).2 := by
  unfold Pipe.write
  cases hcheck : s.checkWrite with
  | mk ok s₁ =>
    have hsnd : s.checkWrite.2 = s₁ := congrArg Prod.snd hcheck
    cases ok with
    | false =>
      rw [← hsnd]
      exact h.checkWrite
    | true =>
      have hfst : s.checkWrite.1 = true := congrArg Prod.fst hcheck
      obtain ⟨hactive, hroom⟩ := h.room hfst
      obtain rfl : s = s₁ := (checkWrite_true hfst).symm.trans hsnd
      obtain ⟨-, hhandoff⟩ := hok.write (.msg f) f.more
      have hcompleted := Handoff.completed_write s.pipe.handoff (.msg f) f.more
      have hmessages : messages (s.pipe.handoff.write (.msg f) f.more).completed =
          if f.more then s.writer.msgsWritten else s.writer.msgsWritten + 1 := by
        rw [hcompleted]
        cases hmore : f.more with
        | true => exact h.written.symm
        | false =>
          simp only [Bool.false_eq_true, if_false]
          rw [messages_append, messages_append, messages_more h.begun, h.written]
          simp [messages, hmore]
      exact {
        high := h.high
        low := h.low
        read := by
          show s.reader.msgsRead = messages (s.pipe.write (.msg f) f.more).handoff.taken
          rw [hhandoff]
          have htaken : (s.pipe.handoff.write (.msg f) f.more).taken = s.pipe.handoff.taken := by
            cases f.more <;> rfl
          rw [htaken, h.read]
        written := by
          show _ = messages (s.pipe.write (.msg f) f.more).handoff.completed
          rw [hhandoff, hmessages]
        begun := by
          show ∀ i ∈ (s.pipe.write (.msg f) f.more).handoff.begun, i.more = true
          rw [hhandoff]
          cases hmore : f.more with
          | true =>
            intro i hi
            obtain hi | hi := List.mem_append.mp hi
            · exact h.begun i hi
            · rw [List.mem_singleton.mp hi]
              exact hmore
          | false =>
            intro i hi
            cases hi
        rising := h.rising
        window := by
          intro hpos
          have hlt := hroom hpos
          show (if f.more then s.writer.msgsWritten else s.writer.msgsWritten + 1) ≤ _
          split
          · exact Nat.le_of_lt hlt
          · exact hlt
        full := by
          intro hinactive
          have hfalse : s.writer.active = false := hinactive
          rw [hactive] at hfalse
          cases hfalse
        -- a frame of a message that goes on leaves the place of its last frame free
        partly := by
          intro hne _ hpos
          change (s.pipe.write (.msg f) f.more).handoff.begun ≠ [] at hne
          rw [hhandoff] at hne
          have hlt := hroom hpos
          show (if f.more then s.writer.msgsWritten else s.writer.msgsWritten + 1) < _
          cases hmore : f.more with
          | true => exact hlt
          | false =>
            rw [hmore] at hne
            exact absurd rfl hne
        terminating := by
          intro hterm
          have hfalse := h.terminating hterm
          rw [hactive] at hfalse
          cases hfalse }

theorem processActivateWriter {n : Nat} {rest : List WriterCommand} (h : Counts hwm s)
    (hcommands : s.toWriter = .activateWriter n :: rest) :
    Counts hwm ({ s with toWriter := rest }.processActivateWriter n) := by
  have hrising : 0 < hwm → s.writer.msgsRead ≤ n ∧
      Rising n (confirmed rest) (s.reader.lwm * (s.reader.msgsRead / s.reader.lwm)) := by
    intro hpos
    have hall := h.rising hpos
    rw [hcommands] at hall
    exact hall
  have hwriter : ({ s with toWriter := rest }.processActivateWriter n).writer =
      { s.writer with
        msgsRead := n
        active := s.writer.active || !s.writer.terminating } := by
    unfold Pipe.processActivateWriter
    simp only
    split
    · next hcond => simp [hcond.1, hcond.2]
    · next hcond =>
      have hactive : (s.writer.active || !s.writer.terminating) = s.writer.active := by
        revert hcond
        cases s.writer.active <;> cases s.writer.terminating <;> simp
      rw [hactive]
  have hsame : ({ s with toWriter := rest }.processActivateWriter n).reader = s.reader ∧
      ({ s with toWriter := rest }.processActivateWriter n).pipe = s.pipe ∧
      ({ s with toWriter := rest }.processActivateWriter n).toWriter = rest := by
    unfold Pipe.processActivateWriter
    simp only
    split <;> exact ⟨rfl, rfl, rfl⟩
  obtain ⟨hreader, hpipe, htoWriter⟩ := hsame
  exact {
    high := by rw [hwriter, ← h.high]
    low := by rw [hreader, h.low]
    read := by rw [hreader, hpipe, h.read]
    written := by
      rw [hwriter, hpipe]
      exact h.written
    begun := by
      rw [hpipe]
      exact h.begun
    rising := by
      rw [hwriter, hreader, htoWriter]
      exact fun hpos => (hrising hpos).2
    window := by
      rw [hwriter]
      intro hpos
      exact Nat.le_trans (h.window hpos) (Nat.add_le_add_right (hrising hpos).1 hwm)
    full := by
      rw [hwriter]
      intro hinactive hterm
      simp only [Bool.or_eq_false_iff, Bool.not_eq_false'] at hinactive
      rw [hinactive.2] at hterm
      cases hterm
    -- `msgs_read` only grows, so the window moves forward
    partly := by
      rw [hwriter, hpipe]
      intro hne hterm hpos
      exact Nat.lt_of_lt_of_le (h.partly hne hterm hpos)
        (Nat.add_le_add_right (hrising hpos).1 hwm)
    terminating := by
      rw [hwriter]
      intro hterm
      change s.writer.terminating = true at hterm
      show (s.writer.active || !s.writer.terminating) = false
      rw [h.terminating hterm, hterm]
      rfl }

theorem processPipeTerm {rest : List WriterCommand} (h : Counts hwm s)
    (hcommands : s.toWriter = .pipeTerm :: rest) :
    Counts hwm ({ s with toWriter := rest }.processPipeTerm) where
  high := h.high
  low := h.low
  read := h.read
  written := h.written
  begun := h.begun
  rising hpos := by
    have hall := h.rising hpos
    rw [hcommands] at hall
    exact hall
  window := h.window
  full := h.full
  partly := h.partly
  terminating := h.terminating

/-- Nothing is begun any more. -/
theorem rolledBack (h : Counts hwm s) {p : YPipe Item}
    (hp : p.handoff = { s.pipe.handoff with begun := [] }) {writer : PipeWriter}
    (hwriter : writer = s.writer ∨
      writer = { s.writer with terminating := true, active := false }) :
    Counts hwm { s with pipe := p, writer := writer } := by
  have htaken : p.handoff.taken = s.pipe.handoff.taken := by rw [hp]
  have hcompleted : p.handoff.completed = s.pipe.handoff.completed := by
    rw [hp]
    rfl
  have hbegun : p.handoff.begun = [] := by rw [hp]
  exact {
    high := by obtain rfl | rfl := hwriter <;> exact h.high
    low := h.low
    read := h.read.trans (congrArg messages htaken.symm)
    written := by
      have hwritten := h.written.trans (congrArg messages hcompleted.symm)
      obtain rfl | rfl := hwriter <;> exact hwritten
    begun := by
      show ∀ i ∈ p.handoff.begun, _
      rw [hbegun]
      intro i hi
      cases hi
    rising := by obtain rfl | rfl := hwriter <;> exact h.rising
    window := by obtain rfl | rfl := hwriter <;> exact h.window
    full := by
      obtain rfl | rfl := hwriter
      · exact h.full
      · intro _ hterm
        cases hterm
    partly := fun hne => absurd hbegun hne
    terminating := by
      obtain rfl | rfl := hwriter
      · exact h.terminating
      · exact fun _ => rfl }

end Counts

theorem unwrite_fields (p : YPipe Item) :
    p.unwrite.2.c = p.c ∧ p.unwrite.2.w = p.w ∧ p.unwrite.2.f = p.f := by
  unfold YPipe.unwrite
  split <;> exact ⟨rfl, rfl, rfl⟩

/-- The loop of `rollback`. The induction is on the items that are begun. -/
theorem unwriteAll_begun {p : YPipe Item} (hok : p.Ok)
    (hbegun : ∀ i ∈ p.handoff.begun, i.more = true) :
    ∃ p', unwriteAll p = some p' ∧ p'.Ok ∧ p'.handoff = { p.handoff with begun := [] } ∧
      p'.c = p.c ∧ p'.w = p.w ∧ p'.f = p.f := by
  induction hn : p.handoff.begun.length generalizing p with
  | zero =>
    obtain ⟨hok₁, hunwrite⟩ := hok.unwrite
    have hfields := unwrite_fields p
    have hnil : p.handoff.begun = [] := List.length_eq_zero_iff.mp hn
    rw [Handoff.unwrite, hnil] at hunwrite
    obtain ⟨hres, hhandoff⟩ := Prod.mk.inj hunwrite
    rw [unwriteAll]
    split
    · next p' heq =>
      rw [heq] at hok₁ hhandoff hfields
      exact ⟨p', rfl, hok₁, hhandoff, hfields⟩
    · next v p' heq =>
      rw [heq] at hres
      cases hres
  | succ n ih =>
    obtain ⟨hok₁, hunwrite⟩ := hok.unwrite
    have hfields := unwrite_fields p
    have hne : p.handoff.begun ≠ [] := by
      intro hnil
      rw [hnil] at hn
      cases hn
    rw [Handoff.unwrite, List.getLast?_eq_some_getLast hne] at hunwrite
    obtain ⟨hres, hhandoff⟩ := Prod.mk.inj hunwrite
    rw [unwriteAll]
    split
    · next p' heq =>
      rw [heq] at hres
      cases hres
    · next v p₁ heq =>
      rw [heq] at hok₁ hhandoff hfields hres
      have hmore : v.more = true := by
        rw [Option.some.inj hres]
        exact hbegun _ (List.getLast_mem hne)
      have hbegun₁ : p₁.handoff.begun = p.handoff.begun.dropLast :=
        congrArg Handoff.begun hhandoff
      have hsub : ∀ i ∈ p₁.handoff.begun, i.more = true := by
        intro i hi
        rw [hbegun₁] at hi
        exact hbegun i (List.dropLast_subset _ hi)
      have hlength : p₁.handoff.begun.length = n := by
        rw [hbegun₁, List.length_dropLast]
        omega
      obtain ⟨p', hall, hok', hhandoff', hc, hw, hf⟩ := ih hok₁ hsub hlength
      change p₁.handoff = _ at hhandoff
      rw [if_pos hmore]
      refine ⟨p', hall, hok', ?_, hc.trans hfields.1, hw.trans hfields.2.1, hf.trans hfields.2.2⟩
      rw [hhandoff', hhandoff]

namespace Wakes

variable {s s' : Pipe}

/-- An active reader is not asleep, and no activation is on its way. -/
theorem of_active (h : Wakes s) (hactive : s.reader.active = true) :
    s.pipe.handoff.asleep = false ∧ .activateReader ∉ s.toReader ∧ s.waking = false := by
  have hasleep : s.pipe.handoff.asleep = false := by
    rw [← Bool.not_eq_true]
    intro hasleep
    rw [(h.asleep hasleep).1] at hactive
    cases hactive
  refine ⟨hasleep, ?_, ?_⟩
  · intro hsent
    rw [(h.sent hsent).1] at hactive
    cases hactive
  · rw [← Bool.not_eq_true]
    intro hwaking
    have hc : s.pipe.c.isNone = true := by rw [(h.waking hwaking).1]; rfl
    rw [show s.pipe.c.isNone = false from hasleep] at hc
    cases hc

/-- An active reader takes something, or only looks. -/
theorem reads (h : Wakes s) (hactive : s.reader.active = true) {p : YPipe Item} (hok : p.Ok)
    (hasleep : p.handoff.asleep = false) : Wakes { s with pipe := p } := by
  obtain ⟨-, hsent, hwaking⟩ := h.of_active hactive
  exact {
    ok := hok
    waking := by
      intro htrue
      rw [show s.waking = true from htrue] at hwaking
      cases hwaking
    asleep := by
      intro htrue
      rw [show p.handoff.asleep = true from htrue] at hasleep
      cases hasleep
    sent := fun hin => absurd hin hsent
    awake := by
      intro _ _ hinactive
      rw [show s.reader.active = false from hinactive] at hactive
      cases hactive }

/-- An active reader finds nothing. -/
theorem sleeps (h : Wakes s) (hactive : s.reader.active = true) {p : YPipe Item} (hok : p.Ok)
    (hasleep : p.handoff.asleep = true) : Wakes ({ s with pipe := p }.deactivate) := by
  obtain ⟨-, hsent, hwaking⟩ := h.of_active hactive
  exact {
    ok := hok
    waking := by
      intro htrue
      rw [show s.waking = true from htrue] at hwaking
      cases hwaking
    asleep := fun _ => ⟨rfl, hsent⟩
    sent := fun hin => absurd hin hsent
    awake := by
      intro hfalse
      rw [show p.handoff.asleep = false from hfalse] at hasleep
      cases hasleep }

theorem terminateReader (h : Wakes s) : Wakes s.terminateReader := by
  unfold Pipe.terminateReader
  split
  · exact h
  · exact {
      ok := h.ok
      waking := h.waking
      asleep := fun hasleep => ⟨rfl, (h.asleep hasleep).2⟩
      sent := fun hin => ⟨rfl, (h.sent hin).2⟩
      awake := fun _ _ _ => rfl }

/-- The writer writes or takes back what is not flushed. -/
theorem writes (h : Wakes s) (hpipe : s'.pipe.Ok)
    (hasleep : s'.pipe.handoff.asleep = s.pipe.handoff.asleep)
    (hready : s.pipe.handoff.ready ≠ [] → s'.pipe.handoff.ready ≠ [])
    (hreader : s'.reader = s.reader) (htoReader : s'.toReader = s.toReader)
    (hwaking' : s'.waking = false) : Wakes s' where
  ok := hpipe
  waking htrue := by
    rw [hwaking'] at htrue
    cases htrue
  asleep := by
    rw [hasleep, hreader, htoReader]
    exact h.asleep
  sent := by
    rw [htoReader, hreader]
    intro hin
    obtain ⟨hinactive, hne, hcount⟩ := h.sent hin
    exact ⟨hinactive, hready hne, hcount⟩
  awake := by
    rw [hasleep, hreader, htoReader]
    exact h.awake

theorem flush (h : Wakes s) : Wakes s.flush := by
  unfold Pipe.flush
  cases hflush : s.pipe.flush with
  | mk alive p =>
    cases alive with
    | true =>
      obtain ⟨hok, hhandoff⟩ := h.ok.flush_true hflush
      by_cases hcomplete : s.pipe.handoff.complete = []
      · have hsame : s.pipe.handoff = p.handoff := by
          rw [Handoff.flush, hcomplete] at hhandoff
          exact congrArg Prod.snd hhandoff
        apply h.writes hok
        · exact congrArg Handoff.asleep hsame.symm
        · intro hne
          show p.handoff.ready ≠ []
          rw [← hsame]
          exact hne
        · rfl
        · rfl
        · rfl
      · rw [Handoff.flush_eq hcomplete] at hhandoff
        obtain ⟨hasleep, hp⟩ := Prod.mk.inj hhandoff
        apply h.writes hok
        · show p.handoff.asleep = _
          rw [← hp]
          exact ((Bool.not_eq_true' _).mp hasleep).symm
        · intro hne
          show p.handoff.ready ≠ []
          rw [← hp]
          simp [hne]
        · rfl
        · rfl
        · rfl
    | false =>
      obtain ⟨rfl, hc, hne⟩ := h.ok.flush_false hflush
      exact {
        ok := h.ok
        waking := fun _ => ⟨hc, hne⟩
        asleep := h.asleep
        sent := h.sent
        awake := h.awake }

/-- The reader gets the activation that it needs. -/
theorem wake (h : Wakes s) (hwaking : s.waking = true) : Wakes s.wake := by
  obtain ⟨hc, hne⟩ := h.waking hwaking
  have hasleep : s.pipe.handoff.asleep = true := by
    show s.pipe.c.isNone = true
    rw [hc]
    rfl
  obtain ⟨hinactive, hnone⟩ := h.asleep hasleep
  have hcomplete : s.pipe.handoff.complete ≠ [] := by
    intro hnil
    have hle := (YPipe.drop_take_eq_nil h.ok.f).mp hnil
    have hle' := h.ok.w
    omega
  have hhandoff : s.pipe.handoff.flush.2 = s.pipe.setC.handoff :=
    congrArg Prod.snd (h.ok.handoff_setC hne)
  rw [Handoff.flush_eq hcomplete] at hhandoff
  have hsent : ReaderCommand.activateReader ∈ s.toReader ++ [.activateReader] := by simp
  exact {
    ok := h.ok.setC
    waking := fun htrue => by cases htrue
    asleep := by
      intro htrue
      change s.pipe.setC.handoff.asleep = true at htrue
      rw [← hhandoff] at htrue
      cases htrue
    sent := by
      intro _
      refine ⟨hinactive, ?_, ?_⟩
      · show s.pipe.setC.handoff.ready ≠ []
        rw [← hhandoff]
        simp [hcomplete]
      · show (s.toReader ++ [ReaderCommand.activateReader]).count .activateReader = 1
        rw [List.count_append, List.count_eq_zero.mpr hnone]
        rfl
    awake := fun _ hno => absurd hsent hno }

/-- The activation is there. -/
theorem processActivateReader {rest : List ReaderCommand} (h : Wakes s)
    (hcommands : s.toReader = .activateReader :: rest) :
    Wakes ({ s with toReader := rest }.processActivateReader) := by
  obtain ⟨hinactive, hready, hcount⟩ := h.sent (by simp [hcommands])
  have hrest : .activateReader ∉ rest := by
    rw [hcommands, List.count_cons_self] at hcount
    exact List.count_eq_zero.mp (by omega)
  exact {
    ok := h.ok
    waking := h.waking
    asleep := by
      intro hasleep
      have hnone := (h.asleep hasleep).2
      rw [hcommands] at hnone
      simp at hnone
    sent := fun hin => absurd hin hrest
    awake := fun _ _ hfalse => by cases hfalse }

/-- Other commands. -/
theorem commands (h : Wakes s) (hpipe : s'.pipe = s.pipe) (hwaking : s'.waking = s.waking)
    (hactive : s'.reader.active = s.reader.active)
    (hterm : s'.reader.terminating = s.reader.terminating)
    (hcount : s'.toReader.count ReaderCommand.activateReader =
      s.toReader.count ReaderCommand.activateReader) :
    Wakes s' := by
  have hmem : ReaderCommand.activateReader ∈ s'.toReader ↔ .activateReader ∈ s.toReader := by
    rw [← List.count_pos_iff, ← List.count_pos_iff, hcount]
  exact {
    ok := hpipe ▸ h.ok
    waking := by
      rw [hwaking, hpipe]
      exact h.waking
    asleep := by
      rw [hpipe, hactive, hmem]
      exact h.asleep
    sent := by
      rw [hpipe, hactive, hmem, hcount]
      exact h.sent
    awake := by
      rw [hpipe, hactive, hmem, hterm]
      exact h.awake }

end Wakes

/-! ### Steps -/

structure Flows (hwm : Nat) (s : Pipe) : Prop where
  counts : Counts hwm s
  wakes : Wakes s

theorem front_of_ready {p : YPipe Item} {v : Item} {rest : List Item}
    (hready : p.handoff.ready = v :: rest) : p.items[p.front]? = some v := by
  have hhead : ((p.items.take p.w).drop p.front).head? = some v := by
    rw [show (p.items.take p.w).drop p.front = v :: rest from hready]
    rfl
  rw [List.head?_drop, List.getElem?_take] at hhead
  split at hhead
  · exact hhead
  · cases hhead

namespace Flows

variable {hwm : Nat} {s s' : Pipe}

theorem init (hwm : Nat) : Flows hwm (createPipe hwm) where
  counts := {
    high := rfl
    low := rfl
    read := rfl
    written := rfl
    begun := fun i hi => by cases hi
    rising := by
      intro _
      show 0 = _ * (0 / _)
      rw [Nat.zero_div, Nat.mul_zero]
    window := fun _ => Nat.zero_le _
    full := fun hfalse => by cases hfalse
    partly := fun hne => absurd rfl hne
    terminating := fun hfalse => by cases hfalse }
  wakes := {
    ok := .init
    waking := fun hfalse => by cases hfalse
    asleep := fun hfalse => by cases hfalse
    sent := fun hin => by cases hin
    awake := fun _ _ hfalse => by cases hfalse }

/-- The items are the same, or a delimiter is read. -/
theorem same_items (h : Flows hwm s) {p : YPipe Item} {reader : PipeReader}
    (htaken : messages p.handoff.taken = messages s.pipe.handoff.taken)
    (hcompleted : p.handoff.completed = s.pipe.handoff.completed)
    (hbegun : p.handoff.begun = s.pipe.handoff.begun)
    (hlwm : reader.lwm = s.reader.lwm) (hread : reader.msgsRead = s.reader.msgsRead) :
    Counts hwm { s with pipe := p, reader := reader } :=
  h.counts.congr rfl hlwm hread htaken (congrArg messages hcompleted) hbegun rfl

theorem read_none (h : Flows hwm s) (hactive : s.reader.active = true) {p : YPipe Item}
    (hok : p.Ok) (hp : p.handoff = { s.pipe.handoff with asleep := true }) :
    Flows hwm ({ s with pipe := p }.deactivate) where
  counts := by
    have htaken : p.handoff.taken = s.pipe.handoff.taken := by rw [hp]
    have hbegun : p.handoff.begun = s.pipe.handoff.begun := by rw [hp]
    have hcompleted : p.handoff.completed = s.pipe.handoff.completed := by
      rw [hp]
      rfl
    exact h.same_items (congrArg messages htaken) hcompleted hbegun rfl rfl
  wakes := h.wakes.sleeps hactive hok (by rw [hp])

theorem read_delimiter (h : Flows hwm s) (hactive : s.reader.active = true) {p : YPipe Item}
    (hok : p.Ok) (hread : s.pipe.handoff.read = (some .delimiter, p.handoff)) :
    Flows hwm ({ s with pipe := p }.terminateReader) := by
  have hp : s.pipe.handoff.read.2 = p.handoff := congrArg Prod.snd hread
  have htaken := Handoff.taken_read hread
  have hasleep : p.handoff.asleep = false := by
    rw [Handoff.asleep_of_read_some hread, (h.wakes.of_active hactive).1]
  have hcounts : Counts hwm { s with pipe := p } := by
    apply h.same_items _ _ _ rfl rfl
    · rw [htaken, messages_append]
      rfl
    · rw [← hp, Handoff.completed_read]
    · rw [← hp, Handoff.begun_read]
  exact ⟨hcounts.terminateReader, (h.wakes.reads hactive hok hasleep).terminateReader⟩

theorem read_msg (h : Flows hwm s) (hactive : s.reader.active = true) {p : YPipe Item} {f : Frame}
    (hok : p.Ok) (hread : s.pipe.handoff.read = (some (.msg f), p.handoff)) :
    Flows hwm ({ s with pipe := p }.count f) where
  counts := h.counts.count hread
  wakes := by
    have hasleep : p.handoff.asleep = false := by
      rw [Handoff.asleep_of_read_some hread, (h.wakes.of_active hactive).1]
    exact (h.wakes.reads hactive hok hasleep).commands rfl rfl rfl rfl rfl

theorem read (h : Flows hwm s) : Flows hwm s.read.2 := by
  unfold Pipe.read
  split
  · exact h
  · next hinactive =>
    have hactive : s.reader.active = true := (Bool.not_eq_false _).mp hinactive
    cases hread : s.pipe.read with
    | mk res p =>
      obtain ⟨hok, hhandoff, -⟩ := h.wakes.ok.read hread
      cases res with
      | none => exact h.read_none hactive hok (Handoff.of_read_none hhandoff)
      | some i =>
        cases i with
        | delimiter => exact h.read_delimiter hactive hok hhandoff
        | msg f => exact h.read_msg hactive hok hhandoff

theorem checkRead (h : Flows hwm s) : Flows hwm s.checkRead.2 := by
  unfold Pipe.checkRead
  split
  · exact h
  · next hinactive =>
    have hactive : s.reader.active = true := (Bool.not_eq_false _).mp hinactive
    cases hcheck : s.pipe.checkRead with
    | mk ok p =>
      obtain ⟨hok, hhandoff, -⟩ := h.wakes.ok.checkRead hcheck
      cases ok with
      | false =>
        exact h.read_none hactive hok
          (Handoff.of_read_none (Handoff.read_of_checkRead_false hhandoff))
      | true =>
        have hsame : p.handoff = s.pipe.handoff := Handoff.eq_of_checkRead_true hhandoff
        simp only
        split
        · next hdelimiter =>
          obtain ⟨v, rest, hready⟩ := Handoff.ready_of_checkRead_true hhandoff
          have hfront := front_of_ready (hsame ▸ hready)
          obtain rfl : v = .delimiter := Option.some.inj (hfront.symm.trans hdelimiter)
          cases hread : p.read with
          | mk res p' =>
            obtain ⟨hok', hhandoff', -⟩ := hok.read hread
            rw [hsame] at hhandoff'
            have hres : some Item.delimiter = res := by
              have hcons := Handoff.read_cons hready
              rw [hhandoff'] at hcons
              exact (congrArg Prod.fst hcons).symm
            rw [← hres] at hhandoff'
            exact h.read_delimiter hactive hok' hhandoff'
        · have hasleep : p.handoff.asleep = false := by
            rw [hsame, (h.wakes.of_active hactive).1]
          refine ⟨?_, h.wakes.reads hactive hok hasleep⟩
          exact h.same_items (by rw [hsame]) (by rw [hsame]) (by rw [hsame]) rfl rfl

theorem checkWrite (h : Flows hwm s) (hlives : s.WriterLives) : Flows hwm s.checkWrite.2 where
  counts := h.counts.checkWrite
  wakes := by
    unfold Pipe.checkWrite
    split
    · exact h.wakes
    · split
      · exact h.wakes.writes h.wakes.ok rfl (fun hne => hne) rfl rfl hlives.2
      · exact h.wakes

theorem write (h : Flows hwm s) (hlives : s.WriterLives) (f : Frame) :
    Flows hwm (s.write f).2 where
  counts := h.counts.write h.wakes.ok f
  wakes := by
    unfold Pipe.write
    cases hcheck : s.checkWrite with
    | mk ok s₁ =>
      have hsnd : s.checkWrite.2 = s₁ := congrArg Prod.snd hcheck
      cases ok with
      | false =>
        rw [← hsnd]
        exact (h.checkWrite hlives).wakes
      | true =>
        obtain rfl : s = s₁ := (Counts.checkWrite_true (congrArg Prod.fst hcheck)).symm.trans hsnd
        obtain ⟨hok, hhandoff⟩ := h.wakes.ok.write (.msg f) f.more
        have hsame : (s.pipe.handoff.write (.msg f) f.more).asleep = s.pipe.handoff.asleep ∧
            (s.pipe.handoff.write (.msg f) f.more).ready = s.pipe.handoff.ready := by
          cases f.more <;> exact ⟨rfl, rfl⟩
        refine h.wakes.writes hok ?_ ?_ rfl rfl hlives.2
        · exact (congrArg Handoff.asleep hhandoff).trans hsame.1
        · intro hne
          show (s.pipe.write (.msg f) f.more).handoff.ready ≠ []
          rw [hhandoff, hsame.2]
          exact hne

/-- The items that are begun are taken back. -/
theorem rollback (h : Flows hwm s) (hlives : s.WriterLives) {writer : PipeWriter}
    (hwriter : writer = s.writer ∨
      writer = { s.writer with terminating := true, active := false }) :
    ∃ s', Pipe.rollback { s with writer := writer } = some s' ∧ Flows hwm s' ∧
      s'.WriterLives ∧ s'.pipe.handoff.begun = [] ∧ s'.writer = writer := by
  obtain ⟨p, hall, hok, hp, -, -, -⟩ := unwriteAll_begun h.wakes.ok h.counts.begun
  refine ⟨{ s with pipe := p, writer := writer }, ?_, ⟨?_, ?_⟩, ?_, by rw [hp], rfl⟩
  · unfold Pipe.rollback
    rw [hall]
    rfl
  · exact h.counts.rolledBack hp hwriter
  · refine h.wakes.writes hok ?_ ?_ rfl rfl hlives.2
    · show p.handoff.asleep = _
      rw [hp]
    · intro hne
      show p.handoff.ready ≠ []
      rw [hp]
      exact hne
  · refine ⟨?_, hlives.2⟩
    obtain rfl | rfl := hwriter
    · exact hlives.1
    · exact hlives.1

theorem flush (h : Flows hwm s) : Flows hwm s.flush where
  counts := by
    unfold Pipe.flush
    cases hflush : s.pipe.flush with
    | mk alive p =>
      cases alive with
      | true =>
        obtain ⟨-, hhandoff⟩ := h.wakes.ok.flush_true hflush
        have hp : s.pipe.handoff.flush.2 = p.handoff := congrArg Prod.snd hhandoff
        refine h.counts.congr rfl rfl rfl ?_ ?_ ?_ rfl
        · show messages p.handoff.taken = _
          rw [← hp, Handoff.taken_flush]
        · show messages p.handoff.completed = _
          rw [← hp, Handoff.completed_flush]
        · show p.handoff.begun = _
          rw [← hp, Handoff.begun_flush]
      | false =>
        obtain ⟨rfl, -⟩ := h.wakes.ok.flush_false hflush
        exact h.counts.congr rfl rfl rfl rfl rfl rfl rfl
  wakes := h.wakes.flush

theorem wake (h : Flows hwm s) (hwaking : s.waking = true) : Flows hwm s.wake where
  counts := by
    obtain ⟨-, hne⟩ := h.wakes.waking hwaking
    have hp : s.pipe.handoff.flush.2 = s.pipe.setC.handoff :=
      congrArg Prod.snd (h.wakes.ok.handoff_setC hne)
    refine h.counts.congr rfl rfl rfl ?_ ?_ ?_ rfl
    · show messages s.pipe.setC.handoff.taken = _
      rw [← hp, Handoff.taken_flush]
    · show messages s.pipe.setC.handoff.completed = _
      rw [← hp, Handoff.completed_flush]
    · show s.pipe.setC.handoff.begun = _
      rw [← hp, Handoff.begun_flush]
  wakes := h.wakes.wake hwaking

/-- The delimiter is no message. -/
theorem pushDelimiter (h : Flows hwm s) (hlives : s.WriterLives)
    (hbegun : s.pipe.handoff.begun = []) : Flows hwm s.pushDelimiter := by
  obtain ⟨hok, hhandoff⟩ := h.wakes.ok.write .delimiter false
  have hwritten : Flows hwm { s with pipe := s.pipe.write .delimiter false } := by
    constructor
    · refine h.counts.congr rfl rfl rfl ?_ ?_ ?_ rfl
      · show messages (s.pipe.write .delimiter false).handoff.taken = _
        rw [hhandoff]
        rfl
      · show messages (s.pipe.write .delimiter false).handoff.completed = _
        rw [hhandoff, Handoff.completed_write, hbegun]
        simp [messages_append, messages]
      · show (s.pipe.write .delimiter false).handoff.begun = _
        rw [hhandoff, hbegun]
        rfl
    · refine h.wakes.writes hok ?_ ?_ rfl rfl hlives.2
      · show (s.pipe.write .delimiter false).handoff.asleep = s.pipe.handoff.asleep
        rw [hhandoff]
        rfl
      · intro hne
        show (s.pipe.write .delimiter false).handoff.ready ≠ []
        rw [hhandoff]
        exact hne
  exact hwritten.flush

theorem terminateWriter (h : Flows hwm s) (hlives : s.WriterLives) :
    ∃ s', s.terminateWriter = some s' ∧ Flows hwm s' := by
  unfold Pipe.terminateWriter
  split
  · exact ⟨s, rfl, h⟩
  · obtain ⟨s₁, hrollback, h₁, hlives₁, hbegun, -⟩ := h.rollback hlives (.inr rfl)
    refine ⟨s₁.pushDelimiter, ?_, h₁.pushDelimiter hlives₁ hbegun⟩
    simp only
    rw [hrollback]
    rfl

theorem readerCommand (h : Flows hwm s) {c : ReaderCommand} {rest : List ReaderCommand}
    (hcommands : s.toReader = c :: rest) :
    Flows hwm ({ s with toReader := rest }.processReader c) := by
  cases c with
  | activateReader =>
    exact ⟨h.counts.congr rfl rfl rfl rfl rfl rfl rfl, h.wakes.processActivateReader hcommands⟩
  | pipeTermAck =>
    refine ⟨h.counts.congr rfl rfl rfl rfl rfl rfl rfl, h.wakes.commands rfl rfl rfl rfl ?_⟩
    rw [hcommands]
    exact (List.count_cons_of_ne (by decide)).symm

theorem writerCommand (h : Flows hwm s) {c : WriterCommand} {rest : List WriterCommand}
    (hcommands : s.toWriter = c :: rest) :
    Flows hwm ({ s with toWriter := rest }.processWriter c) := by
  cases c with
  | activateWriter n =>
    refine ⟨h.counts.processActivateWriter hcommands, ?_⟩
    have hwakes : Wakes ({ s with toWriter := rest }.processActivateWriter n) := by
      unfold Pipe.processActivateWriter
      simp only
      split <;> exact h.wakes.commands rfl rfl rfl rfl rfl
    exact hwakes
  | pipeTerm =>
    refine ⟨h.counts.processPipeTerm hcommands, h.wakes.commands rfl rfl rfl rfl ?_⟩
    show (s.toReader ++ [ReaderCommand.pipeTermAck]).count .activateReader = _
    rw [List.count_append]
    rfl

theorem step (h : Flows hwm s) {l : PipeEvent} (hstep : (piping hwm).step s l s') :
    Flows hwm s' := by
  cases l with
  | checkRead =>
    obtain ⟨-, rfl⟩ := hstep
    exact h.checkRead
  | read res =>
    obtain ⟨-, hread⟩ := hstep
    obtain rfl : s.read.2 = s' := congrArg Prod.snd hread
    exact h.read
  | terminateReader =>
    obtain ⟨-, rfl⟩ := hstep
    exact ⟨h.counts.terminateReader, h.wakes.terminateReader⟩
  | readerCommand c =>
    obtain ⟨-, rest, hcommands, rfl⟩ := hstep
    exact h.readerCommand hcommands
  | checkWrite =>
    obtain ⟨hlives, rfl⟩ := hstep
    exact h.checkWrite hlives
  | write f ok =>
    obtain ⟨hlives, hwrite⟩ := hstep
    obtain rfl : (s.write f).2 = s' := congrArg Prod.snd hwrite
    exact h.write hlives f
  | rollback =>
    obtain ⟨hlives, hrollback⟩ := hstep
    obtain ⟨s₁, hsome, h₁, -⟩ := h.rollback hlives (.inl rfl)
    obtain rfl : s₁ = s' := Option.some.inj (hsome.symm.trans hrollback)
    exact h₁
  | flush =>
    obtain ⟨-, rfl⟩ := hstep
    exact h.flush
  | wake =>
    obtain ⟨hwaking, rfl⟩ := hstep
    exact h.wake hwaking
  | terminateWriter =>
    obtain ⟨hlives, hterminate⟩ := hstep
    obtain ⟨s₁, hsome, h₁⟩ := h.terminateWriter hlives
    obtain rfl : s₁ = s' := Option.some.inj (hsome.symm.trans hterminate)
    exact h₁
  | writerCommand c =>
    obtain ⟨-, rest, hcommands, rfl⟩ := hstep
    exact h.writerCommand hcommands

theorem of_reachable (hs : Reachable (piping hwm) s) : Flows hwm s := by
  induction hs with
  | init hinit =>
    obtain rfl : _ = createPipe hwm := hinit
    exact init hwm
  | step l _ hstep ih => exact ih.step hstep

/-- The messages in the pipe. -/
theorem unread (h : Flows hwm s) : s.reader.msgsRead +
    messages (s.pipe.handoff.ready ++ s.pipe.handoff.complete) = s.writer.msgsWritten := by
  rw [h.counts.read, h.counts.written, Handoff.completed]
  simp only [messages_append]

theorem unread_le (h : Flows hwm s) (hpos : 0 < hwm) :
    messages (s.pipe.handoff.ready ++ s.pipe.handoff.complete) ≤ hwm := by
  have hunread := h.unread
  have hconfirmed := h.counts.confirmed_le hpos
  have hwindow := h.counts.window hpos
  omega

/-- A reader that waits for no activation has read everything that is flushed. -/
theorem nothing_ready (h : Flows hwm s) (hactive : s.reader.active = false)
    (hterm : s.reader.terminating = false) (hnone : .activateReader ∉ s.toReader) :
    s.pipe.handoff.ready = [] := by
  have hasleep : s.pipe.handoff.asleep = true := by
    rw [← Bool.not_eq_false]
    intro hasleep
    rw [h.wakes.awake hasleep hnone hactive] at hterm
    cases hterm
  have hc : s.pipe.c = none := Option.isNone_iff_eq_none.mp hasleep
  have hfront := h.wakes.ok.asleep hc
  exact (YPipe.drop_take_eq_nil (Nat.le_trans h.wakes.ok.w h.wakes.ok.f)).mpr (by omega)

/-- A message that was begun can be written to its end. -/
theorem write_begun (h : Flows hwm s) (hbegun : s.pipe.handoff.begun ≠ [])
    (hterm : s.writer.terminating = false) (f : Frame) : (s.write f).1 = true := by
  have hactive : s.writer.active = true := by
    rw [← Bool.not_eq_false]
    intro hinactive
    obtain ⟨hpos, hfull⟩ := h.counts.full hinactive hterm
    have hlt := h.counts.partly hbegun hterm hpos
    omega
  have hcheck : s.checkWrite = (true, s) := by
    unfold Pipe.checkWrite
    rw [if_neg (by simp [hactive]), if_neg (by simp [h.counts.pipeFull_begun hbegun hterm])]
  unfold Pipe.write
  rw [hcheck]

theorem confirmed_eq_nil {commands : List WriterCommand}
    (hnone : ∀ n, .activateWriter n ∉ commands) : confirmed commands = [] := by
  rw [confirmed, List.filterMap_eq_nil_iff]
  intro c hc
  cases c with
  | activateWriter n => exact absurd hc (hnone n)
  | pipeTerm => rfl

/-- What an activation on its way confirms. -/
theorem confirms (h : Flows hwm s) (hpos : 0 < hwm) (n : Nat)
    (hsent : .activateWriter n ∈ s.toWriter) : s.writer.msgsRead ≤ n ∧ n ≤ s.reader.msgsRead := by
  have hmem : n ∈ confirmed s.toWriter := List.mem_filterMap.mpr ⟨_, hsent, rfl⟩
  obtain ⟨hge, hle⟩ := (h.counts.rising hpos).mem hmem
  exact ⟨hge, Nat.le_trans hle (Nat.mul_div_le _ _)⟩

/-- A writer that waits for no activation has written more than the reader has read of
    what makes it send one. -/
theorem still_unread (h : Flows hwm s) (hactive : s.writer.active = false)
    (hterm : s.writer.terminating = false) (hnone : ∀ n, .activateWriter n ∉ s.toWriter) :
    hwm - s.reader.lwm < messages (s.pipe.handoff.ready ++ s.pipe.handoff.complete) := by
  obtain ⟨hpos, hfull⟩ := h.counts.full hactive hterm
  have hrising := h.counts.rising hpos
  rw [confirmed_eq_nil hnone] at hrising
  have hconfirmed : s.writer.msgsRead = s.reader.lwm * (s.reader.msgsRead / s.reader.lwm) := hrising
  obtain ⟨hlwm, hle⟩ := lwm_le hwm hpos
  rw [← h.counts.low] at hlwm hle
  have hdiv := Nat.div_add_mod s.reader.msgsRead s.reader.lwm
  have hmod := Nat.mod_lt s.reader.msgsRead hlwm
  have hunread := h.unread
  omega

end Flows

end Pipe

/-- **Flow control.** In every order of the steps of the two threads: at most `hwm` messages
    are in the pipe; a writer that was refused is sent an activation before the reader has
    read more than `lwm` messages; a message that was begun is not refused; a reader that is
    not active is sent one activation as soon as something is flushed, and only then; an
    activation of the writer confirms no less than those before it and only what was read; and
    a rollback finds only parts that are to be continued. -/
theorem pipe_flows (hwm : Nat) (s : Pipe) (hs : Reachable (piping hwm) s) :
    (0 < hwm → messages (s.pipe.handoff.ready ++ s.pipe.handoff.complete) ≤ hwm) ∧
    (s.writer.active = false → s.writer.terminating = false →
      (∃ n, .activateWriter n ∈ s.toWriter) ∨
        hwm - s.reader.lwm < messages (s.pipe.handoff.ready ++ s.pipe.handoff.complete)) ∧
    (s.pipe.handoff.begun ≠ [] → s.writer.terminating = false → ∀ f, (s.write f).1 = true) ∧
    (s.reader.active = false → s.reader.terminating = false → .activateReader ∉ s.toReader →
      s.pipe.handoff.ready = []) ∧
    (.activateReader ∈ s.toReader → s.reader.active = false ∧ s.pipe.handoff.ready ≠ [] ∧
      s.toReader.count .activateReader = 1) ∧
    (0 < hwm → ∀ n, .activateWriter n ∈ s.toWriter →
      s.writer.msgsRead ≤ n ∧ n ≤ s.reader.msgsRead) ∧
    (s.WriterLives → s.rollback ≠ none ∧ s.terminateWriter ≠ none) := by
  have h := Pipe.Flows.of_reachable hs
  refine ⟨h.unread_le, ?_, h.write_begun, h.nothing_ready, h.wakes.sent, h.confirms, ?_⟩
  · intro hactive hterm
    by_cases hsent : ∃ n, .activateWriter n ∈ s.toWriter
    · exact .inl hsent
    · exact .inr (h.still_unread hactive hterm fun n hn => hsent ⟨n, hn⟩)
  · intro hlives
    obtain ⟨s₁, hrollback, -⟩ := h.rollback hlives (.inl rfl)
    obtain ⟨s₂, hterminate, -⟩ := h.terminateWriter hlives
    constructor
    · intro hnone
      cases hnone.symm.trans hrollback
    · intro hnone
      cases hnone.symm.trans hterminate

/-- Two messages fill the pipe, and one is read. -/
theorem pipe_flows_two : ∃ s : Pipe, s.writer.active = false ∧
    ((∃ n, .activateWriter n ∈ s.toWriter) ∨
      2 - s.reader.lwm < messages (s.pipe.handoff.ready ++ s.pipe.handoff.complete)) := by
  have hwritten : Reachable (piping 2)
      (((createPipe 2).write ⟨false, [1]⟩).2.write ⟨false, [2]⟩).2 :=
    .step (.write ⟨false, [2]⟩ true) (.step (.write ⟨false, [1]⟩ true) (.init rfl)
      ⟨⟨rfl, rfl⟩, rfl⟩) ⟨⟨rfl, rfl⟩, rfl⟩
  have hrefused : Reachable (piping 2) _ :=
    .step (.write ⟨false, [3]⟩ false) hwritten ⟨⟨rfl, rfl⟩, rfl⟩
  exact ⟨_, rfl, (pipe_flows 2 _ hrefused).2.1 rfl rfl⟩

end RefereeBox.Zmq
