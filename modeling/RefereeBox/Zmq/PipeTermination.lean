import RefereeBox.Zmq.Pipe

/-! # Closing a Pipe

  Either end can ask for the end of a pipe: the writer by the delimiter, behind
  which it writes nothing, the reader by a command, which it also sends when it reads
  the delimiter. The writer acknowledges and is gone, then the reader is. Nothing is
  sent to an end that is gone, and the handshake comes to its end.
-/

namespace RefereeBox.Zmq

open Transition

namespace Pipe

/-- How far the ends are. The command of the reader is the last one to the writer, and the
    acknowledgement the last one to the reader. -/
inductive Handshake (s : Pipe) : Prop where
  | running (asked : s.reader.terminating = false) (gone : s.writer.terminated = false)
      (ended : s.reader.terminated = false) (term : .pipeTerm ∉ s.toWriter)
      (ack : .pipeTermAck ∉ s.toReader)
  | asked (asked : s.reader.terminating = true) (gone : s.writer.terminated = false)
      (ended : s.reader.terminated = false) (cs : List WriterCommand) (term : .pipeTerm ∉ cs)
      (toWriter : s.toWriter = cs ++ [.pipeTerm]) (ack : .pipeTermAck ∉ s.toReader)
  | gone (asked : s.reader.terminating = true) (gone : s.writer.terminated = true)
      (ended : s.reader.terminated = false) (toWriter : s.toWriter = [])
      (waking : s.waking = false) (cs : List ReaderCommand) (ack : .pipeTermAck ∉ cs)
      (toReader : s.toReader = cs ++ [.pipeTermAck])
  | ended (asked : s.reader.terminating = true) (gone : s.writer.terminated = true)
      (ended : s.reader.terminated = true) (toWriter : s.toWriter = [])
      (waking : s.waking = false) (toReader : s.toReader = [])

/-- Neither the flags nor the commands are touched. -/
structure SameEnds (s s' : Pipe) : Prop where
  asked : s'.reader.terminating = s.reader.terminating
  gone : s'.writer.terminated = s.writer.terminated
  ended : s'.reader.terminated = s.reader.terminated
  toWriter : s'.toWriter = s.toWriter
  toReader : s'.toReader = s.toReader
  waking : s.writer.terminated = true → s'.waking = s.waking

/-- The first of the commands is not the last one, or the only one. -/
theorem cons_eq_append_singleton {α : Type} {c d : α} {rest cs : List α}
    (h : c :: rest = cs ++ [d]) : (c = d ∧ cs = [] ∧ rest = []) ∨
      ∃ cs', cs = c :: cs' ∧ rest = cs' ++ [d] := by
  cases cs with
  | nil =>
    obtain ⟨rfl, rfl⟩ := List.cons.inj h
    exact .inl ⟨rfl, rfl, rfl⟩
  | cons c' cs' =>
    obtain ⟨rfl, rfl⟩ := List.cons.inj h
    exact .inr ⟨cs', rfl, rfl⟩

namespace Handshake

variable {s s' : Pipe}

theorem init (hwm : Nat) : Handshake (createPipe hwm) :=
  .running rfl rfl rfl List.not_mem_nil List.not_mem_nil

theorem same (h : Handshake s) (hsame : SameEnds s s') : Handshake s' := by
  obtain ⟨hasked, hgone, hended, htoWriter, htoReader, hwaking⟩ := hsame
  cases h with
  | running asked gone ended term ack =>
    exact .running (hasked.trans asked) (hgone.trans gone) (hended.trans ended) (htoWriter ▸ term)
      (htoReader ▸ ack)
  | asked asked gone ended cs term toWriter ack =>
    exact .asked (hasked.trans asked) (hgone.trans gone) (hended.trans ended) cs term
      (htoWriter.trans toWriter) (htoReader ▸ ack)
  | gone asked gone ended toWriter waking cs ack toReader =>
    exact .gone (hasked.trans asked) (hgone.trans gone) (hended.trans ended)
      (htoWriter.trans toWriter) ((hwaking gone).trans waking) cs ack (htoReader.trans toReader)
  | ended asked gone ended toWriter waking toReader =>
    exact .ended (hasked.trans asked) (hgone.trans gone) (hended.trans ended)
      (htoWriter.trans toWriter) ((hwaking gone).trans waking) (htoReader.trans toReader)

/-- The reader asks once. -/
theorem terminateReader (h : Handshake s) : Handshake s.terminateReader := by
  unfold Pipe.terminateReader
  cases h with
  | running asked gone ended term ack =>
    rw [if_neg (by simp [asked])]
    exact .asked rfl gone ended s.toWriter term rfl ack
  | asked asked gone ended cs term toWriter ack =>
    rw [if_pos asked]
    exact .asked asked gone ended cs term toWriter ack
  | gone asked gone ended toWriter waking cs ack toReader =>
    rw [if_pos asked]
    exact .gone asked gone ended toWriter waking cs ack toReader
  | ended asked gone ended toWriter waking toReader =>
    rw [if_pos asked]
    exact .ended asked gone ended toWriter waking toReader

/-- A message is counted only by a reader that has not asked. -/
theorem count (h : Handshake s) (hasked : s.reader.terminating = false) (f : Frame) :
    Handshake (s.count f) := by
  cases h with
  | running asked gone ended term ack =>
    have hterm : ∀ (P : Prop) [Decidable P] (n : Nat), WriterCommand.pipeTerm ∉
        if P then s.toWriter ++ [.activateWriter n] else s.toWriter := by
      intro P _ n
      split
      · simp [term]
      · exact term
    exact .running asked gone ended (hterm _ _) ack
  | asked asked _ _ _ _ _ _ => exact absurd (hasked.symm.trans asked) (by decide)
  | gone asked _ _ _ _ _ _ _ => exact absurd (hasked.symm.trans asked) (by decide)
  | ended asked _ _ _ _ _ => exact absurd (hasked.symm.trans asked) (by decide)

/-- The queue alone is touched, or the reader deactivated. -/
theorem withPipe (h : Handshake s) (p : YPipe Item) :
    Handshake { s with pipe := p } ∧ Handshake ({ s with pipe := p }.deactivate) :=
  ⟨h.same ⟨rfl, rfl, rfl, rfl, rfl, fun _ => rfl⟩, h.same ⟨rfl, rfl, rfl, rfl, rfl, fun _ => rfl⟩⟩

theorem checkRead (h : Handshake s) : Handshake s.checkRead.2 := by
  unfold Pipe.checkRead
  split
  · exact h
  · split
    · exact (h.withPipe _).2
    · split
      · exact (h.withPipe _).1.terminateReader
      · exact (h.withPipe _).1

theorem read (h : Handshake s) (hasked : s.reader.terminating = false) : Handshake s.read.2 := by
  unfold Pipe.read
  split
  · exact h
  · split
    · exact (h.withPipe _).2
    · exact (h.withPipe _).1.terminateReader
    · next f p _ => exact (h.withPipe p).1.count hasked f

/-- What an end that lives does, its commands apart. -/
theorem sameEnds_checkWrite (s : Pipe) : SameEnds s s.checkWrite.2 := by
  unfold Pipe.checkWrite
  split
  · exact ⟨rfl, rfl, rfl, rfl, rfl, fun _ => rfl⟩
  · split <;> exact ⟨rfl, rfl, rfl, rfl, rfl, fun _ => rfl⟩

theorem sameEnds_write (s : Pipe) (f : Frame) : SameEnds s (s.write f).2 := by
  have hsame := sameEnds_checkWrite s
  unfold Pipe.write
  cases hcheck : s.checkWrite with
  | mk ok s₁ =>
    rw [hcheck] at hsame
    cases ok with
    | false => exact hsame
    | true =>
      obtain ⟨hasked, hgone, hended, htoWriter, htoReader, hwaking⟩ := hsame
      exact ⟨hasked, hgone, hended, htoWriter, htoReader, hwaking⟩

theorem sameEnds_rollback {s s' : Pipe} (h : s.rollback = some s') : SameEnds s s' := by
  unfold Pipe.rollback at h
  obtain ⟨p, -, rfl⟩ := Option.map_eq_some_iff.mp h
  exact ⟨rfl, rfl, rfl, rfl, rfl, fun _ => rfl⟩

theorem sameEnds_flush {s : Pipe} (hgone : s.writer.terminated = false) : SameEnds s s.flush where
  asked := rfl
  gone := rfl
  ended := rfl
  toWriter := rfl
  toReader := rfl
  waking htrue := absurd (hgone.symm.trans htrue) (by decide)

theorem sameEnds_terminateWriter {s s' : Pipe} (hgone : s.writer.terminated = false)
    (h : s.terminateWriter = some s') : SameEnds s s' := by
  unfold Pipe.terminateWriter at h
  split at h
  · obtain rfl := Option.some.inj h
    exact ⟨rfl, rfl, rfl, rfl, rfl, fun _ => rfl⟩
  · obtain ⟨s₁, hrollback, rfl⟩ := Option.map_eq_some_iff.mp h
    obtain ⟨hasked, hgone', hended, htoWriter, htoReader, -⟩ := sameEnds_rollback hrollback
    exact ⟨hasked, hgone', hended, htoWriter, htoReader,
      fun htrue => absurd (hgone.symm.trans htrue) (by decide)⟩

/-- A flush is ended before the writer is gone. -/
theorem wake (h : Handshake s) (hwaking : s.waking = true) : Handshake s.wake := by
  cases h with
  | running asked gone ended term ack =>
    refine .running asked gone ended term ?_
    show .pipeTermAck ∉ s.toReader ++ [.activateReader]
    simp [ack]
  | asked asked gone ended cs term toWriter ack =>
    refine .asked asked gone ended cs term toWriter ?_
    show .pipeTermAck ∉ s.toReader ++ [.activateReader]
    simp [ack]
  | gone _ _ _ _ waking _ _ _ => exact absurd (hwaking.symm.trans waking) (by decide)
  | ended _ _ _ _ waking _ => exact absurd (hwaking.symm.trans waking) (by decide)

theorem readerCommand (h : Handshake s) {c : ReaderCommand} {rest : List ReaderCommand}
    (hcommands : s.toReader = c :: rest) :
    Handshake ({ s with toReader := rest }.processReader c) := by
  cases h with
  | running asked gone ended term ack =>
    rw [hcommands] at ack
    cases c with
    | activateReader =>
      exact .running asked gone ended term fun hin => ack (List.mem_cons_of_mem _ hin)
    | pipeTermAck => simp at ack
  | asked asked gone ended cs term toWriter ack =>
    rw [hcommands] at ack
    cases c with
    | activateReader =>
      exact .asked asked gone ended cs term toWriter fun hin => ack (List.mem_cons_of_mem _ hin)
    | pipeTermAck => simp at ack
  | gone asked gone ended toWriter waking cs ack toReader =>
    obtain ⟨rfl, rfl, rfl⟩ | ⟨cs', rfl, rfl⟩ :=
      cons_eq_append_singleton (hcommands.symm.trans toReader)
    · exact .ended asked gone rfl toWriter waking rfl
    · cases c with
      | activateReader =>
        exact .gone asked gone ended toWriter waking cs'
          (fun hin => ack (List.mem_cons_of_mem _ hin)) rfl
      | pipeTermAck => simp at ack
  | ended asked gone ended toWriter waking toReader =>
    rw [toReader] at hcommands
    cases hcommands

theorem writerCommand (h : Handshake s) (hlives : s.WriterLives) {c : WriterCommand}
    {rest : List WriterCommand} (hcommands : s.toWriter = c :: rest) :
    Handshake ({ s with toWriter := rest }.processWriter c) := by
  have hsame : ∀ n, SameEnds { s with toWriter := rest }
      ({ s with toWriter := rest }.processActivateWriter n) := by
    intro n
    unfold processActivateWriter
    dsimp only
    split <;> exact ⟨rfl, rfl, rfl, rfl, rfl, fun _ => rfl⟩
  cases h with
  | running asked gone ended term ack =>
    rw [hcommands] at term
    cases c with
    | activateWriter n =>
      apply Handshake.same _ (hsame n)
      exact .running asked gone ended (fun hin => term (List.mem_cons_of_mem _ hin)) ack
    | pipeTerm => simp at term
  | asked asked gone ended cs term toWriter ack =>
    obtain ⟨rfl, rfl, rfl⟩ | ⟨cs', rfl, rfl⟩ :=
      cons_eq_append_singleton (hcommands.symm.trans toWriter)
    · exact .gone asked rfl ended rfl hlives.2 s.toReader ack rfl
    · cases c with
      | activateWriter n =>
        apply Handshake.same _ (hsame n)
        exact .asked asked gone ended cs' (fun hin => term (List.mem_cons_of_mem _ hin)) rfl ack
      | pipeTerm => simp at term
  | gone _ gone _ _ _ _ _ _ => exact absurd (hlives.1.symm.trans gone) (by decide)
  | ended _ gone _ _ _ _ => exact absurd (hlives.1.symm.trans gone) (by decide)

/-- The writer is gone once the reader has asked, and nothing goes to it or comes from it. -/
theorem of_gone (h : Handshake s) (hgone : s.writer.terminated = true) :
    s.reader.terminating = true ∧ s.toWriter = [] ∧ s.waking = false := by
  cases h with
  | running _ gone _ _ _ => exact absurd (hgone.symm.trans gone) (by decide)
  | asked _ gone _ _ _ _ _ => exact absurd (hgone.symm.trans gone) (by decide)
  | gone asked _ _ toWriter waking _ _ _ => exact ⟨asked, toWriter, waking⟩
  | ended asked _ _ toWriter waking _ => exact ⟨asked, toWriter, waking⟩

/-- The reader is gone after the writer. -/
theorem of_ended (h : Handshake s) (hended : s.reader.terminated = true) :
    s.writer.terminated = true ∧ s.toReader = [] := by
  cases h with
  | running _ _ ended _ _ => exact absurd (hended.symm.trans ended) (by decide)
  | asked _ _ ended _ _ _ _ => exact absurd (hended.symm.trans ended) (by decide)
  | gone _ _ ended _ _ _ _ _ => exact absurd (hended.symm.trans ended) (by decide)
  | ended _ gone _ _ _ toReader => exact ⟨gone, toReader⟩

end Handshake

/-- A reader that has asked for the end is not used any more. -/
def ReadsBefore (s : Pipe) : PipeEvent → Prop
  | .read _ => s.reader.terminating = false
  | _ => True

theorem Handshake.step {hwm : Nat} {s s' : Pipe} {l : PipeEvent} (h : Handshake s)
    (hstep : ((piping hwm).restrict ReadsBefore).step s l s') : Handshake s' := by
  obtain ⟨hbefore, hstep⟩ := hstep
  cases l with
  | checkRead =>
    obtain ⟨-, rfl⟩ := hstep
    exact h.checkRead
  | read res =>
    obtain ⟨-, hread⟩ := hstep
    obtain rfl : s.read.2 = s' := congrArg Prod.snd hread
    exact h.read hbefore
  | terminateReader =>
    obtain ⟨-, rfl⟩ := hstep
    exact h.terminateReader
  | readerCommand c =>
    obtain ⟨-, rest, hcommands, rfl⟩ := hstep
    exact h.readerCommand hcommands
  | checkWrite =>
    obtain ⟨-, rfl⟩ := hstep
    exact h.same (sameEnds_checkWrite s)
  | write f ok =>
    obtain ⟨-, hwrite⟩ := hstep
    obtain rfl : (s.write f).2 = s' := congrArg Prod.snd hwrite
    exact h.same (sameEnds_write s f)
  | rollback =>
    obtain ⟨-, hrollback⟩ := hstep
    exact h.same (sameEnds_rollback hrollback)
  | flush =>
    obtain ⟨hlives, rfl⟩ := hstep
    exact h.same (sameEnds_flush hlives.1)
  | wake =>
    obtain ⟨hwaking, rfl⟩ := hstep
    exact h.wake hwaking
  | terminateWriter =>
    obtain ⟨hlives, hterminate⟩ := hstep
    exact h.same (sameEnds_terminateWriter hlives.1 hterminate)
  | writerCommand c =>
    obtain ⟨hlives, rest, hcommands, rfl⟩ := hstep
    exact h.writerCommand hlives hcommands

/-! ### The delimiter -/

/-- What a step does to the reader: it takes messages, or the delimiter, or is told to end. -/
def Takes (s : Pipe) (l : PipeEvent) (s' : Pipe) : Prop :=
  (s'.reader.terminating = s.reader.terminating ∧ ∃ items, .delimiter ∉ items ∧
    s'.pipe.handoff.taken = s.pipe.handoff.taken ++ items) ∨
  (s'.reader.terminating = true ∧
    s'.pipe.handoff.taken = s.pipe.handoff.taken ++ [.delimiter]) ∨
  (l = .terminateReader ∧ s'.reader.terminating = true ∧
    s'.pipe.handoff.taken = s.pipe.handoff.taken)

/-- No item is written, and the writer does not end. -/
structure KeepsWritten (s s' : Pipe) : Prop where
  completed : s'.pipe.handoff.completed = s.pipe.handoff.completed
  begun : s.pipe.handoff.begun = [] → s'.pipe.handoff.begun = []
  flushed : (s.waking = false → s.pipe.handoff.complete = []) →
    s'.waking = false → s'.pipe.handoff.complete = []
  terminating : s'.writer.terminating = s.writer.terminating

/-- What was there of a writer that has ended is the delimiter, and it is flushed. -/
structure Delimited (s : Pipe) : Prop where
  absent : s.writer.terminating = false → .delimiter ∉ s.pipe.handoff.completed
  last : s.writer.terminating = true → ∃ items, .delimiter ∉ items ∧
    s.pipe.handoff.completed = items ++ [.delimiter]
  begun : s.writer.terminating = true → s.pipe.handoff.begun = []
  flushed : s.writer.terminating = true → s.waking = false → s.pipe.handoff.complete = []

section reader
variable {hwm : Nat} {s s' : Pipe} {l : PipeEvent}

theorem Takes.idle (hasked : s'.reader.terminating = s.reader.terminating)
    (htaken : s'.pipe.handoff.taken = s.pipe.handoff.taken) : Takes s l s' :=
  .inl ⟨hasked, [], List.not_mem_nil, by rw [htaken, List.append_nil]⟩

theorem terminateReader_terminating (s : Pipe) : s.terminateReader.reader.terminating = true := by
  unfold Pipe.terminateReader
  split
  · next h => exact h
  · rfl

/-- What the writer has done is as it was. -/
theorem KeepsWritten.of_eq (hcompleted : s'.pipe.handoff.completed = s.pipe.handoff.completed)
    (hbegun : s'.pipe.handoff.begun = s.pipe.handoff.begun)
    (hcomplete : s'.pipe.handoff.complete = s.pipe.handoff.complete)
    (hterm : s'.writer.terminating = s.writer.terminating) (hwaking : s'.waking = s.waking) :
    KeepsWritten s s' where
  completed := hcompleted
  begun hnil := hbegun.trans hnil
  flushed hflushed hfalse := hcomplete.trans (hflushed (hwaking.symm.trans hfalse))
  terminating := hterm

theorem KeepsWritten.trans {s₁ : Pipe} (h : KeepsWritten s s₁) (h' : KeepsWritten s₁ s') :
    KeepsWritten s s' where
  completed := h'.completed.trans h.completed
  begun hnil := h'.begun (h.begun hnil)
  flushed hflushed := h'.flushed (h.flushed hflushed)
  terminating := h'.terminating.trans h.terminating

theorem terminateReader_keeps (s : Pipe) : KeepsWritten s s.terminateReader ∧
    s.terminateReader.pipe.handoff.taken = s.pipe.handoff.taken := by
  unfold Pipe.terminateReader
  split <;> exact ⟨.of_eq rfl rfl rfl rfl rfl, rfl⟩

/-- The delimiter is taken. -/
theorem takes_delimiter {p : YPipe Item} (hkeeps : KeepsWritten s { s with pipe := p })
    (htaken : p.handoff.taken = s.pipe.handoff.taken ++ [.delimiter]) :
    Takes s l { s with pipe := p }.terminateReader ∧
      KeepsWritten s { s with pipe := p }.terminateReader := by
  obtain ⟨hkeeps', htaken'⟩ := terminateReader_keeps { s with pipe := p }
  refine ⟨.inr (.inl ⟨terminateReader_terminating _, ?_⟩), hkeeps.trans hkeeps'⟩
  rw [htaken']
  exact htaken

theorem keepsWritten_read {p : YPipe Item} (hp : s.pipe.handoff.read.2 = p.handoff) :
    KeepsWritten s { s with pipe := p } := by
  refine .of_eq ?_ ?_ ?_ rfl rfl
  · show p.handoff.completed = _
    rw [← hp, Handoff.completed_read]
  · show p.handoff.begun = _
    rw [← hp, Handoff.begun_read]
  · show p.handoff.complete = _
    rw [← hp, Handoff.complete_read]

/-- A read takes what is first. -/
theorem read_takes (h : Flows hwm s) : Takes s l s.read.2 ∧ KeepsWritten s s.read.2 := by
  unfold Pipe.read
  split
  · exact ⟨.idle rfl rfl, .of_eq rfl rfl rfl rfl rfl⟩
  · cases hread : s.pipe.read with
    | mk res p =>
      obtain ⟨-, hhandoff, -⟩ := h.wakes.ok.read hread
      have htaken : p.handoff.taken = s.pipe.handoff.taken ++ res.toList :=
        Handoff.taken_read hhandoff
      have hkeeps : KeepsWritten s { s with pipe := p } :=
        keepsWritten_read (congrArg Prod.snd hhandoff)
      cases res with
      | none => exact ⟨.idle rfl (htaken.trans (List.append_nil _)),
          hkeeps.trans (.of_eq rfl rfl rfl rfl rfl)⟩
      | some i =>
        cases i with
        | delimiter => exact takes_delimiter hkeeps htaken
        | msg f =>
          exact ⟨.inl ⟨rfl, [.msg f], by simp, htaken⟩, hkeeps.trans (.of_eq rfl rfl rfl rfl rfl)⟩

theorem checkRead_takes (h : Flows hwm s) :
    Takes s l s.checkRead.2 ∧ KeepsWritten s s.checkRead.2 := by
  unfold Pipe.checkRead
  split
  · exact ⟨.idle rfl rfl, .of_eq rfl rfl rfl rfl rfl⟩
  · cases hcheck : s.pipe.checkRead with
    | mk ok p =>
      obtain ⟨hok, hhandoff, -⟩ := h.wakes.ok.checkRead hcheck
      cases ok with
      | false =>
        have hp : p.handoff = { s.pipe.handoff with asleep := true } :=
          Handoff.of_read_none (Handoff.read_of_checkRead_false hhandoff)
        have htaken : p.handoff.taken = s.pipe.handoff.taken := by rw [hp]
        have hkeeps : KeepsWritten s { s with pipe := p } := by
          refine .of_eq ?_ ?_ ?_ rfl rfl
          · show p.handoff.completed = _
            rw [hp]
            rfl
          · show p.handoff.begun = _
            rw [hp]
          · show p.handoff.complete = _
            rw [hp]
        exact ⟨.idle rfl htaken, hkeeps.trans (.of_eq rfl rfl rfl rfl rfl)⟩
      | true =>
        have hsame : p.handoff = s.pipe.handoff := Handoff.eq_of_checkRead_true hhandoff
        dsimp only
        split
        · next hdelimiter =>
          -- the delimiter is taken at once
          obtain ⟨v, rest, hready⟩ := Handoff.ready_of_checkRead_true hhandoff
          have hfront := front_of_ready (hsame ▸ hready)
          obtain rfl : v = .delimiter := Option.some.inj (hfront.symm.trans hdelimiter)
          cases hread : p.read with
          | mk res p' =>
            obtain ⟨-, hhandoff', -⟩ := hok.read hread
            rw [hsame] at hhandoff'
            have hkeeps : KeepsWritten s { s with pipe := p' } :=
              keepsWritten_read (congrArg Prod.snd hhandoff')
            have htaken := Handoff.taken_read hhandoff'
            rw [Handoff.read_cons hready] at hhandoff'
            obtain rfl : some Item.delimiter = res := congrArg Prod.fst hhandoff'
            exact takes_delimiter hkeeps htaken
        · refine ⟨.idle rfl (congrArg Handoff.taken hsame), ?_⟩
          exact .of_eq (congrArg Handoff.completed hsame) (congrArg Handoff.begun hsame)
            (congrArg Handoff.complete hsame) rfl rfl

end reader

section writer
variable {hwm : Nat} {s s' : Pipe}

theorem Delimited.keeps (h : Delimited s) (hkeeps : KeepsWritten s s') : Delimited s' where
  absent hterm := by
    rw [hkeeps.completed]
    exact h.absent (hkeeps.terminating.symm.trans hterm)
  last hterm := by
    rw [hkeeps.completed]
    exact h.last (hkeeps.terminating.symm.trans hterm)
  begun hterm := hkeeps.begun (h.begun (hkeeps.terminating.symm.trans hterm))
  flushed hterm := hkeeps.flushed (h.flushed (hkeeps.terminating.symm.trans hterm))

theorem Delimited.init (hwm : Nat) : Delimited (createPipe hwm) where
  absent _ := List.not_mem_nil
  last hterm := by cases hterm
  begun hterm := by cases hterm
  flushed hterm := by cases hterm

theorem checkWrite_keeps (s : Pipe) : KeepsWritten s s.checkWrite.2 ∧
    s.checkWrite.2.reader = s.reader ∧ s.checkWrite.2.pipe = s.pipe := by
  unfold Pipe.checkWrite
  split
  · exact ⟨.of_eq rfl rfl rfl rfl rfl, rfl, rfl⟩
  · split <;> exact ⟨.of_eq rfl rfl rfl rfl rfl, rfl, rfl⟩

/-- A flush that has its effect leaves nothing to flush. -/
theorem flushed_keeps {t : Pipe} (hp : s.pipe.handoff.flush.2 = t.pipe.handoff)
    (hterm : t.writer.terminating = s.writer.terminating) : KeepsWritten s t ∧
    t.pipe.handoff.taken = s.pipe.handoff.taken ∧ t.pipe.handoff.complete = [] := by
  have hcomplete : t.pipe.handoff.complete = [] := by rw [← hp, Handoff.complete_flush]
  refine ⟨⟨?_, ?_, fun _ _ => hcomplete, hterm⟩, ?_, hcomplete⟩
  · rw [← hp, Handoff.completed_flush]
  · rw [← hp, Handoff.begun_flush]
    exact fun hnil => hnil
  · rw [← hp, Handoff.taken_flush]

/-- Nothing is left to flush, unless the reader has to be woken. -/
theorem flush_keeps (hok : s.pipe.Ok) : KeepsWritten s s.flush ∧
    s.flush.pipe.handoff.taken = s.pipe.handoff.taken ∧
    (s.flush.waking = false → s.flush.pipe.handoff.complete = []) := by
  unfold Pipe.flush
  cases hflush : s.pipe.flush with
  | mk alive p =>
    cases alive with
    | false =>
      obtain ⟨rfl, -⟩ := hok.flush_false hflush
      refine ⟨⟨rfl, fun hnil => hnil, ?_, rfl⟩, rfl, ?_⟩
      · intro _ hfalse
        cases hfalse
      · intro hfalse
        cases hfalse
    | true =>
      obtain ⟨-, hhandoff⟩ := hok.flush_true hflush
      have hp : s.pipe.handoff.flush.2 = p.handoff := congrArg Prod.snd hhandoff
      obtain ⟨hkeeps, htaken, hcomplete⟩ :=
        flushed_keeps (t := { s with pipe := p, waking := false }) hp rfl
      exact ⟨hkeeps, htaken, fun _ => hcomplete⟩

theorem wake_keeps (h : Flows hwm s) (hwaking : s.waking = true) : KeepsWritten s s.wake ∧
    s.wake.pipe.handoff.taken = s.pipe.handoff.taken := by
  obtain ⟨-, hne⟩ := h.wakes.waking hwaking
  have hp : s.pipe.handoff.flush.2 = s.pipe.setC.handoff :=
    congrArg Prod.snd (h.wakes.ok.handoff_setC hne)
  obtain ⟨hkeeps, htaken, -⟩ := flushed_keeps (t := s.wake) hp rfl
  exact ⟨hkeeps, htaken⟩

/-- Nothing is begun any more. -/
theorem rollback_keeps (h : Flows hwm s) (hrollback : s.rollback = some s') : KeepsWritten s s' ∧
    s'.pipe.handoff.taken = s.pipe.handoff.taken := by
  obtain ⟨p, hall, -, hp, -⟩ := unwriteAll_begun h.wakes.ok h.counts.begun
  unfold Pipe.rollback at hrollback
  rw [hall] at hrollback
  obtain rfl : { s with pipe := p } = s' := Option.some.inj hrollback
  have hcomplete : p.handoff.complete = s.pipe.handoff.complete := by rw [hp]
  refine ⟨⟨?_, ?_, ?_, rfl⟩, ?_⟩
  · show p.handoff.completed = _
    rw [hp]
    rfl
  · intro _
    show p.handoff.begun = []
    rw [hp]
  · intro hflushed hfalse
    exact hcomplete.trans (hflushed hfalse)
  · show p.handoff.taken = _
    rw [hp]

/-- A writer that has ended writes nothing. -/
theorem Delimited.write (hd : Delimited s) (h : Flows hwm s) (f : Frame) :
    Delimited (s.write f).2 ∧ (s.write f).2.pipe.handoff.taken = s.pipe.handoff.taken := by
  obtain ⟨hkeeps, -, hpipe⟩ := checkWrite_keeps s
  unfold Pipe.write
  cases hcheck : s.checkWrite with
  | mk ok s₁ =>
    have hsnd : s.checkWrite.2 = s₁ := congrArg Prod.snd hcheck
    cases ok with
    | false =>
      rw [hsnd] at hkeeps hpipe
      exact ⟨hd.keeps hkeeps, by rw [hpipe]⟩
    | true =>
      have hfst : s.checkWrite.1 = true := congrArg Prod.fst hcheck
      obtain rfl : s = s₁ := (Counts.checkWrite_true hfst).symm.trans hsnd
      have hterm : s.writer.terminating = false := by
        rw [← Bool.not_eq_true]
        intro hterm
        have hfalse := h.counts.terminating hterm
        rw [(h.counts.room hfst).1] at hfalse
        cases hfalse
      obtain ⟨-, hhandoff⟩ := h.wakes.ok.write (.msg f) f.more
      have hcompleted := Handoff.completed_write s.pipe.handoff (.msg f) f.more
      have hbegun : Item.delimiter ∉ s.pipe.handoff.begun := by
        intro hin
        have hmore := h.counts.begun _ hin
        cases hmore
      constructor
      · refine ⟨?_, ?_, ?_, ?_⟩
        · intro _
          show .delimiter ∉ (s.pipe.write (.msg f) f.more).handoff.completed
          rw [hhandoff, hcompleted]
          split
          · exact hd.absent hterm
          · simp [hd.absent hterm, hbegun]
        · exact fun htrue => absurd (hterm.symm.trans htrue) (by decide)
        · exact fun htrue => absurd (hterm.symm.trans htrue) (by decide)
        · exact fun htrue => absurd (hterm.symm.trans htrue) (by decide)
      · show (s.pipe.write (.msg f) f.more).handoff.taken = _
        rw [hhandoff]
        cases f.more <;> rfl

/-- The delimiter is put behind the messages. -/
theorem Delimited.terminateWriter (hd : Delimited s) (h : Flows hwm s)
    (hterminate : s.terminateWriter = some s') :
    Delimited s' ∧ s'.pipe.handoff.taken = s.pipe.handoff.taken := by
  unfold Pipe.terminateWriter at hterminate
  split at hterminate
  · obtain rfl := Option.some.inj hterminate
    exact ⟨hd, rfl⟩
  · next hnot =>
    have hterm : s.writer.terminating = false := (Bool.not_eq_true _).mp hnot
    obtain ⟨p, hall, hok, hp, -⟩ := unwriteAll_begun h.wakes.ok h.counts.begun
    unfold Pipe.rollback at hterminate
    dsimp only at hterminate
    rw [hall] at hterminate
    obtain rfl := Option.some.inj hterminate
    obtain ⟨hok', hhandoff⟩ := hok.write .delimiter false
    have hcompleted := Handoff.completed_write p.handoff .delimiter false
    rw [← hhandoff] at hcompleted
    -- the state before the flush
    generalize ht : ({ s with
        pipe := p.write .delimiter false
        writer := { s.writer with terminating := true, active := false } } : Pipe) = t
    have htpipe : t.pipe = p.write .delimiter false := by rw [← ht]
    obtain ⟨hkeeps, htaken, hflushed⟩ := flush_keeps (s := t) (htpipe ▸ hok')
    have hterm' : t.flush.writer.terminating = true := by
      rw [hkeeps.terminating, ← ht]
    have hlast : t.pipe.handoff.completed = s.pipe.handoff.completed ++ [.delimiter] := by
      rw [htpipe, hcompleted, hp]
      rfl
    have hfinal : Delimited t.flush := by
      refine ⟨?_, ?_, ?_, fun _ => hflushed⟩
      · exact fun hfalse => absurd (hterm'.symm.trans hfalse) (by decide)
      · intro _
        exact ⟨s.pipe.handoff.completed, hd.absent hterm, hkeeps.completed.trans hlast⟩
      · intro _
        apply hkeeps.begun
        rw [htpipe, hhandoff]
        rfl
    have htaken' : t.flush.pipe.handoff.taken = s.pipe.handoff.taken := by
      rw [htaken, htpipe, hhandoff, hp]
      rfl
    rw [← ht] at hfinal htaken'
    exact ⟨hfinal, htaken'⟩

end writer

/-! ### All steps -/

section steps
variable {hwm : Nat} {s s' : Pipe} {l : PipeEvent}

/-- **Inversion**: what a step does to the items. -/
theorem Delimited.step (hd : Delimited s) (h : Flows hwm s) (hstep : (piping hwm).step s l s') :
    Delimited s' ∧ Takes s l s' := by
  cases l with
  | checkRead =>
    obtain ⟨-, rfl⟩ := hstep
    obtain ⟨htakes, hkeeps⟩ := checkRead_takes h
    exact ⟨hd.keeps hkeeps, htakes⟩
  | read res =>
    obtain ⟨-, hread⟩ := hstep
    obtain rfl : s.read.2 = s' := congrArg Prod.snd hread
    obtain ⟨htakes, hkeeps⟩ := read_takes h
    exact ⟨hd.keeps hkeeps, htakes⟩
  | terminateReader =>
    obtain ⟨-, rfl⟩ := hstep
    obtain ⟨hkeeps, htaken⟩ := terminateReader_keeps s
    exact ⟨hd.keeps hkeeps, .inr (.inr ⟨rfl, terminateReader_terminating s, htaken⟩)⟩
  | readerCommand c =>
    obtain ⟨-, rest, -, rfl⟩ := hstep
    cases c with
    | activateReader => exact ⟨hd.keeps (.of_eq rfl rfl rfl rfl rfl), .idle rfl rfl⟩
    | pipeTermAck => exact ⟨hd.keeps (.of_eq rfl rfl rfl rfl rfl), .idle rfl rfl⟩
  | checkWrite =>
    obtain ⟨-, rfl⟩ := hstep
    obtain ⟨hkeeps, hreader, hpipe⟩ := checkWrite_keeps s
    exact ⟨hd.keeps hkeeps, .idle (by rw [hreader]) (by rw [hpipe])⟩
  | write f ok =>
    obtain ⟨-, hwrite⟩ := hstep
    obtain rfl : (s.write f).2 = s' := congrArg Prod.snd hwrite
    obtain ⟨hdelimited, htaken⟩ := hd.write h f
    exact ⟨hdelimited, .idle (Handshake.sameEnds_write s f).asked htaken⟩
  | rollback =>
    obtain ⟨-, hrollback⟩ := hstep
    obtain ⟨hkeeps, htaken⟩ := rollback_keeps h hrollback
    exact ⟨hd.keeps hkeeps, .idle (Handshake.sameEnds_rollback hrollback).asked htaken⟩
  | flush =>
    obtain ⟨-, rfl⟩ := hstep
    obtain ⟨hkeeps, htaken, -⟩ := flush_keeps h.wakes.ok
    exact ⟨hd.keeps hkeeps, .idle rfl htaken⟩
  | wake =>
    obtain ⟨hwaking, rfl⟩ := hstep
    obtain ⟨hkeeps, htaken⟩ := wake_keeps h hwaking
    exact ⟨hd.keeps hkeeps, .idle rfl htaken⟩
  | terminateWriter =>
    obtain ⟨hlives, hterminate⟩ := hstep
    obtain ⟨hdelimited, htaken⟩ := hd.terminateWriter h hterminate
    exact ⟨hdelimited,
      .idle (Handshake.sameEnds_terminateWriter hlives.1 hterminate).asked htaken⟩
  | writerCommand c =>
    obtain ⟨-, rest, -, rfl⟩ := hstep
    cases c with
    | activateWriter n =>
      have hsame : KeepsWritten s ({ s with toWriter := rest }.processActivateWriter n) ∧
          ({ s with toWriter := rest }.processActivateWriter n).reader = s.reader ∧
          ({ s with toWriter := rest }.processActivateWriter n).pipe = s.pipe := by
        unfold processActivateWriter
        dsimp only
        split <;> exact ⟨.of_eq rfl rfl rfl rfl rfl, rfl, rfl⟩
      obtain ⟨hkeeps, hreader, hpipe⟩ := hsame
      exact ⟨hd.keeps hkeeps, .idle (congrArg PipeReader.terminating hreader)
        (congrArg (fun p : YPipe Item => p.handoff.taken) hpipe)⟩
    | pipeTerm => exact ⟨hd.keeps (.of_eq rfl rfl rfl rfl rfl), .idle rfl rfl⟩

end steps

/-! ### The invariant -/

section closing
variable {hwm : Nat} {s s' : Pipe} {l : PipeEvent}

/-- The delimiter is taken by a reader that ends. -/
def Unread (s : Pipe) : Prop :=
  s.reader.terminating = false → .delimiter ∉ s.pipe.handoff.taken

theorem Unread.step (h : Unread s) (htakes : Takes s l s') : Unread s' := by
  intro hasked
  obtain ⟨hsame, items, hitems, htaken⟩ | ⟨htrue, -⟩ | ⟨-, htrue, -⟩ := htakes
  · rw [htaken, List.mem_append]
    intro hin
    obtain hin | hin := hin
    · exact h (hsame.symm.trans hasked) hin
    · exact hitems hin
  · exact absurd (hasked.symm.trans htrue) (by decide)
  · exact absurd (hasked.symm.trans htrue) (by decide)

structure Closes (hwm : Nat) (s : Pipe) : Prop where
  flows : Flows hwm s
  handshake : Handshake s
  delimited : Delimited s
  unread : Unread s

theorem Closes.step (h : Closes hwm s)
    (hstep : ((piping hwm).restrict ReadsBefore).step s l s') : Closes hwm s' := by
  obtain ⟨hdelimited, htakes⟩ := h.delimited.step h.flows hstep.2
  exact ⟨h.flows.step hstep.2, h.handshake.step hstep, hdelimited, h.unread.step htakes⟩

theorem Closes.of_reachable (hs : Reachable ((piping hwm).restrict ReadsBefore) s) :
    Closes hwm s := by
  induction hs with
  | init hinit =>
    obtain rfl : _ = createPipe hwm := hinit
    exact ⟨.init hwm, .init hwm, .init hwm, fun _ => List.not_mem_nil⟩
  | step l _ hstep ih => exact ih.step hstep

/-! ### A reader that is not told to end -/

/-- The owner of the reader leaves the end to the writer. -/
def Untold (_ : Pipe) (l : PipeEvent) : Prop := l ≠ .terminateReader

theorem append_eq_nil_of_last {α : Type} {l₁ l₂ items : List α} {d : α}
    (h : l₁ ++ l₂ = items ++ [d]) (hd : d ∉ items) (hin : d ∈ l₁) : l₂ = [] := by
  obtain rfl | ⟨l, x, rfl⟩ := l₂.eq_nil_or_concat
  · rfl
  · rw [List.concat_eq_append, ← List.append_assoc] at h
    obtain ⟨hitems, -⟩ := List.append_inj' h rfl
    rw [← hitems] at hd
    exact absurd (List.mem_append_left _ hin) hd

/-- What ends such a reader is the delimiter, and so it has read everything. -/
theorem read_all (hs : Reachable ((piping hwm).restrict Untold) s) :
    Flows hwm s ∧ Delimited s ∧
      (s.reader.terminating = true → .delimiter ∈ s.pipe.handoff.taken) := by
  induction hs with
  | init hinit =>
    obtain rfl : _ = createPipe hwm := hinit
    refine ⟨.init hwm, .init hwm, ?_⟩
    intro hasked
    cases hasked
  | step l _ hstep ih =>
    obtain ⟨hflows, hdelimited, htaken⟩ := ih
    obtain ⟨hdelimited', htakes⟩ := hdelimited.step hflows hstep.2
    refine ⟨hflows.step hstep.2, hdelimited', ?_⟩
    intro hasked
    obtain ⟨hsame, items, -, htaken'⟩ | ⟨-, htaken'⟩ | ⟨htold, -⟩ := htakes
    · rw [htaken']
      exact List.mem_append_left _ (htaken (hsame.symm.trans hasked))
    · rw [htaken']
      simp
    · exact absurd htold hstep.1

theorem nothing_left (hs : Reachable ((piping hwm).restrict Untold) s)
    (hasked : s.reader.terminating = true) :
    s.pipe.handoff.ready ++ s.pipe.handoff.complete = [] := by
  obtain ⟨-, hdelimited, htaken⟩ := read_all hs
  have hin : .delimiter ∈ s.pipe.handoff.taken := htaken hasked
  have hterm : s.writer.terminating = true := by
    rw [← Bool.not_eq_false]
    intro hterm
    exact hdelimited.absent hterm (List.mem_append_left _ hin)
  obtain ⟨items, hitems, hcompleted⟩ := hdelimited.last hterm
  exact append_eq_nil_of_last hcompleted hitems hin

/-! ### The end is reached -/

/-- Steps that no owner asks for: reads, commands and the end of a flush. -/
def Passive : PipeEvent → Prop
  | .read _ | .readerCommand _ | .writerCommand _ | .wake => True
  | _ => False

/-- What there is still to be done. -/
def remaining (s : Pipe) : Nat :=
  3 * (s.pipe.handoff.ready ++ s.pipe.handoff.complete).length + 2 * s.toWriter.length +
    s.toReader.length + if s.waking then 2 else 0

/-- One end has asked. -/
def Asked (s : Pipe) : Prop := s.reader.terminating = true ∨ s.writer.terminating = true

/-- Some passive step is left, and it leaves less. -/
def Advances (hwm : Nat) (s : Pipe) : Prop :=
  ∃ l s', Passive l ∧ ((piping hwm).restrict ReadsBefore).step s l s' ∧ Asked s' ∧
    s'.remaining < s.remaining

theorem Closes.wake (h : Closes hwm s) (hasked : Asked s) (hwaking : s.waking = true) :
    Advances hwm s := by
  obtain ⟨hkeeps, htaken⟩ := wake_keeps h.flows hwaking
  refine ⟨.wake, s.wake, trivial, ⟨trivial, hwaking, rfl⟩, hasked, ?_⟩
  have hunread : s.wake.pipe.handoff.ready ++ s.wake.pipe.handoff.complete =
      s.pipe.handoff.ready ++ s.pipe.handoff.complete := by
    have hcompleted := hkeeps.completed
    unfold Handoff.completed at hcompleted
    rw [htaken] at hcompleted
    exact List.append_cancel_left hcompleted
  have htoReader : s.wake.toReader.length = s.toReader.length + 1 := by
    show (s.toReader ++ [ReaderCommand.activateReader]).length = _
    rw [List.length_append]
    rfl
  have htoWriter : s.wake.toWriter = s.toWriter := rfl
  have hawake : s.wake.waking = false := rfl
  unfold remaining
  rw [hunread, htoReader, htoWriter, hawake, hwaking]
  simp only [if_true, Bool.false_eq_true, if_false]
  omega

theorem Closes.readerCommand (hasked : Asked s) (hlives : s.ReaderLives) {c : ReaderCommand}
    {rest : List ReaderCommand} (hcommands : s.toReader = c :: rest) : Advances hwm s := by
  have hfields : Asked ({ s with toReader := rest }.processReader c) ∧
      ({ s with toReader := rest }.processReader c).remaining =
        { s with toReader := rest }.remaining := by
    cases c with
    | activateReader => exact ⟨hasked, rfl⟩
    | pipeTermAck => exact ⟨hasked, rfl⟩
  refine ⟨.readerCommand c, _, trivial, ⟨trivial, hlives, rest, hcommands, rfl⟩, hfields.1, ?_⟩
  rw [hfields.2]
  unfold remaining
  rw [hcommands, List.length_cons]
  dsimp only
  omega

theorem Closes.writerCommand (hasked : s.reader.terminating = true) (hlives : s.WriterLives)
    {c : WriterCommand} {rest : List WriterCommand} (hcommands : s.toWriter = c :: rest) :
    Advances hwm s := by
  refine ⟨.writerCommand c, _, trivial, ⟨trivial, hlives, rest, hcommands, rfl⟩, ?_⟩
  cases c with
  | activateWriter n =>
    have hfields : ({ s with toWriter := rest }.processActivateWriter n).reader = s.reader ∧
        ({ s with toWriter := rest }.processActivateWriter n).remaining =
          { s with toWriter := rest }.remaining := by
      unfold processActivateWriter
      dsimp only
      split <;> exact ⟨rfl, rfl⟩
    refine ⟨.inl ((congrArg PipeReader.terminating hfields.1).trans hasked), ?_⟩
    show ({ s with toWriter := rest }.processActivateWriter n).remaining < _
    rw [hfields.2]
    unfold remaining
    rw [hcommands, List.length_cons]
    dsimp only
    omega
  | pipeTerm =>
    refine ⟨.inl hasked, ?_⟩
    have htoReader : ({ s with toWriter := rest }.processPipeTerm).toReader.length =
        s.toReader.length + 1 := by
      show (s.toReader ++ [ReaderCommand.pipeTermAck]).length = _
      rw [List.length_append]
      rfl
    have hsame : ({ s with toWriter := rest }.processPipeTerm).pipe = s.pipe ∧
        ({ s with toWriter := rest }.processPipeTerm).toWriter = rest ∧
        ({ s with toWriter := rest }.processPipeTerm).waking = s.waking := ⟨rfl, rfl, rfl⟩
    obtain ⟨hpipe, htoWriter, hwaking⟩ := hsame
    show ({ s with toWriter := rest }.processPipeTerm).remaining < _
    unfold remaining
    rw [htoReader, hpipe, htoWriter, hwaking, hcommands, List.length_cons]
    omega

/-- The reader comes nearer to the delimiter. -/
theorem Closes.read (h : Closes hwm s) (hasked : s.reader.terminating = false)
    (hterm : s.writer.terminating = true) (hlives : s.ReaderLives)
    (hactive : s.reader.active = true) {v : Item} {rest : List Item}
    (hready : s.pipe.handoff.ready = v :: rest) : Advances hwm s := by
  obtain ⟨-, hkeeps⟩ := read_takes (l := .read s.read.1) h.flows
  refine ⟨.read s.read.1, s.read.2, trivial, ⟨hasked, hlives, rfl⟩,
    .inr (hkeeps.terminating.trans hterm), ?_⟩
  cases hread : s.pipe.read with
  | mk res p =>
    obtain ⟨-, hhandoff, -⟩ := h.flows.wakes.ok.read hread
    rw [Handoff.read_cons hready] at hhandoff
    obtain rfl : some v = res := congrArg Prod.fst hhandoff
    have hp : _ = p.handoff := congrArg Prod.snd hhandoff
    have hitems : (p.handoff.ready ++ p.handoff.complete).length + 1 =
        (s.pipe.handoff.ready ++ s.pipe.handoff.complete).length := by
      rw [← hp, hready]
      simp only [List.cons_append, List.length_cons]
    -- one item less, and at most one command more
    have hafter : s.read.2.pipe = p ∧ s.read.2.toWriter.length ≤ s.toWriter.length + 1 ∧
        s.read.2.toReader = s.toReader ∧ s.read.2.waking = s.waking := by
      unfold Pipe.read
      rw [if_neg (by simp [hactive]), hread]
      cases v with
      | delimiter =>
        have hended : { s with pipe := p }.terminateReader =
            { s with
              pipe := p
              reader := { s.reader with active := false, terminating := true }
              toWriter := s.toWriter ++ [.pipeTerm] } := by
          unfold Pipe.terminateReader
          rw [if_neg (by simp [hasked])]
        dsimp only
        rw [hended]
        refine ⟨rfl, ?_, rfl, rfl⟩
        show (s.toWriter ++ [WriterCommand.pipeTerm]).length ≤ _
        simp
      | msg f =>
        have hlength : ∀ (P : Prop) [Decidable P] (n : Nat),
            (if P then s.toWriter ++ [WriterCommand.activateWriter n]
              else s.toWriter).length ≤ s.toWriter.length + 1 := by
          intro P _ n
          split
          · simp
          · omega
        exact ⟨rfl, hlength _ _, rfl, rfl⟩
    obtain ⟨hpipe, htoWriter, htoReader, hwaking⟩ := hafter
    unfold remaining
    rw [hpipe, htoReader, hwaking]
    omega

theorem Closes.advances (h : Closes hwm s) (hasked : Asked s)
    (hgoal : ¬ s.reader.terminated = true) : Advances hwm s := by
  have hlives : s.ReaderLives := (Bool.not_eq_true _).mp hgoal
  by_cases hwaking : s.waking = true
  · exact h.wake hasked hwaking
  · have hawake : s.waking = false := (Bool.not_eq_true _).mp hwaking
    cases h.handshake with
    | running asked gone ended term ack =>
      -- the delimiter is there for the reader
      have hterm : s.writer.terminating = true := by
        obtain htrue | htrue := hasked
        · exact absurd (asked.symm.trans htrue) (by decide)
        · exact htrue
      obtain ⟨items, -, hcompleted⟩ := h.delimited.last hterm
      have hready : s.pipe.handoff.ready ≠ [] := by
        intro hnil
        have htaken : s.pipe.handoff.taken = items ++ [.delimiter] := by
          rw [← hcompleted, Handoff.completed, hnil, h.delimited.flushed hterm hawake]
          simp
        apply h.unread asked
        rw [htaken]
        simp
      cases hactive : s.reader.active with
      | true =>
        obtain ⟨v, rest, hcons⟩ := List.exists_cons_of_ne_nil hready
        exact h.read asked hterm hlives hactive hcons
      | false =>
        cases hcommands : s.toReader with
        | nil =>
          exact absurd (h.flows.nothing_ready hactive asked (by simp [hcommands])) hready
        | cons c rest => exact Closes.readerCommand hasked hlives hcommands
    | asked asked gone ended cs term toWriter ack =>
      cases hcommands : s.toWriter with
      | nil =>
        rw [hcommands] at toWriter
        exact absurd toWriter (by simp)
      | cons c rest => exact Closes.writerCommand asked ⟨gone, hawake⟩ hcommands
    | gone asked gone ended toWriter waking cs ack toReader =>
      cases hcommands : s.toReader with
      | nil =>
        rw [hcommands] at toReader
        exact absurd toReader (by simp)
      | cons c rest => exact Closes.readerCommand hasked hlives hcommands
    | ended _ _ ended _ _ _ => exact absurd ended hgoal

end closing

end Pipe

/-- **The end of a pipe.** In every order of the steps of the two threads, if a reader that
    has asked for the end is not read from: no command is on its way to an end that is
    gone, and none will be; the writer is gone before the reader, which asked for it; once
    either end has asked, reads, commands and the end of a flush lead to the end of both;
    and a reader that was not told to end has read all that was written. -/
theorem pipe_closes (hwm : Nat) (s : Pipe)
    (hs : Reachable ((piping hwm).restrict Pipe.ReadsBefore) s) :
    (s.writer.terminated = true →
      s.reader.terminating = true ∧ s.toWriter = [] ∧ s.waking = false) ∧
    (s.reader.terminated = true → s.writer.terminated = true ∧ s.toReader = []) ∧
    (s.reader.terminating = true ∨ s.writer.terminating = true →
      ∃ ls s', (∀ l ∈ ls, Pipe.Passive l) ∧
        Run ((piping hwm).restrict Pipe.ReadsBefore) s ls s' ∧
        s'.reader.terminated = true ∧ s'.writer.terminated = true) ∧
    (Reachable ((piping hwm).restrict Pipe.Untold) s → s.reader.terminating = true →
      s.pipe.handoff.ready ++ s.pipe.handoff.complete = []) := by
  have h := Pipe.Closes.of_reachable hs
  refine ⟨h.handshake.of_gone, h.handshake.of_ended, ?_, Pipe.nothing_left⟩
  intro hasked
  have hstep : ∀ s, (Pipe.Closes hwm s ∧ Pipe.Asked s) → ¬ s.reader.terminated = true →
      ∃ l s', Pipe.Passive l ∧ ((piping hwm).restrict Pipe.ReadsBefore).step s l s' ∧
        (Pipe.Closes hwm s' ∧ Pipe.Asked s') ∧ s'.remaining < s.remaining := by
    intro s ⟨hcloses, hasked⟩ hlives
    obtain ⟨l, s', hpassive, hstep, hasked', hlt⟩ := hcloses.advances hasked hlives
    exact ⟨l, s', hpassive, hstep, ⟨hcloses.step hstep, hasked'⟩, hlt⟩
  obtain ⟨ls, s', hpassive, hrun, ⟨hcloses, -⟩, hended⟩ :=
    progress Pipe.remaining hstep ⟨h, hasked⟩
  exact ⟨ls, s', hpassive, hrun, hended, (hcloses.handshake.of_ended hended).1⟩

/-- A pipe that is not used. -/
theorem pipe_closes_unused : ∃ ls s', Run ((piping 2).restrict Pipe.ReadsBefore)
    (createPipe 2).terminateReader ls s' ∧ s'.writer.terminated = true := by
  have hasked : Reachable ((piping 2).restrict Pipe.ReadsBefore) (createPipe 2).terminateReader :=
    .step .terminateReader (.init rfl) ⟨trivial, rfl, rfl⟩
  obtain ⟨ls, s', -, hrun, -, hgone⟩ := (pipe_closes 2 _ hasked).2.2.1 (.inl rfl)
  exact ⟨ls, s', hrun, hgone⟩

end RefereeBox.Zmq
