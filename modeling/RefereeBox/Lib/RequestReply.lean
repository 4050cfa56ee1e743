import Mathlib.Logic.Function.Basic
import RefereeBox.Lib.Transition

/-! # Request and Reply

  A server that answers any number of peers, one request at a time. A message
  is an envelope and its parts; a reply goes into the envelope of its request.
  The parts are received and sent one by one. A reply is lost if the peer has
  disconnected since its request was taken.

  In every reachable state the replies to a connected peer are those to its
  first requests, in their order, and at most one request more is taken.
-/

namespace RequestReply

open Transition

variable {Peer Env Part : Type}

/-! ### State -/

structure Message (Env Part : Type) where
  env : Env
  parts : List Part
deriving DecidableEq, Repr

/-- Where the server is with the request that it has taken. There is no asker any
    more after a disconnection. -/
inductive Turn (Peer Env Part : Type) where
  | idle
  | receiving (asker : Option Peer) (env : Env) (rest : List Part)
  | answering (asker : Option Peer) (env : Env) (begun : List Part)
deriving DecidableEq, Repr

namespace Turn

def asker : Turn Peer Env Part → Option Peer
  | idle => none
  | receiving asker _ _ => asker
  | answering asker _ _ => asker

/-- Behind a part of a request. -/
def afterPart (asker : Option Peer) (env : Env) (rest : List Part) : Turn Peer Env Part :=
  if rest.isEmpty then answering asker env [] else receiving asker env rest

theorem afterPart_asker (asker : Option Peer) (env : Env) (rest : List Part) :
    (afterPart asker env rest).asker = asker := by
  unfold afterPart
  split <;> rfl

def drop [DecidableEq Peer] (p : Peer) : Turn Peer Env Part → Turn Peer Env Part
  | idle => idle
  | receiving asker env rest => receiving (if asker = some p then none else asker) env rest
  | answering asker env begun => answering (if asker = some p then none else asker) env begun

end Turn

/-- `taken` and `replies` are of the present connection of each peer. -/
structure Server (Peer Env Part : Type) where
  waiting : Peer → List (Message Env Part) := fun _ => []
  connected : Peer → Bool := fun _ => false
  turn : Turn Peer Env Part := .idle
  taken : Peer → List (Message Env Part) := fun _ => []
  replies : Peer → List (Message Env Part) := fun _ => []

/-! ### Events -/

inductive Event (Peer Env Part : Type) where
  | connect (p : Peer)
  | disconnect (p : Peer)
  | request (p : Peer) (m : Message Env Part)
  /-- A part of a request is handed out; `more` says that it is not the last. -/
  | receive (part : Part) (more : Bool)
  | send (part : Part) (more : Bool)
deriving DecidableEq, Repr

variable [DecidableEq Peer]

namespace Server

variable (s : Server Peer Env Part)

def connect (p : Peer) : Server Peer Env Part :=
  { s with
    connected := Function.update s.connected p true
    taken := Function.update s.taken p []
    replies := Function.update s.replies p [] }

def disconnect (p : Peer) : Server Peer Env Part :=
  { s with connected := Function.update s.connected p false, turn := s.turn.drop p }

def request (p : Peer) (m : Message Env Part) : Server Peer Env Part :=
  { s with waiting := Function.update s.waiting p (s.waiting p ++ [m]) }

/-- The first part of a request of `p` is received. -/
def take (p : Peer) (m : Message Env Part) (queue : List (Message Env Part)) (rest : List Part) :
    Server Peer Env Part :=
  { s with
    waiting := Function.update s.waiting p queue
    turn := .afterPart (if s.connected p then some p else none) m.env rest
    taken := Function.update s.taken p (s.taken p ++ [m]) }

/-- The reply is complete. -/
def reply (asker : Option Peer) (m : Message Env Part) : Server Peer Env Part :=
  match asker with
  | none => { s with turn := .idle }
  | some p =>
    { s with turn := .idle, replies := Function.update s.replies p (s.replies p ++ [m]) }

end Server

def serving : System (Server Peer Env Part) (Event Peer Env Part) where
  init s := s = {}
  step s l s' :=
    match l with
    | .connect p => s.connected p = false ∧ s.waiting p = [] ∧ s' = s.connect p
    | .disconnect p => s' = s.disconnect p
    | .request p m => m.parts ≠ [] ∧ s' = s.request p m
    | .receive part more =>
      (∃ p m queue rest, s.turn = .idle ∧ s.waiting p = m :: queue ∧ m.parts = part :: rest ∧
        more = !rest.isEmpty ∧ s' = s.take p m queue rest) ∨
      (∃ asker env rest, s.turn = .receiving asker env (part :: rest) ∧ more = !rest.isEmpty ∧
        s' = { s with turn := .afterPart asker env rest })
    | .send part more =>
      ∃ asker env begun, s.turn = .answering asker env begun ∧
        s' = if more then { s with turn := .answering asker env (begun ++ [part]) }
          else s.reply asker ⟨env, begun ++ [part]⟩

/-! ### Replies and requests -/

/-- The envelope of the request that is taken, if `p` has asked it. -/
def Turn.unanswered (p : Peer) : Turn Peer Env Part → List Env
  | .idle => []
  | .receiving asker env _ => if asker = some p then [env] else []
  | .answering asker env _ => if asker = some p then [env] else []

theorem Turn.unanswered_length (p : Peer) (t : Turn Peer Env Part) :
    (t.unanswered p).length ≤ 1 := by
  have hone : ∀ (asker : Option Peer) (env : Env),
      (if asker = some p then [env] else []).length ≤ 1 := by
    intro asker env
    split
    · exact Nat.le_refl 1
    · exact Nat.zero_le 1
  cases t with
  | idle => exact Nat.zero_le 1
  | receiving asker env rest => exact hone asker env
  | answering asker env begun => exact hone asker env

/-- The invariant. -/
structure Answered (s : Server Peer Env Part) : Prop where
  asker : ∀ p, s.turn.asker = some p → s.connected p = true
  replies : ∀ p, s.connected p = true →
    (s.taken p).map Message.env = (s.replies p).map Message.env ++ s.turn.unanswered p

namespace Answered

variable {s s' : Server Peer Env Part}

theorem init : Answered ({} : Server Peer Env Part) where
  asker _ h := absurd h (by simp [Turn.asker])
  replies _ h := absurd h (by simp)

theorem unanswered_of_asker {t : Turn Peer Env Part} {p : Peer} (h : t.asker ≠ some p) :
    t.unanswered p = [] := by
  cases t with
  | idle => rfl
  | receiving asker env rest => exact if_neg h
  | answering asker env begun => exact if_neg h

theorem unanswered_afterPart (p : Peer) (asker : Option Peer) (env : Env) (rest : List Part) :
    (Turn.afterPart asker env rest).unanswered p = if asker = some p then [env] else [] := by
  unfold Turn.afterPart
  split <;> rfl

theorem drop_asker (p : Peer) (t : Turn Peer Env Part) :
    (t.drop p).asker = if t.asker = some p then none else t.asker := by
  cases t with
  | idle => rfl
  | receiving asker env rest => rfl
  | answering asker env begun => rfl

theorem drop_unanswered {p q : Peer} (hne : q ≠ p) (t : Turn Peer Env Part) :
    (t.drop p).unanswered q = t.unanswered q := by
  have hasker : ∀ asker : Option Peer, ((if asker = some p then none else asker) = some q) ↔
      asker = some q := by
    intro asker
    split
    · next heq =>
      rw [heq]
      simp [Ne.symm hne]
    · exact Iff.rfl
  cases t with
  | idle => rfl
  | receiving asker env rest => simp only [Turn.drop, Turn.unanswered, hasker]
  | answering asker env begun => simp only [Turn.drop, Turn.unanswered, hasker]

theorem connect (h : Answered s) {p : Peer} (hp : s.connected p = false) :
    Answered (s.connect p) where
  asker q hq := by
    by_cases heq : q = p
    · rw [heq]
      exact Function.update_self ..
    · show Function.update s.connected p true q = true
      rw [Function.update_of_ne heq]
      exact h.asker q hq
  replies q hq := by
    by_cases heq : q = p
    · subst heq
      have hnone : s.turn.asker ≠ some q := by
        intro hasker
        rw [h.asker q hasker] at hp
        cases hp
      show (Function.update s.taken q [] q).map _ = (Function.update s.replies q [] q).map _ ++ _
      rw [Function.update_self, Function.update_self]
      exact (unanswered_of_asker hnone).symm
    · change Function.update s.connected p true q = true at hq
      show (Function.update s.taken p [] q).map _ = (Function.update s.replies p [] q).map _ ++ _
      rw [Function.update_of_ne heq] at hq ⊢
      rw [Function.update_of_ne heq]
      exact h.replies q hq

theorem disconnect (h : Answered s) (p : Peer) : Answered (s.disconnect p) where
  asker q hq := by
    have hasker : (if s.turn.asker = some p then none else s.turn.asker) = some q :=
      (drop_asker p s.turn).symm.trans hq
    split at hasker
    · cases hasker
    · next hne =>
      have heq : q ≠ p := fun heq => hne (heq ▸ hasker)
      show Function.update s.connected p false q = true
      rw [Function.update_of_ne heq]
      exact h.asker q hasker
  replies q hq := by
    change Function.update s.connected p false q = true at hq
    by_cases heq : q = p
    · rw [heq, Function.update_self] at hq
      cases hq
    · rw [Function.update_of_ne heq] at hq
      show (s.taken q).map _ = (s.replies q).map _ ++ (s.turn.drop p).unanswered q
      rw [drop_unanswered heq]
      exact h.replies q hq

theorem take (h : Answered s) (hidle : s.turn = .idle) (p : Peer) (m : Message Env Part)
    (queue : List (Message Env Part)) (rest : List Part) : Answered (s.take p m queue rest) where
  asker q hq := by
    have hasker := (Turn.afterPart_asker _ _ _).symm.trans hq
    split at hasker
    · next hp =>
      cases hasker
      exact hp
    · cases hasker
  replies q hq := by
    change s.connected q = true at hq
    have hreplies := h.replies q hq
    rw [hidle, Turn.unanswered, List.append_nil] at hreplies
    show (Function.update s.taken p (s.taken p ++ [m]) q).map _ = (s.replies q).map _ ++ _
    rw [show (s.take p m queue rest).turn = Turn.afterPart _ _ _ from rfl, unanswered_afterPart]
    by_cases heq : q = p
    · subst heq
      rw [Function.update_self, List.map_append, hreplies, if_pos hq, if_pos rfl]
      rfl
    · have hne : (if s.connected p = true then some p else none) ≠ some q := by
        split
        · exact fun hp => heq (Option.some.inj hp).symm
        · exact fun hp => by cases hp
      rw [Function.update_of_ne heq, hreplies, if_neg hne, List.append_nil]

theorem reply (h : Answered s) {asker : Option Peer} {env : Env} {begun parts : List Part}
    (hturn : s.turn = .answering asker env begun) : Answered (s.reply asker ⟨env, parts⟩) := by
  cases asker with
  | none =>
    exact {
      asker := fun q hq => absurd hq (by simp [Server.reply, Turn.asker])
      replies := by
        intro q hq
        have hreplies := h.replies q hq
        rw [hturn] at hreplies
        exact hreplies }
  | some p =>
    exact {
      asker := fun q hq => absurd hq (by simp [Server.reply, Turn.asker])
      replies := by
        intro q hq
        have hreplies := h.replies q hq
        rw [hturn] at hreplies
        show _ = (Function.update s.replies p (s.replies p ++ [⟨env, parts⟩]) q).map _ ++ []
        by_cases heq : q = p
        · subst heq
          rw [Function.update_self, List.map_append, List.append_nil]
          exact hreplies.trans (by rw [Turn.unanswered, if_pos rfl]; rfl)
        · rw [Function.update_of_ne heq]
          exact hreplies.trans (by
            rw [Turn.unanswered, if_neg fun hp => heq (Option.some.inj hp).symm]) }

/-- Only the part of the turn changes. -/
theorem turn (h : Answered s) {t : Turn Peer Env Part} (hasker : t.asker = s.turn.asker)
    (hunanswered : ∀ p, t.unanswered p = s.turn.unanswered p) : Answered { s with turn := t } where
  asker p hp := h.asker p (hasker.symm.trans hp)
  replies p hp := by
    rw [hunanswered]
    exact h.replies p hp

theorem step (h : Answered s) {l : Event Peer Env Part} (hstep : serving.step s l s') :
    Answered s' := by
  cases l with
  | connect p =>
    obtain ⟨hp, -, rfl⟩ := hstep
    exact h.connect hp
  | disconnect p =>
    obtain rfl : s' = s.disconnect p := hstep
    exact h.disconnect p
  | request p m =>
    obtain ⟨-, rfl⟩ := hstep
    exact ⟨h.asker, h.replies⟩
  | receive part more =>
    obtain ⟨p, m, queue, rest, hidle, -, -, -, rfl⟩ | ⟨asker, env, rest, hturn, -, rfl⟩ := hstep
    · exact h.take hidle p m queue rest
    · apply h.turn
      · rw [Turn.afterPart_asker, hturn]
        rfl
      · intro p
        rw [unanswered_afterPart, hturn]
        rfl
  | send part more =>
    obtain ⟨asker, env, begun, hturn, rfl⟩ := hstep
    cases more with
    | true =>
      apply h.turn
      · rw [hturn]
        rfl
      · intro p
        rw [hturn]
        rfl
    | false => exact h.reply hturn

theorem of_reachable (hs : Reachable serving s) : Answered s := by
  induction hs with
  | init h =>
    rw [show _ = ({} : Server Peer Env Part) from h]
    exact init
  | step l _ hstep ih => exact ih.step hstep

end Answered

end RequestReply
