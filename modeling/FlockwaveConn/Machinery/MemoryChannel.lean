import Mathlib.Data.List.Basic
import Mathlib.Tactic.TypeStar

/-!
# Machinery/MemoryChannel — a FIFO channel with a bounded buffer and two ends

Tasks send values into one end and receive them from the other.  A sender that finds the buffer full
waits, and so does a receiver that finds it empty; a value meets a waiting receiver directly.  Each
end is closed once and for all: closing the sending end ends the receivers that wait, closing the
receiving end the senders that wait, and what is in the buffer is lost.

The channel remembers what went in and what came out, and `Fifo` says that the two agree.
-/

/-- A channel, with the tasks that wait at its ends. -/
structure MemoryChannel (τ α : Type*) where
  buffer : List α
  sendClosed : Bool
  receiveClosed : Bool
  /-- The tasks that wait to send, with their values, first come first. -/
  senders : List (τ × α)
  receivers : List τ
  /-- What went in, oldest first. -/
  sent : List α
  /-- What came out, oldest first. -/
  received : List α
  /-- The tasks that a closed end has failed. -/
  failed : List τ

namespace MemoryChannel

variable {τ α : Type*}

/-- Open, empty and unused. -/
def init : MemoryChannel τ α := ⟨[], false, false, [], [], [], [], []⟩

/-- A task sends a value into a channel of the given capacity. -/
def send (capacity : ℕ) (t : τ) (x : α) (c : MemoryChannel τ α) : MemoryChannel τ α :=
  if c.sendClosed || c.receiveClosed then { c with failed := c.failed ++ [t] }
  else match c.receivers with
    | _ :: rs =>
      { c with receivers := rs, sent := c.sent ++ [x], received := c.received ++ [x] }
    | [] =>
      if c.buffer.length < capacity then
        { c with buffer := c.buffer ++ [x], sent := c.sent ++ [x] }
      else { c with senders := c.senders ++ [(t, x)] }

/-- The first of the waiting senders gets its value into the buffer. -/
def letIn (c : MemoryChannel τ α) : MemoryChannel τ α :=
  match c.senders with
  | (_, x) :: ss => { c with senders := ss, buffer := c.buffer ++ [x], sent := c.sent ++ [x] }
  | [] => c

/-- A task takes the next value from the buffer, if there is one. -/
def take (t : τ) (c : MemoryChannel τ α) : MemoryChannel τ α :=
  match c.buffer with
  | x :: xs => { c with buffer := xs, received := c.received ++ [x] }
  | [] =>
    if c.sendClosed then { c with failed := c.failed ++ [t] }
    else { c with receivers := c.receivers ++ [t] }

/-- A task receives a value. -/
def receive (t : τ) (c : MemoryChannel τ α) : MemoryChannel τ α :=
  if c.receiveClosed then { c with failed := c.failed ++ [t] } else c.letIn.take t

/-- The sending end is closed. -/
def closeSend (c : MemoryChannel τ α) : MemoryChannel τ α :=
  if c.sendClosed then c
  else
    { c with
      sendClosed := true
      senders := []
      receivers := []
      failed := c.failed ++ c.senders.map Prod.fst ++ c.receivers }

/-- The receiving end is closed. -/
def closeReceive (c : MemoryChannel τ α) : MemoryChannel τ α :=
  if c.receiveClosed then c
  else
    { c with
      receiveClosed := true
      buffer := []
      senders := []
      receivers := []
      failed := c.failed ++ c.receivers ++ c.senders.map Prod.fst }

/-- A task stops waiting. -/
def cancel [DecidableEq τ] (t : τ) (c : MemoryChannel τ α) : MemoryChannel τ α :=
  { c with
    senders := c.senders.filter fun x => x.1 ≠ t
    receivers := c.receivers.filter (· ≠ t) }

/-- The task waits at an end. -/
def Waits (c : MemoryChannel τ α) (t : τ) : Prop := t ∈ c.senders.map Prod.fst ∨ t ∈ c.receivers

instance [DecidableEq τ] (c : MemoryChannel τ α) (t : τ) : Decidable (c.Waits t) :=
  inferInstanceAs (Decidable (_ ∨ _))

/-! ## First in, first out -/

/-- **What came out is what went in, in the same order.** -/
structure Fifo (c : MemoryChannel τ α) : Prop where
  /-- What is not out yet is in the buffer, unless the receiving end is closed. -/
  order : c.received ++ c.buffer = c.sent ∨ c.receiveClosed = true ∧ c.received <+: c.sent
  /-- Receivers wait at an empty buffer only. -/
  idle : c.receivers ≠ [] → c.buffer = []

namespace Fifo

variable {c : MemoryChannel τ α}

theorem isPrefix (h : c.Fifo) : c.received <+: c.sent := by
  rcases h.order with h | h
  · exact h ▸ List.prefix_append _ _
  · exact h.2

theorem init : (init : MemoryChannel τ α).Fifo := ⟨.inl rfl, fun _ => rfl⟩

/-- While the receiving end is open nothing is lost. -/
theorem eq_of_open (h : c.Fifo) (ho : c.receiveClosed = false) :
    c.received ++ c.buffer = c.sent := by
  rcases h.order with h | h
  · exact h
  · exact absurd (ho.symm.trans h.1) (by decide)

theorem send (h : c.Fifo) (capacity : ℕ) (t : τ) (x : α) : (c.send capacity t x).Fifo := by
  unfold MemoryChannel.send
  split
  · exact ⟨h.order, h.idle⟩
  next hclosed =>
  have hopen : c.receiveClosed = false := by simp_all
  have horder := h.eq_of_open hopen
  split
  · next r rs hr =>
    -- the value meets a receiver, so the buffer is empty
    have hempty : c.buffer = [] := h.idle (by simp [hr])
    rw [hempty, List.append_nil] at horder
    exact ⟨.inl (by simp [hempty, horder]), fun _ => hempty⟩
  · next hr =>
    split
    · exact ⟨.inl (by rw [← List.append_assoc, horder]), fun hne => absurd hr hne⟩
    · exact ⟨.inl horder, h.idle⟩

theorem letIn (h : c.Fifo) (ho : c.receiveClosed = false) :
    c.letIn.received ++ c.letIn.buffer = c.letIn.sent := by
  have horder := h.eq_of_open ho
  unfold MemoryChannel.letIn
  split
  · exact (List.append_assoc ..).symm.trans (congrArg (· ++ _) horder)
  · exact horder

theorem receive (h : c.Fifo) (t : τ) : (c.receive t).Fifo := by
  unfold MemoryChannel.receive
  split
  · exact ⟨h.order, h.idle⟩
  next hclosed =>
  have horder := h.letIn (by simpa using hclosed)
  have hidle : c.letIn.receivers ≠ [] → c.letIn.buffer.length ≤ 1 := by
    unfold MemoryChannel.letIn
    split
    · exact fun hr => by simp [h.idle hr]
    · exact fun hr => by simp [h.idle hr]
  unfold MemoryChannel.take
  split
  · next x xs hx =>
    rw [hx] at horder
    refine ⟨.inl (by rw [← horder]; simp), fun hr => ?_⟩
    have hlen := hidle hr
    rw [hx] at hlen
    simpa using hlen
  · next hx =>
    split
    · exact ⟨.inl horder, fun _ => hx⟩
    · exact ⟨.inl horder, fun _ => hx⟩

theorem closeSend (h : c.Fifo) : c.closeSend.Fifo := by
  unfold MemoryChannel.closeSend
  split
  · exact h
  · exact ⟨h.order, fun hr => absurd rfl hr⟩

theorem closeReceive (h : c.Fifo) : c.closeReceive.Fifo := by
  unfold MemoryChannel.closeReceive
  split
  · exact h
  · exact ⟨.inr ⟨rfl, h.isPrefix⟩, fun _ => rfl⟩

theorem cancel [DecidableEq τ] (h : c.Fifo) (t : τ) : (c.cancel t).Fifo := by
  refine ⟨h.order, fun hr => h.idle ?_⟩
  rintro hnil
  exact hr (by simp [MemoryChannel.cancel, hnil])

end Fifo

/-! ## Which calls fail -/

section

variable {c : MemoryChannel τ α}

/-- Which ends are closed. -/
def ends (c : MemoryChannel τ α) : Bool × Bool := (c.sendClosed, c.receiveClosed)

@[simp] theorem letIn_ends : c.letIn.ends = c.ends := by
  unfold letIn
  split <;> rfl

@[simp] theorem send_ends (capacity : ℕ) (t : τ) (x : α) : (c.send capacity t x).ends = c.ends := by
  unfold send
  split
  · rfl
  · split
    · rfl
    · split <;> rfl

@[simp] theorem receive_ends (t : τ) : (c.receive t).ends = c.ends := by
  unfold receive
  split
  · rfl
  · refine Eq.trans ?_ letIn_ends
    unfold take
    split
    · rfl
    · split <;> rfl

@[simp] theorem cancel_ends [DecidableEq τ] (t : τ) : (c.cancel t).ends = c.ends := rfl

theorem closeSend_ends : c.closeSend.ends = (true, c.receiveClosed) := by
  unfold closeSend
  split
  · next h => exact congrArg (·, _) h
  · rfl

theorem closeReceive_ends : c.closeReceive.ends = (c.sendClosed, true) := by
  unfold closeReceive
  split
  · next h => exact congrArg (_, ·) h
  · rfl

@[simp] theorem letIn_failed : c.letIn.failed = c.failed := by
  unfold letIn
  split <;> rfl

/-- **A call of `send` on a channel with open ends does not fail.** -/
theorem send_failed (hs : c.sendClosed = false) (hr : c.receiveClosed = false) (capacity : ℕ)
    (t : τ) (x : α) : (c.send capacity t x).failed = c.failed := by
  rw [send, if_neg (by simp [hs, hr])]
  split
  · rfl
  · split <;> rfl

/-- **…and so it is with `receive`.** -/
theorem receive_failed (hs : c.sendClosed = false) (hr : c.receiveClosed = false) (t : τ) :
    (c.receive t).failed = c.failed := by
  rw [receive, if_neg (by simp [hr]), take]
  split
  · exact letIn_failed
  · have hopen : c.letIn.sendClosed = false :=
      (congrArg Prod.fst (letIn_ends (c := c))).trans hs
    rw [if_neg (by simp [hopen])]
    exact letIn_failed

end

end MemoryChannel
