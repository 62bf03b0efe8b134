import Mathlib.Order.Basic
import Mathlib.Algebra.Notation.Defs
import Mathlib.Algebra.Field.Rat
import Mathlib.Algebra.Order.Ring.Rat
import Mathlib.Data.List.Basic
import FlockwaveConn.Machinery.Transition

/-!
# Channels/Lossy — a lossy channel is a filter

`LossyChannelWrapper` draws a random number for each message that it is given to send, and for each
one that the wrapped channel has received, and lets the message through if the number is not below
the loss probability.  Both directions and all tasks draw from one source.

A draw and what follows from it are one step: `send()` draws before it waits for anything, and
`receive()` as soon as the wrapped channel returns.
-/

/-! ## The items at some places -/

namespace List

variable {α : Type*} (keeps : ℕ → Bool)

/-- The items of a list at the places that are kept, in their order. -/
def kept (xs : List α) : List α := (xs.zipIdx.filter fun x => keeps x.2).map Prod.fst

theorem kept_concat (xs : List α) (x : α) :
    (xs ++ [x]).kept keeps = xs.kept keeps ++ if keeps xs.length then [x] else [] := by
  unfold kept
  rw [zipIdx_append, filter_append, map_append]
  cases hk : keeps xs.length <;> simp [hk]

variable {keeps}

end List

namespace FlockwaveConn

/-- What a task waits for, in a call of the lossy channel. -/
inductive LossyCall
  /-- `send()` of the wrapped channel. -/
  | send
  /-- `receive()` of the wrapped channel. -/
  | receive
  deriving DecidableEq, Repr

/-- A message that a random number decides on, and the task whose call it belongs to. -/
inductive Offer (τ Msg : Type*)
  /-- It is passed to `send()`. -/
  | sent (t : τ) (m : Msg)
  /-- The `receive()` of the wrapped channel returns it. -/
  | received (t : τ) (m : Msg)
  deriving DecidableEq, Repr

namespace Offer

variable {τ Msg : Type*}

def sent? : Offer τ Msg → Option (τ × Msg)
  | .sent t m => some (t, m)
  | .received .. => none

def received? : Offer τ Msg → Option (τ × Msg)
  | .sent .. => none
  | .received t m => some (t, m)

end Offer

/-- A `LossyChannelWrapper` and the tasks `τ` that use it. -/
structure LossyChannelWrapper (τ Msg ε : Type*) where
  calls : τ → Option LossyCall
  /-- How many random numbers have been drawn. -/
  drawn : ℕ
  /-- The messages on both ways, as they came. -/
  offers : List (Offer τ Msg)
  /-- The messages that the `send()` of the wrapped channel got. -/
  handed : List (τ × Msg)
  /-- How the calls of `receive()` ended. -/
  ended : List (τ × Except ε Msg)
  /-- The exceptions that the `receive()` of the wrapped channel raised. -/
  failures : List (τ × ε)

namespace LossyChannelWrapper

/-- The calls of a task, and what the wrapped channel does. -/
inductive Label (τ Msg ε : Type*)
  /-- The task calls `send(m)`. -/
  | send (t : τ) (m : Msg)
  /-- The `send()` of the wrapped channel ends, by an exception or without one. -/
  | sent (t : τ) (error : Option ε)
  /-- The task calls `receive()`. -/
  | receive (t : τ)
  /-- The `receive()` of the wrapped channel returns. -/
  | received (t : τ) (m : Msg)
  /-- The `receive()` of the wrapped channel raises, also where the task is cancelled. -/
  | failed (t : τ) (e : ε)

variable {τ Msg ε R : Type*}

namespace Label

def task : Label τ Msg ε → τ
  | .send t _ | .sent t _ | .receive t | .received t _ | .failed t _ => t

/-- What the task is in the midst of, if it takes the step. -/
def during : Label τ Msg ε → Option LossyCall
  | .send .. | .receive _ => none
  | .sent .. => some .send
  | .received .. | .failed .. => some .receive

end Label

def init : LossyChannelWrapper τ Msg ε where
  calls _ := none
  drawn := 0
  offers := []
  handed := []
  ended := []
  failures := []

section

variable [DecidableEq τ]

/-- The task goes on to wait, or its call is over. -/
def setCall (t : τ) (call : Option LossyCall) (s : LossyChannelWrapper τ Msg ε) :
    LossyChannelWrapper τ Msg ε :=
  { s with calls := Function.update s.calls t call }

/-- `self._random()`, for a message. -/
def draw (o : Offer τ Msg) (s : LossyChannelWrapper τ Msg ε) : LossyChannelWrapper τ Msg ε :=
  { s with drawn := s.drawn + 1, offers := s.offers ++ [o] }

/-- `return message`, or what the wrapped channel raises. -/
def finish (t : τ) (x : Except ε Msg) (s : LossyChannelWrapper τ Msg ε) :
    LossyChannelWrapper τ Msg ε :=
  { s.setCall t none with ended := s.ended ++ [(t, x)] }

variable [LE R] [DecidableLE R] (random : ℕ → R) (p : R)

/-- `self._random() >= self._loss_probability`, for the number that is drawn next. -/
def passes (s : LossyChannelWrapper τ Msg ε) : Bool := p ≤ random s.drawn

/-- `LossyChannelWrapper.send()`, until it waits or returns. -/
def send (t : τ) (m : Msg) (s : LossyChannelWrapper τ Msg ε) : LossyChannelWrapper τ Msg ε :=
  let s' := s.draw (.sent t m)
  if s.passes random p then { s'.setCall t (some .send) with handed := s.handed ++ [(t, m)] }
  else s'

/-- The rest of `LossyChannelWrapper.receive()`, once `message` is there: the loop goes on with a
message that gets lost. -/
def received (t : τ) (m : Msg) (s : LossyChannelWrapper τ Msg ε) : LossyChannelWrapper τ Msg ε :=
  let s' := s.draw (.received t m)
  if s.passes random p then s'.finish t (.ok m) else s'

/-- One step of a task, or of the wrapped channel. -/
def step (s : LossyChannelWrapper τ Msg ε) :
    Label τ Msg ε → Option (LossyChannelWrapper τ Msg ε)
  | .send t m => if s.calls t = none then some (s.send random p t m) else none
  | .sent t _ => if s.calls t = some .send then some (s.setCall t none) else none
  | .receive t => if s.calls t = none then some (s.setCall t (some .receive)) else none
  | .received t m => if s.calls t = some .receive then some (s.received random p t m) else none
  | .failed t e =>
    if s.calls t = some .receive then
      some { s.finish t (.error e) with failures := s.failures ++ [(t, e)] }
    else none

end

/-- A lossy channel over any wrapped channel, with any tasks. -/
def machine [DecidableEq τ] [LE R] [DecidableLE R] (random : ℕ → R) (p : R) :
    Machine (LossyChannelWrapper τ Msg ε) (Label τ Msg ε) where
  init := init
  step := step random p

/-! ## The filter -/

/-- The messages that `receive()` returned. -/
def returned (s : LossyChannelWrapper τ Msg ε) : List (τ × Msg) :=
  s.ended.filterMap fun x => x.2.toOption.map (x.1, ·)

/-- The exceptions that `receive()` raised. -/
def raised (s : LossyChannelWrapper τ Msg ε) : List (τ × ε) :=
  s.ended.filterMap fun x => match x.2 with
    | .ok _ => none
    | .error e => some (x.1, e)

/-- The offers whose number is not below the loss probability. -/
def letThrough [LE R] [DecidableLE R] (random : ℕ → R) (p : R) (s : LossyChannelWrapper τ Msg ε) :
    List (Offer τ Msg) := s.offers.kept fun i => p ≤ random i

/-- **The channel has filtered what it was offered**, and nothing else. -/
structure Filtered [LE R] [DecidableLE R] (random : ℕ → R) (p : R)
    (s : LossyChannelWrapper τ Msg ε) : Prop where
  /-- One number for each message. -/
  drawn : s.drawn = s.offers.length
  handed : s.handed = (s.letThrough random p).filterMap Offer.sent?
  returned : s.returned = (s.letThrough random p).filterMap Offer.received?
  raised : s.raised = s.failures

section

variable [LE R] [DecidableLE R] {random : ℕ → R} {p : R} {s s' : LossyChannelWrapper τ Msg ε}

/-- **One more number**: the offer that it decides on gets through, or not. -/
theorem Filtered.letThrough_draw (h : Filtered random p s) (o : Offer τ Msg) :
    (s.draw o).letThrough random p =
      s.letThrough random p ++ if s.passes random p then [o] else [] := by
  simp only [letThrough, draw, List.kept_concat, passes, h.drawn]

theorem Filtered.drawn_draw (h : Filtered random p s) (o : Offer τ Msg) :
    (s.draw o).drawn = (s.draw o).offers.length := by
  simp [draw, h.drawn]

theorem Filtered.filterMap_draw {β : Type*} (h : Filtered random p s)
    (hpass : s.passes random p = true) (o : Offer τ Msg) (f : Offer τ Msg → Option β) :
    ((s.draw o).letThrough random p).filterMap f =
      (s.letThrough random p).filterMap f ++ (f o).toList := by
  rw [h.letThrough_draw, if_pos hpass, List.filterMap_append]
  cases hf : f o <;> simp [hf]

/-- **An offer that is lost** takes its number with it, and leaves nothing. -/
theorem Filtered.lost (h : Filtered random p s) (hlost : ¬ s.passes random p = true)
    (o : Offer τ Msg) : Filtered random p (s.draw o) := by
  have hdraw := h.letThrough_draw o
  rw [if_neg hlost, List.append_nil] at hdraw
  refine ⟨h.drawn_draw o, ?_, ?_, h.raised⟩
  · exact h.handed.trans (congrArg _ hdraw.symm)
  · exact h.returned.trans (congrArg _ hdraw.symm)

variable [DecidableEq τ]

@[simp] theorem returned_finish_ok (t : τ) (m : Msg) :
    (s.finish t (.ok m)).returned = s.returned ++ [(t, m)] := by
  simp [returned, finish, setCall, Except.toOption]

@[simp] theorem returned_finish_error (t : τ) (e : ε) :
    (s.finish t (.error e)).returned = s.returned := by
  simp [returned, finish, setCall, Except.toOption]

@[simp] theorem raised_finish_ok (t : τ) (m : Msg) :
    (s.finish t (.ok m)).raised = s.raised := by
  simp [raised, finish, setCall]

@[simp] theorem raised_finish_error (t : τ) (e : ε) :
    (s.finish t (.error e)).raised = s.raised ++ [(t, e)] := by
  simp [raised, finish, setCall]

theorem Filtered.send (h : Filtered random p s) (t : τ) (m : Msg) :
    Filtered random p (s.send random p t m) := by
  unfold LossyChannelWrapper.send
  split
  · next hpass =>
    refine ⟨h.drawn_draw (.sent t m), ?_, ?_, h.raised⟩
    · calc s.handed ++ [(t, m)]
          = (s.letThrough random p).filterMap Offer.sent? ++ [(t, m)] := by rw [h.handed]
        _ = ((s.draw (.sent t m)).letThrough random p).filterMap Offer.sent? :=
            (h.filterMap_draw hpass (.sent t m) Offer.sent?).symm
    · calc s.returned
          = (s.letThrough random p).filterMap Offer.received? := h.returned
        _ = ((s.draw (.sent t m)).letThrough random p).filterMap Offer.received? := by
            rw [h.filterMap_draw hpass]
            exact (List.append_nil _).symm
  · next hlost => exact h.lost hlost (.sent t m)

theorem Filtered.received (h : Filtered random p s) (t : τ) (m : Msg) :
    Filtered random p (s.received random p t m) := by
  unfold LossyChannelWrapper.received
  split
  · next hpass =>
    refine ⟨h.drawn_draw (.received t m), ?_, ?_, (raised_finish_ok t m).trans h.raised⟩
    · calc s.handed
          = (s.letThrough random p).filterMap Offer.sent? := h.handed
        _ = ((s.draw (.received t m)).letThrough random p).filterMap Offer.sent? := by
            rw [h.filterMap_draw hpass]
            exact (List.append_nil _).symm
    · calc ((s.draw (.received t m)).finish t (.ok m)).returned
          = s.returned ++ [(t, m)] := returned_finish_ok t m
        _ = ((s.draw (.received t m)).letThrough random p).filterMap Offer.received? := by
            rw [h.filterMap_draw hpass, h.returned]
            rfl
  · next hlost => exact h.lost hlost (.received t m)

theorem Filtered.failed (h : Filtered random p s) (t : τ) (e : ε) :
    Filtered random p { s.finish t (.error e) with failures := s.failures ++ [(t, e)] } where
  drawn := h.drawn
  handed := h.handed
  returned := (returned_finish_error t e).trans h.returned
  raised := by
    calc (s.finish t (.error e)).raised = s.raised ++ [(t, e)] := raised_finish_error t e
      _ = s.failures ++ [(t, e)] := by rw [h.raised]

/-- **One step** of a task or of the wrapped channel. -/
theorem Filtered.step (h : Filtered random p s) {l : Label τ Msg ε}
    (hs : s.step random p l = some s') : Filtered random p s' := by
  cases l with
  | send t m =>
    obtain ⟨-, ⟨⟩⟩ := Option.ite_none_right_eq_some.mp hs
    exact h.send t m
  | sent t error =>
    obtain ⟨-, ⟨⟩⟩ := Option.ite_none_right_eq_some.mp hs
    exact ⟨h.drawn, h.handed, h.returned, h.raised⟩
  | receive t =>
    obtain ⟨-, ⟨⟩⟩ := Option.ite_none_right_eq_some.mp hs
    exact ⟨h.drawn, h.handed, h.returned, h.raised⟩
  | received t m =>
    obtain ⟨-, ⟨⟩⟩ := Option.ite_none_right_eq_some.mp hs
    exact h.received t m
  | failed t e =>
    obtain ⟨-, ⟨⟩⟩ := Option.ite_none_right_eq_some.mp hs
    exact h.failed t e

end

/-! ## The ends of the scale -/

section

variable [Preorder R] [DecidableLE R] [Zero R] [One R] {random : ℕ → R} {p : R}
  {s : LossyChannelWrapper τ Msg ε}

end

/-! ## A run -/

section

variable {s s' : LossyChannelWrapper τ Msg ε} {l : Label τ Msg ε}

/-- **What the records say of the calls**, at each step. -/
structure Recorded (s s' : LossyChannelWrapper τ Msg ε) : Prop where
  /-- A call of `receive()` goes on, or its end is recorded. -/
  receive : ∀ t, s.calls t = some .receive →
    s'.calls t = some .receive ∨ ∃ x, s'.ended = s.ended ++ [(t, x)]
  /-- A task goes into the `send()` of the wrapped channel exactly with a message that is handed to
  it. -/
  send : ∀ t, s.calls t ≠ some .send ∧ s'.calls t = some .send ↔
    ∃ m, s'.handed = s.handed ++ [(t, m)]

variable [DecidableEq τ]

@[simp] theorem setCall_calls_self (t : τ) (call : Option LossyCall) :
    (s.setCall t call).calls t = call := Function.update_self ..

@[simp] theorem setCall_calls_of_ne {t u : τ} (h : u ≠ t) (call : Option LossyCall) :
    (s.setCall t call).calls u = s.calls u := Function.update_of_ne h ..

variable [LE R] [DecidableLE R] {random : ℕ → R} {p : R}

/-- A task takes the steps of the call that it is in. -/
theorem exists_step_iff : (∃ s', s.step random p l = some s') ↔ s.calls l.task = l.during := by
  cases l <;> simp [step, Label.task, Label.during]

end

section

variable [Preorder R] [DecidableLE R] [Zero R] [One R] [DecidableEq τ] {random : ℕ → R} {p : R}
  {s : LossyChannelWrapper τ Msg ε} {ls : List (Label τ Msg ε)}

end

end LossyChannelWrapper

end FlockwaveConn
