import Mathlib.Tactic

/-!
# Channels/Message — how a channel reads

`MessageChannel` and `ParserChannel` read in the same way.  `receive()` returns the first pending
message, and as long as there is none it calls `_read()`: one item of the connection, which ends the
channel if it is falsy, and which goes to the parser if it is not.
-/

namespace FlockwaveConn

/-! ## Truth values -/

/-- The types whose values can stand in a condition. -/
class Truthy (α : Type*) where
  /-- `bool(x)`. -/
  truthy : α → Bool

export Truthy (truthy)

/-- `bytes` are true unless they are empty. -/
instance {α : Type*} : Truthy (List α) := ⟨fun xs => !xs.isEmpty⟩

/-- A pair has two items, so it is never empty, whatever the items are. -/
instance {α β : Type*} : Truthy (α × β) := ⟨fun _ => true⟩

@[simp] theorem truthy_prod {α β : Type*} (x : α × β) : truthy x = true := rfl

/-! ## Parsers -/

/-- What a channel method can raise. -/
inductive Exn (ε : Type*)
  /-- `EndOfChannel`. -/
  | endOfChannel
  | other (e : ε)
  deriving DecidableEq, Repr

/-- What a parser makes of one item.  It may be a generator, so there can be messages before an
exception. -/
structure Feed (σ Msg ε : Type*) where
  state : σ
  messages : List Msg
  error : Option (Exn ε)

/-- A parser with its state, or `σ = Unit` where it has none. -/
abbrev Parser (σ Raw Msg ε : Type*) := σ → Raw → Feed σ Msg ε

namespace Parser

variable {σ Raw Msg ε : Type*} (P : Parser σ Raw Msg ε)

/-- The state a parser is in after some items. -/
def after : σ → List Raw → σ
  | q, [] => q
  | q, x :: xs => after (P q x).state xs

/-- **What a parser makes of a sequence of items**, what it yielded before it raised included. -/
def yielded : σ → List Raw → List Msg
  | _, [] => []
  | q, x :: xs => (P q x).messages ++ yielded (P q x).state xs

theorem after_concat (q : σ) (xs : List Raw) (x : Raw) :
    P.after q (xs ++ [x]) = (P (P.after q xs) x).state := by
  induction xs generalizing q with
  | nil => rfl
  | cons y ys ih => exact ih _

theorem yielded_concat (q : σ) (xs : List Raw) (x : Raw) :
    P.yielded q (xs ++ [x]) = P.yielded q xs ++ (P (P.after q xs) x).messages := by
  induction xs generalizing q with
  | nil => simp [yielded, after]
  | cons y ys ih => simp [yielded, after, ih]

end Parser

/-- What a `MessageChannel` or a `ParserChannel` keeps between two calls. -/
structure MessageChannel (σ Msg : Type*) where
  parser : σ
  /-- `_pending`. -/
  pending : List Msg

namespace MessageChannel

variable {σ Raw Msg ε : Type*} [Truthy Raw]

/-- `_read()`, once the item is there: the channel and the exception, if there is one. -/
def read (P : Parser σ Raw Msg ε) (data : Raw) (c : MessageChannel σ Msg) :
    MessageChannel σ Msg × Option (Exn ε) :=
  if !truthy data then (c, some .endOfChannel)
  else
    let fed := P c.parser data
    (⟨fed.state, c.pending ++ fed.messages⟩, fed.error)

/-- A falsy item ends the channel and leaves it as it is. -/
theorem read_of_falsy {P : Parser σ Raw Msg ε} {data : Raw} {c : MessageChannel σ Msg}
    (h : truthy data = false) : c.read P data = (c, some .endOfChannel) := by
  simp [read, h]

/-- Only a falsy item ends the channel; any other one is the parser's affair. -/
theorem read_of_truthy {P : Parser σ Raw Msg ε} {data : Raw} {c : MessageChannel σ Msg}
    (h : truthy data = true) :
    c.read P data =
      (⟨(P c.parser data).state, c.pending ++ (P c.parser data).messages⟩,
        (P c.parser data).error) := by
  simp [read, h]

end MessageChannel

end FlockwaveConn
