import Mathlib.Tactic
import FlockwaveConn.Machinery.FutureMap
import FlockwaveConn.Machinery.Transition

/-!
# Channels/Rpc/Peer — one side of `serve_rpc_requests()`

An inbound task reads the channel, an outbound task writes it, and each call of `send_request()` is
a task of the user.  The calls and the inbound task hand their messages to the outbound task over a
queue of capacity zero: whoever sends waits until the outbound task takes the message.

The labels are the stretches between two waits.  What is on the other side of the channel is left
open: any message can come in at any time.
-/

namespace FlockwaveConn.Rpc

/-! ## Messages -/

/-- A `unique_id`. -/
inductive Id
  | none
  | int (n : ℤ)
  | str (text : String)
  deriving DecidableEq, Repr

/-- `str(x)`. -/
def Id.toStr : Id → String
  | .none => "None"
  | .int n => toString n
  | .str text => text

/-- `RPCRequest`. -/
structure Request where
  uniqueId : Id
  oneWay : Bool
  deriving DecidableEq, Repr

/-- The `error` of an `RPCErrorResponse`. -/
inductive ErrorInfo
  /-- A dictionary, with what it has under `"code"` and `"message"`. -/
  | dict (code : Option ℤ) (message : Option String)
  /-- Anything else, as text. -/
  | other (text : String)
  deriving DecidableEq, Repr

/-- `RPCError`. -/
structure RPCError where
  code : ℤ
  message : String
  deriving DecidableEq, Repr

/-- What a response carries: `ρ` are the results, `ε` the exceptions. -/
inductive Payload (ρ ε : Type*)
  /-- `RPCErrorResponse`. -/
  | errorResponse (error : ErrorInfo)
  /-- `RPCResponse`, with a `result`. -/
  | result (x : ρ)
  /-- `RPCResponse`, with an attribute `error`. -/
  | error (e : ε)
  deriving DecidableEq, Repr

/-- `RPCErrorResponse` or `RPCResponse`. -/
structure Response (ρ ε : Type*) where
  uniqueId : Id
  payload : Payload ρ ε
  deriving DecidableEq, Repr

/-- What can come out of the channel. -/
inductive Message (ρ ε : Type*)
  | request (q : Request)
  | response (r : Response ρ ε)
  | unknown
  deriving DecidableEq, Repr

/-- What a future is set to. -/
inductive Content (ρ ε : Type*)
  | result (x : ρ)
  /-- An `RPCError` to be raised. -/
  | rpcError (e : RPCError)
  /-- An exception to be raised as it is. -/
  | exception (e : ε)
  deriving DecidableEq, Repr

/-- `set_result()` or `set_exception()` with what the response carries. -/
def Payload.content {ρ ε : Type*} : Payload ρ ε → Content ρ ε
  | .errorResponse (.dict code message) => .rpcError ⟨code.getD 0, message.getD ""⟩
  | .errorResponse (.other text) => .rpcError ⟨0, text⟩
  | .result x => .result x
  | .error e => .exception e

/-! ## One side of the connection -/

/-- When `FutureMap.new(k)` registers `k`. -/
inductive Registration
  /-- In the call of `new()`. -/
  | atNew
  /-- When the context that it returns is entered. -/
  | atEnter
  deriving DecidableEq, Repr

/-- What `serve_rpc_requests()` and the calls of `send_request()` are given. -/
structure Setting (Call : Type*) where
  registration : Registration
  /-- `one_way`. -/
  oneWay : Call → Bool
  /-- `create_request(…)`. -/
  createRequest : Call → Request

namespace Setting

variable {Call : Type*} (S : Setting Call)

/-- `request.unique_id`. -/
def uniqueId (c : Call) : Id := (S.createRequest c).uniqueId

/-- `not one_way and request.unique_id is not None`. -/
def needsResponse (c : Call) : Bool := !S.oneWay c && S.uniqueId c ≠ .none

/-- `str(request_id)`, under which the future is registered. -/
def key (c : Call) : Id := .str (S.uniqueId c).toStr

end Setting

/-- How a call of `send_request()` ends. -/
inductive Ending (ρ ε : Type*)
  /-- `return None`. -/
  | noResponse
  /-- With what its future was set to. -/
  | got (x : Content ρ ε)
  | tooSlow
  | cancelled
  /-- The queue is closed. -/
  | closed
  deriving DecidableEq, Repr

/-- Where a call of `send_request()` is. -/
inductive CallPlace (ρ ε : Type*)
  /-- Not made yet. -/
  | idle
  /-- `await out_queue_tx.send(request)`. -/
  | sending
  /-- The outbound task has taken the request, and the call is scheduled to go on. -/
  | handed
  /-- `await future.wait()`. -/
  | waiting
  /-- …on a future that was done already: only a checkpoint. -/
  | ready
  | ended (x : Ending ρ ε)
  deriving DecidableEq, Repr

/-- `await future.wait()`, on a future that is done or not. -/
def CallPlace.wait {ρ ε : Type*} (done : Bool) : CallPlace ρ ε := if done then .ready else .waiting

@[simp] theorem CallPlace.wait_ne_idle {ρ ε : Type*} (done : Bool) :
    (wait done : CallPlace ρ ε) ≠ .idle := by cases done <;> nofun

@[simp] theorem CallPlace.wait_ne_ended {ρ ε : Type*} (done : Bool) (x : Ending ρ ε) :
    (wait done : CallPlace ρ ε) ≠ .ended x := by cases done <;> nofun

/-- Where the inbound task is. -/
inductive Inbound (ρ ε : Type*)
  | receiving
  /-- `await handler(message)`. -/
  | handling (q : Request)
  /-- `await out_queue_tx.send(response)`. -/
  | posting (r : Response ρ ε)
  | ended
  deriving DecidableEq, Repr

/-- Where the outbound task is. -/
inductive Outbound (ρ ε : Type*)
  | receiving
  /-- `await channel.send(message)`. -/
  | sending (m : Message ρ ε)
  | ended
  deriving DecidableEq, Repr

/-- One side of the connection; each call has a future of its own. -/
structure Peer (Call ρ ε : Type*) where
  pending : FutureMap Id Call (Content ρ ε)
  call : Call → CallPlace ρ ε
  inbound : Inbound ρ ε
  outbound : Outbound ρ ε
  /-- The responses that have come in, oldest first. -/
  responses : List (Response ρ ε)

namespace Peer

/-- The stretches of the tasks of one side. -/
inductive Label (Call ρ ε : Type*)
  /-- `send_request()` is called. -/
  | call (c : Call)
  /-- The outbound task takes the request of a call. -/
  | take (c : Call)
  /-- The call goes on. -/
  | enter (c : Call)
  /-- The call wakes up from `future.wait()`. -/
  | finish (c : Call)
  /-- `fail_after()` raises. -/
  | timeout (c : Call)
  /-- The call is cancelled from outside. -/
  | cancel (c : Call)
  /-- The call finds the queue closed. -/
  | closed (c : Call)
  /-- The inbound task gets a message. -/
  | receive (m : Message ρ ε)
  /-- The handler returns. -/
  | handled (r : Option (Response ρ ε))
  /-- The outbound task takes the response of the inbound task. -/
  | takeResponse
  /-- `channel.send()` returns. -/
  | sent
  /-- The inbound task ends: there are no more messages, or it is cancelled. -/
  | endInbound
  /-- The outbound task ends. -/
  | endOutbound

/-- The call that takes the step. -/
def Label.mover {Call ρ ε : Type*} : Label Call ρ ε → Option Call
  | .call c | .take c | .enter c | .finish c | .timeout c | .cancel c | .closed c => some c
  | .receive _ | .handled _ | .takeResponse | .sent | .endInbound | .endOutbound => none

variable {Call ρ ε : Type*}

/-- Before the two tasks have begun. -/
def init : Peer Call ρ ε where
  pending := .empty
  call := fun _ => .idle
  inbound := .receiving
  outbound := .receiving
  responses := []

variable (S : Setting Call)

/-- The future of a call goes into the map. -/
def register (c : Call) (s : Peer Call ρ ε) : Peer Call ρ ε :=
  { s with pending := s.pending.register (S.key c) c }

/-- `if response and not message.one_way: await out_queue_tx.send(response)`. -/
def answer (q : Request) (r : Option (Response ρ ε)) (s : Peer Call ρ ε) : Peer Call ρ ε :=
  match r with
  | some r => { s with inbound := if q.oneWay then .receiving else .posting r }
  | none => { s with inbound := .receiving }

variable [DecidableEq Call]

/-- A call moves on. -/
def put (c : Call) (p : CallPlace ρ ε) (s : Peer Call ρ ε) : Peer Call ρ ε :=
  { s with call := Function.update s.call c p }

/-- A call leaves the context of its future. -/
def leave (c : Call) (x : Ending ρ ε) (s : Peer Call ρ ε) : Peer Call ρ ε :=
  { s with pending := s.pending.unregister (S.key c) }.put c (.ended x)

/-- `send_request`, up to the queue. -/
def begin_ (c : Call) (s : Peer Call ρ ε) : Peer Call ρ ε :=
  (if S.needsResponse c && S.registration = .atNew then s.register S c else s).put c .sending

/-- `async with future_context as future`, up to `future.wait()`. -/
def enter (c : Call) (s : Peer Call ρ ε) : Peer Call ρ ε :=
  if !S.needsResponse c then s.put c (.ended .noResponse)
  else
    let s := if S.registration = .atEnter then s.register S c else s
    s.put c (.wait (s.pending.value c).isSome)

/-- `handle_single_inbound_message`; for a request, up to the end of the handler. -/
def handle (m : Message ρ ε) (s : Peer Call ρ ε) : Peer Call ρ ε :=
  match m with
  | .request q => { s with inbound := .handling q }
  | .response r =>
    { s with
      pending := s.pending.resolve r.uniqueId r.payload.content
      responses := s.responses ++ [r] }
  | .unknown => s

/-- One stretch. -/
def step (s : Peer Call ρ ε) : Label Call ρ ε → Option (Peer Call ρ ε)
  | .call c =>
    match s.call c with
    | .idle => some (s.begin_ S c)
    | _ => none
  | .take c =>
    match s.call c, s.outbound, s.inbound with
    -- the queue is closed once the inbound task has ended
    | .sending, .receiving, .ended => none
    | .sending, .receiving, _ =>
      some ({ s with outbound := .sending (.request (S.createRequest c)) }.put c .handed)
    | _, _, _ => none
  | .enter c =>
    match s.call c with
    | .handed => some (s.enter S c)
    | _ => none
  | .finish c =>
    match s.call c, s.pending.value c with
    | .waiting, some x | .ready, some x => some (s.leave S c (.got x))
    | _, _ => none
  | .timeout c =>
    match s.call c, s.pending.value c with
    | .waiting, none | .ready, _ => some (s.leave S c .tooSlow)
    | _, _ => none
  | .cancel c =>
    match s.call c, s.pending.value c with
    | .sending, _ => some (s.put c (.ended .cancelled))
    | .waiting, none | .ready, _ => some (s.leave S c .cancelled)
    | _, _ => none
  | .closed c =>
    match s.call c with
    | .sending =>
      if s.inbound matches .ended || s.outbound matches .ended then
        some (s.put c (.ended .closed))
      else none
    | _ => none
  | .receive m =>
    match s.inbound with
    | .receiving => some (s.handle m)
    | _ => none
  | .handled r =>
    match s.inbound with
    | .handling q => some (s.answer q r)
    | _ => none
  | .takeResponse =>
    match s.inbound, s.outbound with
    | .posting r, .receiving =>
      some { s with inbound := .receiving, outbound := .sending (.response r) }
    | _, _ => none
  | .sent =>
    match s.outbound with
    | .sending _ => some { s with outbound := .receiving }
    | _ => none
  | .endInbound =>
    match s.inbound with
    | .ended => none
    | _ => some { s with inbound := .ended }
  | .endOutbound =>
    match s.outbound with
    | .ended => none
    | _ => some { s with outbound := .ended }

end Peer

/-- **One side of the connection, with all its tasks.** -/
def peer {Call : Type*} (ρ ε : Type*) [DecidableEq Call] (S : Setting Call) :
    Machine (Peer Call ρ ε) (Peer.Label Call ρ ε) where
  init := .init
  step := Peer.step S

namespace Peer

/-! ## What a step does -/

variable {Call ρ ε : Type*} {S : Setting Call}

@[simp] theorem register_call (c : Call) (s : Peer Call ρ ε) : (s.register S c).call = s.call := rfl

@[simp] theorem register_pending (c : Call) (s : Peer Call ρ ε) :
    (s.register S c).pending = s.pending.register (S.key c) c := rfl

@[simp] theorem answer_pending (q : Request) (r : Option (Response ρ ε)) (s : Peer Call ρ ε) :
    (s.answer q r).pending = s.pending := by cases r <;> rfl

@[simp] theorem answer_call (q : Request) (r : Option (Response ρ ε)) (s : Peer Call ρ ε) :
    (s.answer q r).call = s.call := by cases r <;> rfl

variable [DecidableEq Call]

@[simp] theorem put_pending (c : Call) (p : CallPlace ρ ε) (s : Peer Call ρ ε) :
    (s.put c p).pending = s.pending := rfl

@[simp] theorem put_call_self (c : Call) (p : CallPlace ρ ε) (s : Peer Call ρ ε) :
    (s.put c p).call c = p := Function.update_self ..

theorem put_call_of_ne {c d : Call} (p : CallPlace ρ ε) (s : Peer Call ρ ε) (h : d ≠ c) :
    (s.put c p).call d = s.call d := Function.update_of_ne h ..

theorem put_call (c d : Call) (p : CallPlace ρ ε) (s : Peer Call ρ ε) :
    (s.put c p).call d = if d = c then p else s.call d := Function.update_apply ..

@[simp] theorem leave_pending (c : Call) (x : Ending ρ ε) (s : Peer Call ρ ε) :
    (s.leave S c x).pending = s.pending.unregister (S.key c) := rfl

@[simp] theorem leave_call_self (c : Call) (x : Ending ρ ε) (s : Peer Call ρ ε) :
    (s.leave S c x).call c = .ended x := put_call_self ..

@[simp] theorem handle_call (m : Message ρ ε) (s : Peer Call ρ ε) :
    (s.handle m).call = s.call := by cases m <;> rfl

@[simp] theorem handle_get (m : Message ρ ε) (s : Peer Call ρ ε) :
    (s.handle m).pending.get = s.pending.get := by
  cases m with
  | request | unknown => rfl
  | response r => exact FutureMap.resolve_get ..

/-- **Everything a step can do.** -/
inductive Turn (S : Setting Call) (s : Peer Call ρ ε) : Label Call ρ ε → Peer Call ρ ε → Prop
  | call {c : Call} (hc : s.call c = .idle) : Turn S s (.call c) (s.begin_ S c)
  | take {c : Call} (hc : s.call c = .sending) (ho : s.outbound = .receiving) :
      Turn S s (.take c)
        ({ s with outbound := .sending (.request (S.createRequest c)) }.put c .handed)
  | enter {c : Call} (hc : s.call c = .handed) : Turn S s (.enter c) (s.enter S c)
  | finish {c : Call} {x : Content ρ ε} (hc : s.call c = .waiting ∨ s.call c = .ready)
      (hx : s.pending.value c = some x) : Turn S s (.finish c) (s.leave S c (.got x))
  | timeout {c : Call} (hc : s.call c = .waiting ∧ s.pending.value c = none ∨ s.call c = .ready) :
      Turn S s (.timeout c) (s.leave S c .tooSlow)
  | cancelWait {c : Call}
      (hc : s.call c = .waiting ∧ s.pending.value c = none ∨ s.call c = .ready) :
      Turn S s (.cancel c) (s.leave S c .cancelled)
  | cancelSend {c : Call} (hc : s.call c = .sending) :
      Turn S s (.cancel c) (s.put c (.ended .cancelled))
  | closed {c : Call} (hc : s.call c = .sending) : Turn S s (.closed c) (s.put c (.ended .closed))
  | receive {m : Message ρ ε} (hi : s.inbound = .receiving) : Turn S s (.receive m) (s.handle m)
  | handled {q : Request} {r : Option (Response ρ ε)} (hi : s.inbound = .handling q) :
      Turn S s (.handled r) (s.answer q r)
  | takeResponse {r : Response ρ ε} (hi : s.inbound = .posting r) (ho : s.outbound = .receiving) :
      Turn S s .takeResponse { s with inbound := .receiving, outbound := .sending (.response r) }
  | sent {m : Message ρ ε} (ho : s.outbound = .sending m) :
      Turn S s .sent { s with outbound := .receiving }
  | endInbound : Turn S s .endInbound { s with inbound := .ended }
  | endOutbound : Turn S s .endOutbound { s with outbound := .ended }

theorem turn_of_step {s s' : Peer Call ρ ε} {l : Label Call ρ ε} (h : s.step S l = some s') :
    Turn S s l s' := by
  cases l with
  | call c =>
    simp only [step] at h
    split at h
    · next hc =>
        obtain rfl := Option.some.inj h
        exact .call hc
    · cases h
  | take c =>
    simp only [step] at h
    split at h
    · cases h
    · next hc ho _ =>
        obtain rfl := Option.some.inj h
        exact .take hc ho
    · cases h
  | enter c =>
    simp only [step] at h
    split at h
    · next hc =>
        obtain rfl := Option.some.inj h
        exact .enter hc
    · cases h
  | finish c =>
    simp only [step] at h
    split at h
    · next hc hx =>
        obtain rfl := Option.some.inj h
        exact .finish (.inl hc) hx
    · next hc hx =>
        obtain rfl := Option.some.inj h
        exact .finish (.inr hc) hx
    · cases h
  | timeout c =>
    simp only [step] at h
    split at h
    · next hc hx =>
        obtain rfl := Option.some.inj h
        exact .timeout (.inl ⟨hc, hx⟩)
    · next hc =>
        obtain rfl := Option.some.inj h
        exact .timeout (.inr hc)
    · cases h
  | cancel c =>
    simp only [step] at h
    split at h
    · next hc =>
        obtain rfl := Option.some.inj h
        exact .cancelSend hc
    · next hc hx =>
        obtain rfl := Option.some.inj h
        exact .cancelWait (.inl ⟨hc, hx⟩)
    · next hc =>
        obtain rfl := Option.some.inj h
        exact .cancelWait (.inr hc)
    · cases h
  | closed c =>
    simp only [step] at h
    split at h
    · next hc =>
        split_ifs at h
        obtain rfl := Option.some.inj h
        exact .closed hc
    · cases h
  | receive m =>
    simp only [step] at h
    split at h
    · next hi =>
        obtain rfl := Option.some.inj h
        exact .receive hi
    · cases h
  | handled r =>
    simp only [step] at h
    split at h
    · next hi =>
        obtain rfl := Option.some.inj h
        exact .handled hi
    · cases h
  | takeResponse =>
    simp only [step] at h
    split at h
    · next hi ho =>
        obtain rfl := Option.some.inj h
        exact .takeResponse hi ho
    · cases h
  | sent =>
    simp only [step] at h
    split at h
    · next ho =>
        obtain rfl := Option.some.inj h
        exact .sent ho
    · cases h
  | endInbound =>
    simp only [step] at h
    split at h
    · cases h
    · obtain rfl := Option.some.inj h
      exact .endInbound
  | endOutbound =>
    simp only [step] at h
    split at h
    · cases h
    · obtain rfl := Option.some.inj h
      exact .endOutbound

@[simp] theorem begin_value (c : Call) (s : Peer Call ρ ε) :
    (s.begin_ S c).pending.value = s.pending.value := by
  unfold begin_
  split <;> rfl

@[simp] theorem enter_value (c : Call) (s : Peer Call ρ ε) :
    (s.enter S c).pending.value = s.pending.value := by
  unfold enter
  split
  · rfl
  · dsimp only
    split <;> rfl

/-- A step moves one call at most. -/
theorem Turn.call_of_ne {s s' : Peer Call ρ ε} {l : Label Call ρ ε} (h : Turn S s l s') {d : Call}
    (hd : l.mover ≠ some d) : s'.call d = s.call d := by
  have hput : ∀ (c : Call) (p : CallPlace ρ ε) (s₁ : Peer Call ρ ε), s₁.call = s.call →
      some c ≠ some d → (s₁.put c p).call d = s.call d := by
    intro c p s₁ hs₁ hc
    rw [put_call_of_ne _ _ fun hdc => hc (congrArg some hdc.symm), hs₁]
  cases h with
  | call =>
    unfold begin_
    split <;> exact hput _ _ _ rfl hd
  | enter =>
    unfold Peer.enter
    split
    · exact hput _ _ _ rfl hd
    · exact hput _ _ _ (by split <;> rfl) hd
  | take | finish | timeout | cancelWait | cancelSend | closed => exact hput _ _ _ rfl hd
  | receive => rw [handle_call]
  | handled => rw [answer_call]
  | takeResponse | sent | endInbound | endOutbound => rfl

/-- **A future that is done stays as it is.** -/
theorem Turn.value_of_some {s s' : Peer Call ρ ε} {l : Label Call ρ ε} (h : Turn S s l s')
    {c : Call} {x : Content ρ ε} (hx : s.pending.value c = some x) :
    s'.pending.value c = some x := by
  cases h with
  | call => rwa [begin_value]
  | enter => rwa [enter_value]
  | @receive m hi =>
    cases m with
    | request | unknown => exact hx
    | response r => exact FutureMap.resolve_value_of_some hx
  | handled => rwa [answer_pending]
  | take | finish | timeout | cancelWait | cancelSend | closed => exact hx
  | takeResponse | sent | endInbound | endOutbound => exact hx

end Peer

end FlockwaveConn.Rpc
