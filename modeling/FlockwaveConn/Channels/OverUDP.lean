import FlockwaveConn.Channels.Message
import FlockwaveConn.Connections.UDPListener

/-!
# Channels/OverUDP — a message channel over a UDP listener

The items of a UDP listener are pairs of a payload and an address, and a pair is never falsy.  So
the one test that could end the channel never does: where the connection is closed, `read()` returns
`(b"", None)` at once, and `receive()` goes on reading until the parser yields a message or raises
something of its own (`endOfChannel_iff`).  There is no checkpoint in that loop.
-/

namespace FlockwaveConn

/-- How a `sendto()` fails. -/
inductive SendError (ε : Type*)
  /-- `EADDRNOTAVAIL`, which closes the connection. -/
  | addressNotAvailable (e : ε)
  | other (e : ε)

/-- Which `await self.close()` of the connection a task is at. -/
inductive Closer (Addr ε : Type*)
  /-- The one in `read()`, after an empty datagram. -/
  | read (address : Addr)
  /-- The one in `write()`, before the exception goes on. -/
  | write (e : ε)
  deriving DecidableEq, Repr

/-- Where a task is in the methods of the channel. -/
inductive ChannelUser (Addr Msg ε : Type*)
  | idle
  /-- In `recvfrom()` on a socket. -/
  | reading (socket : ℕ)
  /-- `recvfrom()` has its datagram, and the task is to be scheduled. -/
  | received (data : List UInt8) (address : Addr)
  /-- In `sendto()` on a socket. -/
  | sending (socket : ℕ)
  /-- `sendto()` has failed with `EADDRNOTAVAIL`, and the task is to be scheduled. -/
  | refused (e : ε)
  /-- At a wait of the connection's `close()`. -/
  | closing (w : Closer Addr ε)
  /-- Its last call has returned. -/
  | returned (result : Option Msg)
  /-- Its last call has raised. -/
  | raised (x : Exn ε)
  deriving DecidableEq, Repr

/-- Not in a method of the channel. -/
def ChannelUser.isFree {Addr Msg ε : Type*} : ChannelUser Addr Msg ε → Bool
  | .idle | .returned _ | .raised _ => true
  | _ => false

/-- A channel, its connection and the tasks that use them. -/
structure UDPChannel (Task Addr σ Msg ε : Type*) where
  conn : UDPListener Task
  channel : MessageChannel σ Msg
  user : Task → ChannelUser Addr Msg ε
  /-- The task at the test of the loop in `receive()`; nobody else runs until it waits or ends. -/
  running : Option Task

namespace UDPChannel

/-- The steps of a channel over a UDP listener. -/
inductive Label (Task Addr ε : Type*)
  /-- A step of `open()` or `close()` of the connection. -/
  | conn (l : ConnectionBase.Label Task)
  /-- A task calls `receive()`. -/
  | receive (t : Task)
  /-- One turn of the loop in `receive()`. -/
  | turn
  /-- `recvfrom()` takes a datagram. -/
  | datagram (t : Task) (data : List UInt8) (address : Addr)
  /-- `recvfrom()` raises. -/
  | readFailed (t : Task) (e : ε)
  /-- A task calls `send()`. -/
  | send (t : Task) (noSocket : ε)
  /-- `sendto()` returns. -/
  | sent (t : Task)
  /-- `sendto()` raises. -/
  | sendFailed (t : Task) (x : SendError ε)
  /-- A task goes on from `recvfrom()`, `sendto()` or a wait in `close()`. -/
  | goOn (t : Task) (noSocket : ε)
  /-- A wait in `close()` is left by an exception. -/
  | interrupt (t : Task) (e : ε)

variable {Task Addr σ Msg ε : Type*}

/-- A channel that was created around a connection that was created just before. -/
def init (q : σ) : UDPChannel Task Addr σ Msg ε := ⟨.init, ⟨q, []⟩, fun _ => .idle, none⟩

variable [DecidableEq Task]

/-- A task goes to another place. -/
def put (t : Task) (u : ChannelUser Addr Msg ε) (s : UDPChannel Task Addr σ Msg ε) :
    UDPChannel Task Addr σ Msg ε :=
  { s with user := Function.update s.user t u, running := none }

/-- The item is there: the rest of `_read()`, and back to the test of the loop. -/
def absorb (P : Parser σ (List UInt8 × Option Addr) Msg ε) (t : Task)
    (data : List UInt8 × Option Addr) (s : UDPChannel Task Addr σ Msg ε) :
    UDPChannel Task Addr σ Msg ε :=
  match s.channel.read P data with
  | (c, none) => { s with channel := c, running := some t }
  | (c, some x) => { s with channel := c }.put t (.raised x)

/-- `while not self._pending: await self._read()`, and `return self._pending.popleft()`. -/
def loop (P : Parser σ (List UInt8 × Option Addr) Msg ε) (t : Task)
    (s : UDPChannel Task Addr σ Msg ε) : UDPChannel Task Addr σ Msg ε :=
  match s.channel.pending with
  | m :: ms => { s with channel := { s.channel with pending := ms } }.put t (.returned (some m))
  | [] =>
    -- `UDPListenerConnection.read()`
    match s.conn.socket with
    | some k => s.put t (.reading k)
    | none => s.absorb P t ([], none)

/-- What comes after the `close()`: `return data, addr` in `read()`, `raise` in `write()`. -/
def afterClose (P : Parser σ (List UInt8 × Option Addr) Msg ε) (t : Task)
    (s : UDPChannel Task Addr σ Msg ε) : Closer Addr ε → UDPChannel Task Addr σ Msg ε
  | .read address => s.absorb P t ([], some address)
  | .write e => s.put t (.raised (.other e))

/-- A stretch of `await self.close()`, given the connection where the task comes to a wait, to
`_close()` or to the end of the method. -/
def runClose (P : Parser σ (List UInt8 × Option Addr) Msg ε) (t : Task) (w : Closer Addr ε)
    (noSocket : ε) (c : UDPListener Task) (s : UDPChannel Task Addr σ Msg ε) :
    UDPChannel Task Addr σ Msg ε :=
  let s' := { s with conn := c.runClose t }
  -- `_close()` raises, and so does `close()`
  if c.base.place t = .inside .down && c.socket.isNone then s'.put t (.raised (.other noSocket))
  else if s'.conn.base.place t = .outside then s'.afterClose P t w
  else s'.put t (.closing w)

/-- The call of `self.close()` in `read()` or `write()`. -/
def close (P : Parser σ (List UInt8 × Option Addr) Msg ε) (t : Task) (w : Closer Addr ε)
    (noSocket : ε) (s : UDPChannel Task Addr σ Msg ε) : UDPChannel Task Addr σ Msg ε :=
  s.runClose P t w noSocket { s.conn with base := s.conn.base.close t }

/-- One step of a task, while no other one is in the middle of its loop. -/
def stepIdle (P : Parser σ (List UInt8 × Option Addr) Msg ε) (s : UDPChannel Task Addr σ Msg ε) :
    Label Task Addr ε → Option (UDPChannel Task Addr σ Msg ε)
  | .conn l =>
    if (s.user l.task).isFree then (s.conn.step l).map fun c => { s with conn := c } else none
  | .receive t =>
    if (s.user t).isFree && s.conn.base.place t = .outside then some { s with running := some t }
    else none
  | .turn => none
  | .datagram t data address =>
    match s.user t with
    | .reading k => if s.conn.socket = some k then some (s.put t (.received data address)) else none
    | _ => none
  | .readFailed t e =>
    match s.user t with
    | .reading _ => some (s.put t (.raised (.other e)))
    | _ => none
  | .send t noSocket =>
    if (s.user t).isFree && s.conn.base.place t = .outside then
      match s.conn.socket with
      | some k => some (s.put t (.sending k))
      | none => some (s.put t (.raised (.other noSocket)))
    else none
  | .sent t =>
    match s.user t with
    | .sending _ => some (s.put t (.returned none))
    | _ => none
  | .sendFailed t x =>
    match s.user t with
    | .sending k =>
      match x with
      | .addressNotAvailable e =>
        if s.conn.socket = some k then some (s.put t (.refused e)) else none
      | .other e => some (s.put t (.raised (.other e)))
    | _ => none
  | .goOn t noSocket =>
    match s.user t with
    | .received data address =>
      -- `if not data: await self.close()`
      if !truthy data then some (s.close P t (.read address) noSocket)
      else some (s.absorb P t (data, some address))
    | .refused e => some (s.close P t (.write e) noSocket)
    | .closing w =>
      (s.conn.base.step (.resume t)).map fun b =>
        s.runClose P t w noSocket { s.conn with base := b }
    | _ => none
  | .interrupt t e =>
    match s.user t with
    | .closing _ =>
      (s.conn.step (.interrupt t)).map fun c => { s with conn := c }.put t (.raised (.other e))
    | _ => none

/-- One step. -/
def step (P : Parser σ (List UInt8 × Option Addr) Msg ε) (s : UDPChannel Task Addr σ Msg ε)
    (l : Label Task Addr ε) : Option (UDPChannel Task Addr σ Msg ε) :=
  match s.running with
  | some t => if l matches .turn then some (s.loop P t) else none
  | none => s.stepIdle P l

end UDPChannel

/-- **A message channel over a UDP listener**, with a parser that starts in a given state. -/
def udpChannel (Task : Type*) {Addr σ Msg ε : Type*} [DecidableEq Task]
    (P : Parser σ (List UInt8 × Option Addr) Msg ε) (q : σ) :
    Machine (UDPChannel Task Addr σ Msg ε) (UDPChannel.Label Task Addr ε) where
  init := .init q
  step := UDPChannel.step P

namespace UDPChannel

/-! ## The connection under the channel -/

section

variable {Task Addr σ Msg ε : Type*} [DecidableEq Task]
  {P : Parser σ (List UInt8 × Option Addr) Msg ε} {q : σ} {s s' : UDPChannel Task Addr σ Msg ε}

@[simp] theorem put_conn (t : Task) (u : ChannelUser Addr Msg ε) :
    (s.put t u).conn = s.conn := rfl

@[simp] theorem absorb_conn (t : Task) (data : List UInt8 × Option Addr) :
    (s.absorb P t data).conn = s.conn := by
  unfold absorb
  split <;> rfl

@[simp] theorem loop_conn (t : Task) : (s.loop P t).conn = s.conn := by
  unfold loop
  split
  · rfl
  · split <;> simp

@[simp] theorem afterClose_conn (t : Task) (w : Closer Addr ε) :
    (s.afterClose P t w).conn = s.conn := by
  cases w with
  | read address => exact absorb_conn ..
  | write e => rfl

@[simp] theorem runClose_conn (t : Task) (w : Closer Addr ε) (e : ε) (c : UDPListener Task) :
    (s.runClose P t w e c).conn = c.runClose t := by
  simp only [runClose]
  split_ifs <;> simp

/-- **What a step means to the connection**: nothing, a step of its own, or a `close()` from
`read()` or `write()`. -/
theorem conn_of_step {l : Label Task Addr ε} (hs : s.step P l = some s') :
    s'.conn = s.conn ∨ (∃ l, s.conn.step l = some s'.conn) ∨ ∃ t, s'.conn = s.conn.close t := by
  unfold step at hs
  split at hs
  · split_ifs at hs
    obtain rfl := Option.some.inj hs
    exact .inl (loop_conn _)
  cases l with
  | conn l =>
    simp only [stepIdle] at hs
    split_ifs at hs
    obtain ⟨c, hc, rfl⟩ := Option.map_eq_some_iff.mp hs
    exact .inr (.inl ⟨_, hc⟩)
  | turn => cases hs
  | receive t =>
    simp only [stepIdle] at hs
    split_ifs at hs
    obtain rfl := Option.some.inj hs
    exact .inl rfl
  | datagram t =>
    simp only [stepIdle] at hs
    split at hs
    · split_ifs at hs
      obtain rfl := Option.some.inj hs
      exact .inl rfl
    · cases hs
  | readFailed t | sent t =>
    simp only [stepIdle] at hs
    split at hs
    · obtain rfl := Option.some.inj hs
      exact .inl rfl
    · cases hs
  | send t =>
    simp only [stepIdle] at hs
    split_ifs at hs
    split at hs <;>
    · obtain rfl := Option.some.inj hs
      exact .inl rfl
  | sendFailed t =>
    simp only [stepIdle] at hs
    split at hs
    · split at hs
      · split_ifs at hs
        obtain rfl := Option.some.inj hs
        exact .inl rfl
      · obtain rfl := Option.some.inj hs
        exact .inl rfl
    · cases hs
  | goOn t e =>
    simp only [stepIdle] at hs
    split at hs
    · split_ifs at hs
      · obtain rfl := Option.some.inj hs
        exact .inr (.inr ⟨t, runClose_conn ..⟩)
      · obtain rfl := Option.some.inj hs
        exact .inl (absorb_conn ..)
    · obtain rfl := Option.some.inj hs
      exact .inr (.inr ⟨t, runClose_conn ..⟩)
    · obtain ⟨b, hb, rfl⟩ := Option.map_eq_some_iff.mp hs
      refine .inr (.inl ⟨.resume t, ?_⟩)
      rw [runClose_conn]
      exact Option.map_eq_some_iff.mpr ⟨b, hb, rfl⟩
    · cases hs
  | interrupt t e =>
    simp only [stepIdle] at hs
    split at hs
    · obtain ⟨c, hc, rfl⟩ := Option.map_eq_some_iff.mp hs
      exact .inr (.inl ⟨_, hc⟩)
    · cases hs

/-- **The connection stays sound under the channel.** -/
theorem sound_of_reach (h : (udpChannel Task P q).Reachable s) : s.conn.Sound := by
  refine h.invariant (I := fun s => s.conn.Sound) UDPListener.sound_init ?_
  intro s l s' hI _ hs
  rcases conn_of_step hs with heq | ⟨l', hl'⟩ | ⟨t, heq⟩
  · rwa [heq]
  · exact hI.step hl'
  · rw [heq]
    exact hI.close t

end

/-! ## What ends the loop -/

/-- What `read()` returns where there is no socket. -/
def nothing {Addr : Type*} : List UInt8 × Option Addr := ([], none)

/-- **A parser that is itself the one to say that the channel has ended**, when it is given
`(b"", None)` often enough. -/
inductive SaysEnd {Addr σ Msg ε : Type*} (P : Parser σ (List UInt8 × Option Addr) Msg ε) : σ → Prop
  | now {q : σ} (h : (P q nothing).error = some .endOfChannel) : SaysEnd P q
  | later {q : σ} (he : (P q nothing).error = none) (hm : (P q nothing).messages = [])
      (h : SaysEnd P (P q nothing).state) : SaysEnd P q

section

variable {Task Addr σ Msg ε : Type*} [DecidableEq Task]
  {P : Parser σ (List UInt8 × Option Addr) Msg ε} {q : σ} {s s' : UDPChannel Task Addr σ Msg ε}
  {t : Task}

/-- The `receive()` that runs ends by raising `EndOfChannel`, after finitely many turns of its
loop. -/
def EndsByEndOfChannel (P : Parser σ (List UInt8 × Option Addr) Msg ε) (q : σ)
    (s : UDPChannel Task Addr σ Msg ε) : Prop :=
  ∃ t n s', s.running = some t ∧ (udpChannel Task P q).exec s (List.replicate n .turn) = some s' ∧
    s'.running = none ∧ s'.user t = .raised .endOfChannel

theorem step_turn (hrun : s.running = some t) :
    (udpChannel Task P q).step s .turn = some (s.loop P t) := by
  simp [udpChannel, step, hrun]

/-- One turn of the loop, where nothing is pending and there is no socket. -/
theorem loop_of_closed (hp : s.channel.pending = []) (hsock : s.conn.socket = none) :
    s.loop P t =
      match (P s.channel.parser nothing).error with
      | none => { s with channel := ⟨(P s.channel.parser nothing).state,
          (P s.channel.parser nothing).messages⟩, running := some t }
      | some x => { s with channel := ⟨(P s.channel.parser nothing).state,
          (P s.channel.parser nothing).messages⟩ }.put t (.raised x) := by
  simp only [loop, hp, hsock, absorb, MessageChannel.read_of_truthy (truthy_prod _), nothing,
    List.nil_append]
  cases (P s.channel.parser ([], none)).error <;> rfl

/-- A `receive()` that is over takes no more turns. -/
theorem eq_of_turns {n : ℕ} (hrun : s.running = none)
    (hex : (udpChannel Task P q).exec s (List.replicate n .turn) = some s') : s' = s := by
  cases n with
  | zero => exact (Option.some.inj hex).symm
  | succ n => simp [List.replicate_succ, Machine.exec, udpChannel, step, hrun, stepIdle] at hex

/-- …and one that is not takes the next one, unless the run ends before it. -/
theorem turns_cases {n : ℕ} (hrun : s.running = some t)
    (hex : (udpChannel Task P q).exec s (List.replicate n .turn) = some s') :
    s' = s ∨ ∃ m, n = m + 1 ∧
      (udpChannel Task P q).exec (s.loop P t) (List.replicate m .turn) = some s' := by
  cases n with
  | zero => exact .inl (Option.some.inj hex).symm
  | succ n =>
    rw [List.replicate_succ, Machine.exec, step_turn hrun] at hex
    exact .inr ⟨n, rfl, hex⟩

/-- Only a parser that says so ends the channel. -/
theorem saysEnd_of_ends (hp : s.channel.pending = []) (hsock : s.conn.socket = none)
    (h : EndsByEndOfChannel P q s) : SaysEnd P s.channel.parser := by
  obtain ⟨t, n, s', hrun, hex, hrun', hu⟩ := h
  induction n generalizing s with
  | zero =>
    obtain rfl := Option.some.inj hex
    simp [hrun] at hrun'
  | succ n ih =>
    rw [List.replicate_succ, Machine.exec, step_turn hrun, Option.bind_some,
      loop_of_closed hp hsock] at hex
    cases he : (P s.channel.parser nothing).error with
    | some x =>
      rw [he] at hex
      obtain rfl := eq_of_turns rfl hex
      simp only [put, Function.update_self, ChannelUser.raised.injEq] at hu
      exact .now (hu ▸ he)
    | none =>
      rw [he] at hex
      cases hm : (P s.channel.parser nothing).messages with
      | nil =>
        rw [hm] at hex
        exact .later he hm (ih (s := { s with channel := _, running := some t }) rfl hsock rfl hex)
      | cons m ms =>
        -- the next turn returns the message
        rw [hm] at hex
        rcases turns_cases rfl hex with rfl | ⟨n, -, hex⟩
        · cases hrun'
        · obtain rfl := eq_of_turns rfl hex
          simp [loop, put] at hu

/-- …and such a parser does end it. -/
theorem ends_of_saysEnd (hrun : s.running = some t) (hp : s.channel.pending = [])
    (hsock : s.conn.socket = none) (h : SaysEnd P s.channel.parser) : EndsByEndOfChannel P q s := by
  generalize hq : s.channel.parser = p at h
  induction h generalizing s with
  | now he =>
    refine ⟨t, 1, s.loop P t, hrun, by simp [Machine.exec, step_turn hrun], ?_⟩
    rw [loop_of_closed hp hsock, hq, he]
    exact ⟨rfl, Function.update_self ..⟩
  | @later p he hm _ ih =>
    have hloop : s.loop P t =
        { s with channel := ⟨(P p nothing).state, []⟩, running := some t } := by
      rw [loop_of_closed hp hsock, hq, he, hm]
    obtain ⟨t', n, s', hrun', hex, hend⟩ :=
      ih (s := { s with channel := ⟨(P p nothing).state, []⟩, running := some t }) rfl rfl hsock rfl
    obtain rfl := Option.some.inj hrun'
    refine ⟨t, n + 1, s', hrun, ?_, hend⟩
    rw [List.replicate_succ, Machine.exec, step_turn hrun, hloop]
    exact hex

/-- **A `receive()` that finds nothing pending and the connection closed ends by raising
`EndOfChannel` only where the parser does it for the channel**: in every state of every run, with
every parser, and whatever closed the connection. -/
theorem endOfChannel_iff (h : (udpChannel Task P q).Reachable s) (hrun : s.running.isSome)
    (hp : s.channel.pending = []) (hc : s.conn.base.state ≠ .connected) :
    EndsByEndOfChannel P q s ↔ SaysEnd P s.channel.parser := by
  have hsock := (sound_of_reach h).socket_eq_none hc
  obtain ⟨t, ht⟩ := Option.isSome_iff_exists.mp hrun
  exact ⟨saysEnd_of_ends hp hsock, ends_of_saysEnd ht hp hsock⟩

end

/-- A parser that ends the channel where the payload is empty. -/
def hangUp : Parser Unit (List UInt8 × Option Unit) (List UInt8) Unit :=
  fun _ data =>
    if truthy data.1 then ⟨(), [data.1], none⟩ else ⟨(), [], some .endOfChannel⟩

/-- Another task closes the connection, and then `receive()` is called. -/
theorem endOfChannel_hangUp :
    ∃ s, (udpChannel (Fin 2) hangUp ()).Reachable s ∧ EndsByEndOfChannel hangUp () s := by
  have hr := Machine.reachable_of_exec (M := udpChannel (Fin 2) hangUp ())
    [.conn (.call .up 0), .conn (.finish 0 .returned), .conn (.call .down 0), .receive 1] rfl
  exact ⟨_, hr, (endOfChannel_iff hr rfl rfl nofun).mpr (.now rfl)⟩

/-! ## A parser that yields nothing for an empty payload -/

/-- One message for each item with a payload. -/
def payloads : Parser Unit (List UInt8 × Option Unit) (List UInt8) Unit :=
  fun _ data => ⟨(), if truthy data.1 then [data.1] else [], none⟩

theorem not_saysEnd_payloads : ¬ SaysEnd payloads () := by
  intro h
  generalize hq : () = q at h
  induction h with
  | now he => cases he
  | later _ _ _ ih => exact ih rfl

/-- The empty datagram closes the connection, and `receive()` never ends. -/
theorem receive_spins :
    ¬ ∀ s, (udpChannel (Fin 2) payloads ()).Reachable s → s.running.isSome →
      s.channel.pending = [] → s.conn.base.state = .disconnected →
      EndsByEndOfChannel payloads () s := by
  intro h
  have hr := Machine.reachable_of_exec (M := udpChannel (Fin 2) payloads ())
    [.conn (.call .up 0), .conn (.finish 0 .returned), .receive 1, .turn, .datagram 1 [] (),
      .goOn 1 ()] rfl
  exact not_saysEnd_payloads (saysEnd_of_ends rfl rfl (h _ hr rfl rfl rfl))

end UDPChannel

end FlockwaveConn
