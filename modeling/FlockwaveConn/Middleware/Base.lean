import FlockwaveConn.Connections.Broadcast

/-!
# Middleware/Base — connections wrapped in middleware

A middleware is an object proxy: what it defines itself takes the place of the wrapped object's
method, and everything else is taken from the wrapped object, *bound to it*.  So a connection is
here a record of methods that are bound already, and a middleware replaces some of its fields; a
method that is not replaced goes on calling the methods of the object it belongs to.
-/

namespace FlockwaveConn

/-- How a call ends, if it does. -/
inductive Reply (ε α : Type*)
  | returned (a : α)
  | raised (x : ε)
  | never
  deriving DecidableEq

/-- What a call does: how it ends, the state it leaves the connection in, and what it transmits. -/
structure Effect (τ Packet ε α : Type*) where
  reply : Reply ε α
  state : τ
  sent : List Packet

/-- What a call can raise. -/
inductive Failure (ε : Type*)
  /-- `NoBroadcastAddressError`. -/
  | noBroadcastAddress
  /-- The object has no such method. -/
  | attributeError
  | runtimeError
  | typeError
  | valueError
  /-- What comes from below. -/
  | other (x : ε)
  deriving DecidableEq

/-- A connection object, with the methods it has.  Each call is given what the environment has to
say about it. -/
structure Connection (τ Item Packet ε E : Type*) where
  open_ : E → τ → Effect τ Packet (Failure ε) Unit
  close : E → τ → Effect τ Packet (Failure ε) Unit
  read : E → τ → Effect τ Packet (Failure ε) Item
  write : E → Item → τ → Effect τ Packet (Failure ε) Unit
  broadcast : Option (E → Item → τ → Effect τ Packet (Failure ε) Unit)

/-- One of the connection classes, without middleware.  Data leaves it in `write()` only. -/
structure ConnectionClass (τ Item Addr Packet ε E : Type*) where
  open_ : E → τ → Reply (Failure ε) Unit × τ
  close : E → τ → Reply (Failure ε) Unit × τ
  read : E → τ → Reply (Failure ε) Item × τ
  write : E → Item → τ → Effect τ Packet (Failure ε) Unit
  /-- `broadcast_address`, in a class that has a `broadcast()`. -/
  broadcastAddress : Option (τ → Option Addr)
  /-- The item that `broadcast()` writes. -/
  addressed : Item → Addr → Item

namespace ConnectionClass

variable {τ Item Addr Packet ε E : Type*} (k : ConnectionClass τ Item Addr Packet ε E)

/-- `UDPListenerConnection.broadcast()`, given the property it reads: `self` is the object itself,
also where the method was looked up through a proxy. -/
def broadcast (address : τ → Option Addr) (e : E) (data : Item) (s : τ) :
    Effect τ Packet (Failure ε) Unit :=
  match address s with
  | none => ⟨.raised .noBroadcastAddress, s, []⟩
  | some a => k.write e (k.addressed data a) s

/-- An object of the class. -/
def bare : Connection τ Item Packet ε E where
  open_ e s := ⟨(k.open_ e s).1, (k.open_ e s).2, []⟩
  close e s := ⟨(k.close e s).1, (k.close e s).2, []⟩
  read e s := ⟨(k.read e s).1, (k.read e s).2, []⟩
  write := k.write
  broadcast := k.broadcastAddress.map k.broadcast

end ConnectionClass

/-! ## Middleware -/

/-- A line of a log. -/
abbrev Line := List Char

/-- A formatter: the lines to log, or what it raises. -/
abbrev Formatter (Item ε : Type*) := Item → Except (Failure ε) (List Line)

/-- The formatter goes through an item. -/
def Formatter.Formats {Item ε : Type*} (f : Formatter Item ε) (x : Item) : Prop :=
  ∃ lines, f x = .ok lines

/-- The middleware of the package. -/
inductive Middleware (Item ε : Type*)
  /-- `LoggingMiddleware`, with its formatters for what is read and for what is written. -/
  | log (onRead onWrite : Formatter Item ε)
  /-- `ReadOnlyMiddleware`. -/
  | rd
  /-- `WriteOnlyMiddleware`. -/
  | wr

variable {τ Item Addr Packet ε E : Type*}

namespace Connection

/-- `LoggingMiddleware`: an item is formatted before it is written and after it has been read, and
what the formatter raises comes out of the call. -/
def logging (onRead onWrite : Formatter Item ε) (c : Connection τ Item Packet ε E) :
    Connection τ Item Packet ε E :=
  { c with
    read := fun e s =>
      let r := c.read e s
      match r.reply with
      | .returned x =>
        match onRead x with
        | .ok _ => r
        | .error y => { r with reply := .raised y }
      | _ => r
    write := fun e x s =>
      match onWrite x with
      | .ok _ => c.write e x s
      | .error y => ⟨.raised y, s, []⟩ }

/-- `ReadOnlyMiddleware`: `write()` returns at once. -/
def readOnly (c : Connection τ Item Packet ε E) : Connection τ Item Packet ε E :=
  { c with write := fun _ _ s => ⟨.returned (), s, []⟩ }

/-- `WriteOnlyMiddleware`: `read()` sleeps forever. -/
def writeOnly (c : Connection τ Item Packet ε E) : Connection τ Item Packet ε E :=
  { c with read := fun _ s => ⟨.never, s, []⟩ }

end Connection

/-- One layer. -/
def Middleware.wrap :
    Middleware Item ε → Connection τ Item Packet ε E → Connection τ Item Packet ε E
  | .log onRead onWrite => .logging onRead onWrite
  | .rd => .readOnly
  | .wr => .writeOnly

/-- A stack of layers, the outermost first. -/
def Connection.wrapped (ms : List (Middleware Item ε)) (c : Connection τ Item Packet ε E) :
    Connection τ Item Packet ε E :=
  ms.foldr Middleware.wrap c

/-! ## Runs -/

/-- A call to a method of a connection. -/
inductive Op (Item : Type*)
  | open_
  | close
  | read
  | write (x : Item)
  | broadcast (x : Item)

/-- The effect with another reply. -/
def Effect.map {α β : Type*} (f : α → β) (r : Effect τ Packet ε α) : Effect τ Packet ε β :=
  ⟨match r.reply with
    | .returned a => .returned (f a)
    | .raised x => .raised x
    | .never => .never, r.state, r.sent⟩

namespace Connection

variable (c : Connection τ Item Packet ε E)

/-- One call, with the item it returns if it is a `read()`. -/
def perform (e : E) (s : τ) : Op Item → Effect τ Packet (Failure ε) (Option Item)
  | .open_ => (c.open_ e s).map fun _ => none
  | .close => (c.close e s).map fun _ => none
  | .read => (c.read e s).map some
  | .write x => (c.write e x s).map fun _ => none
  | .broadcast x =>
    match c.broadcast with
    | some b => (b e x s).map fun _ => none
    | none => ⟨.raised .attributeError, s, []⟩

/-- **What a sequence of calls does**: the reply to each of them, and what each has transmitted. -/
def trace : τ → List (Op Item × E) → List (Reply (Failure ε) (Option Item) × List Packet)
  | _, [] => []
  | s, (o, e) :: os =>
    ((c.perform e s o).reply, (c.perform e s o).sent) :: trace (c.perform e s o).state os

/-- All that a sequence of calls transmits, in order. -/
def sentBy (s : τ) (os : List (Op Item × E)) : List Packet := (c.trace s os).flatMap Prod.snd

@[simp] theorem sentBy_nil (s : τ) : c.sentBy s [] = [] := rfl

@[simp] theorem sentBy_cons (s : τ) (o : Op Item) (e : E) (os : List (Op Item × E)) :
    c.sentBy s ((o, e) :: os) =
      (c.perform e s o).sent ++ c.sentBy (c.perform e s o).state os := rfl

end Connection

/-! ## A class that broadcasts -/

/-- What can be passed to `write()` or come out of `read()`, as far as the connections and the
formatters tell objects apart. -/
inductive DataItem
  /-- A `bytes`, a `bytearray` or a `memoryview`. -/
  | buffer (data : List UInt8)
  | text (s : String)
  /-- A pair of bytes and an address, the item of a UDP listener. -/
  | datagram (data : List UInt8) (address : Option (IPAddress × ℕ))
  /-- Another sequence. -/
  | sequence (length : ℕ)
  /-- An object that is no sequence, and has no `read()` either. -/
  | scalar
  deriving DecidableEq

/-- A `UDPListenerConnection`, used by one task at a time. -/
structure UDPState where
  /-- `_socket is not None`. -/
  socket : Bool
  broadcastAddress : Option (IPAddress × ℕ)
  deriving DecidableEq

/-- What the operating system answers. -/
inductive UDPAnswer (ε : Type*)
  /-- The socket is bound, and this is where broadcasts go. -/
  | opened (broadcastAddress : Option (IPAddress × ℕ))
  | datagram (data : List UInt8) (address : IPAddress × ℕ)
  | sent
  /-- `EADDRNOTAVAIL`. -/
  | addressNotAvailable (x : ε)
  | failed (x : ε)

/-- The methods of a `UDPListenerConnection`. -/
def udpListenerClass (ε : Type*) :
    ConnectionClass UDPState DataItem (IPAddress × ℕ) (List UInt8 × (IPAddress × ℕ)) ε
      (UDPAnswer ε) where
  open_ e s :=
    if s.socket then (.returned (), s)
    else
      match e with
      | .opened a => (.returned (), ⟨true, a⟩)
      | .failed x => (.raised (.other x), s)
      | _ => (.never, s)
  close _ _ := (.returned (), ⟨false, none⟩)
  read e s :=
    if s.socket then
      match e with
      | .datagram data a =>
        (.returned (.datagram data (some a)), if data.isEmpty then ⟨false, none⟩ else s)
      | .failed x => (.raised (.other x), s)
      | _ => (.never, s)
    else (.returned (.datagram [] none), s)
  write e x s :=
    if s.socket then
      match x with
      | .datagram data (some a) =>
        match e with
        | .sent => ⟨.returned (), s, [(data, a)]⟩
        | .addressNotAvailable x => ⟨.raised (.other x), ⟨false, none⟩, []⟩
        | .failed x => ⟨.raised (.other x), s, []⟩
        | _ => ⟨.never, s, []⟩
      -- `buf, address = data`, or `sendto()` on what that makes of it
      | .scalar | .datagram _ none => ⟨.raised .typeError, s, []⟩
      | _ => ⟨.raised .valueError, s, []⟩
    else ⟨.raised .runtimeError, s, []⟩
  broadcastAddress := some UDPState.broadcastAddress
  addressed
    | .buffer data, a | .datagram data _, a => .datagram data (some a)
    -- no bytes: `sendto()` raises
    | _, _ => .scalar

end FlockwaveConn
