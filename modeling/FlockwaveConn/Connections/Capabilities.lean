import FlockwaveConn.Connections.FailedOpening
import FlockwaveConn.Factory.Specification

/-!
# Connections/Capabilities — which UDP connections can broadcast, and which say so

`_get_capabilities()` of a UDP listener and of its subclasses says `can_broadcast` of all of them.
Whether broadcasts are allowed is settled by the constructor, each in its own way, and where they
are not there never is a broadcast address: `broadcast()` raises in every state of every run, and a
`BroadcastMessageChannel` drops what it is given.  So the answer is right exactly for the arguments
that allow broadcasts (`agrees_iff`).
-/

namespace FlockwaveConn

open Urllib

/-! ## The constructors -/

/-- What the `ipaddress` module makes of a text, `none` for a `ValueError`. -/
structure Ipaddress where
  /-- `ip_network()` -/
  network : String → Option IPNetwork
  /-- `ip_address().is_multicast` -/
  isMulticast : String → Option Bool

/-- `int()` of a parameter. -/
def ParameterValue.toInt (lib : Stdlib) : ParameterValue → Option ℤ
  | .int z => some z
  | .str s => Urllib.int lib s

/-- The `ValueError`s of the constructors. -/
inductive ConstructorError
  /-- `int(allow_broadcast)` -/
  | allowBroadcast
  /-- "either 'interface' or 'path' must be given" -/
  | interface
  /-- "either 'group' or 'host' must be given" -/
  | group
  /-- `ip_address(group)` -/
  | address
  /-- "expected multicast group address" -/
  | multicast
  /-- "either 'network' or 'path' must be given" -/
  | network
  deriving DecidableEq, Repr

/-- What a `SocketBinding` binds to. -/
inductive BindingValue
  | fixed (host : String)
  | interface (name : String)
  | subnet (network : String)
  deriving DecidableEq, Repr

/-- The classes of UDP listeners. -/
inductive UDPClass
  | listener
  | broadcastListener
  | multicastListener
  | subnetBinding
  deriving DecidableEq, Repr

/-- A new `UDPListenerConnection`, of one of the classes. -/
structure UDPListenerConnection where
  cls : UDPClass
  binding : BindingValue
  port : ℕ
  allowBroadcast : Bool
  broadcastPort : Option ℕ
  /-- In a multicast connection, whether an interface was given. -/
  group : Option Bool
  deriving DecidableEq, Repr

/-- The keyword arguments that the subclass for subnets hands on. -/
structure ListenerKwds where
  host : Option String := some ""
  interface : Option String := none
  allowBroadcast : Option ParameterValue := none
  broadcastPort : Option ℕ := none

/-- The arguments of `UDPListenerConnection`. -/
structure ListenerArgs extends ListenerKwds where
  port : Option ℕ := some 0
  subnet : Option String := none

namespace UDPListenerConnection

/-- `UDPListenerConnection.__init__` -/
def new (lib : Stdlib) (cls : UDPClass) (a : ListenerArgs) :
    Except ConstructorError UDPListenerConnection :=
  let binding :=
    match a.interface, a.subnet with
    | some interface, _ => BindingValue.interface interface
    | none, some subnet => .subnet subnet
    | none, none => .fixed (a.host.getD "")
  let port := a.port.getD 0
  match a.broadcastPort with
  | some broadcastPort => .ok ⟨cls, binding, port, true, some broadcastPort, none⟩
  | none =>
    match (a.allowBroadcast.getD (.int 0)).toInt lib with
    | some z => .ok ⟨cls, binding, port, z ≠ 0, none, none⟩
    | none => .error .allowBroadcast

end UDPListenerConnection

/-- The ways to make a UDP listener, with the arguments of each. -/
inductive Construction
  | listener (a : ListenerArgs)
  | broadcast (a : ListenerArgs)
  | broadcastListener (interface : Option String) (port : Option ℕ) (path : Option String)
  | multicastListener (group : Option String) (port : Option ℕ) (interface host : Option String)
  | subnetBinding (network : Option String) (port : Option ℕ) (path : Option String)
      (kwds : ListenerKwds)

namespace Construction

open UDPListenerConnection (new)

/-- `_create_udp_broadcast_connection()` -/
def createUdpBroadcastConnection (lib : Stdlib) (a : ListenerArgs) :
    Except ConstructorError UDPListenerConnection :=
  new lib .listener { a with allowBroadcast := some (.int 1) }

/-- `BroadcastUDPListenerConnection.__init__` -/
def newBroadcastListener (lib : Stdlib) (interface : Option String) (port : Option ℕ)
    (path : Option String) : Except ConstructorError UDPListenerConnection :=
  match interface.or path with
  | none => .error .interface
  | some interface =>
    if '/' ∈ interface.toList then
      new lib .broadcastListener { subnet := some interface, port := port }
    else new lib .broadcastListener { interface := some interface, port := port }

/-- `MulticastUDPListenerConnection.__init__` -/
def newMulticastListener (lib : Stdlib) (ip : Ipaddress) (group : Option String) (port : Option ℕ)
    (interface host : Option String) : Except ConstructorError UDPListenerConnection :=
  match group.or host with
  | none => .error .group
  | some group =>
    match ip.isMulticast group with
    | none => .error .address
    | some false => .error .multicast
    | some true =>
      (new lib .multicastListener
        { host := some group, port := port, allowBroadcast := some (.int 1) }).map fun c =>
          { c with group := some (interface.any (· ≠ "")) }

/-- `SubnetBindingUDPListenerConnection.__init__` -/
def newSubnetBinding (lib : Stdlib) (network : Option String) (port : Option ℕ)
    (path : Option String) (kwds : ListenerKwds) : Except ConstructorError UDPListenerConnection :=
  match network.or path with
  | none => .error .network
  | some network =>
    new lib .subnetBinding
      { host := kwds.host, interface := kwds.interface, broadcastPort := kwds.broadcastPort
        allowBroadcast := kwds.allowBroadcast.or (some (.int 1))
        subnet := some network, port := port }

/-- The call of the constructor. -/
def construct (lib : Stdlib) (ip : Ipaddress) :
    Construction → Except ConstructorError UDPListenerConnection
  | listener a => new lib .listener a
  | broadcast a => createUdpBroadcastConnection lib a
  | broadcastListener interface port path => newBroadcastListener lib interface port path
  | multicastListener group port interface host =>
    newMulticastListener lib ip group port interface host
  | subnetBinding network port path kwds => newSubnetBinding lib network port path kwds

end Construction

/-! ## The capabilities -/

/-- What a connection can do. -/
structure Capabilities where
  canBroadcast : Bool
  canReceive : Bool
  canSend : Bool
  deriving DecidableEq, Repr

/-- `get_connection_capabilities()`: the answer of the connection, where it has one, and otherwise
that of its base classes. -/
def getConnectionCapabilities (support : Option Capabilities) (bases : Capabilities) :
    Capabilities := support.getD bases

namespace UDPListenerConnection

/-- `_get_capabilities()` -/
def getCapabilities (c : UDPListenerConnection) : Capabilities :=
  match c.cls with
  | .listener | .subnetBinding => ⟨true, true, true⟩
  | .broadcastListener => ⟨true, true, true⟩
  | .multicastListener => ⟨true, true, true⟩

/-- What the caller of `get_connection_capabilities()` gets for it. -/
def capabilities (c : UDPListenerConnection) : Capabilities :=
  getConnectionCapabilities (some c.getCapabilities) ⟨true, true, true⟩

end UDPListenerConnection

/-- A channel that can broadcast. -/
structure BroadcastMessageChannel (Value ε : Type*) where
  /-- The item of a UDP listener is the data, and the address to write it to. -/
  broadcastEncoder : Value → Except ε (List UInt8 × (IPAddress × ℕ))
  canBroadcast : Bool

namespace BroadcastMessageChannel

variable {Value ε : Type*}

/-- `BroadcastMessageChannel.__init__` -/
def new (c : UDPListenerConnection)
    (broadcastEncoder : Value → Except ε (List UInt8 × (IPAddress × ℕ))) :
    BroadcastMessageChannel Value ε :=
  ⟨broadcastEncoder, c.capabilities.canBroadcast⟩

/-- How `BroadcastMessageChannel.broadcast()` ends. -/
inductive Outcome (ε : Type*)
  /-- The encoder raises. -/
  | raised (e : ε)
  /-- Nothing is sent, and nothing is raised. -/
  | dropped
  /-- "connection does not have a socket" -/
  | runtimeError
  | sent (data : List UInt8) (address : IPAddress × ℕ)

/-- `UDPListenerConnection.write()` -/
def write {Task : Type*} (s : UDPBroadcaster Task) (data : List UInt8 × (IPAddress × ℕ)) :
    Outcome ε :=
  if s.listener.socket.isSome then .sent data.1 data.2 else .runtimeError

/-- `BroadcastMessageChannel.broadcast()` -/
def broadcast {Task : Type*} (channel : BroadcastMessageChannel Value ε) (s : UDPBroadcaster Task)
    (value : Value) : Outcome ε :=
  match channel.broadcastEncoder value with
  | .error e => .raised e
  | .ok encoded =>
    if channel.canBroadcast then
      match s.broadcast with
      | .noBroadcastAddressError => .dropped
      | .runtimeError => .runtimeError
      | .sent address => .sent encoded.1 address
    else write s encoded

end BroadcastMessageChannel

/-! ## What a connection can do -/

namespace UDPListenerConnection

open UDPBroadcaster

variable {ip : Ipaddress} {c : UDPListenerConnection}

/-- The connection, to the runs of a UDP listener.  A subnet that cannot be read stands as it is. -/
def config (ip : Ipaddress) (c : UDPListenerConnection) : BroadcastConfig where
  binding :=
    match c.binding with
    | .fixed host => .fixed host c.port
    | .interface name => .interface name c.port
    | .subnet text => ((ip.network text).map (.subnet · c.port)).getD (.fixed text c.port)
  allowBroadcast := c.allowBroadcast
  broadcastPort := c.broadcastPort
  group := c.group

/-- `ip_network(self.value)` does not raise in `resolve()`. -/
def Resolves (ip : Ipaddress) (c : UDPListenerConnection) : Prop :=
  ∀ text, c.binding = .subnet text → (ip.network text).isSome

/-- **What can happen**: there is no socket for a subnet that cannot be read. -/
def Possible {Task : Type*} (ip : Ipaddress) (c : UDPListenerConnection)
    (_ : UDPBroadcaster Task) : Label Task → Prop
  | .bound _ _ _ => c.Resolves ip
  | _ => True

/-- The operating system does what it is asked for, and nobody interrupts the call. -/
def Succeeds {Task : Type*} (ip : Ipaddress) (c : UDPListenerConnection)
    (_ : UDPBroadcaster Task) : Label Task → Prop
  | .bound _ _ joins => c.Resolves ip ∧ joins = true
  | .lookedUp _ _ joins | .joined _ joins => joins = true
  | .conn (.finish _ _) | .conn (.interrupt _) => False
  | .conn _ | .setUserDefined _ => True

/-- **The connection can broadcast**: somebody may call `open()`, `close()` and
`set_user_defined_broadcast_address()` in such a way that `broadcast()` has an address. -/
def Able (ip : Ipaddress) (c : UDPListenerConnection) : Prop :=
  ∃ s, (udpBroadcaster Unit (c.config ip)).Reach (Succeeds ip c) s ∧
    s.listener.base.place () = .outside ∧ s.broadcast ≠ .noBroadcastAddressError

/-- **The capability agrees with what the connection does**, and a channel drops a message only
where there is a state in which the connection could broadcast. -/
structure Agrees (ip : Ipaddress) (c : UDPListenerConnection) : Prop where
  canBroadcast : c.capabilities.canBroadcast = true ↔ c.Able ip
  dropped : ∀ (Task Value ε : Type) [DecidableEq Task]
    (encoder : Value → Except ε (List UInt8 × (IPAddress × ℕ))) (value : Value)
    (s : UDPBroadcaster Task), (udpBroadcaster Task (c.config ip)).Reach (Possible ip c) s →
    (BroadcastMessageChannel.new c encoder).broadcast s value = .dropped → c.Able ip

@[simp] theorem capabilities_canBroadcast (c : UDPListenerConnection) :
    c.capabilities.canBroadcast = true := by
  obtain ⟨cls, -, -, -, -, -⟩ := c
  cases cls <;> rfl

/-- Where broadcasts are allowed the user can define an address. -/
theorem able_of_allowBroadcast (h : c.allowBroadcast = true) : c.Able ip := by
  have hallow : (c.config ip).allowBroadcast = true := h
  refine ⟨{ UDPBroadcaster.init (c.config ip) with userDefined := some (.limitedBroadcast, 0) },
    .next (l := .setUserDefined (some (.limitedBroadcast, 0))) .init trivial ?_, rfl, ?_⟩
  · simp [udpBroadcaster, UDPBroadcaster.step, hallow]
  · simp [UDPBroadcaster.broadcast, broadcastAddress, UDPBroadcaster.init, UDPListener.init]

/-- Where they are not, no run leads to an address. -/
theorem silent_of_reach {Task : Type*} [DecidableEq Task]
    {G : UDPBroadcaster Task → Label Task → Prop} {s : UDPBroadcaster Task}
    (h : c.allowBroadcast = false) (hs : (udpBroadcaster Task (c.config ip)).Reach G s) :
    s.Silent :=
  hs.invariant (I := Silent) (.init (c.config ip)) fun _ _ _ hI _ hs => hI.step h hs

theorem able_iff : c.Able ip ↔ c.allowBroadcast = true := by
  refine ⟨fun ⟨s, hs, _, hne⟩ => ?_, able_of_allowBroadcast⟩
  by_contra hallow
  exact hne (silent_of_reach (by simpa using hallow) hs).broadcast

theorem agrees_iff_allowBroadcast : c.Agrees ip ↔ c.allowBroadcast = true := by
  refine ⟨fun h => able_iff.mp (h.canBroadcast.mp c.capabilities_canBroadcast), fun h => ?_⟩
  have hable : c.Able ip := able_of_allowBroadcast h
  exact ⟨iff_of_true c.capabilities_canBroadcast hable, fun _ _ _ _ _ _ _ _ _ => hable⟩

/-- **Where broadcasts are not allowed a channel drops every message**, in each state of any run. -/
theorem dropped_of_reach {Task Value ε : Type*} [DecidableEq Task]
    {G : UDPBroadcaster Task → Label Task → Prop} {s : UDPBroadcaster Task}
    (h : c.allowBroadcast = false) (hs : (udpBroadcaster Task (c.config ip)).Reach G s)
    {encoder : Value → Except ε (List UInt8 × (IPAddress × ℕ))} {value : Value}
    {encoded : List UInt8 × (IPAddress × ℕ)} (henc : encoder value = .ok encoded) :
    (BroadcastMessageChannel.new c encoder).broadcast s value = .dropped := by
  simp [BroadcastMessageChannel.broadcast, BroadcastMessageChannel.new, henc,
    (silent_of_reach h hs).broadcast]

/-- The opening goes on to its end. -/
theorem exists_opened {host : Option IPAddress} {port : ℕ} {s : UDPBroadcaster Unit}
    (h : (udpBroadcaster Unit (c.config ip)).Reach (Succeeds ip c)
      (s.created (c.config ip) true host port ())) :
    ∃ s', (udpBroadcaster Unit (c.config ip)).Reach (Succeeds ip c) s' ∧
      s'.listener.base.place () = .outside ∧ s'.listener.socket.isSome := by
  have hjoin : ∀ s : UDPBroadcaster Unit,
      s.join (c.config ip) true host port () = s.endOpen .returned host port () := by
    intro s
    simp [join]
  have hend : ∀ s : UDPBroadcaster Unit,
      (s.endOpen .returned host port ()).listener.base.place () = .outside ∧
        (s.endOpen .returned host port ()).listener.socket.isSome := by
    intro s
    simp [endOpen, UDPListener.endOpen, Outcome.success, UDPBroadcaster.goTo, ConnectionBase.leave]
  unfold created at h
  split at h
  · have hs : (udpBroadcaster Unit (c.config ip)).step (s.goTo () (.joining host port))
        (.joined () true) =
          some ((s.goTo () (.joining host port)).endOpen .returned host port ()) := by
      simp [udpBroadcaster, UDPBroadcaster.step, UDPBroadcaster.goTo, hjoin]
    exact ⟨_, h.next (l := .joined () true) rfl hs, hend _⟩
  · rw [hjoin] at h
    exact ⟨_, h, hend s⟩

/-- **Where broadcasts are allowed they are sent**, once the connection is open: it only has to be
able to read its subnet, if it has one. -/
theorem exists_sent (h : c.allowBroadcast = true) (hres : c.Resolves ip) (a : IPAddress × ℕ) :
    ∃ s, (udpBroadcaster Unit (c.config ip)).Reach (Succeeds ip c) s ∧
      s.listener.base.place () = .outside ∧ s.broadcast = .sent a := by
  have hallow : (c.config ip).allowBroadcast = true := h
  obtain ⟨s, hs, hout, hsock⟩ : ∃ s, (udpBroadcaster Unit (c.config ip)).Reach (Succeeds ip c) s ∧
      s.listener.base.place () = .outside ∧ s.listener.socket.isSome := by
    obtain ⟨s, hs, hin, hb⟩ : ∃ s, (udpBroadcaster Unit (c.config ip)).Reach (Succeeds ip c) s ∧
        s.listener.base.place () = .inside .up ∧ s.opening () = .binding :=
      ⟨_, .next (l := .conn (.call .up ())) .init trivial rfl, rfl, rfl⟩
    have hstep : (udpBroadcaster Unit (c.config ip)).step s
        (.bound () (c.config ip).binding.port true) =
          some (s.bound (c.config ip) true (c.config ip).binding.port ()) := by
      simp [udpBroadcaster, UDPBroadcaster.step, hb, hin]
    have hguard : Succeeds ip c s (.bound () (c.config ip).binding.port true) := ⟨hres, rfl⟩
    have hbound := hs.next hguard hstep
    rw [bound_eq hallow] at hbound
    split at hbound
    · exact exists_opened hbound
    · exact exists_opened
        (hbound.next (l := .lookedUp () .limitedBroadcast true) rfl
          (by simp [udpBroadcaster, UDPBroadcaster.step, UDPBroadcaster.goTo]; rfl))
  refine ⟨{ s with userDefined := some a },
    hs.next (l := .setUserDefined (some a)) trivial ?_, hout, ?_⟩
  · simp [udpBroadcaster, UDPBroadcaster.step, hallow]
  · simp [UDPBroadcaster.broadcast, broadcastAddress, hsock]

end UDPListenerConnection

/-! ## The arguments that allow broadcasts -/

/-- A port for broadcasts is given, or they are asked for. -/
def ListenerKwds.AllowsBroadcast (lib : Stdlib) (kwds : ListenerKwds) : Prop :=
  kwds.broadcastPort.isSome ∨
    ∃ z, (kwds.allowBroadcast.getD (.int 0)).toInt lib = some z ∧ z ≠ 0

/-- **The arguments with which broadcasts are allowed.** -/
def Construction.AllowsBroadcast (lib : Stdlib) : Construction → Prop
  | listener a => a.AllowsBroadcast lib
  | broadcast _ | multicastListener _ _ _ _ => True
  | broadcastListener _ _ _ => False
  | subnetBinding _ _ _ kwds => kwds.allowBroadcast = none ∨ kwds.AllowsBroadcast lib

namespace UDPListenerConnection

variable {lib : Stdlib} {ip : Ipaddress} {c : UDPListenerConnection}

theorem allowBroadcast_of_new {cls : UDPClass} {a : ListenerArgs} (h : new lib cls a = .ok c) :
    c.allowBroadcast = true ↔ a.AllowsBroadcast lib := by
  unfold new at h
  unfold ListenerKwds.AllowsBroadcast
  cases hport : a.broadcastPort with
  | some p =>
    simp only [hport, Except.ok.injEq] at h
    simp [← h]
  | none =>
    cases hint : (a.allowBroadcast.getD (.int 0)).toInt lib with
    | some z =>
      simp only [hport, hint, Except.ok.injEq] at h
      simp [← h]
    | none => simp [hport, hint] at h

theorem allowBroadcast_of_construct {k : Construction} (h : k.construct lib ip = .ok c) :
    c.allowBroadcast = true ↔ k.AllowsBroadcast lib := by
  have hasked : ∀ {kwds : ListenerKwds}, kwds.allowBroadcast = some (.int 1) →
      kwds.AllowsBroadcast lib := by
    intro kwds hkwds
    exact .inr ⟨1, by rw [hkwds]; rfl, one_ne_zero⟩
  cases k with
  | listener a => exact allowBroadcast_of_new h
  | broadcast a => exact iff_of_true ((allowBroadcast_of_new h).mpr (hasked rfl)) trivial
  | broadcastListener interface port path =>
    have hnot : ∀ {a : ListenerArgs}, a.broadcastPort = none → a.allowBroadcast = none →
        ¬ a.AllowsBroadcast lib := by
      intro a hport hallow
      simp [ListenerKwds.AllowsBroadcast, hport, hallow, ParameterValue.toInt]
    simp only [Construction.construct, Construction.newBroadcastListener] at h
    split at h
    · cases h
    · split at h
      all_goals exact iff_of_false (fun hc => hnot rfl rfl ((allowBroadcast_of_new h).mp hc)) id
  | multicastListener group port interface host =>
    simp only [Construction.construct, Construction.newMulticastListener] at h
    split at h
    · cases h
    · split at h
      · cases h
      · cases h
      · obtain rfl := Except.ok.inj h
        exact iff_of_true rfl trivial
  | subnetBinding network port path kwds =>
    simp only [Construction.construct, Construction.newSubnetBinding] at h
    split at h
    · cases h
    · have hnew := allowBroadcast_of_new h
      cases hallow : kwds.allowBroadcast with
      | none => exact iff_of_true (hnew.mpr (hasked (by simp [hallow]))) (.inl hallow)
      | some x =>
        have hiff : (Construction.subnetBinding network port path kwds).AllowsBroadcast lib ↔
            kwds.AllowsBroadcast lib := by
          simp [Construction.AllowsBroadcast, hallow]
        rw [hnew, hiff]
        simp [ListenerKwds.AllowsBroadcast, hallow]

/-- **The capability agrees with what the connection does exactly for the arguments that allow
broadcasts.** -/
theorem agrees_iff (lib : Stdlib) (ip : Ipaddress) (k : Construction) (c : UDPListenerConnection)
    (h : k.construct lib ip = .ok c) : c.Agrees ip ↔ k.AllowsBroadcast lib :=
  agrees_iff_allowBroadcast.trans (allowBroadcast_of_construct h)

/-- `SubnetBindingUDPListenerConnection("10.0.0.0/8")` can broadcast. -/
theorem agrees_subnet :
    Agrees ⟨fun _ => some (.v4 0x0A000000 8), fun _ => none⟩
      ⟨.subnetBinding, .subnet "10.0.0.0/8", 0, true, none, none⟩ :=
  (agrees_iff ⟨some 4300, id, fun _ => false, fun _ => true, fun _ => []⟩
    ⟨fun _ => some (.v4 0x0A000000 8), fun _ => none⟩
    (.subnetBinding (some "10.0.0.0/8") (some 0) none {}) _ rfl).mpr (.inl rfl)

/-- **`UDPListenerConnection()` cannot**, and says that it can. -/
theorem cannot_broadcast :
    ¬ ∀ lib ip (k : Construction) c, k.construct lib ip = .ok c → c.Agrees ip := by
  intro h
  let lib : Stdlib := ⟨some 4300, id, fun _ => false, fun _ => true, fun _ => []⟩
  let ip : Ipaddress := ⟨fun _ => none, fun _ => none⟩
  have hagrees := h lib ip (.listener {}) ⟨.listener, .fixed "", 0, false, none, none⟩ rfl
  exact Bool.false_ne_true (agrees_iff_allowBroadcast.mp hagrees)

end UDPListenerConnection

end FlockwaveConn
