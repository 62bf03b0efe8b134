import FlockwaveConn.Connections.UDPListener

/-!
# Connections/Broadcast — the broadcast address of a UDP listener

While it opens, a UDP listener that may broadcast and was given no port for it takes the port its
socket has been bound to, and looks up the host that goes with its `SocketBinding`.  The port is
kept in `_broadcast_port`, where a port given by the user would be, and so it is the port of the
first socket for good: the address follows the socket exactly as long as each later socket is bound
to that port again (`followsSocket_iff`).
-/

namespace FlockwaveConn

/-! ## Addresses -/

/-- An IP address, as the number it is. -/
inductive IPAddress
  | v4 (bits : BitVec 32)
  | v6 (bits : BitVec 128)
  deriving DecidableEq

/-- `255.255.255.255`. -/
def IPAddress.limitedBroadcast : IPAddress := .v4 (BitVec.allOnes 32)

/-- An `IPv4Network` or an `IPv6Network`: its address and the length of its mask. -/
inductive IPNetwork
  | v4 (address : BitVec 32) (length : ℕ)
  | v6 (address : BitVec 128) (length : ℕ)
  deriving DecidableEq

/-- `IPNetwork.broadcast_address`: the last address of the network. -/
def IPNetwork.broadcastAddress : IPNetwork → IPAddress
  | v4 address length => .v4 (address ||| BitVec.ofNat 32 (2 ^ (32 - length) - 1))
  | v6 address length => .v6 (address ||| BitVec.ofNat 128 (2 ^ (128 - length) - 1))

/-- What a socket is bound to. -/
inductive SocketBinding
  | fixed (host : String) (port : ℕ)
  | interface (name : String) (port : ℕ)
  | subnet (network : IPNetwork) (port : ℕ)
  deriving DecidableEq

namespace SocketBinding

/-- The port to bind to; zero lets the operating system pick one. -/
def port : SocketBinding → ℕ
  | fixed _ port | interface _ port | subnet _ port => port

/-- `SocketBinding.get_broadcast_address()`, `none` where a thread has to ask for the address of a
network interface. -/
def getBroadcastAddress : SocketBinding → Option IPAddress
  | fixed _ _ => some .limitedBroadcast
  | interface _ _ => none
  | subnet network _ => some network.broadcastAddress

end SocketBinding

/-- The arguments of the constructor that matter to broadcasting. -/
structure BroadcastConfig where
  binding : SocketBinding
  allowBroadcast : Bool
  broadcastPort : Option ℕ
  /-- In a `MulticastUDPListenerConnection`, whether the interface to join the group on was given by
  its name. -/
  group : Option Bool

/-- Where a task is in `_create_and_open_socket()`. -/
inductive Opening
  /-- Before the end of `_bind_socket()`. -/
  | binding
  /-- In the thread that looks up the broadcast address of the interface. -/
  | lookingUp (port : ℕ)
  /-- In the thread that looks up the interface to join the multicast group on. -/
  | joining (host : Option IPAddress) (port : ℕ)

/-- A UDP listener with what it knows about broadcasting. -/
structure UDPBroadcaster (Task : Type*) where
  listener : UDPListener Task
  /-- `_broadcast_port`. -/
  broadcastPort : Option ℕ
  /-- `_inferred_broadcast_address`. -/
  inferred : Option (IPAddress × ℕ)
  /-- `_user_defined_broadcast_address`. -/
  userDefined : Option (IPAddress × ℕ)
  opening : Task → Opening
  /-- The port that each socket was bound to. -/
  port : ℕ → ℕ
  /-- What `get_broadcast_address()` returned while the socket was opened. -/
  prescribed : ℕ → Option IPAddress

namespace UDPBroadcaster

variable {Task : Type*}

/-- `UDPListenerConnection.__init__`. -/
def init (cfg : BroadcastConfig) : UDPBroadcaster Task where
  listener := .init
  broadcastPort := cfg.broadcastPort
  inferred := none
  userDefined := none
  opening := fun _ => .binding
  port := fun _ => 0
  prescribed := fun _ => none

/-- `UDPListenerConnection.broadcast_address`. -/
def broadcastAddress (s : UDPBroadcaster Task) : Option (IPAddress × ℕ) :=
  s.userDefined.or s.inferred

/-- How `UDPListenerConnection.broadcast()` ends, where the operating system sends what it is
given. -/
inductive BroadcastOutcome
  | noBroadcastAddressError
  /-- "connection does not have a socket" -/
  | runtimeError
  | sent (address : IPAddress × ℕ)
  deriving DecidableEq

/-- `UDPListenerConnection.broadcast()` -/
def broadcast (s : UDPBroadcaster Task) : BroadcastOutcome :=
  match s.broadcastAddress with
  | none => .noBroadcastAddressError
  | some address => if s.listener.socket.isSome then .sent address else .runtimeError

/-- The steps of a broadcasting UDP listener. -/
inductive Label (Task : Type*)
  /-- A stretch of `open()` or `close()`; an opening can end here only by an exception. -/
  | conn (l : ConnectionBase.Label Task)
  /-- `bind()` returns.  In a multicast connection the group may turn out not to be joinable, if
  the opening gets to that. -/
  | bound (t : Task) (port : ℕ) (joins : Bool)
  /-- The address of the interface has been looked up. -/
  | lookedUp (t : Task) (host : IPAddress) (joins : Bool)
  /-- The interface to join the group on has been looked up. -/
  | joined (t : Task) (joins : Bool)
  /-- `set_user_defined_broadcast_address()`. -/
  | setUserDefined (address : Option (IPAddress × ℕ))

variable [DecidableEq Task]

/-- A task gets to another point of `_create_and_open_socket()`. -/
def goTo (t : Task) (o : Opening) (s : UDPBroadcaster Task) : UDPBroadcaster Task :=
  { s with opening := Function.update s.opening t o }

/-- The opening ends: with a socket, or by an exception. -/
def endOpen (o : Outcome) (host : Option IPAddress) (port : ℕ) (t : Task)
    (s : UDPBroadcaster Task) : UDPBroadcaster Task :=
  let s' := { s with listener := s.listener.endOpen o t }.goTo t .binding
  if o.success then
    { s' with
      port := Function.update s.port s.listener.created port
      prescribed := Function.update s.prescribed s.listener.created host }
  else s'

/-- `sock.setsockopt(IPPROTO_IP, IP_ADD_MEMBERSHIP, req)` in a multicast connection, and
`return sock`. -/
def join (cfg : BroadcastConfig) (joins : Bool) (host : Option IPAddress) (port : ℕ) (t : Task)
    (s : UDPBroadcaster Task) : UDPBroadcaster Task :=
  s.endOpen (if cfg.group.isSome && !joins then .raised else .returned) host port t

/-- The end of `UDPListenerConnection._create_and_open_socket()`. -/
def created (cfg : BroadcastConfig) (joins : Bool) (host : Option IPAddress) (port : ℕ) (t : Task)
    (s : UDPBroadcaster Task) : UDPBroadcaster Task :=
  if cfg.group = some true then s.goTo t (.joining host port) else s.join cfg joins host port t

/-- `self._inferred_broadcast_address = (broadcast_host, self._broadcast_port)`. -/
def infer (host : IPAddress) (s : UDPBroadcaster Task) : UDPBroadcaster Task :=
  { s with inferred := s.broadcastPort.map fun port => (host, port) }

/-- `_create_and_open_socket()` after the end of `_bind_socket()`. -/
def bound (cfg : BroadcastConfig) (joins : Bool) (port : ℕ) (t : Task) (s : UDPBroadcaster Task) :
    UDPBroadcaster Task :=
  if cfg.allowBroadcast then
    let s := { s with broadcastPort := s.broadcastPort.or (some port) }
    match cfg.binding.getBroadcastAddress with
    | some host => (s.infer host).created cfg joins host port t
    | none => s.goTo t (.lookingUp port)
  else s.created cfg joins none port t

/-- The task comes to `_close()` in this stretch. -/
def closes (c : UDPListener Task) (l : ConnectionBase.Label Task) : Bool :=
  (c.base.step l).any fun b => b.place l.task = .inside .down

/-- One atomic stretch. -/
def step (cfg : BroadcastConfig) (s : UDPBroadcaster Task) :
    Label Task → Option (UDPBroadcaster Task)
  | .conn (.finish t o) =>
    if s.listener.base.place t = .inside .up && !o.success then some (s.endOpen o none 0 t)
    else none
  | .conn l =>
    (s.listener.step l).map fun c =>
      -- `UDPListenerConnection._close()` forgets the address first
      { s with listener := c, inferred := if closes s.listener l then none else s.inferred }
  | .bound t port joins =>
    match s.opening t with
    | .binding =>
      if s.listener.base.place t = .inside .up && (cfg.binding.port = 0 || cfg.binding.port = port)
      then some (s.bound cfg joins port t)
      else none
    | _ => none
  | .lookedUp t host joins =>
    match s.opening t with
    | .lookingUp port => some ((s.infer host).created cfg joins host port t)
    | _ => none
  | .joined t joins =>
    match s.opening t with
    | .joining host port => some (s.join cfg joins host port t)
    | _ => none
  | .setUserDefined address =>
    some (if !cfg.allowBroadcast && address.isSome then s else { s with userDefined := address })

end UDPBroadcaster

/-- **A UDP listener that may broadcast, and the tasks that open and close it.** -/
def udpBroadcaster (Task : Type*) [DecidableEq Task] (cfg : BroadcastConfig) :
    Machine (UDPBroadcaster Task) (UDPBroadcaster.Label Task) where
  init := .init cfg
  step := UDPBroadcaster.step cfg

namespace UDPBroadcaster

open ConnectionBase

variable {Task : Type*}

/-! ## The listener under it -/

section

variable [DecidableEq Task] {c c' : UDPListener Task} {l : ConnectionBase.Label Task} {t u : Task}

theorem runClose_socket (c : UDPListener Task) (b : ConnectionBase Task) (t : Task) :
    ({ c with base := b }.runClose t).socket =
      if b.place t = .inside .down then none else c.socket := by
  unfold UDPListener.runClose
  dsimp only
  split
  · next hp =>
    rw [if_pos hp]
    split
    · rfl
    · next hs => exact hs
  · next hp => rw [if_neg hp]

/-- A stretch in which no `_open()` or `_close()` ends. -/
theorem exists_base_step (hl : ∀ t o, l ≠ .finish t o) (hs : c.step l = some c') :
    ∃ b, c.base.step l = some b ∧
      ({ c with base := b } : UDPListener Task).runClose l.task = c' := by
  cases l with
  | finish t o => exact absurd rfl (hl t o)
  | call | resume | interrupt => exact Option.map_eq_some_iff.mp hs

/-- A task that comes to `_close()` leaves the connection without a socket; nobody else touches it
but an opening that ends. -/
theorem socket_of_step (hl : ∀ t o, l ≠ .finish t o) (hs : c.step l = some c') :
    c'.socket = if closes c l then none else c.socket := by
  obtain ⟨b, hb, rfl⟩ := exists_base_step hl hs
  rw [runClose_socket]
  simp [closes, hb]

theorem runClose_place_of_ne (c : UDPListener Task) (h : u ≠ t) {d : Direction} :
    (c.runClose t).base.place u = .inside d ↔ c.base.place u = .inside d := by
  unfold UDPListener.runClose
  split
  · split <;> simp [leave, put_place_of_ne _ _ h]
  · rfl

/-- An opening goes on while the others do what they do. -/
theorem inside_of_step (hl : ∀ t o, l ≠ .finish t o) (hs : c.step l = some c')
    (hu : c.base.place u = .inside .up) : c'.base.place u = .inside .up := by
  obtain ⟨b, hb, rfl⟩ := exists_base_step hl hs
  have hm := move_of_step hb
  have hne : l.task ≠ u := by
    rintro rfl
    cases hm with
    | noop hout | join hout | queue hout | start hout => simp [Label.task, hout] at hu
    | released hp | goOn hp => simp [Label.task, hp] at hu
    | giveUp _ hin => exact hin _ hu
    | finish => exact hl _ _ rfl
  rw [runClose_place_of_ne _ hne.symm]
  exact (hm.place_inside_of_ne hne).mpr hu

end

/-! ## The invariant -/

variable {cfg : BroadcastConfig} {s s' : UDPBroadcaster Task} {t : Task}

/-- The host that the binding prescribes, where it does so without a look at the interfaces. -/
def Prescribes (b : SocketBinding) (host : IPAddress) : Prop :=
  ∀ h, b.getBroadcastAddress = some h → host = h

/-- The host has been found, and unless a `_close()` came in between the address is there too. -/
def Found (cfg : BroadcastConfig) (host : Option IPAddress) (s : UDPBroadcaster Task) : Prop :=
  ∃ h q, host = some h ∧ Prescribes cfg.binding h ∧ s.broadcastPort = some q ∧
    (s.inferred = none ∨ s.inferred = some (h, q))

/-- What holds between two stretches of a listener that may broadcast. -/
structure Tracked (cfg : BroadcastConfig) (s : UDPBroadcaster Task) : Prop where
  sound : s.listener.Sound
  /-- Only a task in `_open()` is past the beginning of `_create_and_open_socket()`. -/
  inside : ∀ t, s.opening t ≠ .binding → s.listener.base.place t = .inside .up
  lookingUp : ∀ t p, s.opening t = .lookingUp p →
    cfg.binding.getBroadcastAddress = none ∧ s.broadcastPort.isSome
  joining : ∀ t host p, s.opening t = .joining host p → s.Found cfg host

/-- At most one task opens the connection, and it has no socket meanwhile. -/
theorem Tracked.opener (h : Tracked cfg s) (ht : s.listener.base.place t = .inside .up) :
    s.listener.socket = none ∧ ∀ u, u ≠ t → s.opening u = .binding := by
  refine ⟨(h.sound.opening t ht).2, fun u hu => ?_⟩
  by_contra hb
  exact hu (h.sound.alone u t (h.inside u hb) ht)

/-- The connection has a port to broadcast to, and has just derived the address. -/
def known (host : IPAddress) (q : ℕ) (s : UDPBroadcaster Task) : UDPBroadcaster Task :=
  { s with broadcastPort := some q, inferred := some (host, q) }

theorem found_known {host : IPAddress} {q : ℕ} (hpre : Prescribes cfg.binding host) :
    (s.known host q).Found cfg (some host) := ⟨host, q, rfl, hpre, rfl, .inr rfl⟩

theorem infer_eq {q : ℕ} (hq : s.broadcastPort = some q) (host : IPAddress) :
    s.infer host = s.known host q := by
  simp [infer, known, hq]

section

variable [DecidableEq Task]

theorem goTo_opening (t u : Task) (o : Opening) (s : UDPBroadcaster Task) :
    (s.goTo t o).opening u = if u = t then o else s.opening u :=
  Function.update_apply ..

/-! An opening that ends touches the listener and the point that its task has got to. -/

theorem endOpen_listener (o : Outcome) (host : Option IPAddress) (port : ℕ) (t : Task)
    (s : UDPBroadcaster Task) : (s.endOpen o host port t).listener = s.listener.endOpen o t := by
  unfold endOpen
  dsimp only
  split <;> rfl

theorem endOpen_opening (o : Outcome) (host : Option IPAddress) (port : ℕ) (t u : Task)
    (s : UDPBroadcaster Task) :
    (s.endOpen o host port t).opening u = if u = t then .binding else s.opening u := by
  unfold endOpen
  dsimp only
  split <;> exact goTo_opening ..

theorem endOpen_inferred (o : Outcome) (host : Option IPAddress) (port : ℕ) (t : Task)
    (s : UDPBroadcaster Task) : (s.endOpen o host port t).inferred = s.inferred := by
  unfold endOpen
  dsimp only
  split <;> rfl

theorem endOpen_userDefined (o : Outcome) (host : Option IPAddress) (port : ℕ) (t : Task)
    (s : UDPBroadcaster Task) : (s.endOpen o host port t).userDefined = s.userDefined := by
  unfold endOpen
  dsimp only
  split <;> rfl

theorem created_userDefined (joins : Bool) (host : Option IPAddress) (port : ℕ) (t : Task)
    (s : UDPBroadcaster Task) :
    (s.created cfg joins host port t).userDefined = s.userDefined := by
  unfold created
  split
  · rfl
  · exact endOpen_userDefined ..

namespace Tracked

/-- The opener may change the two fields, as long as it is not waiting to join a group. -/
theorem update (h : Tracked cfg s) (ht : s.listener.base.place t = .inside .up)
    (hj : ∀ host p, s.opening t ≠ .joining host p) {q : ℕ} (a : Option (IPAddress × ℕ)) :
    Tracked cfg { s with broadcastPort := some q, inferred := a } where
  sound := h.sound
  inside := h.inside
  lookingUp u p hu := ⟨(h.lookingUp u p hu).1, rfl⟩
  joining u host p hu := by
    by_cases hut : u = t
    · exact absurd hu (hut ▸ hj host p)
    · exact absurd (hu.symm.trans ((h.opener ht).2 u hut)) nofun

theorem goTo (h : Tracked cfg s) (ht : s.listener.base.place t = .inside .up) {o : Opening}
    (hl : ∀ p, o = .lookingUp p → cfg.binding.getBroadcastAddress = none ∧ s.broadcastPort.isSome)
    (hj : ∀ host p, o = .joining host p → s.Found cfg host) : Tracked cfg (s.goTo t o) := by
  refine ⟨h.sound, fun u hu => ?_, fun u p hu => ?_, fun u host p hu => ?_⟩
  all_goals rw [goTo_opening] at hu; split at hu
  · next hut => exact hut ▸ ht
  · exact h.inside u hu
  · exact hl p hu
  · exact h.lookingUp u p hu
  · exact hj host p hu
  · exact h.joining u host p hu

theorem endOpen (h : Tracked cfg s) (ht : s.listener.base.place t = .inside .up) (o : Outcome)
    (host : Option IPAddress) (port : ℕ) : Tracked cfg (s.endOpen o host port t) := by
  have hb : ∀ u, (s.endOpen o host port t).opening u = .binding := by
    intro u
    rw [endOpen_opening]
    split
    · rfl
    · next hut => exact (h.opener ht).2 u hut
  refine ⟨endOpen_listener o host port t s ▸ h.sound.endOpen o ht, fun u hu => absurd (hb u) hu,
    fun u p hu => ?_, fun u host p hu => ?_⟩
  · exact absurd ((hb u).symm.trans hu) nofun
  · exact absurd ((hb u).symm.trans hu) nofun

theorem join (h : Tracked cfg s) (ht : s.listener.base.place t = .inside .up) (joins : Bool)
    (host : Option IPAddress) (port : ℕ) : Tracked cfg (s.join cfg joins host port t) :=
  h.endOpen ht _ host port

theorem created (h : Tracked cfg s) (ht : s.listener.base.place t = .inside .up) (joins : Bool)
    {host : Option IPAddress} (hf : s.Found cfg host) (port : ℕ) :
    Tracked cfg (s.created cfg joins host port t) := by
  unfold UDPBroadcaster.created
  split
  · refine h.goTo ht nofun fun host' p ho => ?_
    obtain ⟨rfl, rfl⟩ := Opening.joining.inj ho
    exact hf
  · exact h.join ht joins host port

/-- **A stretch of another kind** leaves a task that opens the connection where it is. -/
theorem conn (h : Tracked cfg s) {l : ConnectionBase.Label Task} {c : UDPListener Task}
    (hl : ∀ t o, l ≠ .finish t o) (hs : s.listener.step l = some c) :
    Tracked cfg
      { s with listener := c, inferred := if closes s.listener l then none else s.inferred } where
  sound := h.sound.step hs
  inside t ht := inside_of_step hl hs (h.inside t ht)
  lookingUp := h.lookingUp
  joining t host p ht := by
    obtain ⟨a, q, rfl, hpre, hq, hinf⟩ := h.joining t host p ht
    refine ⟨a, q, rfl, hpre, hq, ?_⟩
    dsimp only
    split
    · exact .inl rfl
    · exact hinf

end Tracked

/-- The port that the connection broadcasts to from its first `bind()` on. -/
theorem bound_eq (hallow : cfg.allowBroadcast = true) (joins : Bool) (port : ℕ) (t : Task)
    (s : UDPBroadcaster Task) :
    s.bound cfg joins port t =
      match cfg.binding.getBroadcastAddress with
      | some host =>
        (s.known host (s.broadcastPort.getD port)).created cfg joins (some host) port t
      | none =>
        { s with broadcastPort := some (s.broadcastPort.getD port) }.goTo t (.lookingUp port) := by
  obtain ⟨lis, bp, inf, ud, op, po, pr⟩ := s
  cases bp <;> simp [bound, hallow, infer, known]

/-- **Everything a step can do** on a listener that may broadcast. -/
inductive Move (cfg : BroadcastConfig) (s : UDPBroadcaster Task) :
    Label Task → UDPBroadcaster Task → Prop
  | conn {l : ConnectionBase.Label Task} {c : UDPListener Task} (hl : ∀ t o, l ≠ .finish t o)
      (hs : s.listener.step l = some c) :
      Move cfg s (.conn l)
        { s with listener := c, inferred := if closes s.listener l then none else s.inferred }
  | fail {t : Task} {o : Outcome} (ht : s.listener.base.place t = .inside .up)
      (ho : o.success = false) : Move cfg s (.conn (.finish t o)) (s.endOpen o none 0 t)
  /-- The socket is bound, and its binding prescribes the host. -/
  | derive {t : Task} {port : ℕ} {joins : Bool} {host : IPAddress}
      (ht : s.listener.base.place t = .inside .up) (hb : s.opening t = .binding)
      (hhost : cfg.binding.getBroadcastAddress = some host) :
      Move cfg s (.bound t port joins)
        ((s.known host (s.broadcastPort.getD port)).created cfg joins (some host) port t)
  /-- The socket is bound, and a thread looks up the host. -/
  | lookUp {t : Task} {port : ℕ} {joins : Bool} (ht : s.listener.base.place t = .inside .up)
      (hb : s.opening t = .binding) (hnone : cfg.binding.getBroadcastAddress = none) :
      Move cfg s (.bound t port joins)
        ({ s with broadcastPort := some (s.broadcastPort.getD port) }.goTo t (.lookingUp port))
  | lookedUp {t : Task} {port q : ℕ} {joins : Bool} {host : IPAddress}
      (ht : s.opening t = .lookingUp port) (hq : s.broadcastPort = some q) :
      Move cfg s (.lookedUp t host joins) ((s.known host q).created cfg joins (some host) port t)
  | join {t : Task} {host : Option IPAddress} {port : ℕ} {joins : Bool}
      (ht : s.opening t = .joining host port) :
      Move cfg s (.joined t joins) (s.join cfg joins host port t)
  | setUserDefined {a : Option (IPAddress × ℕ)} :
      Move cfg s (.setUserDefined a) { s with userDefined := a }

theorem move_of_step (hallow : cfg.allowBroadcast = true) {l : Label Task} (h : Tracked cfg s)
    (hs : s.step cfg l = some s') : Move cfg s l s' := by
  cases l with
  | conn l =>
    cases l with
    | finish t o =>
      obtain ⟨⟨ht, ho⟩, rfl⟩ : (s.listener.base.place t = .inside .up ∧ o.success = false) ∧
          s.endOpen o none 0 t = s' := by simpa [step] using hs
      exact .fail ht ho
    | call | resume | interrupt =>
      obtain ⟨c, hc, rfl⟩ := Option.map_eq_some_iff.mp hs
      exact .conn nofun hc
  | bound t port joins =>
    cases hb : s.opening t with
    | binding =>
      obtain ⟨⟨ht, -⟩, rfl⟩ : (s.listener.base.place t = .inside .up ∧ _) ∧
          s.bound cfg joins port t = s' := by simpa [step, hb] using hs
      rw [bound_eq hallow]
      cases hhost : cfg.binding.getBroadcastAddress with
      | some host => exact .derive ht hb hhost
      | none => exact .lookUp ht hb hhost
    | _ => simp [step, hb] at hs
  | lookedUp t host joins =>
    cases ho : s.opening t with
    | lookingUp port =>
      obtain ⟨q, hq⟩ := Option.isSome_iff_exists.mp (h.lookingUp t port ho).2
      obtain rfl : (s.infer host).created cfg joins host port t = s' := by
        simpa [step, ho] using hs
      rw [infer_eq hq]
      exact .lookedUp ho hq
    | _ => simp [step, ho] at hs
  | joined t joins =>
    cases ho : s.opening t with
    | joining host port =>
      obtain rfl : s.join cfg joins host port t = s' := by simpa [step, ho] using hs
      exact .join ho
    | _ => simp [step, ho] at hs
  | setUserDefined a =>
    obtain rfl : { s with userDefined := a } = s' := by simpa [step, hallow] using hs
    exact .setUserDefined

theorem prescribes_of_none {b : SocketBinding} (h : b.getBroadcastAddress = none)
    (host : IPAddress) : Prescribes b host := fun h' hh' => by simp [h] at hh'

theorem prescribes_of_some {b : SocketBinding} {host : IPAddress}
    (h : b.getBroadcastAddress = some host) : Prescribes b host := fun h' hh' => by
  simpa [h] using hh'

/-- The opener has just derived the address. -/
theorem Tracked.known (h : Tracked cfg s) (ht : s.listener.base.place t = .inside .up)
    (hj : ∀ host p, s.opening t ≠ .joining host p) (host : IPAddress) (q : ℕ) :
    Tracked cfg (s.known host q) := h.update ht hj _

/-- **One step** keeps track. -/
theorem Tracked.move {l : Label Task} (h : Tracked cfg s) (hm : Move cfg s l s') :
    Tracked cfg s' := by
  cases hm with
  | conn hl hs => exact h.conn hl hs
  | fail ht => exact h.endOpen ht _ _ _
  | derive ht hb hhost =>
    exact (h.known ht (by simp [hb]) _ _).created ht _ (found_known (prescribes_of_some hhost)) _
  | lookUp ht hb hnone =>
    refine (h.update ht (by simp [hb]) s.inferred).goTo ht (fun p ho => ⟨hnone, rfl⟩) nofun
  | @lookedUp t _ _ _ _ ht =>
    have hin := h.inside t (by simp [ht])
    exact (h.known hin (by simp [ht]) _ _).created hin _
      (found_known (prescribes_of_none (h.lookingUp _ _ ht).1 _)) _
  | @join t _ _ _ ht => exact h.join (h.inside t (by simp [ht])) _ _ _
  | setUserDefined => exact ⟨h.sound, h.inside, h.lookingUp, h.joining⟩

end

/-! ## The socket and the address -/

/-- The address goes with the socket that the connection holds. -/
def Held (cfg : BroadcastConfig) (s : UDPBroadcaster Task) : Prop :=
  ∀ k, s.listener.socket = some k → ∃ host, s.prescribed k = some host ∧
    Prescribes cfg.binding host ∧ s.inferred = some (host, s.port k)

/-- **The requirement**: where the connection is `CONNECTED` and the user has defined no address,
broadcasts go to the port of the socket it holds, and to the host that its binding prescribes. -/
def FollowsSocket (cfg : BroadcastConfig) (s : UDPBroadcaster Task) : Prop :=
  s.listener.base.state = .connected → s.userDefined = none → ∀ k, s.listener.socket = some k →
    ∃ host, s.prescribed k = some host ∧ Prescribes cfg.binding host ∧
      s.broadcastAddress = some (host, s.port k)

theorem followsSocket_of_held (h : s.Held cfg) : s.FollowsSocket cfg := by
  intro _ hu k hk
  obtain ⟨host, hp, hpre, hinf⟩ := h k hk
  exact ⟨host, hp, hpre, by simp [broadcastAddress, hu, hinf]⟩

theorem held_of_followsSocket (hs : s.listener.Sound) (hu : s.userDefined = none)
    (h : s.FollowsSocket cfg) : s.Held cfg := by
  intro k hk
  obtain ⟨host, hp, hpre, hadd⟩ := h (hs.connected (by simp [hk])) hu k hk
  exact ⟨host, hp, hpre, by simpa [broadcastAddress, hu] using hadd⟩

/-- The opening ends with a socket where it gets to the group at all. -/
def joinsAtOnce (cfg : BroadcastConfig) (joins : Bool) : Prop :=
  cfg.group ≠ some true ∧ (cfg.group.isSome → joins = true)

/-- **Each socket is bound to the port of the first one**, if it gets to be the connection's; and no
`_close()` comes in before a multicast connection has joined its group. -/
def SamePort (cfg : BroadcastConfig) (s : UDPBroadcaster Task) : Label Task → Prop
  | .bound _ port joins =>
    cfg.binding.getBroadcastAddress ≠ none → joinsAtOnce cfg joins →
      ∀ q, s.broadcastPort = some q → q = port
  | .lookedUp t _ joins =>
    joinsAtOnce cfg joins → ∀ port, s.opening t = .lookingUp port → s.broadcastPort = some port
  | .joined t joins =>
    (cfg.group.isSome → joins = true) → ∀ host port, s.opening t = .joining host port →
      s.broadcastPort = some port ∧ s.inferred ≠ none
  | .conn _ | .setUserDefined _ => True

theorem held_of_socket (h : s.listener.socket = none) : s.Held cfg := fun k hk => by
  simp [h] at hk

theorem tracked_init (cfg : BroadcastConfig) : Tracked cfg (init cfg : UDPBroadcaster Task) :=
  ⟨UDPListener.sound_init, fun _ h => absurd rfl h, nofun, nofun⟩

variable [DecidableEq Task]

theorem held_endOpen {o : Outcome} {host : Option IPAddress} {port : ℕ} (ho : o.success = true) :
    (s.endOpen o host port t).Held cfg ↔
      ∃ h, host = some h ∧ Prescribes cfg.binding h ∧ s.inferred = some (h, port) := by
  simp [Held, endOpen, UDPListener.endOpen, goTo, ho]

/-- **The socket is handed over**, and the address goes with it exactly if it is for its port. -/
theorem held_join (h : Tracked cfg s) (ht : s.listener.base.place t = .inside .up) {joins : Bool}
    {host : Option IPAddress} (hf : s.Found cfg host) {port : ℕ} :
    (s.join cfg joins host port t).Held cfg ↔
      ((cfg.group.isSome → joins = true) → s.broadcastPort = some port ∧ s.inferred ≠ none) := by
  by_cases hj : cfg.group.isSome = true → joins = true
  · have hjoin : (cfg.group.isSome && !joins) = false := by
      cases hg : cfg.group.isSome <;> simp_all
    rw [join, hjoin, if_neg (by simp), held_endOpen rfl]
    obtain ⟨a, q, rfl, hpre, hq, hinf⟩ := hf
    refine ⟨?_, fun hp => ?_⟩
    · rintro ⟨a', ha', -, hinf'⟩ -
      rcases hinf with hnone | hsome
      · simp [hnone] at hinf'
      · obtain ⟨rfl, rfl⟩ : a = a' ∧ q = port := by simpa using hsome.symm.trans hinf'
        exact ⟨hq, by simp [hsome]⟩
    · obtain ⟨hport, hne⟩ := hp hj
      obtain rfl : q = port := by simpa using hq.symm.trans hport
      exact ⟨a, rfl, hpre, hinf.resolve_left hne⟩
  · have hjoin : (cfg.group.isSome && !joins) = true := by
      cases hg : cfg.group.isSome <;> simp_all
    refine iff_of_true (held_of_socket ?_) fun h => absurd h hj
    simpa [join, hjoin, endOpen, UDPListener.endOpen, goTo, Outcome.success] using (h.opener ht).1

theorem held_created (h : Tracked cfg s) (ht : s.listener.base.place t = .inside .up)
    {joins : Bool} {host : Option IPAddress} (hf : s.Found cfg host) {port : ℕ} :
    (s.created cfg joins host port t).Held cfg ↔
      (joinsAtOnce cfg joins → s.broadcastPort = some port ∧ s.inferred ≠ none) := by
  unfold created
  split
  · next hg => exact iff_of_true (held_of_socket (h.opener ht).1) fun hj => absurd hg hj.1
  · next hg =>
    rw [held_join h ht hf]
    exact ⟨fun hp hj => hp hj.2, fun hp hj => hp ⟨hg, hj⟩⟩

/-- The stretch takes an opening further. -/
def Label.opens : Label Task → Prop
  | .bound _ _ _ | .lookedUp _ _ _ | .joined _ _ => True
  | .conn _ | .setUserDefined _ => False

/-- **An opening leaves the address at the socket exactly if it was bound to the same port.** -/
theorem held_iff_samePort {l : Label Task} (h : Tracked cfg s) (hl : l.opens)
    (hm : Move cfg s l s') : s'.Held cfg ↔ s.SamePort cfg l := by
  cases hm with
  | conn | fail | setUserDefined => exact hl.elim
  | @derive t port joins host ht hb hhost =>
    rw [held_created (h.known ht (by simp [hb]) _ _) ht (found_known (prescribes_of_some hhost))]
    have hport : s.broadcastPort.getD port = port ↔ ∀ q, s.broadcastPort = some q → q = port := by
      cases s.broadcastPort <;> simp
    simp [SamePort, hhost, known, hport]
  | lookUp ht _ hnone =>
    exact iff_of_true (held_of_socket (h.opener ht).1) fun hsome => absurd hnone hsome
  | @lookedUp t port q joins host ht hq =>
    have hin := h.inside t (by simp [ht])
    have hpre := prescribes_of_none (h.lookingUp t _ ht).1 host
    rw [held_created (h.known hin (by simp [ht]) _ _) hin (found_known hpre)]
    simp [SamePort, ht, hq, known]
  | @join t host port joins ht =>
    rw [held_join h (h.inside t (by simp [ht])) (h.joining t host port ht)]
    simp [SamePort, ht]

/-- The other stretches leave the address at the socket, or take both away. -/
theorem Held.move {l : Label Task} (hheld : s.Held cfg) (hl : ¬ l.opens)
    (hm : Move cfg s l s') : s'.Held cfg := by
  cases hm with
  | @conn l c hfin hs =>
    have hsock := socket_of_step hfin hs
    intro k hk
    cases hc : closes s.listener l with
    | true => simp [hsock, hc] at hk
    | false =>
      rw [hsock, hc] at hk
      exact hheld k hk
  | fail ht ho =>
    intro k hk
    have hsock : s.listener.socket = some k := by
      simpa [endOpen, UDPListener.endOpen, goTo, ho] using hk
    simpa [endOpen, goTo, ho] using hheld k hsock
  | setUserDefined => exact hheld
  | _ => exact absurd trivial hl

theorem Move.userDefined {l : Label Task} (hm : Move cfg s l s')
    (hl : ∀ a, l ≠ .setUserDefined a) : s'.userDefined = s.userDefined := by
  cases hm with
  | conn | lookUp => rfl
  | fail | join => exact endOpen_userDefined ..
  | derive | lookedUp => exact created_userDefined ..
  | setUserDefined => exact absurd rfl (hl _)

/-- **The broadcast address follows the socket exactly in the runs where each socket is bound to the
port of the first one**, as long as the user defines no address. -/
theorem followsSocket_iff (hallow : cfg.allowBroadcast = true) {ls : List (Label Task)}
    (hplain : ∀ a, .setUserDefined a ∉ ls) :
    (udpBroadcaster Task cfg).Along (FollowsSocket cfg) (.init cfg) ls
      ↔ (udpBroadcaster Task cfg).Guarded (SamePort cfg) (.init cfg) ls := by
  have hstep : ∀ s l s', (udpBroadcaster Task cfg).step s l = some s' → Tracked cfg s →
      Move cfg s l s' := fun s l s' hs h => move_of_step hallow h hs
  constructor
  · intro h
    refine h.guarded_of (I := fun s => Tracked cfg s ∧ s.userDefined = none)
      (Machine.guarded_of_forall (Q := fun l => ∀ a, l ≠ .setUserDefined a) ?_ _)
      ⟨tracked_init cfg, rfl⟩ ?_
    · rintro l hl a rfl
      exact hplain a hl
    · intro s l s' hI hl hs hP
      have hm := hstep s l s' hs hI.1
      have hI' := hI.1.move hm
      have hu := (hm.userDefined hl).trans hI.2
      refine ⟨?_, hI', hu⟩
      by_cases ho : l.opens
      · exact (held_iff_samePort hI.1 ho hm).mp (held_of_followsSocket hI'.sound hu hP)
      · cases l with
        | conn | setUserDefined => trivial
        | _ => exact absurd trivial ho
  · intro h
    refine (h.along (I := fun s => Tracked cfg s ∧ s.Held cfg)
      ⟨tracked_init cfg, held_of_socket rfl⟩ ?_).mono fun s hs => followsSocket_of_held hs.2
    intro s l s' hI hg hs
    have hm := hstep s l s' hs hI.1
    refine ⟨hI.1.move hm, ?_⟩
    by_cases ho : l.opens
    · exact (held_iff_samePort hI.1 ho hm).mpr hg
    · exact hI.2.move ho hm

/-- A listener that broadcasts and lets the operating system pick its port. -/
def ephemeral : BroadcastConfig := ⟨.fixed "" 0, true, none, none⟩

/-- It is opened twice, and the operating system picks the same port again. -/
theorem followsSocket_same_port :
    (udpBroadcaster Unit ephemeral).Along (FollowsSocket ephemeral) (.init ephemeral)
      [.conn (.call .up ()), .bound () 5000 true, .conn (.call .down ()), .conn (.call .up ()),
        .bound () 5000 true] := by
  refine (followsSocket_iff rfl (by simp)).mpr ?_
  refine .cons rfl trivial <| .cons rfl ?_ <| .cons rfl trivial <| .cons rfl trivial <|
    .cons rfl ?_ trivial
  · intro _ _ q hq
    simp [init, ephemeral] at hq
  · intro _ _ q hq
    exact (Option.some.inj hq).symm

/-- **It picks another port**, and broadcasts still go to the first one. -/
theorem broadcasts_to_first_port :
    ¬ ∀ ls : List (Label Unit), (∀ a, .setUserDefined a ∉ ls) →
      (udpBroadcaster Unit ephemeral).Along (FollowsSocket ephemeral) (.init ephemeral) ls := by
  intro h
  have hrun := h [.conn (.call .up ()), .bound () 5000 true, .conn (.call .down ()),
    .conn (.call .up ()), .bound () 6000 true] (by simp)
  have hend := (((((hrun.2 _ rfl).2 _ rfl).2 _ rfl).2 _ rfl).2 _ rfl).here
  obtain ⟨host, -, -, hadd⟩ := hend rfl rfl 1 rfl
  have hport : (some 5000 : Option ℕ) = some 6000 := congrArg (Option.map Prod.snd) hadd
  simp at hport

end UDPBroadcaster

end FlockwaveConn
