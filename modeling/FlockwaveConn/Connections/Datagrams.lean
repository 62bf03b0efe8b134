import FlockwaveConn.Connections.UDPListener

/-!
# Connections/Datagrams — `read()` of a UDP connection, datagram by datagram

`UDPSocketConnection` and `UDPListenerConnection` read in the same way: one datagram of the receive
buffer, as much of it as `size` allows.  Both take empty data for the end of a stream and close the
connection, but a datagram may well be empty, and nobody has to have left for it to arrive.  So the
datagrams that arrive are read one by one, from the same socket, exactly as long as no read comes
upon an empty one or cuts one short (`survives_iff`).
-/

namespace FlockwaveConn

/-- What `read()` of a UDP connection returns. -/
structure DatagramReader (Addr R : Type*) where
  received : List UInt8 → Addr → R
  /-- Where there is no socket. -/
  nothing : R
  injective : ∀ {data data' : List UInt8} {address : Addr},
    received data address = received data' address → data = data'

/-- `UDPSocketConnection.read()` returns the data. -/
def UDPSocketConnection.reader (Addr : Type*) : DatagramReader Addr (List UInt8) :=
  ⟨fun data _ => data, [], id⟩

/-- `UDPListenerConnection.read()` returns the data and where they come from. -/
def UDPListenerConnection.reader (Addr : Type*) : DatagramReader Addr (List UInt8 × Option Addr) :=
  ⟨fun data address => (data, some address), ([], none), fun h => (Prod.mk.inj h).1⟩

/-- A connection that is open, before anything has arrived. -/
structure OpenUDPConnection (Task : Type*) where
  conn : UDPListener Task
  socket : ℕ
  holds : conn.socket = some socket
  connected : conn.base.state = .connected

/-- A UDP connection, and what has arrived and been read so far. -/
structure DatagramSession (Task Addr R : Type*) where
  conn : UDPListener Task
  /-- The receive buffer of the socket. -/
  queue : List (List UInt8 × Addr)
  arrived : List (List UInt8 × Addr)
  returned : List R

namespace DatagramSession

variable {Task Addr R : Type*}

/-- Nothing has arrived. -/
def start (c : OpenUDPConnection Task) : DatagramSession Task Addr R := ⟨c.conn, [], [], []⟩

/-- The steps of a session. -/
inductive Label (Addr : Type*)
  /-- A datagram gets to the port of the connection. -/
  | arrive (data : List UInt8) (address : Addr)
  /-- `read(size)` -/
  | read (size : ℕ)

/-- There is nowhere to put a datagram without a socket. -/
def arrive (data : List UInt8) (address : Addr) (s : DatagramSession Task Addr R) :
    DatagramSession Task Addr R :=
  { s with
    arrived := s.arrived ++ [(data, address)]
    queue := if s.conn.socket.isSome then s.queue ++ [(data, address)] else s.queue }

variable [DecidableEq Task]

/-- `read()`: `recvfrom()` waits until there is a datagram, and hands out as much of it as it is
asked for. -/
def read (r : DatagramReader Addr R) (t : Task) (size : ℕ) (s : DatagramSession Task Addr R) :
    Option (DatagramSession Task Addr R) :=
  match s.conn.socket with
  | none => some { s with returned := s.returned ++ [r.nothing] }
  | some _ =>
    match s.queue with
    | [] => none
    | (datagram, address) :: queue =>
      let data := datagram.take size
      let returned := s.returned ++ [r.received data address]
      -- "Remote side closed connection"
      if data = [] then
        some { s with conn := s.conn.close t, queue := [], returned := returned }
      else some { s with queue := queue, returned := returned }

/-- One step. -/
def step (r : DatagramReader Addr R) (t : Task) (s : DatagramSession Task Addr R) :
    Label Addr → Option (DatagramSession Task Addr R)
  | .arrive data address => some (s.arrive data address)
  | .read size => s.read r t size

end DatagramSession

/-- **A UDP connection that one task reads from.** -/
def datagramSession {Task Addr R : Type*} [DecidableEq Task] (r : DatagramReader Addr R) (t : Task)
    (c : OpenUDPConnection Task) : Machine (DatagramSession Task Addr R)
      (DatagramSession.Label Addr) where
  init := .start c
  step := DatagramSession.step r t

namespace DatagramSession

variable {Task Addr R : Type*} {r : DatagramReader Addr R} {c : OpenUDPConnection Task}
  {s s' : DatagramSession Task Addr R} {t : Task} {size : ℕ}

/-- The connection is open, with the socket it had. -/
structure Stays (c : OpenUDPConnection Task) (s : DatagramSession Task Addr R) : Prop where
  connected : s.conn.base.state = .connected
  socket : s.conn.socket = some c.socket

/-- **Every datagram survives**: the connection stays open, and what has been read is what has
arrived, in the same order, but for what is still in the buffer. -/
structure Survives (r : DatagramReader Addr R) (c : OpenUDPConnection Task)
    (s : DatagramSession Task Addr R) : Prop extends Stays c s where
  delivered : s.returned ++ s.queue.map (fun d => r.received d.1 d.2) =
    s.arrived.map fun d => r.received d.1 d.2

/-- **No read comes upon an empty datagram**, or asks for nothing of one. -/
def NotEmpty (s : DatagramSession Task Addr R) : Label Addr → Prop
  | .arrive _ _ => True
  | .read size => ∀ d ∈ s.queue.head?, d.1.take size ≠ []

/-- **No read comes upon an empty datagram or one that is longer than it asks for.** -/
def Whole (s : DatagramSession Task Addr R) : Label Addr → Prop
  | .arrive _ _ => True
  | .read size => ∀ d ∈ s.queue.head?, d.1 ≠ [] ∧ d.1.length ≤ size

theorem survives_start (r : DatagramReader Addr R) (c : OpenUDPConnection Task) :
    (start c : DatagramSession Task Addr R).Survives r c := ⟨⟨c.connected, c.holds⟩, rfl⟩

/-- The reads so far have returned the first datagrams, in the order of their arrival. -/
theorem Survives.returned_eq (h : s.Survives r c) :
    s.returned = (s.arrived.map fun d => r.received d.1 d.2).take s.returned.length := by
  rw [← h.delivered, List.take_left]

theorem Survives.arrive (h : s.Survives r c) (data : List UInt8) (address : Addr) :
    (s.arrive data address).Survives r c := by
  refine ⟨⟨h.connected, h.socket⟩, ?_⟩
  simp [DatagramSession.arrive, h.socket, ← List.append_assoc, h.delivered]

theorem Stays.arrive (h : s.Stays c) (data : List UInt8) (address : Addr) :
    (s.arrive data address).Stays c := ⟨h.connected, h.socket⟩

variable [DecidableEq Task]

theorem Stays.close (h : s.Stays c) (t : Task) : (s.conn.close t).socket = none := by
  have hclose : s.conn.base.close t = s.conn.base.enter .down t := by
    simp [ConnectionBase.close, ConnectionBase.request, h.connected, Direction.target,
      Direction.transition, Direction.reverse]
  rw [UDPListener.close, hclose, UDPListener.runClose_enter, h.socket]
  rfl

/-- **A `read()` of an open connection** takes the first datagram of the buffer; it closes the
connection if what it gets of it is empty. -/
theorem Stays.read (h : s.Stays c) (hs : s.read r t size = some s') :
    ∃ datagram address queue, s.queue = (datagram, address) :: queue ∧
      (datagram.take size = [] ∧ ¬ s'.Stays c ∨ datagram.take size ≠ [] ∧
        s' = { s with
          queue := queue
          returned := s.returned ++ [r.received (datagram.take size) address] }) := by
  simp only [DatagramSession.read, h.socket] at hs
  cases hq : s.queue with
  | nil => simp [hq] at hs
  | cons d queue =>
    refine ⟨d.1, d.2, queue, rfl, ?_⟩
    simp only [hq] at hs
    split at hs
    · next hnil =>
      obtain rfl := Option.some.inj hs
      refine .inl ⟨hnil, fun hstays => ?_⟩
      have hnone := (h.close t).symm.trans hstays.socket
      cases hnone
    · next hne => exact .inr ⟨hne, (Option.some.inj hs).symm⟩

/-- A read leaves the connection open unless it gets nothing. -/
theorem stays_read (h : s.Stays c) (hs : s.read r t size = some s') :
    s'.Stays c ↔ s.NotEmpty (.read size) := by
  obtain ⟨datagram, address, queue, hq, ⟨hnil, hclosed⟩ | ⟨hne, rfl⟩⟩ := h.read hs
  · exact iff_of_false hclosed fun hnot => hnot (datagram, address) (by simp [hq]) hnil
  · exact iff_of_true ⟨h.connected, h.socket⟩ (by simpa [NotEmpty, hq] using hne)

/-- A datagram is handed out as it is exactly if it is not too long. -/
theorem received_take {datagram : List UInt8} {address : Addr} :
    r.received (datagram.take size) address = r.received datagram address ↔
      datagram.length ≤ size :=
  ⟨fun h => List.take_eq_self_iff _ |>.mp (r.injective h),
    fun h => by rw [List.take_of_length_le h]⟩

/-- **A read is a good one exactly if it comes upon a whole datagram.** -/
theorem survives_read (h : s.Survives r c) (hs : s.read r t size = some s') :
    s'.Survives r c ↔ s.Whole (.read size) := by
  obtain ⟨datagram, address, queue, hq, ⟨hnil, hclosed⟩ | ⟨hne, rfl⟩⟩ := h.toStays.read hs
  · refine iff_of_false (fun h' => hclosed h'.toStays) fun hwhole => ?_
    obtain ⟨hdata, hlength⟩ := hwhole (datagram, address) (by simp [hq])
    exact hdata ((List.take_of_length_le hlength).symm.trans hnil)
  · have hdata : datagram ≠ [] := by
      rintro rfl
      simp at hne
    have hdelivered : s.returned ++ r.received datagram address ::
        queue.map (fun d => r.received d.1 d.2) = s.arrived.map fun d => r.received d.1 d.2 := by
      simpa [hq] using h.delivered
    constructor
    · intro h'
      have heq := h'.delivered.trans hdelivered.symm
      have hreceived : r.received (datagram.take size) address = r.received datagram address := by
        simpa using heq
      simpa [Whole, hq, hdata] using received_take.mp hreceived
    · intro hwhole
      have hlength : datagram.length ≤ size := (hwhole (datagram, address) (by simp [hq])).2
      refine ⟨⟨h.connected, h.socket⟩, ?_⟩
      simpa [received_take.mpr hlength] using hdelivered

/-- **The connection stays open exactly in the runs in which no read comes upon an empty
datagram.** -/
theorem stays_iff (r : DatagramReader Addr R) (t : Task) (c : OpenUDPConnection Task)
    (ls : List (Label Addr)) :
    (datagramSession r t c).Along (Stays c) (start c) ls ↔
      (datagramSession r t c).Guarded NotEmpty (start c) ls := by
  refine Machine.along_iff_guarded (survives_start r c).toStays fun s l s' hs hst => ?_
  cases l with
  | arrive data address =>
    obtain rfl := Option.some.inj hst
    exact iff_of_true (hs.arrive data address) trivial
  | read size => exact stays_read hs hst

/-- **Every datagram survives exactly in the runs in which no read comes upon an empty one, or upon
one that is longer than it asks for.** -/
theorem survives_iff (r : DatagramReader Addr R) (t : Task) (c : OpenUDPConnection Task)
    (ls : List (Label Addr)) :
    (datagramSession r t c).Along (Survives r c) (start c) ls ↔
      (datagramSession r t c).Guarded Whole (start c) ls := by
  refine Machine.along_iff_guarded (survives_start r c) fun s l s' hs hst => ?_
  cases l with
  | arrive data address =>
    obtain rfl := Option.some.inj hst
    exact iff_of_true (hs.arrive data address) trivial
  | read size => exact survives_read hs hst

/-- A connection that has just been opened. -/
def opened : OpenUDPConnection Unit :=
  ⟨(UDPListener.mk (.enter .up () .init) none 0).endOpen .returned (), 0, rfl, rfl⟩

/-- **An empty datagram closes the connection**, of either class. -/
theorem empty_datagram_closes :
    (¬ ∀ ls : List (Label String),
      (datagramSession (UDPSocketConnection.reader String) () opened).Along
        (Survives (UDPSocketConnection.reader String) opened) (start opened) ls) ∧
    ¬ ∀ ls : List (Label String),
      (datagramSession (UDPListenerConnection.reader String) () opened).Along
        (Survives (UDPListenerConnection.reader String) opened) (start opened) ls := by
  refine ⟨fun h => ?_, fun h => ?_⟩
  all_goals
    have hrun := h [.arrive [] "127.0.0.1", .read 4096]
    have hend := ((hrun.2 _ rfl).2 _ rfl).here
    have hconn : ConnectionState.disconnected = .connected := hend.connected
    cases hconn

end DatagramSession

end FlockwaveConn
