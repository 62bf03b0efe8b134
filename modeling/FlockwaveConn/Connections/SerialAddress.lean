import FlockwaveConn.Connections.Serial
import FlockwaveConn.Connections.Stream

/-!
# Connections/SerialAddress — the address of a serial port, open or not

`_create_stream()` notes the path before it creates the stream on it, and only `_close()` takes the
note back, in a `finally` clause.  So the address stays behind when the stream cannot be created,
as a failed `open()` does not run `_close()`; and it is gone from a connection that is `CONNECTED`
again because `aclose()` has failed.  In the runs where neither happens the address is there exactly
while the connection is `CONNECTED` (`address_iff`).
-/

namespace FlockwaveConn

open Urllib

/-- The constants of `pySerial`. -/
inductive StopBits
  | one
  | onePointFive
  | two
  deriving DecidableEq, Repr

/-- A `SerialPortConnection`, as it was constructed. -/
structure SerialPort extends SerialPortConnection where
  stopbits : ℚ

/-- …and as it is now. -/
structure SerialPortState where
  stream : StreamConnection
  /-- `_resolved_path`, or `address`. -/
  resolvedPath : Option Text
  /-- The path that each stream so far was created on. -/
  opened : List ParameterValue

namespace SerialPort

/-- `open()` or `close()`, with what it meets. -/
inductive Label
  /-- What `comports()` lists, which is nothing if it raises, and how `SerialPortStream.create()`
  ends, if it is called. -/
  | open_ (ports : List PortInfo) (create : Outcome)
  | close (aclose : Outcome)

/-- The stop bits, unless "unsupported stop bit count". -/
def readStopbits (x : ℚ) : Option StopBits :=
  if x = 1 then some .one
  else if x = 3 / 2 then some .onePointFive
  else if x = 2 then some .two
  else none

/-- `f"<fd: #{path}>" if isinstance(path, int) else str(path)` -/
def display : ParameterValue → Text
  | .int n => "<fd: #".toList ++ Text.ofInt n ++ ['>']
  | .str s => s

def init : SerialPortState := ⟨.init false, none, []⟩

variable (lib : Stdlib) (unicodeLower : Text → Text) (port : SerialPort)

/-- The path and the stop bits for `SerialPortStream.create()`, if it gets that far. -/
def prepare (ports : List PortInfo) : Option (ParameterValue × StopBits) :=
  match port.findPath lib unicodeLower ports, readStopbits port.stopbits with
  | .ok path, some stopbits => some (path, stopbits)
  | _, _ => none

/-- `_create_stream()`, and how it ends. -/
def createStream (ports : List PortInfo) (create : Outcome) (s : SerialPortState) :
    SerialPortState × Outcome :=
  match port.prepare lib unicodeLower ports with
  | none => (s, .raised)
  | some (path, _) =>
    let s := { s with resolvedPath := some (display path) }
    (if create.success then { s with opened := s.opened ++ [path] } else s, create)

/-- `open()` -/
def open_ (ports : List PortInfo) (create : Outcome) (s : SerialPortState) : SerialPortState :=
  let (s', o) := if s.stream.base.Enters .up then port.createStream lib unicodeLower ports create s
    else (s, .returned)
  { s' with stream := s.stream.open_ o }

/-- `close()` -/
def close (aclose : Outcome) (s : SerialPortState) : SerialPortState :=
  { s with
    stream := s.stream.close aclose
    -- `finally: self._resolved_path = None`
    resolvedPath := if s.stream.base.Enters .down then none else s.resolvedPath }

/-- One call, from its beginning to its end. -/
def step (s : SerialPortState) : Label → Option SerialPortState
  | .open_ ports create => some (port.open_ lib unicodeLower ports create s)
  | .close aclose => some (close aclose s)

/-- **A serial port connection, opened and closed.** -/
def machine : Machine SerialPortState Label where
  init := init
  step := port.step lib unicodeLower

/-! ## The address -/

/-- **The address is there exactly while the connection is `CONNECTED`**, and it is where its stream
was created. -/
structure Addressed (s : SerialPortState) : Prop where
  none_iff : s.resolvedPath = none ↔ s.stream.base.state ≠ .connected
  own : s.stream.base.state = .connected → ∃ n path,
    s.stream.stream = some n ∧ s.opened[n]? = some path ∧ s.resolvedPath = some (display path)

/-- No stream fails: neither is its creation the step in which an opening fails, nor does `aclose()`
of a stream that the connection holds. -/
def StreamsWork (s : SerialPortState) : Label → Prop
  | .open_ ports create => s.stream.base.state ≠ .connected →
    (port.prepare lib unicodeLower ports).isSome = true → create = .returned
  | .close aclose => s.stream.stream.isSome = true → aclose = .returned

/-- The invariant of all runs. -/
structure Sound (s : SerialPortState) : Prop where
  stream : s.stream.Sound
  opened : s.opened.length = s.stream.created

variable {lib unicodeLower port} {s s' : SerialPortState}

theorem sound_init : Sound init := ⟨StreamConnection.sound_init false, rfl⟩

theorem addressed_init : Addressed init :=
  ⟨by decide, fun h => absurd h (by decide)⟩

theorem Sound.enters_iff (h : Sound s) :
    s.stream.base.Enters .up ↔ s.stream.base.state ≠ .connected := h.stream.resting.enters_iff

/-- `open()` of a connection that is open. -/
theorem Sound.open_of_connected (h : Sound s) (hs : s.stream.base.state = .connected)
    (ports : List PortInfo) (create : Outcome) :
    port.open_ lib unicodeLower ports create s = s := by
  rw [SerialPort.open_, if_neg fun he => h.enters_iff.mp he hs]
  dsimp only
  rw [h.stream.open_of_connected hs]

/-- **`open()` of a connection that is closed**: it fails before the address is noted… -/
theorem Sound.open_of_none (h : Sound s) (hs : s.stream.base.state ≠ .connected)
    {ports : List PortInfo} (hnone : port.prepare lib unicodeLower ports = none)
    (create : Outcome) :
    port.open_ lib unicodeLower ports create s = { s with stream := s.stream.open_ .raised } := by
  rw [SerialPort.open_, if_pos (h.enters_iff.mpr hs), createStream, hnone]

/-- …or it gets as far as the stream. -/
theorem Sound.open_of_some (h : Sound s) (hs : s.stream.base.state ≠ .connected)
    {ports : List PortInfo} {path : ParameterValue} {stopbits : StopBits}
    (hsome : port.prepare lib unicodeLower ports = some (path, stopbits)) (create : Outcome) :
    port.open_ lib unicodeLower ports create s =
      { stream := s.stream.open_ create
        resolvedPath := some (display path)
        opened := if create.success then s.opened ++ [path] else s.opened } := by
  rw [SerialPort.open_, if_pos (h.enters_iff.mpr hs), createStream, hsome]
  cases create <;> rfl

/-- **`open()`** -/
theorem Sound.open_ (h : Sound s) (ports : List PortInfo) (create : Outcome) :
    Sound (port.open_ lib unicodeLower ports create s) ∧
      (Addressed s → (Addressed (port.open_ lib unicodeLower ports create s) ↔
        port.StreamsWork lib unicodeLower s (.open_ ports create))) := by
  by_cases hs : s.stream.base.state = .connected
  · rw [h.open_of_connected hs]
    exact ⟨h, fun haddr => iff_of_true haddr fun hne => absurd hs hne⟩
  cases hprepare : port.prepare lib unicodeLower ports with
  | none =>
    rw [h.open_of_none hs hprepare]
    have hdown := mt (h.stream.open_state hs .raised).mp (by decide)
    refine ⟨⟨(h.stream.open_ .raised).1, ?_⟩, fun haddr => iff_of_true ⟨?_, ?_⟩ ?_⟩
    · rw [h.opened, h.stream.open_of_ne hs]
      rfl
    · exact iff_of_true (haddr.none_iff.mpr hs) hdown
    · exact fun hup => absurd hup hdown
    · simp [StreamsWork, hprepare]
  | some prepared =>
    obtain ⟨path, stopbits⟩ := prepared
    rw [h.open_of_some hs hprepare]
    have hup := h.stream.open_state hs create
    have hworks : port.StreamsWork lib unicodeLower s (.open_ ports create) ↔
        create = .returned := by
      simp [StreamsWork, hs, hprepare]
    refine ⟨⟨(h.stream.open_ create).1, ?_⟩, fun _ => ?_⟩
    · rw [h.stream.open_of_ne hs]
      cases create <;> simp [StreamConnection.runOpen, Outcome.success, h.opened]
    · rw [hworks]
      constructor
      · intro haddr
        by_contra hfailed
        exact absurd (haddr.none_iff.mpr (mt hup.mp hfailed)) (by simp)
      · rintro rfl
        refine ⟨iff_of_false (by simp) (not_not_intro (hup.mpr rfl)), fun _ => ?_⟩
        rw [h.stream.open_of_ne hs]
        refine ⟨s.stream.created, path, rfl, ?_, rfl⟩
        simp [Outcome.success, ← h.opened]

/-- **`close()`** -/
theorem Sound.close (h : Sound s) (aclose : Outcome) :
    Sound (close aclose s) ∧ (Addressed s → (Addressed (SerialPort.close aclose s) ↔
      port.StreamsWork lib unicodeLower s (.close aclose))) := by
  have hsound : Sound (SerialPort.close aclose s) := by
    refine ⟨(h.stream.close aclose).1, ?_⟩
    exact h.opened.trans (s.stream.close_created aclose).symm
  refine ⟨hsound, fun haddr => ?_⟩
  by_cases hs : s.stream.base.state = Direction.down.target
  · have hself : SerialPort.close aclose s = s := by
      rw [SerialPort.close, h.stream.close_of_disconnected hs,
        if_neg fun he => h.stream.resting.enters_iff.mp he hs]
    rw [hself]
    refine iff_of_true haddr fun hsome => ?_
    obtain ⟨n, hn⟩ := Option.isSome_iff_exists.mp hsome
    exact absurd (hs.symm.trans (h.stream.connected n hn).1) (by decide)
  · have hnone : (SerialPort.close aclose s).resolvedPath = none :=
      if_pos (h.stream.resting.enters_iff.mpr hs)
    rw [StreamsWork, ← h.stream.close_state hs]
    constructor
    · exact fun haddr' => haddr'.none_iff.mp hnone
    · exact fun hdown => ⟨iff_of_true hnone hdown, fun hup => absurd hup hdown⟩

/-- **One call.** -/
theorem Sound.step (h : Sound s) {l : Label} (hs : port.step lib unicodeLower s l = some s') :
    Sound s' ∧ (Addressed s → (Addressed s' ↔ port.StreamsWork lib unicodeLower s l)) := by
  cases l with
  | open_ ports create =>
    obtain rfl := Option.some.inj hs
    exact h.open_ ports create
  | close aclose =>
    obtain rfl := Option.some.inj hs
    exact h.close aclose

/-- **The address is there exactly while the connection is `CONNECTED`, and it is the path that was
opened, exactly if no stream fails.** -/
theorem address_iff (lib : Stdlib) (unicodeLower : Text → Text) (port : SerialPort)
    (ls : List Label) :
    (port.machine lib unicodeLower).Along Addressed init ls ↔
      (port.machine lib unicodeLower).Guarded (port.StreamsWork lib unicodeLower) init ls :=
  Machine.along_iff_guarded_of sound_init addressed_init
    fun _ _ _ hsound haddr hst => (hsound.step hst).imp_right fun hiff => hiff haddr

/-- Nothing is at `/dev/ttyS9`, and it is the address all the same. -/
theorem path_left_behind :
    ¬ ∀ (lib : Stdlib) (unicodeLower : Text → Text) (port : SerialPort) (ls : List Label),
      (port.machine lib unicodeLower).Along Addressed init ls := by
  intro h
  have hlast := ((h ⟨some 4300, id, fun _ => false, fun _ => true, decodeUtf8⟩ id
    ⟨⟨.str "/dev/ttyS9".toList, ⟨none, none, none, none, none⟩⟩, 1⟩
    [.open_ [] .raised]).2 _ rfl).here
  exact absurd (hlast.none_iff.mpr (by decide)) (by decide)

end SerialPort

end FlockwaveConn
