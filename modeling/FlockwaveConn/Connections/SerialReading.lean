import Mathlib.Tactic
import FlockwaveConn.Machinery.Transition

/-!
# Connections/SerialReading — receiving through `_ThreadedSerialPortStream`

`receive_some()` asks the device how much there is and has a thread read no more than that; while
there is nothing it sleeps and asks again.  It has a `ConflictDetector` of its own.  `aclose()` does
not go to the detector: it tells the loop to stop, and has a thread close the device.

Neither a cancellation nor the closing takes anything out of the stream: what the calls return is
what has come in, once and in order, whoever calls (`received_along`).
-/

namespace FlockwaveConn

/-- How a call of `receive_some()` ends. -/
inductive ReceiveEnd (ε : Type*)
  | returned (data : List UInt8)
  /-- "another task is using this stream for receive" -/
  | busyResource
  | closedResource
  /-- Out of `in_waiting`, `sleep()` or the thread. -/
  | raised (e : ε)
  deriving DecidableEq, Repr

/-- The bytes that a call hands over. -/
def ReceiveEnd.data {ε : Type*} : ReceiveEnd ε → List UInt8
  | .returned data => data
  | .busyResource | .closedResource | .raised _ => []

/-- Where a task is. -/
inductive ReceivePlace
  | outside
  /-- `await sleep(0.01)` -/
  | sleeping (maxBytes : ℕ)
  /-- `device.read(size)`, in a thread. -/
  | reading (size : ℕ)
  deriving DecidableEq, Repr

/-- A `_ThreadedSerialPortStream`, as far as it receives, and its device. -/
structure SerialReader (Task ε : Type*) where
  /-- What the device has in its buffer. -/
  waiting : List UInt8
  isOpen : Bool
  /-- `self._closing` -/
  closing : Bool
  /-- `_receive_conflict_detector._held` -/
  held : Bool
  place : Task → ReceivePlace
  /-- All that has come in, oldest first. -/
  arrived : List UInt8
  /-- How the calls have ended, in that order. -/
  results : List (Task × ReceiveEnd ε)

namespace SerialReader

variable {Task ε : Type*}

/-- What the tasks do, and the device. -/
inductive Label (Task ε : Type*)
  /-- Bytes come in. -/
  | arrive (data : List UInt8)
  /-- A task calls `receive_some(max_bytes)`; the device may not be able to say what is there. -/
  | receiveSome (t : Task) (maxBytes : Option ℕ) (fault : Option ε)
  /-- `sleep()` ends, by an exception or without one, and the device is asked again. -/
  | slept (t : Task) (error fault : Option ε)
  /-- `device.read()` returns so many bytes. -/
  | read (t : Task) (n : ℕ)
  /-- It raises, or its thread is not started. -/
  | failed (t : Task) (e : ε)
  /-- A task calls `aclose()`, which sets the flag first. -/
  | aclose
  /-- `device.close()` returns. -/
  | closed

/-- The bytes that come in. -/
def Label.bytes {Task ε : Type*} : Label Task ε → List UInt8
  | .arrive data => data
  | _ => []

/-- The stream is new, and so is the device. -/
def init : SerialReader Task ε := ⟨[], true, false, false, fun _ => .outside, [], []⟩

/-- `DEFAULT_RECEIVE_SIZE` -/
def defaultReceiveSize : ℕ := 65536

variable [DecidableEq Task]

/-- A call waits. -/
def put (t : Task) (p : ReceivePlace) (s : SerialReader Task ε) : SerialReader Task ε :=
  { s with place := Function.update s.place t p }

/-- A call leaves the `with` block, and ends. -/
def leave (t : Task) (r : ReceiveEnd ε) (s : SerialReader Task ε) : SerialReader Task ε :=
  { s.put t .outside with held := false, results := s.results ++ [(t, r)] }

/-- One turn of the loop. -/
def poll (t : Task) (maxBytes : ℕ) (fault : Option ε) (s : SerialReader Task ε) :
    SerialReader Task ε :=
  if s.closing then s.leave t .closedResource
  else match fault with
    | some e => s.leave t (.raised e)
    | none =>
      if s.waiting.isEmpty then s.put t (.sleeping maxBytes)
      else s.put t (.reading (min s.waiting.length maxBytes))

/-- `receive_some()`, until it waits or ends. -/
def receiveSome (t : Task) (maxBytes : Option ℕ) (fault : Option ε) (s : SerialReader Task ε) :
    SerialReader Task ε :=
  if s.held then { s with results := s.results ++ [(t, .busyResource)] }
  else { s with held := true }.poll t (maxBytes.getD defaultReceiveSize) fault

/-- One step of a task, or of the device, which returns no more than it is asked for. -/
def step (s : SerialReader Task ε) : Label Task ε → Option (SerialReader Task ε)
  | .arrive data =>
    if s.isOpen then
      some { s with waiting := s.waiting ++ data, arrived := s.arrived ++ data }
    else none
  | .receiveSome t maxBytes fault =>
    match s.place t with
    | .outside => some (s.receiveSome t maxBytes fault)
    | _ => none
  | .slept t error fault =>
    match s.place t with
    | .sleeping maxBytes =>
      some <| match error with
        | some e => s.leave t (.raised e)
        | none => s.poll t maxBytes fault
    | _ => none
  | .read t n =>
    match s.place t with
    | .reading size =>
      if n ≤ size then
        some ({ s with waiting := s.waiting.drop n }.leave t (.returned (s.waiting.take n)))
      else none
    | _ => none
  | .failed t e =>
    match s.place t with
    | .reading _ => some (s.leave t (.raised e))
    | _ => none
  | .aclose => some { s with closing := true }
  | .closed => if s.closing then some { s with isOpen := false, waiting := [] } else none

end SerialReader

open SerialReader in
/-- A stream over any device, with any tasks. -/
def serialReader (Task ε : Type*) [DecidableEq Task] :
    Machine (SerialReader Task ε) (Label Task ε) where
  init := .init
  step := SerialReader.step

namespace SerialReader

variable {Task ε : Type*} {s s' : SerialReader Task ε} {t u : Task}

/-! ## What has been received -/

/-- What the calls have returned. -/
def received (s : SerialReader Task ε) : List UInt8 := s.results.flatMap fun r => r.2.data

/-- **What has been returned and what is there came in, in this order**, and nothing is lost before
the device is closed. -/
structure InOrder (s : SerialReader Task ε) : Prop where
  isPrefix : s.received ++ s.waiting <+: s.arrived
  complete : s.isOpen = true → s.received ++ s.waiting = s.arrived

/-- **The stream hands over what the device has received**, to one call at a time. -/
structure Sound (s : SerialReader Task ε) : Prop extends InOrder s where
  held : s.held = true ↔ ∃ t, s.place t ≠ .outside
  one : ∀ t u, s.place t ≠ .outside → s.place u ≠ .outside → t = u

theorem sound_init : Sound (init : SerialReader Task ε) where
  isPrefix := List.prefix_rfl
  complete _ := rfl
  held := by simp [init]
  one t u ht := absurd rfl ht

/-- No task but this one is in the `with` block. -/
def Alone (t : Task) (s : SerialReader Task ε) : Prop := ∀ u, u ≠ t → s.place u = .outside

theorem Sound.alone (h : s.Sound) (ht : s.place t ≠ .outside) : s.Alone t := by
  intro u hu
  by_contra hout
  exact hu (h.one u t hout ht)

theorem Sound.alone_of_free (h : s.Sound) (hfree : s.held = false) : s.Alone t := by
  intro u _
  by_contra hout
  exact absurd (hfree.symm.trans (h.held.mpr ⟨u, hout⟩)) (by simp)

variable [DecidableEq Task]

/-- The call of the only task in the block ends. -/
theorem Alone.leave (halone : s.Alone t) {r : ReceiveEnd ε}
    (h : InOrder { s with results := s.results ++ [(t, r)] }) : (s.leave t r).Sound := by
  have hout : ∀ u, (s.leave t r).place u = .outside := by
    intro u
    by_cases hu : u = t
    · subst hu
      exact Function.update_self ..
    · exact (Function.update_of_ne hu ..).trans (halone u hu)
  refine ⟨⟨h.isPrefix, h.complete⟩, ?_, fun u _ hu => absurd (hout u) hu⟩
  simp [hout]
  rfl

/-- …without any bytes. -/
theorem Alone.leave_empty (halone : s.Alone t) {r : ReceiveEnd ε} (hr : r.data = [])
    (h : InOrder s) : (s.leave t r).Sound := by
  have hsame : received { s with results := s.results ++ [(t, r)] } = s.received := by
    simp [received, hr]
  exact halone.leave ⟨by rw [hsame]; exact h.isPrefix, by rw [hsame]; exact h.complete⟩

/-- It waits. -/
theorem Alone.put (halone : s.Alone t) {p : ReceivePlace} (hp : p ≠ .outside) (h : InOrder s)
    (hheld : s.held = true) : (s.put t p).Sound := by
  have hself : (s.put t p).place t ≠ .outside := by simpa [SerialReader.put] using hp
  have hother : ∀ u, (s.put t p).place u ≠ .outside → u = t := by
    intro u hu
    by_contra hne
    exact hu ((Function.update_of_ne hne ..).trans (halone u hne))
  exact ⟨⟨h.isPrefix, h.complete⟩, iff_of_true hheld ⟨t, hself⟩,
    fun u v hu hv => (hother u hu).trans (hother v hv).symm⟩

/-- **A turn of the loop.** -/
theorem Alone.poll (halone : s.Alone t) (h : InOrder s) (hheld : s.held = true) (maxBytes : ℕ)
    (fault : Option ε) : (s.poll t maxBytes fault).Sound := by
  unfold SerialReader.poll
  cases fault with
  | some e =>
    dsimp only
    split_ifs
    · exact halone.leave_empty rfl h
    · exact halone.leave_empty rfl h
  | none =>
    dsimp only
    split_ifs
    · exact halone.leave_empty rfl h
    · exact halone.put (by simp) h hheld
    · exact halone.put (by simp) h hheld

/-- **One step.** -/
theorem Sound.step (h : s.Sound) {l : Label Task ε} (hs : s.step l = some s') : s'.Sound := by
  cases l with
  | arrive data =>
    simp only [SerialReader.step] at hs
    split_ifs at hs with hopen
    obtain rfl := Option.some.inj hs
    have hsame := h.complete hopen
    have heq : s.received ++ (s.waiting ++ data) = s.arrived ++ data := by
      rw [← List.append_assoc, hsame]
    exact ⟨⟨heq ▸ List.prefix_rfl, fun _ => heq⟩, h.held, h.one⟩
  | receiveSome t maxBytes fault =>
    cases hp : s.place t with
    | outside =>
      obtain rfl : s.receiveSome t maxBytes fault = s' := by simpa [SerialReader.step, hp] using hs
      unfold SerialReader.receiveSome
      split_ifs with hheld
      · have hsame : received { s with results := s.results ++ [(t, .busyResource)] } =
            s.received := by simp [received, ReceiveEnd.data]
        exact ⟨⟨by rw [hsame]; exact h.isPrefix, by rw [hsame]; exact h.complete⟩, h.held, h.one⟩
      · have halone : Alone t { s with held := true } := h.alone_of_free (by simpa using hheld)
        exact halone.poll ⟨h.isPrefix, h.complete⟩ rfl _ _
    | sleeping m => simp [SerialReader.step, hp] at hs
    | reading n => simp [SerialReader.step, hp] at hs
  | slept t error fault =>
    cases hp : s.place t with
    | sleeping m =>
      have halone := h.alone (t := t) (by simp [hp])
      cases error with
      | some e =>
        obtain rfl : s.leave t (.raised e) = s' := by simpa [SerialReader.step, hp] using hs
        exact halone.leave_empty rfl h.toInOrder
      | none =>
        obtain rfl : s.poll t m fault = s' := by simpa [SerialReader.step, hp] using hs
        exact halone.poll h.toInOrder (h.held.mpr ⟨t, by simp [hp]⟩) _ _
    | outside => simp [SerialReader.step, hp] at hs
    | reading n => simp [SerialReader.step, hp] at hs
  | read t n =>
    cases hp : s.place t with
    | reading size =>
      simp only [SerialReader.step, hp] at hs
      split_ifs at hs
      obtain rfl := Option.some.inj hs
      have halone : Alone t { s with waiting := s.waiting.drop n } := h.alone (by simp [hp])
      have heq : received { s with
          waiting := s.waiting.drop n
          results := s.results ++ [(t, .returned (s.waiting.take n))] } ++ s.waiting.drop n =
            s.received ++ s.waiting := by
        simp [received, ReceiveEnd.data]
      exact halone.leave ⟨heq ▸ h.isPrefix, fun hopen => heq ▸ h.complete hopen⟩
    | outside => simp [SerialReader.step, hp] at hs
    | sleeping m => simp [SerialReader.step, hp] at hs
  | failed t e =>
    cases hp : s.place t with
    | reading size =>
      obtain rfl : s.leave t (.raised e) = s' := by simpa [SerialReader.step, hp] using hs
      exact (h.alone (by simp [hp])).leave_empty rfl h.toInOrder
    | outside => simp [SerialReader.step, hp] at hs
    | sleeping m => simp [SerialReader.step, hp] at hs
  | aclose =>
    obtain rfl := Option.some.inj hs
    exact ⟨⟨h.isPrefix, h.complete⟩, h.held, h.one⟩
  | closed =>
    simp only [SerialReader.step] at hs
    split_ifs at hs
    obtain rfl := Option.some.inj hs
    refine ⟨⟨?_, fun hopen => by simp at hopen⟩, h.held, h.one⟩
    refine List.IsPrefix.trans ?_ h.isPrefix
    simp [received]

/-! ## Calls that are refused, and the end -/

/-- **What a step keeps to.** -/
structure Careful (s : SerialReader Task ε) (l : Label Task ε) (s' : SerialReader Task ε) :
    Prop where
  /-- A call that finds another one in the block raises, and nothing else happens. -/
  refuses : ∀ t maxBytes fault, l = .receiveSome t maxBytes fault → s.held = true →
    s' = { s with results := s.results ++ [(t, .busyResource)] }
  /-- After `aclose()` no read begins. -/
  stops : s.closing = true →
    s'.closing = true ∧ ∀ t n, s'.place t = .reading n → s.place t = .reading n
  /-- …and a call that comes to the loop ends. -/
  ends : ∀ t fault, s.closing = true →
    l = .slept t none fault ∨ s.held = false ∧ (∃ maxBytes, l = .receiveSome t maxBytes fault) →
      s' = s.leave t .closedResource

theorem poll_of_closing (h : s.closing = true) (t : Task) (maxBytes : ℕ) (fault : Option ε) :
    s.poll t maxBytes fault = s.leave t .closedResource := by
  unfold SerialReader.poll
  rw [if_pos h]

theorem receiveSome_of_held (h : s.held = true) (t : Task) (maxBytes : Option ℕ)
    (fault : Option ε) :
    s.receiveSome t maxBytes fault = { s with results := s.results ++ [(t, .busyResource)] } := by
  rw [SerialReader.receiveSome, if_pos h]

theorem receiveSome_of_closing (hheld : s.held = false) (h : s.closing = true) (t : Task)
    (maxBytes : Option ℕ) (fault : Option ε) :
    s.receiveSome t maxBytes fault = s.leave t .closedResource := by
  rw [SerialReader.receiveSome, if_neg (by simp [hheld])]
  exact poll_of_closing (s := { s with held := true }) h ..

theorem reading_of_leave {r : ReceiveEnd ε} {n : ℕ} (h : (s.leave t r).place u = .reading n) :
    s.place u = .reading n := by
  simp only [SerialReader.leave, SerialReader.put, Function.update_apply] at h
  split_ifs at h
  exact h

/-- **One step** is careful. -/
theorem careful_step {l : Label Task ε} (hs : s.step l = some s') : s.Careful l s' := by
  cases l with
  | arrive data =>
    simp only [SerialReader.step] at hs
    split_ifs at hs
    obtain rfl := Option.some.inj hs
    exact ⟨by simp, fun h => ⟨h, fun _ _ => id⟩, by simp⟩
  | receiveSome t maxBytes fault =>
    cases hp : s.place t with
    | outside =>
      obtain rfl : s.receiveSome t maxBytes fault = s' := by simpa [SerialReader.step, hp] using hs
      cases hheld : s.held with
      | true =>
        rw [receiveSome_of_held hheld]
        refine ⟨fun t' m f hl _ => ?_, fun h => ⟨h, fun _ _ => id⟩, by simp [hheld]⟩
        injection hl with ht
        rw [ht]
      | false =>
        refine ⟨by simp [hheld], fun h => ?_, fun t' f h hl => ?_⟩
        · rw [receiveSome_of_closing hheld h]
          exact ⟨h, fun _ _ => reading_of_leave⟩
        · obtain hl | ⟨-, m, hl⟩ := hl
          · cases hl
          · injection hl with ht
            rw [receiveSome_of_closing hheld h, ht]
    | sleeping m => simp [SerialReader.step, hp] at hs
    | reading n => simp [SerialReader.step, hp] at hs
  | slept t error fault =>
    cases hp : s.place t with
    | sleeping m =>
      cases error with
      | some e =>
        obtain rfl : s.leave t (.raised e) = s' := by simpa [SerialReader.step, hp] using hs
        exact ⟨by simp, fun h => ⟨h, fun _ _ => reading_of_leave⟩, by simp⟩
      | none =>
        obtain rfl : s.poll t m fault = s' := by simpa [SerialReader.step, hp] using hs
        refine ⟨by simp, fun h => ?_, fun t' f h hl => ?_⟩
        · rw [poll_of_closing h]
          exact ⟨h, fun _ _ => reading_of_leave⟩
        · obtain hl | ⟨-, m, hl⟩ := hl
          · injection hl with ht
            rw [poll_of_closing h, ht]
          · cases hl
    | outside => simp [SerialReader.step, hp] at hs
    | reading n => simp [SerialReader.step, hp] at hs
  | read t n =>
    cases hp : s.place t with
    | reading size =>
      simp only [SerialReader.step, hp] at hs
      split_ifs at hs
      obtain rfl := Option.some.inj hs
      refine ⟨by simp, fun h => ⟨h, fun u k hu => ?_⟩, by simp⟩
      exact reading_of_leave (s := { s with waiting := s.waiting.drop n }) hu
    | outside => simp [SerialReader.step, hp] at hs
    | sleeping m => simp [SerialReader.step, hp] at hs
  | failed t e =>
    cases hp : s.place t with
    | reading size =>
      obtain rfl : s.leave t (.raised e) = s' := by simpa [SerialReader.step, hp] using hs
      exact ⟨by simp, fun h => ⟨h, fun _ _ => reading_of_leave⟩, by simp⟩
    | outside => simp [SerialReader.step, hp] at hs
    | sleeping m => simp [SerialReader.step, hp] at hs
  | aclose =>
    obtain rfl := Option.some.inj hs
    exact ⟨by simp, fun _ => ⟨rfl, fun _ _ => id⟩, by simp⟩
  | closed =>
    simp only [SerialReader.step] at hs
    split_ifs at hs
    obtain rfl := Option.some.inj hs
    exact ⟨by simp, fun h => ⟨h, fun _ _ => id⟩, by simp⟩

/-! ## The record -/

/-- **What is recorded**: the bytes that come in, and those that a read returns. -/
structure Recorded (s : SerialReader Task ε) (l : Label Task ε) (s' : SerialReader Task ε) :
    Prop where
  arrived : s'.arrived = s.arrived ++ l.bytes
  returned : ∀ t n, l = .read t n → s'.results = s.results ++ [(t, .returned (s.waiting.take n))]

@[simp]
theorem arrived_leave (t : Task) (r : ReceiveEnd ε) : (s.leave t r).arrived = s.arrived := rfl

@[simp]
theorem arrived_poll (t : Task) (maxBytes : ℕ) (fault : Option ε) :
    (s.poll t maxBytes fault).arrived = s.arrived := by
  unfold SerialReader.poll
  split
  · rfl
  · split
    · rfl
    · split <;> rfl

@[simp]
theorem arrived_receiveSome (t : Task) (maxBytes : Option ℕ) (fault : Option ε) :
    (s.receiveSome t maxBytes fault).arrived = s.arrived := by
  unfold SerialReader.receiveSome
  split
  · rfl
  · exact arrived_poll ..

theorem recorded_step {l : Label Task ε} (hs : s.step l = some s') : s.Recorded l s' := by
  cases l with
  | arrive data =>
    simp only [SerialReader.step] at hs
    split_ifs at hs
    obtain rfl := Option.some.inj hs
    exact ⟨rfl, by simp⟩
  | receiveSome t maxBytes fault =>
    simp only [SerialReader.step] at hs
    split at hs
    · obtain rfl := Option.some.inj hs
      exact ⟨by simp [Label.bytes], by simp⟩
    · cases hs
  | slept t error fault =>
    simp only [SerialReader.step] at hs
    split at hs
    · obtain rfl := Option.some.inj hs
      cases error with
      | some e => exact ⟨by simp [Label.bytes], by simp⟩
      | none => exact ⟨by simp [Label.bytes], by simp⟩
    · cases hs
  | read t n =>
    simp only [SerialReader.step] at hs
    split at hs
    · split_ifs at hs
      obtain rfl := Option.some.inj hs
      refine ⟨by simp [Label.bytes], fun t' n' hl => ?_⟩
      injection hl with ht hn
      rw [← ht, ← hn]
      rfl
    · cases hs
  | failed t e =>
    simp only [SerialReader.step] at hs
    split at hs
    · obtain rfl := Option.some.inj hs
      exact ⟨by simp [Label.bytes], by simp⟩
    · cases hs
  | aclose =>
    obtain rfl := Option.some.inj hs
    exact ⟨by simp [Label.bytes], by simp⟩
  | closed =>
    simp only [SerialReader.step] at hs
    split_ifs at hs
    obtain rfl := Option.some.inj hs
    exact ⟨by simp [Label.bytes], by simp⟩

/-- **What the calls return is what has come in**, in every run: whichever tasks call, overlap, are
cancelled or fail, and whenever the stream is closed. -/
theorem received_along (ls : List (Label Task ε)) :
    (serialReader Task ε).Along Sound .init ls ∧
      (serialReader Task ε).Throughout Careful .init ls ∧
      (serialReader Task ε).Throughout Recorded .init ls := by
  have hany := Machine.guarded_anyStep (M := serialReader Task ε) .init ls
  refine ⟨?_, ?_, ?_⟩
  · exact hany.along sound_init fun _ _ _ h _ hs => h.step hs
  · exact hany.throughout sound_init fun _ _ _ h _ hs => ⟨h.step hs, careful_step hs⟩
  · exact hany.throughout sound_init fun _ _ _ h _ hs => ⟨h.step hs, recorded_step hs⟩

end SerialReader

end FlockwaveConn
