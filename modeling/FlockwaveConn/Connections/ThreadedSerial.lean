import Mathlib.Tactic
import FlockwaveConn.Machinery.Transition

/-!
# Connections/ThreadedSerial — sending through `_ThreadedSerialPortStream`

`send_all()` writes in a loop, as the device may take only a part of the data, under a
`ConflictDetector` that refuses a second call until the first one is over, however it ends.  A call
without data does not go to the detector at all: it waits once and returns, and it neither is
refused nor makes another call be.
-/

/-! ## A log of several writers -/

namespace List

variable {ι α : Type*} {k : ι} {xs ys : List α} {log : List (ι × α)}

/-- What writer `k` has put at the end of the log. -/
def Ends (k : ι) (xs : List α) (log : List (ι × α)) : Prop :=
  ∃ pre, log = pre ++ xs.map (k, ·) ∧ ∀ x ∈ pre, x.1 ≠ k

/-- All that writer `k` has put in the log, in one piece. -/
def Piece (k : ι) (xs : List α) (log : List (ι × α)) : Prop :=
  ∃ pre post, log = pre ++ xs.map (k, ·) ++ post ∧ ∀ x ∈ pre ++ post, x.1 ≠ k

theorem Ends.piece (h : Ends k xs log) : Piece k xs log := by
  obtain ⟨pre, hlog, hpre⟩ := h
  exact ⟨pre, [], by simpa using hlog, by simpa using hpre⟩

/-- A writer that has not written yet. -/
theorem ends_nil (h : ∀ x ∈ log, x.1 ≠ k) : Ends k ([] : List α) log := ⟨log, by simp, h⟩

/-- The last writer goes on. -/
theorem Ends.append (h : Ends k xs log) (ys : List α) :
    Ends k (xs ++ ys) (log ++ ys.map (k, ·)) := by
  obtain ⟨pre, hlog, hpre⟩ := h
  exact ⟨pre, by simp [hlog], hpre⟩

/-- Another one does. -/
theorem Piece.append {j : ι} (h : Piece k xs log) (hne : j ≠ k) (ys : List α) :
    Piece k xs (log ++ ys.map (j, ·)) := by
  obtain ⟨pre, post, hlog, hother⟩ := h
  refine ⟨pre, post ++ ys.map (j, ·), by simp [hlog], fun x hx => ?_⟩
  rw [← append_assoc, mem_append] at hx
  obtain hx | hx := hx
  · exact hother x hx
  · obtain ⟨y, -, rfl⟩ := mem_map.mp hx
    exact hne

theorem getElem?_concat_eq_some {xs : List α} {x y : α} {i : ℕ} :
    (xs ++ [x])[i]? = some y ↔ xs[i]? = some y ∨ i = xs.length ∧ x = y := by
  rcases lt_trichotomy i xs.length with hlt | rfl | hgt
  · simp [getElem?_append_left hlt, hlt.ne]
  · simp
  · have hne : ¬ i - xs.length = 0 := by omega
    simp [getElem?_append_right hgt.le, getElem?_eq_none hgt.le, hgt.ne', hne]

theorem getElem?_set_eq_some {xs : List α} {x y z : α} {i j : ℕ} (hi : xs[i]? = some z) :
    (xs.set i x)[j]? = some y ↔ j = i ∧ x = y ∨ j ≠ i ∧ xs[j]? = some y := by
  have hlt : i < xs.length := (getElem?_eq_some_iff.mp hi).1
  by_cases hj : j = i
  · subst hj
    simp [getElem?_set_self hlt]
  · simp [getElem?_set_ne (Ne.symm hj), hj]

end List

namespace FlockwaveConn

/-- What `send_all()` raises. -/
inductive SendAllError (ε : Type*)
  /-- "another task is using this stream for send" -/
  | busyResource
  /-- "serial.write() returned a negative number" -/
  | negativeNumber
  | other (e : ε)
  deriving DecidableEq, Repr

/-- How far a call of `send_all()` is. -/
inductive SendStatus (ε : Type*)
  /-- `await sleep(0)`, without any data. -/
  | checkpoint
  /-- In the loop, with the data that are left. -/
  | writing (rest : List UInt8)
  | returned
  | raised (e : SendAllError ε)
  deriving DecidableEq, Repr

/-- A call of `send_all()`. -/
structure SendCall (ε : Type*) where
  data : List UInt8
  status : SendStatus ε
  deriving DecidableEq, Repr

namespace SendCall

variable {ε : Type*}

/-- The call has not ended. -/
def InProgress (c : SendCall ε) : Prop :=
  c.status = .checkpoint ∨ ∃ rest, c.status = .writing rest

/-- …and it has something to send. -/
def Sending (c : SendCall ε) : Prop := c.InProgress ∧ c.data ≠ []

end SendCall

/-- A `_ThreadedSerialPortStream`, as far as it sends. -/
structure ThreadedSerialPortStream (ε : Type*) where
  /-- `_send_conflict_detector._held`. -/
  held : Bool
  /-- The calls made so far, by any task. -/
  calls : List (SendCall ε)
  /-- The bytes that the device has accepted, and the number of the call each is of. -/
  accepted : List (ℕ × UInt8)
  deriving Repr

namespace ThreadedSerialPortStream

/-- What the tasks do, and the device. -/
inductive Label (ε : Type*)
  /-- Some task calls `send_all(data)`. -/
  | sendAll (data : List UInt8)
  /-- `sleep(0)` ends, by an exception or without one. -/
  | slept (k : ℕ) (error : Option ε)
  /-- `device.write()` returns a number. -/
  | wrote (k : ℕ) (n : ℤ)
  /-- It raises, or its thread is not started. -/
  | failed (k : ℕ) (e : ε)

variable {ε : Type*}

def init : ThreadedSerialPortStream ε := ⟨false, [], []⟩

/-- A call gets further. -/
def setStatus (k : ℕ) (c : SendCall ε) (status : SendStatus ε)
    (s : ThreadedSerialPortStream ε) : ThreadedSerialPortStream ε :=
  { s with calls := s.calls.set k { c with status := status } }

/-- The call leaves the `with` block. -/
def leave (k : ℕ) (c : SendCall ε) (status : SendStatus ε) (s : ThreadedSerialPortStream ε) :
    ThreadedSerialPortStream ε :=
  { s.setStatus k c status with held := false }

/-- `send_all()`, until it waits or raises. -/
def sendAll (data : List UInt8) (s : ThreadedSerialPortStream ε) : ThreadedSerialPortStream ε :=
  if data.isEmpty then { s with calls := s.calls ++ [⟨data, .checkpoint⟩] }
  else if s.held then { s with calls := s.calls ++ [⟨data, .raised .busyResource⟩] }
  else { s with held := true, calls := s.calls ++ [⟨data, .writing data⟩] }

/-- The loop, from one `write()` to the next or to the end. -/
def wrote (k : ℕ) (c : SendCall ε) (rest : List UInt8) (n : ℤ) (s : ThreadedSerialPortStream ε) :
    ThreadedSerialPortStream ε :=
  if n < 0 then s.leave k c (.raised .negativeNumber)
  else
    let s := { s with accepted := s.accepted ++ (rest.take n.toNat).map (k, ·) }
    let rest := rest.drop n.toNat
    if rest.isEmpty then s.leave k c .returned else s.setStatus k c (.writing rest)

/-- One step of a task, or of the device, which accepts no more than it is given. -/
def step (s : ThreadedSerialPortStream ε) : Label ε → Option (ThreadedSerialPortStream ε)
  | .sendAll data => some (s.sendAll data)
  | .slept k error =>
    match s.calls[k]? with
    | some ⟨data, .checkpoint⟩ =>
      some (s.setStatus k ⟨data, .checkpoint⟩ <|
        match error with
        | none => .returned
        | some e => .raised (.other e))
    | _ => none
  | .wrote k n =>
    match s.calls[k]? with
    | some ⟨data, .writing rest⟩ =>
      if n ≤ rest.length then some (s.wrote k ⟨data, .writing rest⟩ rest n) else none
    | _ => none
  | .failed k e =>
    match s.calls[k]? with
    | some ⟨data, .writing rest⟩ =>
      some (s.leave k ⟨data, .writing rest⟩ (.raised (.other e)))
    | _ => none

end ThreadedSerialPortStream

open ThreadedSerialPortStream in
/-- A stream over any device, with any tasks. -/
def threadedSerial (ε : Type*) : Machine (ThreadedSerialPortStream ε) (Label ε) where
  init := init
  step := step

namespace ThreadedSerialPortStream

open List (Piece Ends)

variable {ε : Type*} {s s' : ThreadedSerialPortStream ε} {k : ℕ} {c : SendCall ε}

/-! ## What has been sent -/

/-- What the device has got of call `k` is in one piece: all the data if the call has returned, and
a prefix of them in any case. -/
def Delivered (s : ThreadedSerialPortStream ε) (k : ℕ) (c : SendCall ε) : Prop :=
  ∃ sent, Piece k sent s.accepted ∧ sent <+: c.data ∧ (c.status = .returned → sent = c.data)

/-- **Complete and in order**, for every call so far. -/
def Complete (s : ThreadedSerialPortStream ε) : Prop :=
  ∀ k c, s.calls[k]? = some c → s.Delivered k c

/-- The device has accepted what each `write()` says, and nothing else. -/
def Counted (s : ThreadedSerialPortStream ε) : Label ε → ThreadedSerialPortStream ε → Prop
  | .wrote k n, s' => ∃ data rest, s.calls[k]? = some ⟨data, .writing rest⟩ ∧ n ≤ rest.length ∧
      s'.accepted = s.accepted ++ (rest.take n.toNat).map (k, ·)
  | _, s' => s'.accepted = s.accepted

/-- **Exclusive**, with `busy` for the calls that another one has to wait for. -/
structure Exclusive (busy : SendCall ε → Prop) (s : ThreadedSerialPortStream ε) (l : Label ε)
    (s' : ThreadedSerialPortStream ε) : Prop where
  /-- The call raises, and nothing else happens. -/
  refuses : ∀ data, l = .sendAll data → data ≠ [] → (∃ c ∈ s.calls, busy c) →
    s' = { s with calls := s.calls ++ [⟨data, .raised .busyResource⟩] }
  accepts : ∀ data, l = .sendAll data → (¬ ∃ c ∈ s.calls, busy c) →
    ∃ c : SendCall ε, c.data = data ∧ c.InProgress ∧ s'.calls = s.calls ++ [c]

/-! ## The invariant -/

/-- The call has the detector. -/
def Writes (s : ThreadedSerialPortStream ε) (k : ℕ) : Prop :=
  ∃ c, s.calls[k]? = some c ∧ ∃ rest, c.status = .writing rest

/-- Where the bytes of a call are. -/
def Placed (log : List (ℕ × UInt8)) (k : ℕ) (c : SendCall ε) : Prop :=
  match c.status with
  | .checkpoint => c.data = [] ∧ Piece k [] log
  | .writing rest => c.data ≠ [] ∧ ∃ sent, Ends k sent log ∧ sent ++ rest = c.data
  | .returned => Piece k c.data log
  | .raised _ => ∃ sent, Piece k sent log ∧ sent <+: c.data

structure Sound (s : ThreadedSerialPortStream ε) : Prop where
  placed : ∀ k c, s.calls[k]? = some c → Placed s.accepted k c
  numbered : ∀ x ∈ s.accepted, x.1 < s.calls.length
  held : s.held = true ↔ ∃ k, s.Writes k
  one : ∀ j k, s.Writes j → s.Writes k → j = k

variable {log : List (ℕ × UInt8)}

theorem Placed.toDelivered (h : Placed s.accepted k c) : s.Delivered k c := by
  obtain ⟨data, status⟩ := c
  cases status with
  | checkpoint =>
    obtain ⟨rfl, hpiece⟩ := h
    exact ⟨[], hpiece, List.nil_prefix, fun _ => rfl⟩
  | writing rest =>
    obtain ⟨-, sent, hends, hrest⟩ := h
    exact ⟨sent, hends.piece, ⟨rest, hrest⟩, by simp⟩
  | returned => exact ⟨data, h, List.prefix_rfl, fun _ => rfl⟩
  | raised e =>
    obtain ⟨sent, hpiece, hprefix⟩ := h
    exact ⟨sent, hpiece, hprefix, by simp⟩

theorem Sound.complete (h : Sound s) : s.Complete := fun k c hk => (h.placed k c hk).toDelivered

/-- The bytes of another call come in. -/
theorem Placed.other {j : ℕ} (h : Placed log k c) (hne : j ≠ k)
    (hc : ∀ rest, c.status ≠ .writing rest) (bytes : List UInt8) :
    Placed (log ++ bytes.map (j, ·)) k c := by
  obtain ⟨data, status⟩ := c
  cases status with
  | checkpoint => exact ⟨h.1, h.2.append hne bytes⟩
  | writing rest => exact absurd rfl (hc rest)
  | returned => exact List.Piece.append h hne bytes
  | raised e =>
    obtain ⟨sent, hpiece, hprefix⟩ := h
    exact ⟨sent, hpiece.append hne bytes, hprefix⟩

theorem sound_init : Sound (init : ThreadedSerialPortStream ε) where
  placed k c hk := by simp [init] at hk
  numbered x hx := by simp [init] at hx
  held := by simp [init, Writes]
  one j k hj := by simp [init, Writes] at hj

/-! ## Who has the detector -/

/-- Nobody gets the detector, and nobody gives it back. -/
theorem Sound.of_writes_iff (h : Sound s)
    (hplaced : ∀ k c, s'.calls[k]? = some c → Placed s'.accepted k c)
    (hnumbered : ∀ x ∈ s'.accepted, x.1 < s'.calls.length) (hheld : s'.held = s.held)
    (hwrites : ∀ j, s'.Writes j ↔ s.Writes j) : Sound s' where
  placed := hplaced
  numbered := hnumbered
  held := by simpa only [hheld, hwrites] using h.held
  one i j hi hj := h.one i j ((hwrites i).mp hi) ((hwrites j).mp hj)

/-- Call `k` has the detector, or nobody has it. -/
theorem sound_of_writes_only {P : Prop}
    (hplaced : ∀ k c, s.calls[k]? = some c → Placed s.accepted k c)
    (hnumbered : ∀ x ∈ s.accepted, x.1 < s.calls.length) (hheld : s.held = true ↔ P)
    (hwrites : ∀ j, s.Writes j ↔ j = k ∧ P) : Sound s where
  placed := hplaced
  numbered := hnumbered
  held := by simp only [hheld, hwrites, exists_eq_left]
  one i j hi hj := ((hwrites i).mp hi).1.trans ((hwrites j).mp hj).1.symm

/-! ## A new call -/

/-- **A call that has been made**, and has the detector if it is to write. -/
theorem Sound.append (h : Sound s) (c : SendCall ε)
    (hplaced : Placed s.accepted s.calls.length c)
    (hone : (∃ rest, c.status = .writing rest) → s.held = false) (held : Bool)
    (hheld : held = true ↔ s.held = true ∨ ∃ rest, c.status = .writing rest) :
    Sound { s with held := held, calls := s.calls ++ [c] } := by
  have hwrites : ∀ k, Writes { s with held := held, calls := s.calls ++ [c] } k ↔
      s.Writes k ∨ k = s.calls.length ∧ ∃ rest, c.status = .writing rest := by
    intro k
    simp only [Writes, List.getElem?_concat_eq_some]
    constructor
    · rintro ⟨c', hk | ⟨rfl, rfl⟩, hrest⟩
      · exact .inl ⟨c', hk, hrest⟩
      · exact .inr ⟨rfl, hrest⟩
    · rintro (⟨c', hk, hrest⟩ | ⟨rfl, hrest⟩)
      · exact ⟨c', .inl hk, hrest⟩
      · exact ⟨c, .inr ⟨rfl, rfl⟩, hrest⟩
  have hplaced' : ∀ k c', (s.calls ++ [c])[k]? = some c' → Placed s.accepted k c' := by
    intro k c' hk
    obtain hk | ⟨rfl, rfl⟩ := List.getElem?_concat_eq_some.mp hk
    · exact h.placed k c' hk
    · exact hplaced
  have hnumbered : ∀ x ∈ s.accepted, x.1 < (s.calls ++ [c]).length := by
    intro x hx
    have hlt := h.numbered x hx
    simp only [List.length_append, List.length_singleton]
    omega
  by_cases hc : ∃ rest, c.status = .writing rest
  · have hs : ¬ s.held = true := fun hs => Bool.false_ne_true ((hone hc).symm.trans hs)
    have hfree : ∀ j, ¬ s.Writes j := fun j hj => hs (h.held.mpr ⟨j, hj⟩)
    exact sound_of_writes_only hplaced' hnumbered (hheld.trans (or_iff_right hs))
      fun j => (hwrites j).trans (or_iff_right (hfree j))
  · refine h.of_writes_iff hplaced' hnumbered ?_ fun j => ?_
    · exact Bool.eq_iff_iff.mpr (hheld.trans (or_iff_left hc))
    · exact (hwrites j).trans (or_iff_left fun hj => hc hj.2)

theorem Sound.sendAll (h : Sound s) (data : List UInt8) : Sound (s.sendAll data) := by
  have hnew : ∀ x ∈ s.accepted, x.1 ≠ s.calls.length := fun x hx => (h.numbered x hx).ne
  have hends : Ends s.calls.length [] s.accepted := List.ends_nil hnew
  unfold ThreadedSerialPortStream.sendAll
  split
  · next hempty =>
    have hnil : data = [] := List.isEmpty_iff.mp hempty
    exact h.append ⟨data, .checkpoint⟩ ⟨hnil, hends.piece⟩ (by simp) s.held (by simp)
  · next hdata =>
    split
    · exact h.append ⟨data, .raised .busyResource⟩ ⟨[], hends.piece, List.nil_prefix⟩ (by simp)
        s.held (by simp)
    · next hfree =>
      have hne : data ≠ [] := fun hnil => hdata (List.isEmpty_iff.mpr hnil)
      exact h.append ⟨data, .writing data⟩ ⟨hne, [], hends, rfl⟩ (fun _ => by simpa using hfree)
        true (by simp)

/-! ## A call that gets further -/

/-- **The call that has the detector** writes some bytes, and keeps the detector or gives it
back. -/
theorem Sound.advance (h : Sound s) (hk : s.calls[k]? = some c)
    (hc : ∃ rest, c.status = .writing rest) (bytes : List UInt8) (status : SendStatus ε)
    (hplaced : Placed (s.accepted ++ bytes.map (k, ·)) k { c with status := status }) (held : Bool)
    (hheld : held = true ↔ ∃ rest, status = .writing rest) :
    Sound { s with
      held := held, calls := s.calls.set k { c with status := status },
      accepted := s.accepted ++ bytes.map (k, ·) } := by
  have halone : ∀ j, s.Writes j → j = k := fun j hj => h.one j k hj ⟨c, hk, hc⟩
  have hwrites : ∀ j, Writes { s with
      held := held, calls := s.calls.set k { c with status := status },
      accepted := s.accepted ++ bytes.map (k, ·) } j ↔ j = k ∧ ∃ rest, status = .writing rest := by
    intro j
    simp only [Writes, List.getElem?_set_eq_some hk]
    constructor
    · rintro ⟨c', ⟨rfl, rfl⟩ | ⟨hne, hj⟩, hrest⟩
      · exact ⟨rfl, hrest⟩
      · exact absurd (halone j ⟨c', hj, hrest⟩) hne
    · rintro ⟨rfl, hrest⟩
      exact ⟨_, .inl ⟨rfl, rfl⟩, hrest⟩
  refine sound_of_writes_only ?_ ?_ hheld hwrites
  · intro j c' hj
    obtain ⟨rfl, rfl⟩ | ⟨hne, hj⟩ := (List.getElem?_set_eq_some hk).mp hj
    · exact hplaced
    · refine (h.placed j c' hj).other (Ne.symm hne) (fun rest hrest => hne ?_) bytes
      exact halone j ⟨c', hj, rest, hrest⟩
  · intro x hx
    rw [List.length_set]
    obtain hx | hx := List.mem_append.mp hx
    · exact h.numbered x hx
    · obtain ⟨b, -, rfl⟩ := List.mem_map.mp hx
      exact (List.getElem?_eq_some_iff.mp hk).1

/-- …and gives it back without having written any more. -/
theorem Sound.leave (h : Sound s) (hk : s.calls[k]? = some c)
    (hc : ∃ rest, c.status = .writing rest) (status : SendStatus ε)
    (hplaced : Placed s.accepted k { c with status := status })
    (hends : ∀ rest, status ≠ .writing rest) : Sound (s.leave k c status) := by
  have hadvance := h.advance hk hc [] status (by simpa using hplaced) false (by simpa using hends)
  simpa [ThreadedSerialPortStream.leave, setStatus] using hadvance

/-- A call without data ends. -/
theorem Sound.slept (h : Sound s) (hk : s.calls[k]? = some c) (hc : c.status = .checkpoint)
    (status : SendStatus ε) (hplaced : Placed s.accepted k { c with status := status })
    (hends : ∀ rest, status ≠ .writing rest) : Sound (s.setStatus k c status) := by
  have hwrites : ∀ j, (s.setStatus k c status).Writes j ↔ s.Writes j := by
    intro j
    simp only [Writes, setStatus, List.getElem?_set_eq_some hk]
    constructor
    · rintro ⟨c', ⟨rfl, rfl⟩ | ⟨-, hj⟩, rest, hrest⟩
      · exact absurd hrest (hends rest)
      · exact ⟨c', hj, rest, hrest⟩
    · rintro ⟨c', hj, rest, hrest⟩
      refine ⟨c', .inr ⟨?_, hj⟩, rest, hrest⟩
      rintro rfl
      obtain rfl := Option.some.inj (hk.symm.trans hj)
      simp [hc] at hrest
  refine h.of_writes_iff ?_ ?_ rfl hwrites
  · intro j c' hj
    obtain ⟨rfl, rfl⟩ | ⟨-, hj⟩ := (List.getElem?_set_eq_some hk).mp hj
    · exact hplaced
    · exact h.placed j c' hj
  · intro x hx
    exact (h.numbered x hx).trans_eq (List.length_set ..).symm

/-- **One round of the loop.** -/
theorem Sound.wrote (h : Sound s) {data rest : List UInt8}
    (hk : s.calls[k]? = some ⟨data, .writing rest⟩) (n : ℤ) :
    Sound (s.wrote k ⟨data, .writing rest⟩ rest n) := by
  obtain ⟨hne, sent, hends, hrest⟩ := h.placed k _ hk
  have hc : ∃ r, (⟨data, .writing rest⟩ : SendCall ε).status = .writing r := ⟨rest, rfl⟩
  unfold ThreadedSerialPortStream.wrote
  split
  · exact h.leave hk hc _ ⟨sent, hends.piece, rest, hrest⟩ (by simp)
  · have hends' : Ends k (sent ++ rest.take n.toNat)
        (s.accepted ++ (rest.take n.toNat).map (k, ·)) := hends.append _
    have hrest' : sent ++ rest.take n.toNat ++ rest.drop n.toNat = data := by
      rw [List.append_assoc, List.take_append_drop, hrest]
    dsimp only
    split
    · next hempty =>
      rw [List.isEmpty_iff.mp hempty, List.append_nil] at hrest'
      exact h.advance hk hc (rest.take n.toNat) .returned (hrest' ▸ hends'.piece) false (by simp)
    · have hadvance := h.advance hk hc (rest.take n.toNat) (.writing (rest.drop n.toNat))
        ⟨hne, _, hends', hrest'⟩ true (by simp)
      have hheld : s.held = true := h.held.mpr ⟨k, _, hk, hc⟩
      simpa [setStatus, hheld] using hadvance

/-- **One step** of a task or of the device. -/
theorem Sound.step (h : Sound s) {l : Label ε} (hs : s.step l = some s') : Sound s' := by
  cases l with
  | sendAll data =>
    obtain rfl := Option.some.inj hs
    exact h.sendAll data
  | slept k error =>
    simp only [ThreadedSerialPortStream.step] at hs
    split at hs
    · next data hk =>
      obtain ⟨rfl, hpiece⟩ := h.placed k _ hk
      obtain rfl := Option.some.inj hs
      cases error with
      | none => exact h.slept hk rfl .returned hpiece (by simp)
      | some e => exact h.slept hk rfl _ ⟨[], hpiece, List.nil_prefix⟩ (by simp)
    · cases hs
  | wrote k n =>
    simp only [ThreadedSerialPortStream.step] at hs
    split at hs
    · next data rest hk =>
      obtain ⟨-, ⟨⟩⟩ := Option.ite_none_right_eq_some.mp hs
      exact h.wrote hk n
    · cases hs
  | failed k e =>
    simp only [ThreadedSerialPortStream.step] at hs
    split at hs
    · next data rest hk =>
      obtain ⟨-, sent, hends, hrest⟩ := h.placed k _ hk
      obtain rfl := Option.some.inj hs
      exact h.leave hk ⟨rest, rfl⟩ _ ⟨sent, hends.piece, rest, hrest⟩ (by simp)
    · cases hs

/-! ## Exclusion -/

theorem Sound.sending_iff (h : Sound s) (hk : s.calls[k]? = some c) :
    c.Sending ↔ ∃ rest, c.status = .writing rest := by
  have hplaced := h.placed k c hk
  constructor
  · rintro ⟨hcheck | hwriting, hne⟩
    · simp only [Placed, hcheck] at hplaced
      exact absurd hplaced.1 hne
    · exact hwriting
  · rintro ⟨rest, hrest⟩
    simp only [Placed, hrest] at hplaced
    exact ⟨.inr ⟨rest, hrest⟩, hplaced.1⟩

/-- **The detector is held** exactly while a call with data is in progress. -/
theorem Sound.held_iff (h : Sound s) : s.held = true ↔ ∃ c ∈ s.calls, c.Sending := by
  rw [h.held]
  constructor
  · rintro ⟨k, c, hk, hc⟩
    exact ⟨c, List.mem_of_getElem? hk, (h.sending_iff hk).mpr hc⟩
  · rintro ⟨c, hc, hsending⟩
    obtain ⟨k, hk⟩ := List.mem_iff_getElem?.mp hc
    exact ⟨k, c, hk, (h.sending_iff hk).mp hsending⟩

theorem Sound.exclusive (h : Sound s) {l : Label ε} (hs : s.step l = some s') :
    Exclusive SendCall.Sending s l s' where
  refuses data hl hne hbusy := by
    subst hl
    obtain rfl := Option.some.inj hs
    simp [ThreadedSerialPortStream.sendAll, hne, h.held_iff.mpr hbusy]
  accepts data hl hfree := by
    subst hl
    obtain rfl := Option.some.inj hs
    rw [← h.held_iff] at hfree
    unfold ThreadedSerialPortStream.sendAll
    split
    · exact ⟨⟨data, .checkpoint⟩, rfl, .inl rfl, rfl⟩
    · exact ⟨⟨data, .writing data⟩, rfl, .inr ⟨data, rfl⟩, rfl⟩

/-! ## What the device accepts -/

/-- A round of the loop, whatever `write()` returns. -/
theorem accepted_wrote (c : SendCall ε) (rest : List UInt8) (n : ℤ) :
    (s.wrote k c rest n).accepted = s.accepted ++ (rest.take n.toNat).map (k, ·) := by
  unfold ThreadedSerialPortStream.wrote
  split
  · next hn => simp [ThreadedSerialPortStream.leave, setStatus, Int.toNat_of_nonpos hn.le]
  · dsimp only
    split <;> rfl

theorem counted_of_step {l : Label ε} (hs : s.step l = some s') : s.Counted l s' := by
  cases l with
  | sendAll data =>
    obtain rfl := Option.some.inj hs
    simp only [Counted, ThreadedSerialPortStream.sendAll]
    split_ifs <;> rfl
  | slept k error =>
    simp only [ThreadedSerialPortStream.step] at hs
    split at hs
    · obtain rfl := Option.some.inj hs
      rfl
    · cases hs
  | wrote k n =>
    simp only [ThreadedSerialPortStream.step] at hs
    split at hs
    · next data rest hk =>
      obtain ⟨hn, ⟨⟩⟩ := Option.ite_none_right_eq_some.mp hs
      exact ⟨data, rest, hk, hn, accepted_wrote ..⟩
    · cases hs
  | failed k e =>
    simp only [ThreadedSerialPortStream.step] at hs
    split at hs
    · obtain rfl := Option.some.inj hs
      rfl
    · cases hs

/-- **Sending is complete, ordered and exclusive**, in every run. -/
theorem sendAll_sound (ls : List (Label ε)) :
    (threadedSerial ε).Along Complete init ls ∧
      (threadedSerial ε).Throughout (Exclusive SendCall.Sending) init ls ∧
      (threadedSerial ε).Throughout Counted init ls := by
  have hany : (threadedSerial ε).Guarded Machine.anyStep init ls := Machine.guarded_anyStep init ls
  refine ⟨?_, ?_, ?_⟩
  · exact (hany.along sound_init fun _ _ _ h _ hs => h.step hs).mono fun _ h => h.complete
  · exact hany.throughout sound_init fun _ _ _ h _ hs => ⟨h.step hs, h.exclusive hs⟩
  · exact hany.throughout sound_init fun _ _ _ h _ hs => ⟨h.step hs, counted_of_step hs⟩

/-- A call without data is in progress, and no other one is refused. -/
theorem checkpoint_refuses_nothing :
    ¬ ∀ ls, (threadedSerial Unit).Throughout (Exclusive SendCall.InProgress) init ls := by
  intro h
  have hstep := (h [.sendAll [], .sendAll [65]] _ rfl).2 _ rfl
  have hs := hstep.1.refuses [65] rfl (by simp) ⟨⟨[], .checkpoint⟩, by decide, .inl rfl⟩
  exact absurd (congrArg held hs) (by decide)

end ThreadedSerialPortStream

end FlockwaveConn
