import FlockwaveConn.Connections.Base
import FlockwaveConn.Machinery.MemoryChannel

/-!
# Connections/Loopback — two connections over two memory channels

`create_loopback_connection_pair()` gives each of two `ChannelConnection`s the sending end of one
channel and the receiving end of the other.  The ends come with the object: `_open()` does nothing
but pass a checkpoint, while `_close()` closes both ends, and a closed end stays closed.

So a connection is good for one `close()`: it can be opened again, and so it is `CONNECTED` also
where `_close()` has been cut short, but its `read()` and `write()` fail (`usable_of_unclosed`).
-/

namespace FlockwaveConn

/-- The two connections of a pair. -/
inductive Endpoint
  | conn1
  | conn2
  deriving DecidableEq, Repr

/-- The other one. -/
def Endpoint.other : Endpoint → Endpoint
  | conn1 => conn2
  | conn2 => conn1

/-- A pair, and the tasks that use it. -/
structure Loopback (Task α : Type*) where
  conn : Endpoint → ConnectionBase Task
  /-- The channel a side writes into; the other side reads from it. -/
  channel : Endpoint → MemoryChannel Task α
  /-- A task in `_close()` has closed the receiving end too. -/
  rxDone : Endpoint → Task → Bool
  /-- `_close()` has been entered before. -/
  begun : Endpoint → Bool

namespace Loopback

variable {Task α : Type*}

/-- `create_loopback_connection_pair()`. -/
def init : Loopback Task α := ⟨fun _ => .init, fun _ => .init, fun _ _ => false, fun _ => false⟩

/-- The stretches of all tasks. -/
inductive Label (Task α : Type*)
  /-- A step of `open()` or `close()` outside `_open()` and `_close()`. -/
  | call (i : Endpoint) (d : Direction) (t : Task)
  | resume (i : Endpoint) (t : Task)
  | interrupt (i : Endpoint) (t : Task)
  /-- `await self._tx.aclose()` returns. -/
  | closeRx (i : Endpoint) (t : Task)
  /-- The last wait of `_open()` or `_close()` ends, or a wait in one is cancelled. -/
  | finish (i : Endpoint) (t : Task) (cancelled : Bool)
  | read (i : Endpoint) (t : Task)
  | write (i : Endpoint) (t : Task) (data : α)
  /-- A `write()` into the channel of a side is cancelled, or a `read()` from it. -/
  | cancel (i : Endpoint) (t : Task)

/-- The object of one side changes. -/
def setConn (i : Endpoint) (c : ConnectionBase Task) (s : Loopback Task α) : Loopback Task α :=
  { s with conn := Function.update s.conn i c }

def setChannel (i : Endpoint) (c : MemoryChannel Task α) (s : Loopback Task α) : Loopback Task α :=
  { s with channel := Function.update s.channel i c }

/-- `ChannelConnection._close`, up to its first wait. -/
def close (i : Endpoint) (t : Task) [DecidableEq Task] (s : Loopback Task α) : Loopback Task α :=
  { s.setChannel i (s.channel i).closeSend with
    rxDone := Function.update s.rxDone i (Function.update (s.rxDone i) t false)
    begun := Function.update s.begun i true }

variable [DecidableEq Task]

/-- A task that has just gone into `_open()` or `_close()` runs on in it. -/
def proceed (i : Endpoint) (t : Task) (s : Loopback Task α) : Loopback Task α :=
  match (s.conn i).place t with
  | .inside .down => s.close i t
  | _ => s

/-- One stretch. -/
def step (bufferSize : ℕ) (s : Loopback Task α) : Label Task α → Option (Loopback Task α)
  | .call i d t => ((s.conn i).step (.call d t)).map fun c => (s.setConn i c).proceed i t
  | .resume i t => ((s.conn i).step (.resume t)).map fun c => (s.setConn i c).proceed i t
  | .interrupt i t => ((s.conn i).step (.interrupt t)).map fun c => s.setConn i c
  | .closeRx i t =>
    match (s.conn i).place t, s.rxDone i t with
    | .inside .down, false =>
      some { s.setChannel i.other (s.channel i.other).closeReceive with
        rxDone := Function.update s.rxDone i (Function.update (s.rxDone i) t true) }
    | _, _ => none
  | .finish i t cancelled =>
    match (s.conn i).place t, cancelled || s.rxDone i t with
    -- the first wait of `_close()` is not its last
    | .inside .down, false => none
    | .inside d, _ =>
      some (s.setConn i ((s.conn i).leave d (if cancelled then .cancelled else .returned) t))
    | _, _ => none
  | .read i t =>
    if (s.channel i.other).Waits t then none
    else some (s.setChannel i.other ((s.channel i.other).receive t))
  | .write i t data =>
    if (s.channel i).Waits t then none
    else some (s.setChannel i ((s.channel i).send bufferSize t data))
  | .cancel i t =>
    if (s.channel i).Waits t then some (s.setChannel i ((s.channel i).cancel t)) else none

end Loopback

/-- **A loopback pair and its users.** -/
def loopback (Task α : Type*) [DecidableEq Task] (bufferSize : ℕ) :
    Machine (Loopback Task α) (Loopback.Label Task α) where
  init := .init
  step := Loopback.step bufferSize

namespace Loopback

variable {Task α : Type*} {s s' : Loopback Task α}

/-- What has been read on one side is a prefix of what has been written on the other. -/
def InOrder (s : Loopback Task α) : Prop :=
  ∀ i, (s.channel i).received <+: (s.channel i).sent

def BothConnected (s : Loopback Task α) : Prop := ∀ i, (s.conn i).state = .connected

/-- **No `read()` or `write()` fails for a closed channel while both sides are `CONNECTED`.** -/
def Usable (s : Loopback Task α) (_ : Label Task α) (s' : Loopback Task α) : Prop :=
  s'.BothConnected → ∀ i, (s'.channel i).failed = (s.channel i).failed

/-- While both sides are `CONNECTED`, neither has gone into `_close()` so far. -/
def Unclosed (s : Loopback Task α) (_ : Label Task α) : Prop :=
  s.BothConnected → ∀ i, s.begun i = false

/-- **The invariant of all runs.** -/
structure Sound (s : Loopback Task α) : Prop where
  fifo : ∀ i, (s.channel i).Fifo
  /-- A closed end belongs to a side that has gone into `_close()`. -/
  sendClosed : ∀ i, (s.channel i).sendClosed = true → s.begun i = true
  receiveClosed : ∀ i, (s.channel i).receiveClosed = true → s.begun i.other = true
  inside : ∀ i t, (s.conn i).place t = .inside .down → s.begun i = true

theorem sound_init : Sound (init : Loopback Task α) where
  fifo _ := .init
  sendClosed _ h := absurd h (by simp [init, MemoryChannel.init])
  receiveClosed _ h := absurd h (by simp [init, MemoryChannel.init])
  inside _ _ h := absurd h (by simp [init, ConnectionBase.init])

/-! ## One step -/

section

variable {i : Endpoint} {t : Task} {c : ConnectionBase Task}

/-- A connection moves on, and no task goes into `_close()`. -/
theorem Sound.setConn (h : Sound s)
    (hin : ∀ u, c.place u = .inside .down → (s.conn i).place u = .inside .down) :
    Sound (s.setConn i c) where
  fifo := h.fifo
  sendClosed := h.sendClosed
  receiveClosed := h.receiveClosed
  inside j u hu := by
    simp only [Loopback.setConn, Function.update_apply] at hu
    split at hu
    · next hj => exact h.inside j u (hj ▸ hin u hu)
    · exact h.inside j u hu

/-- **A read or a write**, which leaves the ends of the channel as they are. -/
theorem Sound.setChannel (h : Sound s) {ch : MemoryChannel Task α} (hf : ch.Fifo)
    (he : ch.ends = (s.channel i).ends) : Sound (s.setChannel i ch) where
  fifo j := by
    by_cases hj : j = i
    · subst hj
      simpa [Loopback.setChannel] using hf
    · simpa [Loopback.setChannel, hj] using h.fifo j
  sendClosed j hc := by
    by_cases hj : j = i
    · subst hj
      have hch : ch.sendClosed = true := by simpa [Loopback.setChannel] using hc
      exact h.sendClosed j ((congrArg Prod.fst he).symm.trans hch)
    · exact h.sendClosed j (by simpa [Loopback.setChannel, hj] using hc)
  receiveClosed j hc := by
    by_cases hj : j = i
    · subst hj
      have hch : ch.receiveClosed = true := by simpa [Loopback.setChannel] using hc
      exact h.receiveClosed j ((congrArg Prod.snd he).symm.trans hch)
    · exact h.receiveClosed j (by simpa [Loopback.setChannel, hj] using hc)
  inside := h.inside

/-- **`_tx.aclose()` returns**, and the other end is closed. -/
theorem Sound.closeRx (h : Sound s) (hp : (s.conn i).place t = .inside .down)
    (rxDone : Endpoint → Task → Bool) :
    Sound { s.setChannel i.other (s.channel i.other).closeReceive with rxDone := rxDone } where
  fifo j := by
    by_cases hj : j = i.other
    · subst hj
      simpa [Loopback.setChannel] using (h.fifo i.other).closeReceive
    · simpa [Loopback.setChannel, hj] using h.fifo j
  sendClosed j hc := by
    refine h.sendClosed j ?_
    by_cases hj : j = i.other
    · subst hj
      have hch : (s.channel i.other).closeReceive.sendClosed = true := by
        simpa [Loopback.setChannel] using hc
      exact (congrArg Prod.fst
        (MemoryChannel.closeReceive_ends (c := s.channel i.other))).symm.trans hch
    · simpa [Loopback.setChannel, hj] using hc
  receiveClosed j hc := by
    by_cases hj : j = i.other
    · subst hj
      have hbegun : s.begun i = true := h.inside i t hp
      cases i <;> exact hbegun
    · exact h.receiveClosed j (by simpa [Loopback.setChannel, hj] using hc)
  inside := h.inside

variable [DecidableEq Task]

/-- **A task goes into `_close()`.** -/
theorem Sound.close (h : Sound s)
    (hin : ∀ u, u ≠ t → c.place u = .inside .down → (s.conn i).place u = .inside .down) :
    Sound ((s.setConn i c).close i t) where
  fifo j := by
    by_cases hj : j = i
    · subst hj
      simpa [Loopback.close, Loopback.setChannel, Loopback.setConn] using (h.fifo j).closeSend
    · simpa [Loopback.close, Loopback.setChannel, Loopback.setConn, hj] using h.fifo j
  sendClosed j hc := by
    by_cases hj : j = i
    · subst hj
      simp [Loopback.close]
    · have hold := h.sendClosed j (by
        simpa [Loopback.close, Loopback.setChannel, Loopback.setConn, hj] using hc)
      simpa [Loopback.close, Loopback.setConn, hj] using hold
  receiveClosed j hc := by
    have hold : (s.channel j).receiveClosed = true := by
      by_cases hj : j = i
      · subst hj
        have hch : (s.channel j).closeSend.receiveClosed = true := by
          simpa [Loopback.close, Loopback.setChannel, Loopback.setConn] using hc
        exact (congrArg Prod.snd (MemoryChannel.closeSend_ends (c := s.channel j))).symm.trans hch
      · simpa [Loopback.close, Loopback.setChannel, Loopback.setConn, hj] using hc
    by_cases hj : j.other = i
    · simp [Loopback.close, hj]
    · simpa [Loopback.close, Loopback.setConn, hj] using h.receiveClosed j hold
  inside j u hu := by
    by_cases hj : j = i
    · subst hj
      simp [Loopback.close]
    · have hold := h.inside j u (by
        simpa [Loopback.close, Loopback.setChannel, Loopback.setConn, hj] using hu)
      simpa [Loopback.close, Loopback.setConn, hj] using hold

/-- Who goes into `_close()` takes the connection to `DISCONNECTING`. -/
theorem state_of_enters {c₀ : ConnectionBase Task} {l : ConnectionBase.Label Task}
    (hm : ConnectionBase.Move c₀ l c) (hout : c₀.place l.task ≠ .inside .down)
    (hin : c.place l.task = .inside .down) : c.state = .disconnecting := by
  cases hm with
  | noop => exact absurd hin hout
  | join | queue | released | giveUp => simp [ConnectionBase.Label.task] at hin
  | start | goOn =>
    simp only [ConnectionBase.Label.task, ConnectionBase.enter, ConnectionBase.put_place_self,
      Place.inside.injEq] at hin
    rw [hin]
    exact ConnectionBase.enter_state ..
  | finish => simp [ConnectionBase.Label.task, ConnectionBase.leave] at hin

/-- **`open()` and `close()`, up to their next wait**: a read or a write that fails fails while the
connection is `DISCONNECTING`. -/
theorem Sound.proceed (h : Sound s) {l : ConnectionBase.Label Task} (hl : l.task = t)
    (hm : ConnectionBase.Move (s.conn i) l c) (hout : (s.conn i).place t ≠ .inside .down) :
    Sound ((s.setConn i c).proceed i t) ∧
      (((s.setConn i c).proceed i t).BothConnected →
        ((s.setConn i c).proceed i t).channel = s.channel) := by
  subst hl
  have hin : ∀ u, u ≠ l.task → c.place u = .inside .down → (s.conn i).place u = .inside .down :=
    fun u hu => (hm.place_inside_of_ne hu.symm).mp
  have hself : (s.setConn i c).conn i = c := Function.update_self ..
  unfold Loopback.proceed
  rw [hself]
  split
  · next hp =>
    refine ⟨h.close hin, fun hboth => ?_⟩
    have hstate : c.state = .connected := hself ▸ hboth i
    exact absurd ((state_of_enters hm hout hp).symm.trans hstate) (by decide)
  · next hp =>
    refine ⟨h.setConn fun u hu => ?_, fun _ => rfl⟩
    by_cases hut : u = l.task
    · exact absurd (hut ▸ hu) hp
    · exact hin u hut hu

/-- **One step.** -/
theorem Sound.step {bufferSize : ℕ} {l : Label Task α} (h : Sound s)
    (hs : s.step bufferSize l = some s') : Sound s' ∧ (Unclosed s l → Usable s l s') := by
  have hopen : s.BothConnected → Unclosed s l → ∀ j,
      (s.channel j).sendClosed = false ∧ (s.channel j).receiveClosed = false := by
    intro hb hu j
    have hnot : ∀ k, s.begun k ≠ true := fun k => by simp [hu hb k]
    exact ⟨by simpa using fun hc => hnot j (h.sendClosed j hc),
      by simpa using fun hc => hnot j.other (h.receiveClosed j hc)⟩
  -- a change of one channel in which no call fails
  have husable : ∀ j (ch : MemoryChannel Task α),
      (s.BothConnected → Unclosed s l → ch.failed = (s.channel j).failed) → Unclosed s l →
      Usable s l (s.setChannel j ch) := by
    intro j ch hch hu hb k
    by_cases hk : k = j
    · subst hk
      simpa [Loopback.setChannel] using hch hb hu
    · simp [Loopback.setChannel, hk]
  cases l with
  | call i d t =>
    obtain ⟨c, hc, rfl⟩ := Option.map_eq_some_iff.mp hs
    have hm := ConnectionBase.move_of_step hc
    have hout : (s.conn i).place t ≠ .inside .down := by cases hm <;> simp [*]
    obtain ⟨hsound, hsame⟩ := h.proceed (t := t) rfl hm hout
    exact ⟨hsound, fun _ hb j => by rw [hsame hb]⟩
  | resume i t =>
    obtain ⟨c, hc, rfl⟩ := Option.map_eq_some_iff.mp hs
    have hm := ConnectionBase.move_of_step hc
    have hout : (s.conn i).place t ≠ .inside .down := by cases hm <;> simp [*]
    obtain ⟨hsound, hsame⟩ := h.proceed (t := t) rfl hm hout
    exact ⟨hsound, fun _ hb j => by rw [hsame hb]⟩
  | interrupt i t =>
    obtain ⟨c, hc, rfl⟩ := Option.map_eq_some_iff.mp hs
    cases ConnectionBase.move_of_step hc with
    | giveUp _ _ =>
      refine ⟨h.setConn fun u hu => ?_, fun _ _ _ => rfl⟩
      exact (ConnectionBase.place_of_put hu (by simp)).2
  | closeRx i t =>
    simp only [Loopback.step] at hs
    split at hs
    · next hp _ =>
      obtain rfl := Option.some.inj hs
      refine ⟨h.closeRx hp _, fun hu hb => ?_⟩
      exact absurd (h.inside i t hp) (by simp [hu hb i])
    · cases hs
  | finish i t cancelled =>
    simp only [Loopback.step] at hs
    split at hs
    · cases hs
    · obtain rfl := Option.some.inj hs
      refine ⟨h.setConn fun u hu => ?_, fun _ _ _ => rfl⟩
      have hput := ConnectionBase.place_of_put hu (by simp)
      exact ConnectionBase.setState_place_inside.mp hput.2
    · cases hs
  | read i t =>
    simp only [Loopback.step] at hs
    split_ifs at hs
    obtain rfl := Option.some.inj hs
    refine ⟨h.setChannel ((h.fifo _).receive t) (MemoryChannel.receive_ends t), ?_⟩
    refine husable _ _ fun hb hu => ?_
    exact MemoryChannel.receive_failed (hopen hb hu _).1 (hopen hb hu _).2 t
  | write i t data =>
    simp only [Loopback.step] at hs
    split_ifs at hs
    obtain rfl := Option.some.inj hs
    refine ⟨h.setChannel ((h.fifo _).send _ t data) (MemoryChannel.send_ends _ t data), ?_⟩
    refine husable _ _ fun hb hu => ?_
    exact MemoryChannel.send_failed (hopen hb hu _).1 (hopen hb hu _).2 _ t data
  | cancel i t =>
    simp only [Loopback.step] at hs
    split_ifs at hs
    obtain rfl := Option.some.inj hs
    exact ⟨h.setChannel ((h.fifo _).cancel t) (MemoryChannel.cancel_ends t),
      husable _ _ fun _ _ => rfl⟩

variable (Task α)

/-- **In every run the items arrive in order, and where neither side has been closed before no read
or write fails for a closed channel while both sides are `CONNECTED`.** -/
theorem usable_of_unclosed (bufferSize : ℕ) (ls : List (Label Task α)) :
    (loopback Task α bufferSize).Along InOrder (loopback Task α bufferSize).init ls ∧
      ((loopback Task α bufferSize).Guarded Unclosed (loopback Task α bufferSize).init ls →
        (loopback Task α bufferSize).Throughout Usable (loopback Task α bufferSize).init ls) := by
  have hany := Machine.guarded_anyStep (M := loopback Task α bufferSize) .init ls
  have hsound := hany.along sound_init fun s l s' hs _ hst => (hs.step hst).1
  refine ⟨hsound.mono fun s hs i => (hs.fifo i).isPrefix, fun h => ?_⟩
  exact h.throughout sound_init fun s l s' hs hu hst =>
    ⟨(hs.step hst).1, (hs.step hst).2 hu⟩

end

/-- An item goes from one side to the other. -/
theorem usable_opened :
    (loopback (Fin 1) ℕ 1).Throughout Usable .init
      [.call .conn1 .up 0, .finish .conn1 0 false, .call .conn2 .up 0, .finish .conn2 0 false,
        .write .conn1 0 1, .read .conn2 0] :=
  (usable_of_unclosed (Fin 1) ℕ 1 _).2 <|
    .cons rfl (fun _ _ => rfl) <| .cons rfl (fun _ _ => rfl) <| .cons rfl (fun _ _ => rfl) <|
      .cons rfl (fun _ _ => rfl) <| .cons rfl (fun _ _ => rfl) <| .cons rfl (fun _ _ => rfl) trivial

/-- One side is closed and opened again, and its `write()` fails. -/
theorem reopened_closed :
    ¬ ∀ ls, (loopback (Fin 1) ℕ 1).Throughout Usable (loopback (Fin 1) ℕ 1).init ls := by
  intro h
  have hlast := (h ([.call .conn1 .up 0, .finish .conn1 0 false, .call .conn2 .up 0,
    .finish .conn2 0 false, .call .conn1 .down 0, .closeRx .conn1 0, .finish .conn1 0 false,
    .call .conn1 .up 0, .finish .conn1 0 false] ++ [.write .conn1 0 1])).last rfl rfl
  have hboth := hlast (by intro i; cases i <;> rfl) .conn1
  exact absurd hboth (by decide)

end Loopback

end FlockwaveConn
