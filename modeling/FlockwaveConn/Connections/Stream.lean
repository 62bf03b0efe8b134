import FlockwaveConn.Connections.Sequential

/-!
# Connections/Stream — a connection around a stream

`StreamConnectionBase._open()` creates the stream, and `_close()` lets it go in a `finally` clause,
whatever `aclose()` does.  But `close()` takes a `_close()` that has failed for a connection that is
still open: it is `CONNECTED` again, and there is no stream in it.

So the connection holds a stream exactly while it is `CONNECTED` in the runs in which `aclose()`
never fails (`ownsStream_iff`).  It is called on each stream that is let go in any case.
-/

namespace FlockwaveConn

/-- A `StreamConnectionBase`; its streams go by the order in which they were created. -/
structure StreamConnection where
  base : ConnectionBase Unit
  /-- `_stream`. -/
  stream : Option ℕ
  /-- How many streams there have been. -/
  created : ℕ
  /-- The streams whose `aclose()` has been called. -/
  aclosed : List ℕ

namespace StreamConnection

/-- `StreamConnectionBase.__init__`, or `StreamWrapperConnection.__init__`, which is given a stream
and is `CONNECTED` from the start. -/
def init : Bool → StreamConnection
  | false => ⟨.init, none, 0, []⟩
  | true => ⟨ConnectionBase.init.setState .connected, some 0, 1, []⟩

/-- `_open()`, where `_create_stream()` ends as `o`. -/
def runOpen (o : Outcome) (c : StreamConnection) : StreamConnection :=
  if o.success then { c with stream := some c.created, created := c.created + 1 } else c

/-- `_close()`, however `aclose()` ends. -/
def runClose (c : StreamConnection) : StreamConnection :=
  match c.stream with
  | some n => { c with stream := none, aclosed := c.aclosed ++ [n] }
  | none => c

/-- How `_close()` ends, where `aclose()` ends as `o`. -/
def closeOutcome (o : Outcome) (c : StreamConnection) : Outcome :=
  if c.stream.isSome then o else .returned

/-- `open()` -/
def open_ (o : Outcome) (c : StreamConnection) : StreamConnection :=
  { (if c.base.Enters .up then c.runOpen o else c) with base := c.base.call .up o }

/-- `close()` -/
def close (o : Outcome) (c : StreamConnection) : StreamConnection :=
  { (if c.base.Enters .down then c.runClose else c) with
    base := c.base.call .down (c.closeOutcome o) }

/-- How `receive_some()` ends. -/
inductive Received
  | data
  /-- It returns nothing: the end of the file. -/
  | empty
  | raised
  | cancelled
  deriving DecidableEq, Repr

/-- `read()`; without a stream the call of `receive_some()` raises. -/
def read (r : Received) (o : Outcome) (c : StreamConnection) : StreamConnection :=
  match c.stream, r with
  | none, _ | some _, .raised | some _, .empty => c.close o
  -- `except Exception` is not for `Cancelled`
  | some _, .data | some _, .cancelled => c

/-- One call, with the way in which what it awaits ends. -/
inductive Label
  | open_ (create : Outcome)
  | close (aclose : Outcome)
  | read (r : Received) (aclose : Outcome)
  /-- `write()`, however `send_all()` ends. -/
  | write

/-- One call, from its beginning to its end. -/
def step (c : StreamConnection) : Label → Option StreamConnection
  | .open_ o => some (c.open_ o)
  | .close o => some (c.close o)
  | .read r o => some (c.read r o)
  | .write => some c

end StreamConnection

/-- **A stream connection and the calls made to it**, or one that is given its stream. -/
def streamConnection (wrapper : Bool) : Machine StreamConnection StreamConnection.Label where
  init := .init wrapper
  step := StreamConnection.step

namespace StreamConnection

variable {c c' : StreamConnection} {o : Outcome} {l : Label}

/-- **The connection owns a stream exactly while it is `CONNECTED`**, and has closed the others. -/
structure OwnsStream (c : StreamConnection) : Prop where
  held : c.base.state = .connected ↔ c.stream.isSome = true
  closed : ∀ n < c.created, c.stream ≠ some n → n ∈ c.aclosed

/-- The way `aclose()` ends, of a call that closes the stream. -/
def Label.aclose : Label → Option Outcome
  | .close o | .read .raised o | .read .empty o => some o
  | _ => none

/-- `aclose()` of the stream that the connection holds does not fail. -/
def ClosesWell (c : StreamConnection) (l : Label) : Prop :=
  c.stream.isSome = true → ∀ o ∈ l.aclose, o = .returned

/-- The invariant of all runs. -/
structure Sound (c : StreamConnection) : Prop where
  resting : c.base.Resting
  /-- A stream is there only while the connection is `CONNECTED`… -/
  connected : ∀ n, c.stream = some n → c.base.state = .connected ∧ n < c.created
  /-- …and each of the others has been closed. -/
  closed : ∀ n < c.created, c.stream ≠ some n → n ∈ c.aclosed

theorem sound_init (wrapper : Bool) : (init wrapper).Sound := by
  cases wrapper with
  | false => exact ⟨ConnectionBase.resting_init, by simp [init], by simp [init]⟩
  | true =>
    have hrest : (ConnectionBase.init.setState .connected : ConnectionBase Unit).Resting :=
      ⟨ConnectionBase.coherent_init.leave .up .returned (), rfl⟩
    refine ⟨hrest, ?_, ?_⟩
    · rintro n ⟨⟩
      exact ⟨rfl, Nat.one_pos⟩
    · intro n hn hne
      obtain rfl : n = 0 := Nat.lt_one_iff.mp hn
      exact absurd rfl hne

/-! ## One call -/

/-- `open()` of a connection that is open. -/
theorem Sound.open_of_connected (h : c.Sound) (hs : c.base.state = Direction.up.target) :
    c.open_ o = c := by
  rw [StreamConnection.open_, if_neg fun he => h.resting.enters_iff.mp he hs,
    h.resting.call_of_eq hs]

/-- `close()` of a connection that is closed. -/
theorem Sound.close_of_disconnected (h : c.Sound) (hs : c.base.state = Direction.down.target) :
    c.close o = c := by
  rw [StreamConnection.close, if_neg fun he => h.resting.enters_iff.mp he hs,
    h.resting.call_of_eq hs]

/-- How `open()` of a connection that is closed ends. -/
theorem Sound.open_state (h : c.Sound) (hs : c.base.state ≠ Direction.up.target) (o : Outcome) :
    (c.open_ o).base.state = .connected ↔ o = .returned :=
  (h.resting.call_state .up o).trans (or_iff_right hs)

/-- What becomes of the stream then. -/
theorem Sound.open_of_ne (h : c.Sound) (hs : c.base.state ≠ Direction.up.target) (o : Outcome) :
    c.open_ o = { c.runOpen o with base := c.base.call .up o } := by
  rw [StreamConnection.open_, if_pos (h.resting.enters_iff.mpr hs)]

/-- **`open()`** -/
theorem Sound.open_ (h : c.Sound) (o : Outcome) :
    (c.open_ o).Sound ∧ (c.OwnsStream → (c.open_ o).OwnsStream) := by
  by_cases hs : c.base.state = Direction.up.target
  · rw [h.open_of_connected hs]
    exact ⟨h, id⟩
  have hnone : c.stream = none :=
    Option.eq_none_iff_forall_not_mem.mpr fun n hn => hs (h.connected n hn).1
  have hrest := h.resting.call .up o
  have hstate := h.resting.call_state .up o
  rw [StreamConnection.open_, if_pos (h.resting.enters_iff.mpr hs)]
  by_cases ho : o = .returned
  · subst ho
    have hup : (c.base.call .up .returned).state = .connected := hstate.mpr (.inr rfl)
    have hclosed : ∀ n < c.created + 1, some c.created ≠ some n → n ∈ c.aclosed := by
      intro n hn hne
      refine h.closed n (lt_of_le_of_ne (Nat.le_of_lt_succ hn) fun heq => hne (heq ▸ rfl)) ?_
      simp [hnone]
    refine ⟨⟨hrest, ?_, hclosed⟩, fun _ => ⟨by simp [runOpen, Outcome.success, hup], hclosed⟩⟩
    rintro n ⟨⟩
    exact ⟨hup, Nat.lt_succ_self _⟩
  · have hsame : c.runOpen o = c := by cases o <;> first | exact absurd rfl ho | rfl
    have hdown : (c.base.call .up o).state ≠ .connected :=
      fun hup => (hstate.mp hup).elim hs ho
    rw [hsame]
    exact ⟨⟨hrest, by simp [hnone], h.closed⟩, fun _ => ⟨by simp [hdown, hnone], h.closed⟩⟩

@[simp] theorem runClose_stream (c : StreamConnection) : c.runClose.stream = none := by
  unfold runClose
  split
  · rfl
  · assumption

/-- Once `_close()` is over there is no stream that is not closed. -/
theorem Sound.runClose_closed (h : c.Sound) :
    ∀ m < c.runClose.created, m ∈ c.runClose.aclosed := by
  unfold runClose
  split
  · next n hn =>
    intro m hm
    by_cases hmn : m = n
    · simp [hmn]
    · have hother : c.stream ≠ some m := fun heq => hmn (Option.some.inj (heq.symm.trans hn))
      exact List.mem_append_left _ (h.closed m hm hother)
  · next hn => exact fun m hm => h.closed m hm (by simp [hn])

theorem closeOutcome_eq :
    c.closeOutcome o = .returned ↔ (c.stream.isSome = true → o = .returned) := by
  unfold closeOutcome
  split
  · next hsome => exact ⟨fun ho _ => ho, fun h => h hsome⟩
  · next hnone => exact ⟨fun _ hsome => absurd hsome hnone, fun _ => rfl⟩

/-- How `close()` of a connection that is open ends. -/
theorem Sound.close_state (h : c.Sound) (hs : c.base.state ≠ Direction.down.target) :
    (c.close o).base.state ≠ .connected ↔ (c.stream.isSome = true → o = .returned) := by
  have hrest := h.resting.call .down (c.closeOutcome o)
  have hcall := h.resting.call_state .down (c.closeOutcome o)
  rw [← closeOutcome_eq]
  exact (hrest.state_ne_iff (d := .up)).trans (hcall.trans (or_iff_right hs))

@[simp] theorem close_created (c : StreamConnection) (o : Outcome) :
    (c.close o).created = c.created := by
  unfold StreamConnection.close runClose
  split
  · split <;> rfl
  · rfl

/-- **`close()`** takes the connection to `DISCONNECTED`, unless `aclose()` fails. -/
theorem Sound.close (h : c.Sound) (o : Outcome) :
    (c.close o).Sound ∧ (c.OwnsStream →
      ((c.close o).OwnsStream ↔ (c.stream.isSome = true → o = .returned))) := by
  by_cases hs : c.base.state = Direction.down.target
  · rw [h.close_of_disconnected hs]
    refine ⟨h, fun hown => ⟨fun _ hsome => ?_, fun _ => hown⟩⟩
    have hup := hown.held.mpr hsome
    exact absurd (hs.symm.trans hup) (by decide)
  rw [StreamConnection.close, if_pos (h.resting.enters_iff.mpr hs)]
  refine ⟨⟨h.resting.call .down _, by simp, fun m hm _ => h.runClose_closed m hm⟩, fun _ => ?_⟩
  rw [← h.close_state hs]
  constructor
  · exact fun hown hup => absurd (hown.held.mp hup) (by simp)
  · exact fun hdown => ⟨iff_of_false hdown (by simp), fun m hm _ => h.runClose_closed m hm⟩

/-- A call of which the connection takes no notice. -/
theorem closesWell_of_aclose (hl : l.aclose = none) : c.ClosesWell l := by
  simp [ClosesWell, hl]

/-- **`read()`** may close the connection. -/
theorem Sound.read (h : c.Sound) (r : Received) (o : Outcome) :
    (c.read r o).Sound ∧ (c.OwnsStream → ((c.read r o).OwnsStream ↔ c.ClosesWell (.read r o))) := by
  have hclose := h.close o
  unfold StreamConnection.read
  split
  · next hn =>
    -- without a stream there is nothing in `close()` that can fail
    refine ⟨hclose.1, fun hown => ?_⟩
    exact iff_of_true ((hclose.2 hown).mpr (by simp [hn])) (by simp [ClosesWell, hn])
  · simpa [ClosesWell, Label.aclose] using hclose
  · simpa [ClosesWell, Label.aclose] using hclose
  · exact ⟨h, fun hown => iff_of_true hown (closesWell_of_aclose rfl)⟩
  · exact ⟨h, fun hown => iff_of_true hown (closesWell_of_aclose rfl)⟩

/-- **One call.** -/
theorem Sound.step (h : c.Sound) (hs : c.step l = some c') :
    c'.Sound ∧ (c.OwnsStream → (c'.OwnsStream ↔ c.ClosesWell l)) := by
  cases l with
  | open_ o =>
    obtain rfl := Option.some.inj hs
    exact ⟨(h.open_ o).1, fun hown => iff_of_true ((h.open_ o).2 hown) (closesWell_of_aclose rfl)⟩
  | close o =>
    obtain rfl := Option.some.inj hs
    simpa [ClosesWell, Label.aclose] using h.close o
  | read r o =>
    obtain rfl := Option.some.inj hs
    exact h.read r o
  | write =>
    obtain rfl := Option.some.inj hs
    exact ⟨h, fun hown => iff_of_true hown (closesWell_of_aclose rfl)⟩

/-- **A connection owns a stream exactly while it is `CONNECTED`, and closes the others, exactly if
`aclose()` never fails.** -/
theorem ownsStream_iff (wrapper : Bool) (ls : List Label) :
    (streamConnection wrapper).Along OwnsStream (streamConnection wrapper).init ls ↔
      (streamConnection wrapper).Guarded ClosesWell (streamConnection wrapper).init ls := by
  have hinit : OwnsStream (init wrapper) := by
    refine ⟨?_, (sound_init wrapper).closed⟩
    cases wrapper <;> decide
  exact Machine.along_iff_guarded_of (sound_init wrapper) hinit fun c l c' hsound hown hst =>
    (hsound.step hst).imp_right fun hiff => hiff hown

/-- `aclose()` raises, so `close()` leaves the connection `CONNECTED`, without a stream. -/
theorem unowned_aclose :
    ¬ ∀ wrapper ls,
      (streamConnection wrapper).Along OwnsStream (streamConnection wrapper).init ls := by
  intro h
  have hlast := (((h false [.open_ .returned, .close .raised]).2 _ rfl).2 _ rfl).here
  exact absurd hlast.held (by decide)

end StreamConnection

end FlockwaveConn
