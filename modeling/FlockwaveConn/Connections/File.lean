import FlockwaveConn.Connections.Base

/-!
# Connections/File — a connection to a file

`FDConnectionBase` keeps in `_file_handle_owned` whether the file object it is attached to should
be closed with the connection.  `_attach()` sets the flag and nothing reads it: `_close()` only
detaches the object, which stays open with all that has been written to it and not flushed.

So each `close()` that has something to close leaves its file open, and in all runs the connection
keeps what it promises only as long as no `open()` has succeeded (`kept_iff_unopened`).  What
becomes of an object that nobody refers to is up to the interpreter, and is not relied on here.
-/

namespace FlockwaveConn

/-! ## File objects -/

/-- A file object that is open for writing. -/
structure FileObject where
  /-- Everything goes to the end of the file. -/
  appends : Bool
  pos : ℕ
  /-- What has been written and is not in the file yet. -/
  buffer : List UInt8
  closed : Bool

/-- Bytes are written into a file, over what is there; a gap is filled with zeros. -/
def overwrite (content : List UInt8) (pos : ℕ) (data : List UInt8) : List UInt8 :=
  (content ++ List.replicate (pos - content.length) 0).take pos ++ data ++
    content.drop (pos + data.length)

namespace FileObject

/-- Where the next byte goes. -/
def offset (content : List UInt8) (f : FileObject) : ℕ :=
  if f.appends then content.length else f.pos

def write (data : List UInt8) (f : FileObject) : FileObject := { f with buffer := f.buffer ++ data }

/-- The file after the first `k` bytes of the buffer have got into it. -/
def spilled (k : ℕ) (content : List UInt8) (f : FileObject) : List UInt8 :=
  overwrite content (f.offset content) (f.buffer.take k)

/-- …and the object. -/
def spill (k : ℕ) (content : List UInt8) (f : FileObject) : FileObject :=
  { f with
    pos := f.offset content + (f.buffer.take k).length
    buffer := f.buffer.drop k }

end FileObject

/-- What the `mode` of a file means to those who write to it. -/
structure FileMode where
  /-- `"w"` -/
  truncates : Bool
  /-- `"a"` -/
  appends : Bool

/-- Where a task is in `write()` or `flush()`. -/
inductive FileCall
  | idle
  /-- `await self._file_object.write(data)` -/
  | writing (n : ℕ) (data : List UInt8)
  /-- `await self._file_object.flush()`, which is the end of a `write()` with `autoflush`. -/
  | flushing (n : ℕ) (data : Option (List UInt8))
  deriving DecidableEq, Repr

/-- A `FileConnection`; its file objects go by the order in which they were opened. -/
structure FileConnection (Task : Type*) where
  base : ConnectionBase Task
  /-- `_file_object` -/
  fileObject : Option ℕ
  /-- `_file_handle_owned` -/
  owned : Bool
  /-- How many objects have been attached, each of them as owned. -/
  opened : ℕ
  object : ℕ → FileObject
  /-- What is in the file. -/
  content : List UInt8
  call : Task → FileCall
  /-- The data of each `write()` that has returned. -/
  written : List (List UInt8)
  /-- The last stretch has ended with the normal return of a `close()`. -/
  justClosed : Bool

namespace FileConnection

variable {Task : Type*}

/-- `FileConnection.__init__`, for a file that may be there already. -/
def init (content : List UInt8) : FileConnection Task where
  base := .init
  fileObject := none
  owned := false
  opened := 0
  object := fun _ => ⟨false, 0, [], false⟩
  content := content
  call := fun _ => .idle
  written := []
  justClosed := false

/-- `_attach()`; an object that `open_file()` returns is not an `int`, so it is owned. -/
def attach (obj : Option ℕ) (c : FileConnection Task) : FileConnection Task :=
  { c with fileObject := obj, owned := obj.isSome }

/-- `_detach()` -/
def detach (c : FileConnection Task) : FileConnection Task := c.attach none

def setObject (n : ℕ) (f : FileObject) (c : FileConnection Task) : FileConnection Task :=
  { c with object := Function.update c.object n f }

/-- Bytes of a buffer get into the file. -/
def spill (n k : ℕ) (c : FileConnection Task) : FileConnection Task :=
  { c.setObject n ((c.object n).spill k c.content) with
    content := (c.object n).spilled k c.content }

/-- The connection goes through a step of `open()` or `close()`. -/
def moveTo (b : ConnectionBase Task) (justClosed : Bool) (c : FileConnection Task) :
    FileConnection Task :=
  { c with base := b, justClosed := justClosed }

/-- The rest of `_open()`, once `open_file()` has returned. -/
def runOpen (mode : FileMode) (c : FileConnection Task) : FileConnection Task :=
  { (c.setObject c.opened ⟨mode.appends, 0, [], false⟩).attach (some c.opened) with
    content := if mode.truncates then [] else c.content
    opened := c.opened + 1 }

variable [DecidableEq Task]

/-- `_close()` has no wait in it, so `close()` ends with it. -/
def runClose (t : Task) (c : FileConnection Task) : FileConnection Task :=
  match c.fileObject with
  -- the `assert` fails
  | none => c.moveTo (c.base.leave .down .raised t) false
  | some _ => c.detach.moveTo (c.base.leave .down .returned t) true

/-- A task that has just gone into `_close()` runs on in it. -/
def proceed (t : Task) (c : FileConnection Task) : FileConnection Task :=
  match c.base.place t with
  | .inside .down => c.runClose t
  | _ => c

/-- A task goes on in `write()` or `flush()`, or leaves it. -/
def setCall (t : Task) (p : FileCall) (c : FileConnection Task) : FileConnection Task :=
  { c with call := Function.update c.call t p }

/-- `flush()`, up to its wait, alone or at the end of a `write()`. -/
def flush (t : Task) (data : Option (List UInt8)) (c : FileConnection Task) :
    FileConnection Task :=
  match c.fileObject with
  | none => { c.setCall t .idle with written := c.written ++ data.toList }
  | some n => c.setCall t (.flushing n data)

/-- `write()`, up to its first wait. -/
def write (t : Task) (data : List UInt8) (c : FileConnection Task) : FileConnection Task :=
  match c.fileObject with
  -- the `assert` fails
  | none => c
  | some n => c.setCall t (.writing n data)

/-- `self._file_object.write(data)` has returned. -/
def wrote (autoflush : Bool) (t : Task) (n : ℕ) (data : List UInt8) (c : FileConnection Task) :
    FileConnection Task :=
  let c := c.setObject n ((c.object n).write data)
  if autoflush then c.flush t (some data)
  else { c.setCall t .idle with written := c.written ++ [data] }

/-- `self._file_object.flush()` has returned. -/
def flushed (t : Task) (n : ℕ) (data : Option (List UInt8)) (c : FileConnection Task) :
    FileConnection Task :=
  { (c.spill n (c.object n).buffer.length).setCall t .idle with
    written := c.written ++ data.toList }

/-- The stretches of all tasks. -/
inductive Label (Task : Type*)
  /-- A task calls `open()` or `close()`. -/
  | call (d : Direction) (t : Task)
  | resume (t : Task)
  | interrupt (t : Task)
  /-- `open_file()` returns. -/
  | opened (t : Task)
  | openFails (t : Task) (cancelled : Bool)
  | write (t : Task) (data : List UInt8)
  | flush (t : Task)
  /-- The wait of a `write()` or a `flush()` ends, with an exception or without. -/
  | ends (t : Task) (raises : Bool)
  /-- A part of a buffer gets into the file. -/
  | spill (n k : ℕ)

/-- One stretch. -/
def step (autoflush : Bool) (mode : FileMode) (c : FileConnection Task) :
    Label Task → Option (FileConnection Task)
  | .call d t =>
    -- a `close()` may have nothing to do
    (c.base.step (.call d t)).map fun b =>
      (c.moveTo b (decide (d = .down ∧ b.place t = .outside))).proceed t
  | .resume t =>
    (c.base.step (.resume t)).map fun b =>
      (c.moveTo b (decide (c.base.place t = .joined .down true))).proceed t
  | .interrupt t => (c.base.step (.interrupt t)).map fun b => c.moveTo b false
  | .opened t =>
    if c.base.place t = .inside .up then
      some ((c.runOpen mode).moveTo (c.base.leave .up .returned t) false)
    else none
  | .openFails t cancelled =>
    if c.base.place t = .inside .up then
      some (c.moveTo (c.base.leave .up (if cancelled then .cancelled else .raised) t) false)
    else none
  | .write t data =>
    if c.call t = .idle then some ((c.write t data).moveTo c.base false) else none
  | .flush t => if c.call t = .idle then some ((c.flush t none).moveTo c.base false) else none
  | .ends t raises =>
    match c.call t, raises with
    | .idle, _ => none
    | _, true => some ((c.setCall t .idle).moveTo c.base false)
    | .writing n data, false => some ((c.wrote autoflush t n data).moveTo c.base false)
    | .flushing n data, false => some ((c.flushed t n data).moveTo c.base false)
  | .spill n k => some ((c.spill n k).moveTo c.base false)

end FileConnection

/-- **A file connection and its users.** -/
def fileConnection (Task : Type*) [DecidableEq Task] (autoflush : Bool) (mode : FileMode)
    (content : List UInt8) : Machine (FileConnection Task) (FileConnection.Label Task) where
  init := .init content
  step := FileConnection.step autoflush mode

namespace FileConnection

variable {Task : Type*} {c c' : FileConnection Task}

/-- **What `close()` promises when it returns**: each object that the connection owned is closed,
and what has been written is in the file. -/
def Kept (c : FileConnection Task) : Prop :=
  c.justClosed = true →
    (∀ n < c.opened, (c.object n).closed = true) ∧ ∀ data ∈ c.written, data <:+: c.content

/-- No `open()` has succeeded when a `close()` returns. -/
def Unopened (c : FileConnection Task) : Prop := c.justClosed = true → c.opened = 0

/-- **The invariant of all runs**: nothing closes a file object, and nothing is written before there
is one. -/
structure Sound (c : FileConnection Task) : Prop where
  unclosed : ∀ n, (c.object n).closed = false
  fresh : c.opened = 0 → c.fileObject = none ∧ c.written = [] ∧ ∀ t, c.call t = .idle

theorem sound_init (content : List UInt8) : Sound (init content : FileConnection Task) :=
  ⟨fun _ => rfl, fun _ => ⟨rfl, rfl, fun _ => rfl⟩⟩

/-- **Where nothing has been opened there is nothing to keep, and what has been opened is open.** -/
theorem Sound.kept_iff (h : c.Sound) : c.Kept ↔ c.Unopened := by
  refine forall_congr' fun _ => ⟨fun hkept => ?_, fun hopened => ?_⟩
  · by_contra hne
    have hclosed := hkept.1 0 (Nat.pos_of_ne_zero hne)
    exact absurd ((h.unclosed 0).symm.trans hclosed) (by simp)
  · obtain ⟨-, hwritten, -⟩ := h.fresh hopened
    simp [hopened, hwritten]

/-! ## The stretches -/

/-- A file object changes, and is as open as before. -/
theorem Sound.setObject (h : c.Sound) {n : ℕ} {f : FileObject} (hf : f.closed = false) :
    (c.setObject n f).Sound := by
  refine ⟨fun m => ?_, h.fresh⟩
  by_cases hm : m = n
  · subst hm
    simpa [FileConnection.setObject] using hf
  · simpa [FileConnection.setObject, hm] using h.unclosed m

theorem Sound.spill (h : c.Sound) (n k : ℕ) : (c.spill n k).Sound :=
  have hs := h.setObject (n := n) (f := (c.object n).spill k c.content) (h.unclosed n)
  ⟨hs.unclosed, hs.fresh⟩

theorem Sound.moveTo (h : c.Sound) (b : ConnectionBase Task) (justClosed : Bool) :
    (c.moveTo b justClosed).Sound := ⟨h.unclosed, h.fresh⟩

theorem Sound.detach (h : c.Sound) : c.detach.Sound :=
  ⟨h.unclosed, fun hz => ⟨rfl, (h.fresh hz).2⟩⟩

/-- Where there is an object something has been opened. -/
theorem Sound.opened_ne (h : c.Sound) {n : ℕ} (hn : c.fileObject = some n) : c.opened ≠ 0 :=
  fun hz => absurd ((h.fresh hz).1.symm.trans hn) (by simp)

theorem Sound.runOpen (h : c.Sound) (mode : FileMode) : (c.runOpen mode).Sound :=
  ⟨(h.setObject (n := c.opened) (f := ⟨mode.appends, 0, [], false⟩) rfl).unclosed,
    fun hz => absurd hz (Nat.succ_ne_zero _)⟩

/-- `write()`s return. -/
theorem Sound.append (h : c.Sound) (hne : c.opened ≠ 0) (ds : List (List UInt8)) :
    Sound { c with written := c.written ++ ds } :=
  ⟨h.unclosed, fun hz => absurd hz hne⟩

variable [DecidableEq Task] {t : Task}

/-- **`_close()`** lets go of the object and does nothing to it. -/
theorem Sound.proceed (h : c.Sound) (t : Task) : (c.proceed t).Sound := by
  unfold FileConnection.proceed
  split
  · unfold FileConnection.runClose
    split
    · exact h.moveTo _ _
    · exact h.detach.moveTo _ _
  · exact h

theorem Sound.setCall (h : c.Sound) {p : FileCall} (hp : c.opened = 0 → p = .idle) :
    (c.setCall t p).Sound := by
  refine ⟨h.unclosed, fun hz => ?_⟩
  obtain ⟨hfile, hwritten, hcall⟩ := h.fresh hz
  refine ⟨hfile, hwritten, fun u => ?_⟩
  by_cases hu : u = t
  · subst hu
    simpa [FileConnection.setCall] using hp hz
  · simpa [FileConnection.setCall, hu] using hcall u

/-- **`flush()`**, and the `write()` that it ends. -/
theorem Sound.flush (h : c.Sound) {data : Option (List UInt8)} (hd : c.opened = 0 → data = none) :
    (c.flush t data).Sound := by
  unfold FileConnection.flush
  split
  · by_cases hz : c.opened = 0
    · have hsame : c.written ++ data.toList = c.written := by simp [hd hz]
      rw [hsame]
      exact h.setCall fun _ => rfl
    · exact (h.setCall fun _ => rfl).append hz _
  · next n hn => exact h.setCall fun hz => absurd hz (h.opened_ne hn)

theorem Sound.write (h : c.Sound) (data : List UInt8) : (c.write t data).Sound := by
  unfold FileConnection.write
  split
  · exact h
  · next n hn => exact h.setCall fun hz => absurd hz (h.opened_ne hn)

theorem Sound.wrote (h : c.Sound) (hne : c.opened ≠ 0) (autoflush : Bool) (n : ℕ)
    (data : List UInt8) : (c.wrote autoflush t n data).Sound := by
  have hs := h.setObject (n := n) (f := (c.object n).write data) (h.unclosed n)
  unfold FileConnection.wrote
  split
  · exact hs.flush fun hz => absurd hz hne
  · exact (hs.setCall fun _ => rfl).append hne _

theorem Sound.flushed (h : c.Sound) (hne : c.opened ≠ 0) (n : ℕ) (data : Option (List UInt8)) :
    (c.flushed t n data).Sound :=
  ((h.spill n _).setCall fun _ => rfl).append hne _

/-- **One stretch.** -/
theorem Sound.step {autoflush : Bool} {mode : FileMode} {l : Label Task} (h : c.Sound)
    (hs : c.step autoflush mode l = some c') : c'.Sound := by
  cases l with
  | call d t | resume t =>
    obtain ⟨b, -, rfl⟩ := Option.map_eq_some_iff.mp hs
    exact (h.moveTo _ _).proceed t
  | interrupt t =>
    obtain ⟨b, -, rfl⟩ := Option.map_eq_some_iff.mp hs
    exact h.moveTo _ _
  | opened t =>
    obtain ⟨-, ⟨⟩⟩ := Option.ite_none_right_eq_some.mp hs
    exact (h.runOpen mode).moveTo _ _
  | openFails t cancelled =>
    obtain ⟨-, ⟨⟩⟩ := Option.ite_none_right_eq_some.mp hs
    exact h.moveTo _ _
  | write t data =>
    obtain ⟨-, ⟨⟩⟩ := Option.ite_none_right_eq_some.mp hs
    exact (h.write data).moveTo _ _
  | flush t =>
    obtain ⟨-, ⟨⟩⟩ := Option.ite_none_right_eq_some.mp hs
    exact (h.flush fun _ => rfl).moveTo _ _
  | ends t raises =>
    have hne : c.call t ≠ .idle → c.opened ≠ 0 := fun hcall hz => hcall ((h.fresh hz).2.2 t)
    simp only [FileConnection.step] at hs
    split at hs
    · cases hs
    · obtain rfl := Option.some.inj hs
      exact (h.setCall fun _ => rfl).moveTo _ _
    · next n data hcall =>
      obtain rfl := Option.some.inj hs
      exact (h.wrote (hne (by simp [hcall])) autoflush n data).moveTo _ _
    · next n data hcall =>
      obtain rfl := Option.some.inj hs
      exact (h.flushed (hne (by simp [hcall])) n data).moveTo _ _
  | spill n k =>
    obtain rfl := Option.some.inj hs
    exact (h.spill n k).moveTo _ _

/-- **A file connection closes and flushes what it owns exactly if no `close()` returns after an
`open()` has succeeded.** -/
theorem kept_iff_unopened (Task : Type*) [DecidableEq Task] (autoflush : Bool) (mode : FileMode)
    (content : List UInt8) (ls : List (Label Task)) :
    (fileConnection Task autoflush mode content).Along Kept (.init content) ls ↔
      (fileConnection Task autoflush mode content).Along Unopened (.init content) ls := by
  have hany := Machine.guarded_anyStep (M := fileConnection Task autoflush mode content)
    (.init content) ls
  have hsound := hany.along (sound_init content) fun c l c' hc _ hst => hc.step hst
  constructor
  · exact fun h => (h.and hsound).mono fun c hc => hc.2.kept_iff.mp hc.1
  · exact fun h => (h.and hsound).mono fun c hc => hc.2.kept_iff.mpr hc.1

/-- What has been written without a flush is not in the file after `close()`. -/
theorem lost_unflushed :
    ¬ ∀ autoflush mode content ls,
      (fileConnection (Fin 1) autoflush mode content).Along Kept (.init content) ls := by
  intro h
  have hopened := ((h false ⟨true, false⟩ [] [.call .up 0, .opened 0, .write 0 [1], .ends 0 false,
    .call .down 0]).2 _ rfl).2 _ rfl
  have hlast := ((hopened.2 _ rfl).2 _ rfl).2 _ rfl
  exact absurd ((hlast.here rfl).2 [1] List.mem_cons_self) (by decide)

end FileConnection

end FlockwaveConn
