import FlockwaveConn.Connections.Sequential

/-!
# Connections/FileHandle — what `FDConnectionBase` is attached to

`_attach()` takes a handle, a file object of one kind or the other, or `None`.  All that can fail in
it comes first: `os.fdopen()`, `fileno()` and `wrap_file()`.  From there on it sets the three fields
and sends `file_handle_changed` if the handle is another one.  So a failed `open()` changes nothing,
and the handle and the object come and go together, with the connection (`attach_coherent`).
-/

/-! ## Signals with an old and a new value -/

namespace List

variable {α : Type*} {a b c : α} {xs : List (α × α)}

/-- The changes lead from `a` to `b`, each to another value and from the one before. -/
def Chained : α → List (α × α) → α → Prop
  | a, [], b => a = b
  | a, (x, y) :: xs, b => x = a ∧ x ≠ y ∧ Chained y xs b

theorem Chained.concat (h : Chained a xs b) (hne : b ≠ c) : Chained a (xs ++ [(b, c)]) c := by
  induction xs generalizing a with
  | nil =>
    obtain rfl := h
    exact ⟨rfl, hne, rfl⟩
  | cons x xs ih => exact ⟨h.1, h.2.1, ih h.2.2⟩

end List

namespace FlockwaveConn

/-- A file object. -/
structure FileLike where
  /-- `id(obj)` -/
  identity : ℕ
  /-- It is asynchronous. -/
  hasAclose : Bool
  /-- What `fileno()` returns, unless it raises. -/
  fileno : Option ℤ
  deriving DecidableEq, Repr

/-- An argument of `_attach()`. -/
inductive Attachment
  | none
  | handle (fd : ℤ)
  | object (obj : FileLike)
  deriving DecidableEq, Repr

/-- How `_get_file_object_during_open()` ends. -/
inductive Got
  | returned (x : Attachment)
  | raised
  | cancelled
  deriving DecidableEq, Repr

/-- The functions that make file objects, where they do not raise. -/
structure Conversions where
  fdopen : ℤ → Option FileLike
  wrapFile : FileLike → Option FileLike

/-- An `FDConnectionBase`, of any subclass. -/
structure FDConnectionBase where
  base : ConnectionBase Unit
  fileHandle : Option ℤ
  fileHandleOwned : Bool
  fileObject : Option FileLike
  /-- The `file_handle_changed` signals, each with the old and the new handle. -/
  changes : List (Option ℤ × Option ℤ)

namespace FDConnectionBase

def init : FDConnectionBase := ⟨.init, none, false, none, []⟩

/-- `_set_file_handle()` -/
def setFileHandle (value : Option ℤ) (c : FDConnectionBase) : FDConnectionBase :=
  if c.fileHandle = value then c else { c with fileHandle := value }

/-- `_set_file_object()`; file objects are compared by identity. -/
def setFileObject (value : Option FileLike) (c : FDConnectionBase) : FDConnectionBase :=
  if c.fileObject = value then c else { c with fileObject := value }

/-- `handle, obj, handle_owned = …`, unless a conversion raises. -/
def convert (env : Conversions) : Attachment → Option (Option ℤ × Option FileLike × Bool)
  | .none => some (none, none, false)
  | .handle fd => (env.fdopen fd).map fun obj => (some fd, some obj, false)
  | .object obj => obj.fileno.map fun fd => (some fd, some obj, true)

/-- `if obj is not None and not hasattr(obj, "aclose"): obj = wrap_file(obj)` -/
def wrap (env : Conversions) : Option FileLike → Option (Option FileLike)
  | some obj => if obj.hasAclose then some (some obj) else (env.wrapFile obj).map some
  | none => some none

/-- The rest of `_attach()`, which does not fail. -/
def assign (handle : Option ℤ) (obj : Option FileLike) (handleOwned : Bool)
    (c : FDConnectionBase) : FDConnectionBase :=
  let c' : FDConnectionBase :=
    { (c.setFileHandle handle).setFileObject obj with fileHandleOwned := handleOwned }
  if c.fileHandle ≠ c'.fileHandle then
    { c' with changes := c'.changes ++ [(c.fileHandle, c'.fileHandle)] }
  else c'

/-- `_attach()`, unless it raises. -/
def attach (env : Conversions) (x : Attachment) (c : FDConnectionBase) :
    Option FDConnectionBase := do
  let (handle, obj, handleOwned) ← convert env x
  let obj ← wrap env obj
  return c.assign handle obj handleOwned

/-- `_open()` -/
def runOpen (env : Conversions) (got : Got) (c : FDConnectionBase) :
    FDConnectionBase × Outcome :=
  match got with
  | .raised => (c, .raised)
  | .cancelled => (c, .cancelled)
  -- "No file object was returned during open()"
  | .returned .none => (c, .raised)
  | .returned x =>
    match c.attach env x with
    | some c => (c, .returned)
    | none => (c, .raised)

/-- `_close()`; nothing is converted in `_detach()`. -/
def runClose (env : Conversions) (c : FDConnectionBase) : FDConnectionBase × Outcome :=
  match c.fileObject with
  -- the `assert` fails
  | none => (c, .raised)
  | some _ =>
    match c.attach env .none with
    | some c => (c, .returned)
    | none => (c, .raised)

/-- A call that goes into `run` if it is not over before. -/
def call (d : Direction) (run : FDConnectionBase → FDConnectionBase × Outcome)
    (c : FDConnectionBase) : FDConnectionBase :=
  let (c', o) := if c.base.Enters d then run c else (c, .returned)
  { c' with base := c.base.call d o }

/-- `open()` or `close()`. -/
inductive Label
  | open_ (env : Conversions) (got : Got)
  | close (env : Conversions)

/-- One call, from its beginning to its end. -/
def step (c : FDConnectionBase) : Label → Option FDConnectionBase
  | .open_ env got => some (c.call .up (runOpen env got))
  | .close env => some (c.call .down (runClose env))

end FDConnectionBase

/-- **A connection with a file handle, opened and closed.** -/
def fdConnection : Machine FDConnectionBase FDConnectionBase.Label where
  init := .init
  step := FDConnectionBase.step

namespace FDConnectionBase

variable {c c' : FDConnectionBase} {l : Label} {env : Conversions}

/-- **The books are right**: there are a handle and an object exactly while the connection is
`CONNECTED`, and the signals lead to the present handle. -/
structure Coherent (c : FDConnectionBase) : Prop where
  connected : c.base.state = .connected ↔ c.fileObject ≠ none
  object : c.fileObject ≠ none ↔ c.fileHandle ≠ none
  changes : c.changes.Chained none c.fileHandle

/-- An `open()` that leads nowhere leaves everything as it was. -/
def FailsCleanly (c : FDConnectionBase) (l : Label) (c' : FDConnectionBase) : Prop :=
  ∀ env got, l = .open_ env got → c'.base.state ≠ .connected →
    c'.fileHandle = c.fileHandle ∧ c'.fileObject = c.fileObject ∧
      c'.fileHandleOwned = c.fileHandleOwned ∧ c'.changes = c.changes

/-! ## `_attach()` -/

theorem setFileHandle_eq (value : Option ℤ) (c : FDConnectionBase) :
    c.setFileHandle value = { c with fileHandle := value } := by
  unfold setFileHandle
  split
  · next h => rw [← h]
  · rfl

theorem setFileObject_eq (value : Option FileLike) (c : FDConnectionBase) :
    c.setFileObject value = { c with fileObject := value } := by
  unfold setFileObject
  split
  · next h => rw [← h]
  · rfl

/-- **What the connection is attached to then.** -/
theorem assign_eq (handle : Option ℤ) (obj : Option FileLike) (handleOwned : Bool)
    (c : FDConnectionBase) :
    c.assign handle obj handleOwned =
      { base := c.base, fileHandle := handle, fileHandleOwned := handleOwned, fileObject := obj
        changes := if c.fileHandle = handle then c.changes
          else c.changes ++ [(c.fileHandle, handle)] } := by
  unfold assign
  rw [setFileObject_eq, setFileHandle_eq]
  by_cases h : c.fileHandle = handle <;> simp [h]

@[simp] theorem assign_fileHandle (handle : Option ℤ) (obj : Option FileLike) (handleOwned : Bool)
    (c : FDConnectionBase) : (c.assign handle obj handleOwned).fileHandle = handle := by
  rw [assign_eq]

@[simp] theorem assign_fileObject (handle : Option ℤ) (obj : Option FileLike) (handleOwned : Bool)
    (c : FDConnectionBase) : (c.assign handle obj handleOwned).fileObject = obj := by
  rw [assign_eq]

theorem assign_changes (handle : Option ℤ) (obj : Option FileLike) (handleOwned : Bool)
    (h : c.changes.Chained none c.fileHandle) :
    (c.assign handle obj handleOwned).changes.Chained none
      (c.assign handle obj handleOwned).fileHandle := by
  rw [assign_eq]
  dsimp only
  split
  · next heq => rwa [← heq]
  · next hne => exact h.concat hne

theorem exists_of_wrap {obj : FileLike} {wrapped : Option FileLike}
    (h : wrap env (some obj) = some wrapped) : ∃ obj', wrapped = some obj' := by
  simp only [wrap] at h
  split at h
  · exact ⟨obj, (Option.some.inj h).symm⟩
  · obtain ⟨obj', -, rfl⟩ := Option.map_eq_some_iff.mp h
    exact ⟨obj', rfl⟩

/-- **An argument other than `None`** brings a handle and an object. -/
theorem attach_of_ne {x : Attachment} (hx : x ≠ .none) (h : c.attach env x = some c') :
    ∃ fd obj owned, c' = c.assign (some fd) (some obj) owned := by
  obtain ⟨⟨handle, obj, owned⟩, hconvert, h⟩ := Option.bind_eq_some_iff.mp h
  obtain ⟨wrapped, hwrap, h⟩ := Option.bind_eq_some_iff.mp h
  obtain rfl := Option.some.inj h
  cases x with
  | none => exact absurd rfl hx
  | handle fd =>
    obtain ⟨file, -, ⟨⟩⟩ := Option.map_eq_some_iff.mp hconvert
    obtain ⟨obj', rfl⟩ := exists_of_wrap hwrap
    exact ⟨fd, obj', _, rfl⟩
  | object file =>
    obtain ⟨fd, -, ⟨⟩⟩ := Option.map_eq_some_iff.mp hconvert
    obtain ⟨obj', rfl⟩ := exists_of_wrap hwrap
    exact ⟨fd, obj', _, rfl⟩

/-! ## `_open()` and `_close()` -/

/-- **`_open()`** attaches something, or it fails and nothing has happened. -/
theorem runOpen_cases (env : Conversions) (got : Got) (c : FDConnectionBase) :
    (∃ o, o ≠ .returned ∧ c.runOpen env got = (c, o)) ∨
      ∃ fd obj owned, c.runOpen env got = (c.assign (some fd) (some obj) owned, .returned) := by
  unfold runOpen
  split
  · exact .inl ⟨.raised, by decide, rfl⟩
  · exact .inl ⟨.cancelled, by decide, rfl⟩
  · exact .inl ⟨.raised, by decide, rfl⟩
  · next x hx =>
    split
    · next c' hattach =>
      obtain ⟨fd, obj, owned, rfl⟩ := attach_of_ne (fun h => hx (h ▸ rfl)) hattach
      exact .inr ⟨fd, obj, owned, rfl⟩
    · exact .inl ⟨.raised, by decide, rfl⟩

/-- **`_close()`** of a connection with an object does not fail. -/
theorem runClose_of_ne (env : Conversions) (h : c.fileObject ≠ none) :
    c.runClose env = (c.assign none none false, .returned) := by
  obtain ⟨obj, hobj⟩ := Option.ne_none_iff_exists'.mp h
  rw [runClose, hobj]
  rfl

/-! ## One call -/

/-- Between two calls. -/
structure Sound (c : FDConnectionBase) : Prop extends Coherent c where
  resting : c.base.Resting

theorem sound_init : Sound init where
  connected := by decide
  object := by decide
  changes := rfl
  resting := ConnectionBase.resting_init

variable {d : Direction} {run : FDConnectionBase → FDConnectionBase × Outcome}

/-- A call that has nothing to do. -/
theorem Sound.call_of_eq (h : Sound c) (hs : c.base.state = d.target) : c.call d run = c := by
  rw [FDConnectionBase.call, if_neg fun he => h.resting.enters_iff.mp he hs]
  dsimp only
  rw [h.resting.call_of_eq hs]

/-- …and one that goes into `_open()` or `_close()`. -/
theorem Sound.call_of_ne (h : Sound c) (hs : c.base.state ≠ d.target) {o : Outcome}
    (hrun : run c = (c', o)) : c.call d run = { c' with base := c.base.call d o } := by
  rw [FDConnectionBase.call, if_pos (h.resting.enters_iff.mpr hs), hrun]

theorem Sound.open_ (h : Sound c) (env : Conversions) (got : Got) :
    Sound (c.call .up (runOpen env got)) ∧
      FailsCleanly c (.open_ env got) (c.call .up (runOpen env got)) := by
  by_cases hs : c.base.state = Direction.up.target
  · rw [h.call_of_eq hs]
    exact ⟨h, fun _ _ _ _ => ⟨rfl, rfl, rfl, rfl⟩⟩
  obtain ⟨o, ho, hrun⟩ | ⟨fd, obj, owned, hrun⟩ := runOpen_cases env got c
  · rw [h.call_of_ne hs hrun]
    have hdown : (c.base.call .up o).state ≠ .connected := fun hup =>
      ((h.resting.call_state .up o).mp hup).elim hs ho
    refine ⟨⟨⟨?_, h.object, h.changes⟩, h.resting.call .up o⟩, fun _ _ _ _ => ⟨rfl, rfl, rfl, rfl⟩⟩
    exact iff_of_false hdown (mt h.connected.mpr hs)
  · rw [h.call_of_ne hs hrun]
    have hup : (c.base.call .up .returned).state = .connected :=
      (h.resting.call_state .up .returned).mpr (.inr rfl)
    refine ⟨⟨⟨?_, ?_, ?_⟩, h.resting.call .up .returned⟩, fun _ _ _ hdown => absurd hup hdown⟩
    · exact iff_of_true hup (by simp)
    · simp
    · exact assign_changes (some fd) (some obj) owned h.changes

theorem Sound.close (h : Sound c) (env : Conversions) :
    Sound (c.call .down (runClose env)) := by
  by_cases hs : c.base.state = Direction.down.target
  · rwa [h.call_of_eq hs]
  have hup : c.base.state = .connected := (h.resting.state_ne_iff (d := .down)).mp hs
  rw [h.call_of_ne hs (runClose_of_ne env (h.connected.mp hup))]
  have hrest := h.resting.call .down .returned
  have hdown : (c.base.call .down .returned).state ≠ .connected :=
    (hrest.state_ne_iff (d := .up)).mpr ((h.resting.call_state .down .returned).mpr (.inr rfl))
  refine ⟨⟨?_, ?_, ?_⟩, hrest⟩
  · exact iff_of_false hdown (by simp)
  · simp
  · exact assign_changes none none false h.changes

theorem Sound.step (h : Sound c) (hs : c.step l = some c') : Sound c' ∧ FailsCleanly c l c' := by
  cases l with
  | open_ env got =>
    obtain rfl := Option.some.inj hs
    exact h.open_ env got
  | close env =>
    obtain rfl := Option.some.inj hs
    exact ⟨h.close env, fun _ _ hl => by cases hl⟩

/-- **The books are right whenever no call is in progress, and a failed `open()` changes nothing**,
whatever the subclass and the conversions do. -/
theorem attach_coherent (ls : List Label) :
    fdConnection.Along Coherent init ls ∧ fdConnection.Throughout FailsCleanly init ls := by
  have hany : fdConnection.Guarded Machine.anyStep init ls := Machine.guarded_anyStep init ls
  constructor
  · exact (hany.along sound_init fun _ _ _ h _ hs => (h.step hs).1).mono fun _ h => h.toCoherent
  · exact hany.throughout sound_init fun _ _ _ h _ hs => h.step hs

end FDConnectionBase

end FlockwaveConn
