import FlockwaveConn.Connections.UnixSocket

/-!
# Connections/UnixThreads — listeners that are created by several threads

`UnixSocketListener.create()` runs `_create()` in a thread of its own, so the system calls of
several creations mix, and mix with those of a listener that closes in the main thread.  They share
the file system, and the mask of the process.  A call that nobody interrupts is one of the creations
of `UnixSockets` (`runCreate_refines`).

The renaming makes the creations look as if they happened one by one, and a closing listener spares
the sockets of others, as long as nobody renames a socket to the path between the look that the
closing listener takes at it and its `unlink()` (`orderly_along`).

The mask is given back in the end as long as the call that found it unchanged is the last of those
that overlap to give it back (`umask_iff`).
-/

namespace FlockwaveConn

/-- The arguments of a call of `_create()`, and the digits that `uuid4()` gives it. -/
structure CreateCall where
  path : FilePath
  hex : FilePath
  mode : Mode
  deriving DecidableEq, Repr

/-- `tmp_path` -/
def CreateCall.tmp (x : CreateCall) : FilePath := UnixSockets.tmpPath x.path x.hex

/-- A file and its bits; a socket goes by the number of the call that has created it. -/
structure SharedFile extends File where
  mode : Mode
  deriving DecidableEq, Repr

/-- What a call of `_create()` is to do next. -/
inductive CreateStage
  | idle
  /-- `os.path.exists(path)` -/
  | exists_
  /-- `os.stat(path)` -/
  | stat
  /-- `socket(AF_UNIX)` -/
  | socket
  /-- `os.umask(0o777)` -/
  | umask
  /-- `sock.bind(tmp_path)` -/
  | bind (oldMask : Mode)
  /-- `os.umask(old_mask)`, after a `bind()` that has succeeded or not. -/
  | giveBack (oldMask : Mode) (bound : Bool)
  /-- `os.stat(tmp_path)` -/
  | statTemporary
  /-- `os.chmod(tmp_path, mode)` -/
  | chmod (inode : ℕ)
  /-- `sock.listen(backlog)` -/
  | listen (inode : ℕ)
  /-- `os.rename(tmp_path, path)` -/
  | rename (inode : ℕ)
  /-- `os.unlink(tmp_path)`, of the `except` clause. -/
  | unlink
  | returned (inode : ℕ)
  | raised
  deriving DecidableEq, Repr

namespace CreateStage

/-- The mask that the call is to give back. -/
def saved : CreateStage → Option Mode
  | bind oldMask | giveBack oldMask _ => some oldMask
  | _ => none

/-- The socket has its temporary name. -/
def drafts : CreateStage → Bool
  | giveBack _ true | statTemporary | chmod _ | listen _ | rename _ | unlink => true
  | _ => false

/-- The number that `os.stat(tmp_path)` has shown. -/
def inode : CreateStage → Option ℕ
  | chmod i | listen i | rename i | returned i => some i
  | _ => none

/-- The file at the path is known to be a socket, or there is none. -/
def checked : CreateStage → Bool
  | idle | exists_ | stat | raised => false
  | _ => true

/-- A call that has a socket has looked at the path. -/
theorem drafts_of_not_checked {st : CreateStage} (h : st.checked = false) : st.drafts = false := by
  cases st with
  | idle | exists_ | stat | raised => rfl
  | _ => cases h

/-- `sock.listen()` is over. -/
def listens : CreateStage → Bool
  | rename _ | returned _ => true
  | _ => false

/-- A call gets from one stage to the other, and nothing else happens. -/
structure Goes (st st' : CreateStage) : Prop where
  running : ∀ i, st ≠ returned i
  goesOn : ∀ i, st' ≠ returned i
  keeps : ∀ m b, st ≠ giveBack m b
  saved : st'.saved = st.saved
  drafts : st'.drafts = st.drafts

end CreateStage

/-- What a listener is to do next in `aclose()`. -/
inductive CloseStage
  /-- `aclose()` has not been called. -/
  | open_
  /-- `s.connect(self.path)`, of `_close()`; the socket of the listener is closed. -/
  | connect
  /-- `os.stat(self.path)`, after a `ConnectionRefusedError`. -/
  | stat
  /-- `os.unlink(self.path)` -/
  | unlink
  | closed
  /-- A system call has failed in another way, and `_close()` ignores that. -/
  | abandoned
  deriving DecidableEq, Repr

/-- The path has refused the listener, which is not done with it. -/
def CloseStage.looks : CloseStage → Bool
  | stat | unlink => true
  | _ => false

/-- The file system, the mask of the process, and the calls and the listeners that have come out of
them. -/
structure UnixThreads where
  files : FilePath → Option SharedFile
  umask : Mode
  stage : ℕ → CreateStage
  closing : ℕ → CloseStage
  /-- The call that was the last to rename its socket to a path. -/
  latest : FilePath → Option ℕ

namespace UnixThreads

/-- One system call, or the beginning of a method. -/
inductive Label
  /-- Call `c` of `_create()` begins. -/
  | create (c : ℕ)
  /-- The next system call of call `c`, with what goes wrong and the inode of a new file. -/
  | run (c : ℕ) (fault : Bool) (inode : ℕ)
  /-- `aclose()` of the listener that call `c` has returned, up to `_close()`. -/
  | aclose (c : ℕ)
  /-- The next system call of its `_close()`. -/
  | close (c : ℕ) (fault : Bool)

/-- What is in the file system before the first call. -/
def init (leftovers : FilePath → Option Leftover) (bits umask : Mode) : UnixThreads where
  files := fun p => (leftovers p).map fun x => ⟨x.file, bits⟩
  umask := umask
  stage := fun _ => .idle
  closing := fun _ => .open_
  latest := fun _ => none

/-- A call goes on. -/
def setStage (c : ℕ) (st : CreateStage) (s : UnixThreads) : UnixThreads :=
  { s with stage := Function.update s.stage c st }

/-- A listener goes on with its `aclose()`. -/
def setClosing (c : ℕ) (st : CloseStage) (s : UnixThreads) : UnixThreads :=
  { s with closing := Function.update s.closing c st }

/-- There is another file under a name, or none any more. -/
def setFile (p : FilePath) (f : Option SharedFile) (s : UnixThreads) : UnixThreads :=
  { s with files := Function.update s.files p f }

section

variable (s : UnixThreads) (c k : ℕ) (st : CreateStage) (cl : CloseStage) (p q : FilePath)
  (f : Option SharedFile)

@[simp] theorem setStage_stage :
    (s.setStage c st).stage k = if k = c then st else s.stage k := Function.update_apply ..

@[simp] theorem setStage_files : (s.setStage c st).files = s.files := rfl

@[simp] theorem setStage_closing : (s.setStage c st).closing = s.closing := rfl

@[simp] theorem setStage_latest : (s.setStage c st).latest = s.latest := rfl

@[simp] theorem setClosing_closing :
    (s.setClosing c cl).closing k = if k = c then cl else s.closing k := Function.update_apply ..

@[simp] theorem setClosing_files : (s.setClosing c cl).files = s.files := rfl

@[simp] theorem setClosing_stage : (s.setClosing c cl).stage = s.stage := rfl

@[simp] theorem setClosing_latest : (s.setClosing c cl).latest = s.latest := rfl

@[simp] theorem setFile_files :
    (s.setFile p f).files q = if q = p then f else s.files q := Function.update_apply ..

@[simp] theorem setFile_stage : (s.setFile p f).stage = s.stage := rfl

@[simp] theorem setFile_closing : (s.setFile p f).closing = s.closing := rfl

@[simp] theorem setFile_latest : (s.setFile p f).latest = s.latest := rfl

end

/-- `connect(path)` -/
def connect (p : FilePath) (s : UnixThreads) : Connect :=
  match s.files p with
  | none => .notFound
  | some ⟨⟨_, .socket c⟩, _⟩ =>
    if (s.stage c).listens && s.closing c = .open_ then .answered c else .refused
  | some ⟨⟨_, .dead⟩, _⟩ | some ⟨⟨_, .regular⟩, _⟩ => .refused

variable (calls : ℕ → CreateCall)

/-- One system call of `_create()`. -/
def runCreate (c : ℕ) (fault : Bool) (inode : ℕ) (s : UnixThreads) : Option UnixThreads :=
  let path := (calls c).path
  let tmp := (calls c).tmp
  match s.stage c with
  | .idle | .returned _ | .raised => none
  | .exists_ => some (s.setStage c (if (s.files path).isSome then .stat else .socket))
  | .stat =>
    some (s.setStage c
      (if !fault && (s.files path).any fun f => f.kind.isSock then .socket else .raised))
  | .socket => some (s.setStage c (if fault then .raised else .umask))
  | .umask => some { s.setStage c (.bind s.umask) with umask := 0o777 }
  | .bind oldMask =>
    if fault || (s.files tmp).isSome then some (s.setStage c (.giveBack oldMask false))
    else
      some ((s.setFile tmp (some ⟨⟨inode, .socket c⟩, 0o777 &&& ~~~s.umask⟩)).setStage c
        (.giveBack oldMask true))
  | .giveBack oldMask bound =>
    some { s.setStage c (if bound then .statTemporary else .raised) with umask := oldMask }
  | .statTemporary =>
    match s.files tmp, fault with
    | some f, false => some (s.setStage c (.chmod f.inode))
    | _, _ => some (s.setStage c .unlink)
  | .chmod i =>
    match s.files tmp, fault with
    | some f, false =>
      some ((s.setFile tmp (some { f with mode := (calls c).mode })).setStage c (.listen i))
    | _, _ => some (s.setStage c .unlink)
  | .listen i => some (s.setStage c (if fault then .unlink else .rename i))
  | .rename i =>
    match s.files tmp, fault with
    | some f, false =>
      some { ((s.setFile path (some f)).setFile tmp none).setStage c (.returned i) with
        latest := Function.update s.latest path (some c) }
    | _, _ => some (s.setStage c .unlink)
  | .unlink => some ((s.setFile tmp none).setStage c .raised)

/-- One system call of `_close()`. -/
def runClose (c : ℕ) (fault : Bool) (s : UnixThreads) : Option UnixThreads :=
  let path := (calls c).path
  match s.closing c, s.stage c with
  | .connect, .returned _ =>
    if fault then some (s.setClosing c .abandoned)
    else
      match s.connect path with
      | .refused => some (s.setClosing c .stat)
      | .answered _ | .notFound => some (s.setClosing c .closed)
  | .stat, .returned i =>
    if fault then some (s.setClosing c .abandoned)
    else some (s.setClosing c
      (if (s.files path).any fun f => i = f.inode then .unlink else .closed))
  | .unlink, .returned _ =>
    if fault then some (s.setClosing c .abandoned)
    else some ((s.setFile path none).setClosing c .closed)
  | _, _ => none

/-- One system call. -/
def step (s : UnixThreads) : Label → Option UnixThreads
  | .create c => if s.stage c = .idle then some (s.setStage c .exists_) else none
  | .run c fault inode => s.runCreate calls c fault inode
  | .aclose c =>
    match s.stage c with
    | .returned _ => if s.closing c = .open_ then some (s.setClosing c .connect) else none
    | _ => none
  | .close c fault => s.runClose calls c fault

end UnixThreads

/-- **Any number of threads that create listeners, and the listeners that close.** -/
def unixThreads (calls : ℕ → CreateCall) (leftovers : FilePath → Option Leftover)
    (bits umask : Mode) : Machine UnixThreads UnixThreads.Label where
  init := .init leftovers bits umask
  step := UnixThreads.step calls

namespace UnixThreads

variable {calls : ℕ → CreateCall} {s s' : UnixThreads} {l : Label}

/-! ## What a step does -/

/-- **Everything a system call of `_create()` can do.** -/
inductive CreateChange (calls : ℕ → CreateCall) (s : UnixThreads) (c : ℕ) : UnixThreads → Prop
  /-- The call goes on, or gives up, and nothing changes but that. -/
  | went {st : CreateStage} (hst : (s.stage c).Goes st)
      (hinode : ∀ i, st.inode = some i → (s.stage c).inode = some i ∨
        ∃ f, s.files (calls c).tmp = some f ∧ f.inode = i)
      (hchecked : st.checked → (s.stage c).checked ∨
        ∀ f, s.files (calls c).path = some f → f.kind.isSock) :
      CreateChange calls s c (s.setStage c st)
  | masked (hc : s.stage c = .umask) :
      CreateChange calls s c { s.setStage c (.bind s.umask) with umask := 0o777 }
  | bound {m : Mode} {f : SharedFile} (hc : s.stage c = .bind m)
      (hfree : s.files (calls c).tmp = none) (hf : f.kind = .socket c) :
      CreateChange calls s c
        ((s.setFile (calls c).tmp (some f)).setStage c (.giveBack m true))
  | gave {m : Mode} {b : Bool} (hc : s.stage c = .giveBack m b) :
      CreateChange calls s c
        { s.setStage c (if b then .statTemporary else .raised) with umask := m }
  | moded {i : ℕ} {f : SharedFile} (mode : Mode) (hc : s.stage c = .chmod i)
      (hf : s.files (calls c).tmp = some f) :
      CreateChange calls s c
        ((s.setFile (calls c).tmp (some { f with mode := mode })).setStage c (.listen i))
  | renamed {i : ℕ} {f : SharedFile} (hc : s.stage c = .rename i)
      (hf : s.files (calls c).tmp = some f) :
      CreateChange calls s c
        { ((s.setFile (calls c).path (some f)).setFile (calls c).tmp none).setStage c
            (.returned i) with
          latest := Function.update s.latest (calls c).path (some c) }
  | undone (hc : s.stage c = .unlink) :
      CreateChange calls s c ((s.setFile (calls c).tmp none).setStage c .raised)

theorem createChange_of_runCreate {c : ℕ} {fault : Bool} {inode : ℕ}
    (hs : s.runCreate calls c fault inode = some s') : s.CreateChange calls c s' := by
  have hwent : ∀ {st st' : CreateStage}, s.stage c = st → st.Goes st' →
      (∀ i, st'.inode = some i → st.inode = some i ∨
        ∃ f, s.files (calls c).tmp = some f ∧ f.inode = i) →
      (st'.checked → st.checked ∨ ∀ f, s.files (calls c).path = some f → f.kind.isSock) →
      s.CreateChange calls c (s.setStage c st') := by
    rintro st st' rfl
    exact .went
  have hfail : ∀ {st : CreateStage}, s.stage c = st → st.Goes .unlink → st.checked = true →
      s.CreateChange calls c (s.setStage c .unlink) :=
    fun hc hst hchecked => hwent hc hst (by simp [CreateStage.inode]) fun _ => .inl hchecked
  cases hc : s.stage c with
  | idle | returned i | raised => simp [runCreate, hc] at hs
  | exists_ =>
    simp only [runCreate, hc, Option.some.injEq] at hs
    subst hs
    cases hf : s.files (calls c).path with
    | none =>
      exact hwent hc ⟨by simp, by simp, by simp, rfl, rfl⟩ (by simp [CreateStage.inode])
        fun _ => .inr (by simp [hf])
    | some f =>
      exact hwent hc ⟨by simp, by simp, by simp, rfl, rfl⟩ (by simp [CreateStage.inode])
        (by simp [CreateStage.checked])
  | stat =>
    simp only [runCreate, hc, Option.some.injEq] at hs
    subst hs
    split
    · next h =>
      refine hwent hc ⟨by simp, by simp, by simp, rfl, rfl⟩ (by simp [CreateStage.inode])
        fun _ => .inr fun f hf => ?_
      simpa [hf] using (Bool.and_eq_true_iff.mp h).2
    · exact hwent hc ⟨by simp, by simp, by simp, rfl, rfl⟩ (by simp [CreateStage.inode])
        (by simp [CreateStage.checked])
  | socket =>
    simp only [runCreate, hc, Option.some.injEq] at hs
    subst hs
    cases fault <;>
      exact hwent hc ⟨by simp, by simp, by simp, rfl, rfl⟩ (by simp [CreateStage.inode])
        fun _ => .inl rfl
  | umask =>
    simp only [runCreate, hc, Option.some.injEq] at hs
    exact hs ▸ .masked hc
  | bind m =>
    simp only [runCreate, hc] at hs
    split_ifs at hs with hfree
    · obtain rfl := Option.some.inj hs
      exact hwent hc ⟨by simp, by simp, by simp, rfl, rfl⟩ (by simp [CreateStage.inode])
        fun _ => .inl rfl
    · obtain rfl := Option.some.inj hs
      rw [Bool.or_eq_true, not_or, Bool.not_eq_true, Bool.not_eq_true, Option.isSome_eq_false_iff,
        Option.isNone_iff_eq_none] at hfree
      exact .bound hc hfree.2 rfl
  | giveBack m b =>
    simp only [runCreate, hc, Option.some.injEq] at hs
    exact hs ▸ .gave hc
  | statTemporary =>
    have hgone := hfail hc ⟨by simp, by simp, by simp, rfl, rfl⟩ rfl
    rcases hf : s.files (calls c).tmp with _ | f
    · simp only [runCreate, hc, hf, Option.some.injEq] at hs
      exact hs ▸ hgone
    cases fault with
    | true =>
      simp only [runCreate, hc, hf, Option.some.injEq] at hs
      exact hs ▸ hgone
    | false =>
      simp only [runCreate, hc, hf, Option.some.injEq] at hs
      subst hs
      refine hwent hc ⟨by simp, by simp, by simp, rfl, rfl⟩ ?_ fun _ => .inl rfl
      rintro i ⟨⟩
      exact .inr ⟨f, hf, rfl⟩
  | chmod i =>
    have hgone := hfail hc ⟨by simp, by simp, by simp, rfl, rfl⟩ rfl
    rcases hf : s.files (calls c).tmp with _ | f
    · simp only [runCreate, hc, hf, Option.some.injEq] at hs
      exact hs ▸ hgone
    cases fault with
    | true =>
      simp only [runCreate, hc, hf, Option.some.injEq] at hs
      exact hs ▸ hgone
    | false =>
      simp only [runCreate, hc, hf, Option.some.injEq] at hs
      exact hs ▸ .moded _ hc hf
  | listen i =>
    simp only [runCreate, hc, Option.some.injEq] at hs
    subst hs
    cases fault with
    | true => exact hfail hc ⟨by simp, by simp, by simp, rfl, rfl⟩ rfl
    | false =>
      exact hwent hc ⟨by simp, by simp, by simp, rfl, rfl⟩ (fun j hj => .inl hj) fun _ => .inl rfl
  | rename i =>
    have hgone := hfail hc ⟨by simp, by simp, by simp, rfl, rfl⟩ rfl
    rcases hf : s.files (calls c).tmp with _ | f
    · simp only [runCreate, hc, hf, Option.some.injEq] at hs
      exact hs ▸ hgone
    cases fault with
    | true =>
      simp only [runCreate, hc, hf, Option.some.injEq] at hs
      exact hs ▸ hgone
    | false =>
      simp only [runCreate, hc, hf, Option.some.injEq] at hs
      exact hs ▸ .renamed hc hf
  | unlink =>
    simp only [runCreate, hc, Option.some.injEq] at hs
    exact hs ▸ .undone hc

/-- **Everything a step of `aclose()` can do.** -/
inductive CloseChange (calls : ℕ → CreateCall) (s : UnixThreads) (c : ℕ) : UnixThreads → Prop
  | went {i : ℕ} {st : CloseStage} (hret : s.stage c = .returned i) (hst : st ≠ .open_)
      (hlooks : st.looks → (s.closing c).looks ∨ s.connect (calls c).path = .refused)
      (hclosed : st = .closed → s.closing c ≠ .open_ ∧ (s.connect (calls c).path ≠ .refused ∨
        ∀ f, s.files (calls c).path = some f → i ≠ f.inode)) :
      CloseChange calls s c (s.setClosing c st)
  | removed {i : ℕ} (hret : s.stage c = .returned i) (hlooks : (s.closing c).looks) :
      CloseChange calls s c ((s.setFile (calls c).path none).setClosing c .closed)

theorem closeChange_of_runClose {c : ℕ} {fault : Bool}
    (hs : s.runClose calls c fault = some s') : s.CloseChange calls c s' := by
  unfold runClose at hs
  dsimp only at hs
  split at hs
  · next i hc hret =>
    split_ifs at hs
    · exact Option.some.inj hs ▸ .went hret (by simp) (by simp [CloseStage.looks]) (by simp)
    · split at hs
      · next hr => exact Option.some.inj hs ▸ .went hret (by simp) (fun _ => .inr hr) (by simp)
      · next k hr =>
        exact Option.some.inj hs ▸ .went hret (by simp) (by simp [CloseStage.looks])
          fun _ => ⟨by simp [hc], .inl (by simp [hr])⟩
      · next hr =>
        exact Option.some.inj hs ▸ .went hret (by simp) (by simp [CloseStage.looks])
          fun _ => ⟨by simp [hc], .inl (by simp [hr])⟩
  · next i hc hret =>
    have hlooks : (s.closing c).looks = true := by rw [hc]; rfl
    split_ifs at hs with hfault hown
    · exact Option.some.inj hs ▸ .went hret (by simp) (fun _ => .inl hlooks) (by simp)
    · exact Option.some.inj hs ▸ .went hret (by simp) (fun _ => .inl hlooks) (by simp)
    · refine Option.some.inj hs ▸ .went hret (by simp) (fun _ => .inl hlooks)
        fun _ => ⟨by simp [hc], .inr fun f hf => ?_⟩
      simpa [hf] using hown
  · next i hc hret =>
    have hlooks : (s.closing c).looks = true := by rw [hc]; rfl
    split_ifs at hs
    · exact Option.some.inj hs ▸ .went hret (by simp) (fun _ => .inl hlooks) (by simp)
    · exact Option.some.inj hs ▸ .removed hret hlooks
  · cases hs

/-! ## A call that nobody interrupts -/

/-- A call of `_create()` on its own, since it began in `s₀`. -/
structure Solo (calls : ℕ → CreateCall) (c : ℕ) (s s₀ : UnixThreads) : Prop where
  umask : (s.stage c).saved = none → s.umask = s₀.umask
  saved : ∀ m, (s.stage c).saved = some m → m = s₀.umask
  checked : (s.stage c).checked → ∀ f, s₀.files (calls c).path = some f → f.kind.isSock
  plain : (s.stage c).drafts = false → (∀ i, s.stage c ≠ .returned i) → s.files = s₀.files
  /-- The socket has its temporary name, and that is all. -/
  drafted : (s.stage c).drafts → ∃ f,
    s.files = Function.update s₀.files (calls c).tmp (some f) ∧ f.kind = .socket c ∧
      ∀ i, (s.stage c).inode = some i → f.inode = i
  returned : ∀ i, s.stage c = .returned i → ∃ f,
    s.files = Function.update s₀.files (calls c).path (some f) ∧ f.toFile = ⟨i, .socket c⟩

namespace Solo

variable {c : ℕ} {s₀ : UnixThreads}

theorem begun : (s.setStage c .exists_).Solo calls c s where
  umask _ := rfl
  saved m hm := by simp [CreateStage.saved] at hm
  checked hc := by simp [CreateStage.checked] at hc
  plain _ _ := rfl
  drafted hc := by simp [CreateStage.drafts] at hc
  returned i hi := by simp at hi

/-- **One system call** of the call. -/
theorem step (hfresh : s₀.files (calls c).tmp = none) (h : s.Solo calls c s₀)
    (hs : s.CreateChange calls c s') : s'.Solo calls c s₀ := by
  have hdrafted : ∀ {f : SharedFile}, (s.stage c).drafts → s.files (calls c).tmp = some f →
      f.kind = .socket c ∧ (∀ i, (s.stage c).inode = some i → f.inode = i) ∧
        ∀ g, Function.update s.files (calls c).tmp g =
          Function.update s₀.files (calls c).tmp g := by
    intro f hc hf
    obtain ⟨f', hfiles, hkind, hinode⟩ := h.drafted hc
    obtain rfl : f' = f := by simpa [hfiles] using hf
    exact ⟨hkind, hinode, fun g => by rw [hfiles, Function.update_idem]⟩
  cases hs with
  | @went st hst hinode hchecked =>
    refine ⟨fun hc => h.umask ?_, fun m hm => h.saved m ?_, fun hc => ?_, fun hc hret => ?_,
      fun hc => ?_, fun i hi => ?_⟩
    · simpa [hst.saved] using hc
    · simpa [hst.saved] using hm
    · cases hold : (s.stage c).checked with
      | true => exact h.checked hold
      | false =>
        rw [← h.plain (CreateStage.drafts_of_not_checked hold) hst.running]
        exact (hchecked (by simpa using hc)).resolve_left (by simp [hold])
    · exact h.plain (by simpa [hst.drafts] using hc) hst.running
    · obtain ⟨f, hfiles, hkind, hold⟩ := h.drafted (by simpa [hst.drafts] using hc)
      refine ⟨f, hfiles, hkind, fun i hi => ?_⟩
      obtain hi' | ⟨g, hg, rfl⟩ := hinode i (by simpa using hi)
      · exact hold i hi'
      · obtain rfl : f = g := by simpa [hfiles] using hg
        rfl
    · exact absurd (by simpa using hi) (hst.goesOn i)
  | masked hc =>
    refine ⟨by simp [CreateStage.saved], fun m hm => ?_, fun _ => h.checked (by rw [hc]; rfl),
      fun _ _ => h.plain (by rw [hc]; rfl) (by simp [hc]), by simp [CreateStage.drafts], by simp⟩
    obtain rfl : s.umask = m := by simpa [CreateStage.saved] using hm
    exact h.umask (by rw [hc]; rfl)
  | @bound m f hc hfree hf =>
    have hplain := h.plain (by rw [hc]; rfl) (by simp [hc])
    refine ⟨by simp [CreateStage.saved], fun m' hm' => ?_, fun _ => h.checked (by rw [hc]; rfl),
      by simp [CreateStage.drafts], fun _ => ⟨f, ?_, hf, by simp [CreateStage.inode]⟩, by simp⟩
    · exact h.saved m' (by simpa [hc, CreateStage.saved] using hm')
    · change Function.update s.files (calls c).tmp (some f) = _
      rw [hplain]
  | @gave m b hc =>
    have hm : m = s₀.umask := h.saved m (by rw [hc]; rfl)
    cases b with
    | true =>
      obtain ⟨f, hfiles, hkind, -⟩ := h.drafted (by rw [hc]; rfl)
      exact ⟨fun _ => hm, by simp [CreateStage.saved], fun _ => h.checked (by rw [hc]; rfl),
        by simp [CreateStage.drafts], fun _ => ⟨f, hfiles, hkind, by simp [CreateStage.inode]⟩,
        by simp⟩
    | false =>
      exact ⟨fun _ => hm, by simp [CreateStage.saved], by simp [CreateStage.checked],
        fun _ _ => h.plain (by rw [hc]; rfl) (by simp [hc]), by simp [CreateStage.drafts], by simp⟩
  | @moded i f mode hc hf =>
    obtain ⟨hkind, hinode, hupdate⟩ := hdrafted (by rw [hc]; rfl) hf
    refine ⟨fun _ => h.umask (by rw [hc]; rfl), by simp [CreateStage.saved],
      fun _ => h.checked (by rw [hc]; rfl), by simp [CreateStage.drafts],
      fun _ => ⟨{ f with mode := mode }, hupdate _, hkind, fun j hj => ?_⟩, by simp⟩
    exact hinode j (by simpa [hc, CreateStage.inode] using hj)
  | @renamed i f hc hf =>
    obtain ⟨hkind, hinode, hupdate⟩ := hdrafted (by rw [hc]; rfl) hf
    refine ⟨fun _ => h.umask (by rw [hc]; rfl), by simp [CreateStage.saved],
      fun _ => h.checked (by rw [hc]; rfl), by simp, by simp [CreateStage.drafts], fun j hj => ?_⟩
    obtain rfl : i = j := by simpa using hj
    have hfile : f.toFile = ⟨i, .socket c⟩ := by
      rw [← hinode i (by rw [hc]; rfl), ← hkind]
    refine ⟨f, ?_, hfile⟩
    -- the temporary name is free again
    have hne : (calls c).path ≠ (calls c).tmp :=
      (UnixSockets.tmpPath_ne (calls c).path (calls c).hex).symm
    have hself : Function.update s₀.files (calls c).tmp none = s₀.files := by
      rw [Function.update_eq_self_iff, hfresh]
    calc Function.update (Function.update s.files (calls c).path (some f)) (calls c).tmp none
        = Function.update (Function.update s.files (calls c).tmp none) (calls c).path (some f) :=
          Function.update_comm hne ..
      _ = Function.update s₀.files (calls c).path (some f) := by rw [hupdate, hself]
  | undone hc =>
    obtain ⟨f, hfiles, -, -⟩ := h.drafted (by rw [hc]; rfl)
    refine ⟨fun _ => h.umask (by rw [hc]; rfl), by simp [CreateStage.saved],
      by simp [CreateStage.checked], fun _ _ => ?_, by simp [CreateStage.drafts], by simp⟩
    change Function.update s.files (calls c).tmp none = s₀.files
    rw [hfiles, Function.update_idem, Function.update_eq_self_iff, hfresh]

end Solo

/-- **A call that nobody interrupts** is a creation among those of any number of listeners, with the
inode that it has returned, or one that fails; the mask is then what it was. -/
theorem runCreate_refines {c : ℕ} {u : UnixSockets} {leftovers : FilePath → Option Leftover}
    {bits umask : Mode} {ls : List Label} (hidle : s.stage c = .idle)
    (hfresh : s.files (calls c).tmp = none)
    (hfiles : u.files = fun p => (s.files p).map SharedFile.toFile) (hc : u.listeners.length = c)
    (hls : ∀ l ∈ ls, ∃ fault inode, l = .run c fault inode)
    (h : (unixThreads calls leftovers bits umask).exec s (.create c :: ls) = some s') :
    (∀ i, s'.stage c = .returned i →
      (u.create (calls c).path (calls c).hex i none).files =
          (fun p => (s'.files p).map SharedFile.toFile) ∧ s'.umask = s.umask) ∧
      (s'.stage c = .raised → ∀ i,
        (u.create (calls c).path (calls c).hex i (some .bind)).files =
          (fun p => (s'.files p).map SharedFile.toFile) ∧ s'.umask = s.umask) := by
  obtain ⟨s₁, hs₁, hrest⟩ := Option.bind_eq_some_iff.mp h
  obtain rfl : s.setStage c .exists_ = s₁ := by
    simpa [unixThreads, UnixThreads.step, hidle] using hs₁
  have hsolo : s'.Solo calls c s := by
    refine (Machine.steps_of_exec_of hrest hls).preserves (I := fun s' => s'.Solo calls c s)
      .begun ?_
    rintro s₁ _ s₂ hsolo ⟨fault, inode, rfl⟩ hs
    exact hsolo.step hfresh (createChange_of_runCreate hs)
  refine ⟨fun i hret => ⟨?_, hsolo.umask (by rw [hret]; rfl)⟩,
    fun hraised i => ⟨?_, hsolo.umask (by rw [hraised]; rfl)⟩⟩
  · obtain ⟨f, hf, hfile⟩ := hsolo.returned i hret
    have hsock : ∀ f, u.files (calls c).path = some f → f.kind.isSock = true := by
      intro f hf
      rw [hfiles] at hf
      obtain ⟨g, hg, rfl⟩ := Option.map_eq_some_iff.mp hf
      exact hsolo.checked (by rw [hret]; rfl) g hg
    have hfree : u.files (UnixSockets.tmpPath (calls c).path (calls c).hex) = none := by
      rw [hfiles]
      exact congrArg (Option.map _) hfresh
    rw [u.create_of_free _ _ i hsock hfree, hc, hf, hfiles]
    funext p
    by_cases hp : p = (calls c).path
    · subst hp
      simp [hfile]
    · simp [hp]
  · rw [u.create_bind, hfiles, hsolo.plain (by rw [hraised]; rfl) (by simp [hraised])]

/-! ## The paths -/

/-- **The listeners are orderly.** -/
structure Orderly (calls : ℕ → CreateCall)
    (files₀ : FilePath → Option SharedFile) (s : UnixThreads) : Prop where
  /-- The last listener on a path answers there, until it is closed. -/
  answers : ∀ p c, s.latest p = some c → s.closing c = .open_ → s.connect p = .answered c
  /-- When it has closed, the path is free. -/
  frees : ∀ p c, s.latest p = some c → s.closing c = .closed → s.files p = none
  /-- A call that has raised has left nothing behind. -/
  undone : ∀ c, s.stage c = .raised → ∀ p f, s.files p = some f → f.kind ≠ .socket c
  /-- What is no socket stays as it is. -/
  kept : ∀ p f, files₀ p = some f → f.kind.isSock = false → s.files p = some f

/-- The invariant of all orderly runs. -/
structure Sound (calls : ℕ → CreateCall)
    (files₀ : FilePath → Option SharedFile) (s : UnixThreads) : Prop where
  drafted : ∀ c, (s.stage c).drafts → ∃ f, s.files (calls c).tmp = some f ∧
    f.kind = .socket c ∧ ∀ i, (s.stage c).inode = some i → f.inode = i
  /-- A socket is under its temporary name, or at the path that is its own. -/
  sockets : ∀ p f c, s.files p = some f → f.kind = .socket c →
    p = (calls c).tmp ∧ (s.stage c).drafts ∨ s.latest p = some c
  latest : ∀ p c, s.latest p = some c → p = (calls c).path ∧ ∃ i, s.stage c = .returned i ∧
    ((∃ f, s.files p = some f ∧ f.kind = .socket c ∧ f.inode = i ∧ s.closing c ≠ .closed) ∨
      s.files p = none ∧ s.closing c ≠ .open_)
  closers : ∀ c, s.closing c ≠ .open_ → ∃ i, s.stage c = .returned i
  /-- A listener that is about to remove a file removes that of no open listener. -/
  looks : ∀ k, (s.closing k).looks → ∀ f c, s.files (calls k).path = some f →
    f.kind = .socket c → s.closing c ≠ .open_
  checked : ∀ c, (s.stage c).checked → ∀ f, s.files (calls c).path = some f → f.kind.isSock
  kept : ∀ p f, files₀ p = some f → f.kind.isSock = false → s.files p = some f

namespace Sound

variable {files₀ : FilePath → Option SharedFile} {c : ℕ}

theorem orderly (h : s.Sound calls files₀) : s.Orderly calls files₀ where
  answers p c hp hopen := by
    obtain ⟨-, i, hret, ⟨⟨⟨inode, kind⟩, mode⟩, hf, hkind, -⟩ | ⟨-, hclosed⟩⟩ := h.latest p c hp
    · obtain rfl : kind = .socket c := hkind
      simp [connect, hf, hret, hopen, CreateStage.listens]
    · exact absurd hopen hclosed
  frees p c hp hclosed := by
    obtain ⟨-, i, -, ⟨f, -, -, -, hnot⟩ | ⟨hnone, -⟩⟩ := h.latest p c hp
    · exact absurd hclosed hnot
    · exact hnone
  undone c hc p f hf hkind := by
    obtain ⟨-, hdrafts⟩ | hp := h.sockets p f c hf hkind
    · rw [hc] at hdrafts
      cases hdrafts
    · obtain ⟨-, i, hret, -⟩ := h.latest p c hp
      rw [hc] at hret
      cases hret
  kept := h.kept

/-- Two calls do not have a draft under one name. -/
theorem tmp_ne (h : s.Sound calls files₀) {k : ℕ} (hk : (s.stage k).drafts = true)
    (hc : ∀ f, s.files (calls c).tmp = some f → f.kind = .socket c) (hne : k ≠ c) :
    (calls k).tmp ≠ (calls c).tmp := by
  intro heq
  obtain ⟨f, hf, hkind, -⟩ := h.drafted k hk
  rw [heq] at hf
  have := (hc f hf).symm.trans hkind
  exact hne (FileKind.socket.inj this).symm

/-- The files and the listeners stay as they are. -/
theorem walk (h : s.Sound calls files₀) {st : CreateStage} (hrun : ∀ i, s.stage c ≠ .returned i)
    (hdrafts : st.drafts = (s.stage c).drafts)
    (hinode : ∀ i, st.inode = some i → (s.stage c).inode = some i ∨
      ∃ f, s.files (calls c).tmp = some f ∧ f.inode = i)
    (hchecked : st.checked → (s.stage c).checked ∨
      ∀ f, s.files (calls c).path = some f → f.kind.isSock) (m : Mode) :
    Sound calls files₀ { s.setStage c st with umask := m } := by
  have hreturned : ∀ k i, s.stage k = .returned i → (s.setStage c st).stage k = .returned i := by
    intro k i hk
    have hkc : k ≠ c := by
      rintro rfl
      exact hrun i hk
    simpa [hkc] using hk
  have hsame : ∀ k, ((s.setStage c st).stage k).drafts = (s.stage k).drafts := by
    intro k
    obtain rfl | hk := eq_or_ne k c
    · simp [hdrafts]
    · simp [hk]
  refine ⟨fun k hk => ?_, fun p f k hf hkind => ?_, fun p k hp => ?_, fun k hk => ?_, h.looks,
    fun k hk => ?_, h.kept⟩
  · obtain ⟨f, hf, hkind, hi⟩ := h.drafted k ((hsame k).symm.trans hk)
    refine ⟨f, hf, hkind, fun i hki => ?_⟩
    obtain rfl | hkc := eq_or_ne k c
    · obtain hold | ⟨g, hg, hgi⟩ := hinode i (by simpa using hki)
      · exact hi i hold
      · rw [Option.some.inj (hf.symm.trans hg), hgi]
    · exact hi i (by simpa [hkc] using hki)
  · exact (h.sockets p f k hf hkind).imp_left fun ⟨hp, hk⟩ => ⟨hp, (hsame k).trans hk⟩
  · obtain ⟨hpath, i, hret, hown⟩ := h.latest p k hp
    exact ⟨hpath, i, hreturned k i hret, hown⟩
  · obtain ⟨i, hret⟩ := h.closers k hk
    exact ⟨i, hreturned k i hret⟩
  · obtain rfl | hkc := eq_or_ne k c
    · obtain hold | hsock := hchecked (by simpa using hk)
      · exact h.checked k hold
      · exact hsock
    · exact h.checked k (by simpa [hkc] using hk)

variable (hnames : ∀ c k, (calls c).tmp ≠ (calls k).path)

include hnames

/-- A file comes to the temporary name, or goes from there. -/
theorem write (h : s.Sound calls files₀) {st : CreateStage} {g : Option SharedFile}
    (hrun : ∀ i, s.stage c ≠ .returned i)
    (hold : ∀ f, s.files (calls c).tmp = some f → f.kind = .socket c)
    (hdrafts : st.drafts → ∃ f, g = some f ∧ ∀ i, st.inode = some i → f.inode = i)
    (hg : ∀ f, g = some f → f.kind = .socket c ∧ st.drafts)
    (hchecked : st.checked → (s.stage c).checked) :
    Sound calls files₀ ((s.setFile (calls c).tmp g).setStage c st) := by
  have hreturned : ∀ k i, s.stage k = .returned i → k ≠ c := by
    rintro k i hk rfl
    exact hrun i hk
  have hpath : ∀ k, (s.setFile (calls c).tmp g).files (calls k).path = s.files (calls k).path :=
    fun k => by simp [(hnames c k).symm]
  refine ⟨fun k hk => ?_, fun p f k hf hkind => ?_, fun p k hp => ?_, fun k hk => ?_,
    fun k hk f j hf => ?_, fun k hk f hf => ?_, fun p f hf hkind => ?_⟩
  · obtain rfl | hkc := eq_or_ne k c
    · obtain ⟨f, rfl, hi⟩ := hdrafts (by simpa using hk)
      exact ⟨f, by simp, (hg f rfl).1, by simpa using hi⟩
    · have hk : (s.stage k).drafts = true := by simpa [hkc] using hk
      obtain ⟨f, hf, hkind, hi⟩ := h.drafted k hk
      exact ⟨f, by simpa [h.tmp_ne hk hold hkc] using hf, hkind, by simpa [hkc] using hi⟩
  · obtain rfl | hpc := eq_or_ne p (calls c).tmp
    · obtain ⟨hgk, hst⟩ := hg f (by simpa using hf)
      obtain rfl : c = k := FileKind.socket.inj (hgk.symm.trans hkind)
      exact .inl ⟨rfl, by simpa using hst⟩
    · obtain ⟨rfl, hk⟩ | hlatest := h.sockets p f k (by simpa [hpc] using hf) hkind
      · have hkc : k ≠ c := by
          rintro rfl
          exact hpc rfl
        exact .inl ⟨rfl, by simpa [hkc] using hk⟩
      · exact .inr hlatest
  · obtain ⟨rfl, i, hret, hown⟩ := h.latest p k hp
    rw [← hpath k] at hown
    exact ⟨rfl, i, by simpa [hreturned k i hret] using hret, hown⟩
  · obtain ⟨i, hret⟩ := h.closers k hk
    exact ⟨i, by simpa [hreturned k i hret] using hret⟩
  · exact h.looks k hk f j ((hpath k).symm.trans hf)
  · refine h.checked k ?_ f ((hpath k).symm.trans hf)
    obtain rfl | hkc := eq_or_ne k c
    · exact hchecked (by simpa using hk)
    · simpa [hkc] using hk
  · have hkept := h.kept p f hf hkind
    have hpc : p ≠ (calls c).tmp := by
      rintro rfl
      rw [hold f hkept] at hkind
      cases hkind
    simpa [hpc] using hkept

/-- **A socket gets to the path**, at which no closing listener looks just then. -/
theorem renamed (h : s.Sound calls files₀) {i : ℕ} {f : SharedFile} (hc : s.stage c = .rename i)
    (hf : s.files (calls c).tmp = some f)
    (hlooks : ∀ k, (s.closing k).looks → (calls k).path ≠ (calls c).path) :
    Sound calls files₀
      { ((s.setFile (calls c).path (some f)).setFile (calls c).tmp none).setStage c
          (.returned i) with
        latest := Function.update s.latest (calls c).path (some c) } := by
  obtain ⟨g, hg, hkind, hinode⟩ := h.drafted c (by rw [hc]; rfl)
  obtain rfl : g = f := Option.some.inj (hg.symm.trans hf)
  have hi : g.inode = i := hinode i (by rw [hc]; rfl)
  have hsock : g.kind.isSock = true := by
    rw [hkind]
    rfl
  have hold : ∀ f, s.files (calls c).tmp = some f → f.kind = .socket c := by
    intro f hf
    rwa [← Option.some.inj (hg.symm.trans hf)]
  have hopen : s.closing c = .open_ := by
    by_contra hne
    obtain ⟨j, hj⟩ := h.closers c hne
    rw [hc] at hj
    cases hj
  have hreturned : ∀ k j, s.stage k = .returned j → k ≠ c := by
    rintro k j hk rfl
    rw [hc] at hk
    cases hk
  have htmp : ∀ k, (calls k).path ≠ (calls c).tmp := fun k => (hnames c k).symm
  refine ⟨fun k hk => ?_, fun p f k hp hfk => ?_, fun p k hp => ?_, fun k hk => ?_,
    fun k hk f j hp => ?_, fun k hk f hp => ?_, fun p f hp hfk => ?_⟩
  · have hkc : k ≠ c := by
      rintro rfl
      simp [CreateStage.drafts] at hk
    have hk : (s.stage k).drafts = true := by simpa [hkc] using hk
    obtain ⟨f, hf, hfk, hfi⟩ := h.drafted k hk
    exact ⟨f, by simpa [h.tmp_ne hk hold hkc, hnames k c] using hf, hfk, by simpa [hkc] using hfi⟩
  · have hpt : p ≠ (calls c).tmp := by
      rintro rfl
      simp at hp
    obtain rfl | hpc := eq_or_ne p (calls c).path
    · obtain rfl : g = f := by simpa [hpt] using hp
      obtain rfl : c = k := FileKind.socket.inj (hkind.symm.trans hfk)
      exact .inr (by simp)
    · obtain ⟨rfl, hk⟩ | hlatest := h.sockets p f k (by simpa [hpt, hpc] using hp) hfk
      · have hkc : k ≠ c := by
          rintro rfl
          exact hpt rfl
        exact .inl ⟨rfl, by simpa [hkc] using hk⟩
      · exact .inr (by simpa [hpc] using hlatest)
  · obtain rfl | hpc := eq_or_ne p (calls c).path
    · obtain rfl : c = k := by simpa using hp
      refine ⟨rfl, i, by simp, .inl ⟨g, by simp [htmp], hkind, hi, ?_⟩⟩
      simp [hopen]
    · obtain ⟨rfl, j, hret, hown⟩ := h.latest p k (by simpa [hpc] using hp)
      exact ⟨rfl, j, by simpa [hreturned k j hret] using hret, by simpa [htmp, hpc] using hown⟩
  · obtain ⟨j, hret⟩ := h.closers k hk
    exact ⟨j, by simpa [hreturned k j hret] using hret⟩
  · exact h.looks k hk f j (by simpa [htmp, hlooks k hk] using hp)
  · obtain hpath | hpath := eq_or_ne (calls k).path (calls c).path
    · obtain rfl : g = f := by simpa [htmp, hpath] using hp
      exact hsock
    · have hkc : k ≠ c := by
        rintro rfl
        exact hpath rfl
      exact h.checked k (by simpa [hkc] using hk) f (by simpa [htmp, hpath] using hp)
  · have hkept := h.kept p f hp hfk
    have hpt : p ≠ (calls c).tmp := by
      rintro rfl
      rw [hold f hkept] at hfk
      cases hfk
    have hpc : p ≠ (calls c).path := by
      rintro rfl
      have hpast : (s.stage c).checked = true := by
        rw [hc]
        rfl
      rw [h.checked c hpast f hkept] at hfk
      cases hfk
    simpa [hpt, hpc] using hkept

theorem createChange (h : s.Sound calls files₀) (hs : s.CreateChange calls c s')
    (hlooks : (∃ i, s.stage c = .rename i) → ∀ k, (s.closing k).looks →
      (calls k).path ≠ (calls c).path) : s'.Sound calls files₀ := by
  cases hs with
  | went hst hinode hchecked => exact h.walk hst.running hst.drafts hinode hchecked s.umask
  | masked hc =>
    exact h.walk (by simp [hc]) (by rw [hc]; rfl) (by simp [CreateStage.inode])
      (fun _ => .inl (by rw [hc]; rfl)) 0o777
  | @bound m f hc hfree hf =>
    refine h.write hnames (by simp [hc]) (by simp [hfree]) (fun _ => ⟨f, rfl, ?_⟩) ?_
      fun _ => by rw [hc]; rfl
    · simp [CreateStage.inode]
    · rintro _ ⟨⟩
      exact ⟨hf, rfl⟩
  | @gave m b hc =>
    cases b <;>
      exact h.walk (by simp [hc]) (by rw [hc]; rfl) (by simp [CreateStage.inode])
        (fun _ => .inl (by rw [hc]; rfl)) m
  | @moded i f mode hc hf =>
    obtain ⟨g, hg, hkind, hinode⟩ := h.drafted c (by rw [hc]; rfl)
    obtain rfl : g = f := Option.some.inj (hg.symm.trans hf)
    refine h.write hnames (by simp [hc]) (fun f hf => ?_) (fun _ => ⟨_, rfl, fun j hj => ?_⟩) ?_
      fun _ => by rw [hc]; rfl
    · rwa [← Option.some.inj (hg.symm.trans hf)]
    · exact hinode j (by rw [hc]; exact hj)
    · rintro _ ⟨⟩
      exact ⟨hkind, rfl⟩
  | renamed hc hf => exact h.renamed hnames hc hf (hlooks ⟨_, hc⟩)
  | undone hc =>
    obtain ⟨g, hg, hkind, -⟩ := h.drafted c (by rw [hc]; rfl)
    refine h.write hnames (by simp [hc]) (fun f hf => ?_) (by simp [CreateStage.drafts]) (by simp)
      (by simp [CreateStage.checked])
    rwa [← Option.some.inj (hg.symm.trans hf)]

/-- At a path there is the socket of the listener that was the last to get there, or none. -/
theorem latest_of_socket (h : s.Sound calls files₀) {k j : ℕ} {f : SharedFile}
    (hf : s.files (calls k).path = some f) (hkind : f.kind = .socket j) :
    s.latest (calls k).path = some j :=
  (h.sockets _ f j hf hkind).resolve_left fun ⟨hp, _⟩ => hnames j k hp.symm

/-- A listener goes on. -/
theorem close (h : s.Sound calls files₀) {i : ℕ} {st : CloseStage} (hret : s.stage c = .returned i)
    (hst : st ≠ .open_)
    (hlooks : st.looks → (s.closing c).looks ∨ s.connect (calls c).path = .refused)
    (hclosed : st = .closed → s.closing c ≠ .open_ ∧ (s.connect (calls c).path ≠ .refused ∨
      ∀ f, s.files (calls c).path = some f → i ≠ f.inode)) :
    Sound calls files₀ (s.setClosing c st) := by
  refine ⟨h.drafted, h.sockets, fun p k hp => ?_, fun k hk => ?_, fun k hk f j hf hkind => ?_,
    h.checked, h.kept⟩
  · obtain ⟨rfl, j, hretk, hown⟩ := h.latest p k hp
    refine ⟨rfl, j, hretk, ?_⟩
    obtain rfl | hkc := eq_or_ne k c
    · obtain rfl : i = j := CreateStage.returned.inj (hret.symm.trans hretk)
      refine hown.imp (fun ⟨f, hf, hkind, hi, _⟩ => ⟨f, hf, hkind, hi, ?_⟩)
        fun ⟨hnone, _⟩ => ⟨hnone, by simpa using hst⟩
      rw [setClosing_closing, if_pos rfl]
      intro hend
      obtain ⟨hopen, hrefused | hother⟩ := hclosed hend
      · obtain ⟨⟨inode, kind⟩, mode⟩ := f
        obtain rfl : kind = .socket k := hkind
        simp [connect, hf, hopen] at hrefused
      · exact hother f hf hi.symm
    · simpa [hkc] using hown
  · obtain rfl | hkc := eq_or_ne k c
    · exact ⟨i, hret⟩
    · exact h.closers k (by simpa [hkc] using hk)
  · have hold : s.closing j ≠ .open_ ∨ j = c := by
      obtain rfl | hkc := eq_or_ne k c
      · obtain hold | hrefused := hlooks (by simpa using hk)
        · exact .inl (h.looks k hold f j hf hkind)
        · obtain ⟨-, n, hretj, -⟩ := h.latest _ j (h.latest_of_socket hnames hf hkind)
          refine .inl fun hopen => ?_
          obtain ⟨⟨inode, kind⟩, mode⟩ := f
          obtain rfl : kind = .socket j := hkind
          have hf' : s.files (calls k).path = some ⟨⟨inode, .socket j⟩, mode⟩ := hf
          simp [connect, hf', hretj, hopen, CreateStage.listens] at hrefused
      · exact .inl (h.looks k (by simpa [hkc] using hk) f j hf hkind)
    obtain hold | rfl := hold
    · rw [setClosing_closing]
      split
      · exact hst
      · exact hold
    · simpa using hst

/-- A path is freed by a listener that has looked at it. -/
theorem removed (h : s.Sound calls files₀) {i : ℕ} (hret : s.stage c = .returned i)
    (hlooks : (s.closing c).looks) :
    Sound calls files₀ ((s.setFile (calls c).path none).setClosing c .closed) := by
  have hclosing : ∀ k, s.closing k ≠ .open_ → (s.setClosing c .closed).closing k ≠ .open_ := by
    intro k hk
    rw [setClosing_closing]
    split
    · simp
    · exact hk
  have hfiles : ∀ p f, (s.setFile (calls c).path none).files p = some f →
      p ≠ (calls c).path ∧ s.files p = some f := by
    intro p f hp
    obtain rfl | hpc := eq_or_ne p (calls c).path
    · simp at hp
    · exact ⟨hpc, by simpa [hpc] using hp⟩
  refine ⟨fun k hk => ?_, fun p f k hp hfk => h.sockets p f k (hfiles p f hp).2 hfk,
    fun p k hp => ?_, fun k hk => ?_, fun k hk f j hf hkind => ?_,
    fun k hk f hf => h.checked k hk f (hfiles _ f hf).2, fun p f hp hfk => ?_⟩
  · obtain ⟨f, hf, hfk, hi⟩ := h.drafted k hk
    exact ⟨f, by simpa [hnames k c] using hf, hfk, hi⟩
  · obtain ⟨rfl, j, hretk, hown⟩ := h.latest p k hp
    refine ⟨rfl, j, hretk, ?_⟩
    obtain hpath | hpath := eq_or_ne (calls k).path (calls c).path
    · refine .inr ⟨by simp [hpath], hclosing k ?_⟩
      obtain ⟨f, hf, hkind, -, -⟩ | ⟨-, hopen⟩ := hown
      · exact h.looks c hlooks f k (hpath ▸ hf) hkind
      · exact hopen
    · have hkc : k ≠ c := by
        rintro rfl
        exact hpath rfl
      simpa [hpath, hkc] using hown
  · obtain rfl | hkc := eq_or_ne k c
    · exact ⟨i, hret⟩
    · exact h.closers k (by simpa [hkc] using hk)
  · have hkc : k ≠ c := by
      rintro rfl
      simp [CloseStage.looks] at hk
    exact hclosing j (h.looks k (by simpa [hkc] using hk) f j (hfiles _ f hf).2 hkind)
  · have hkept := h.kept p f hp hfk
    have hpc : p ≠ (calls c).path := by
      rintro rfl
      have hpast : (s.stage c).checked = true := by
        rw [hret]
        rfl
      rw [h.checked c hpast f hkept] at hfk
      cases hfk
    simpa [hpc] using hkept

end Sound

/-- No socket is renamed to a path that a closing listener has looked at, and is not done with. -/
def Unhurried (calls : ℕ → CreateCall) (s : UnixThreads) : Label → Prop
  | .run c _ _ => (∃ i, s.stage c = .rename i) → ∀ k, (s.closing k).looks →
    (calls k).path ≠ (calls c).path
  | _ => True

variable {leftovers : FilePath → Option Leftover} {bits umask : Mode}

theorem sound_init : (init leftovers bits umask).Sound calls (init leftovers bits umask).files where
  drafted c hc := by simp [init, CreateStage.drafts] at hc
  sockets p f c hf hkind := by
    obtain ⟨x, -, rfl⟩ := Option.map_eq_some_iff.mp hf
    simp only [Leftover.file] at hkind
    split at hkind <;> cases hkind
  latest p c hp := by simp [init] at hp
  closers c hc := by simp [init] at hc
  looks k hk := by simp [init, CloseStage.looks] at hk
  checked c hc := by simp [init, CreateStage.checked] at hc
  kept p f hf _ := hf

theorem Sound.step {files₀ : FilePath → Option SharedFile}
    (hnames : ∀ c k, (calls c).tmp ≠ (calls k).path) (h : s.Sound calls files₀)
    (hu : s.Unhurried calls l) (hs : s.step calls l = some s') : s'.Sound calls files₀ := by
  cases l with
  | create c =>
    simp only [UnixThreads.step] at hs
    split_ifs at hs with hc
    obtain rfl := Option.some.inj hs
    exact h.walk (by simp [hc]) (by rw [hc]; rfl) (by simp [CreateStage.inode])
      (by simp [CreateStage.checked]) s.umask
  | run c fault inode => exact h.createChange hnames (createChange_of_runCreate hs) hu
  | aclose c =>
    simp only [UnixThreads.step] at hs
    split at hs
    · next i hret =>
      split_ifs at hs
      obtain rfl := Option.some.inj hs
      exact h.close hnames hret (by simp) (by simp [CloseStage.looks]) (by simp)
    · cases hs
  | close c fault =>
    cases closeChange_of_runClose hs with
    | went hret hst hlooks hclosed => exact h.close hnames hret hst hlooks hclosed
    | removed hret hlooks => exact h.removed hnames hret hlooks

/-- **`latest` goes with the calls that return.** -/
structure Follows (calls : ℕ → CreateCall) (s s' : UnixThreads) : Prop where
  returns : ∀ c i, (∀ j, s.stage c ≠ .returned j) → s'.stage c = .returned i →
    s'.latest = Function.update s.latest (calls c).path (some c)
  keeps : (∀ c i, s'.stage c = .returned i → s.stage c = .returned i) → s'.latest = s.latest

/-- No call returns. -/
theorem follows_of_same (hlatest : s'.latest = s.latest)
    (hstage : ∀ c i, s'.stage c = .returned i → s.stage c = .returned i) : s.Follows calls s' where
  returns c i hrun hret := absurd (hstage c i hret) (hrun i)
  keeps _ := hlatest

/-- A call goes on. -/
theorem follows_of_goesOn {c : ℕ} {st : CreateStage} (hlatest : s'.latest = s.latest)
    (hstage : ∀ k, s'.stage k = if k = c then st else s.stage k) (hst : ∀ i, st ≠ .returned i) :
    s.Follows calls s' := by
  refine follows_of_same hlatest fun k i hret => ?_
  rw [hstage] at hret
  split_ifs at hret
  · exact absurd hret (hst i)
  · exact hret

theorem CreateChange.follows {c : ℕ} (h : s.CreateChange calls c s') : s.Follows calls s' := by
  cases h with
  | went hst => exact follows_of_goesOn rfl (setStage_stage _ _ · _) hst.goesOn
  | masked | bound | moded | undone =>
    exact follows_of_goesOn rfl (setStage_stage _ _ · _) (by simp)
  | @gave m b hc =>
    refine follows_of_goesOn rfl (setStage_stage _ _ · _) fun i => ?_
    cases b <;> simp
  | @renamed i f hc hf =>
    refine ⟨fun k j hrun hret => ?_, fun hsame => ?_⟩
    · have hk : k = c := by
        by_contra hne
        have hstage : s.stage k = .returned j := by simpa [hne] using hret
        exact hrun j hstage
      rw [hk]
    · have hret := hsame c i (by simp)
      rw [hc] at hret
      cases hret

theorem follows_of_step (hs : s.step calls l = some s') : s.Follows calls s' := by
  cases l with
  | create c =>
    obtain ⟨-, hs⟩ := Option.ite_none_right_eq_some.mp hs
    obtain rfl := Option.some.inj hs
    exact follows_of_goesOn rfl (setStage_stage _ _ · _) (by simp)
  | run c fault inode => exact (createChange_of_runCreate hs).follows
  | aclose c =>
    simp only [UnixThreads.step] at hs
    split at hs
    · split_ifs at hs
      obtain rfl := Option.some.inj hs
      exact follows_of_same rfl fun _ _ => id
    · cases hs
  | close c fault =>
    cases closeChange_of_runClose hs with
    | went | removed => exact follows_of_same rfl fun _ _ => id

/-- **Threads that create and close listeners keep the paths in order**, as long as none of them
renames a socket to a path that a closing listener is about to remove. -/
theorem orderly_along (hnames : ∀ c k, (calls c).tmp ≠ (calls k).path) {ls : List Label}
    (h : (unixThreads calls leftovers bits umask).Guarded (Unhurried calls)
      (init leftovers bits umask) ls) :
    (unixThreads calls leftovers bits umask).Along (Orderly calls (init leftovers bits umask).files)
        (init leftovers bits umask) ls ∧
      (unixThreads calls leftovers bits umask).Throughout (fun s _ s' => s.Follows calls s')
        (init leftovers bits umask) ls := by
  constructor
  · have halong := h.along sound_init fun _ _ _ hsound hu hs => hsound.step hnames hu hs
    exact halong.mono fun _ hsound => hsound.orderly
  · exact h.throughout sound_init fun _ _ _ hsound hu hs =>
      ⟨hsound.step hnames hu hs, follows_of_step hs⟩

/-- A step of `_create()`. -/
def Label.Creates : Label → Prop
  | .create _ | .run _ _ _ => True
  | .aclose _ | .close _ _ => False

/-- Creations alone are never in the way of a listener that closes. -/
theorem unhurried_of_creates {ls : List Label} (hls : ∀ l ∈ ls, l.Creates) :
    (unixThreads calls leftovers bits umask).Guarded (Unhurried calls)
      (init leftovers bits umask) ls := by
  refine (Machine.guarded_of_forall hls _).throughout (I := fun s => ∀ k, s.closing k = .open_)
    (fun _ => rfl) fun s l s' hopen hl hs => ?_
  have hu : s.Unhurried calls l := by
    cases l with
    | run c fault inode =>
      intro _ k hk
      simp [hopen k, CloseStage.looks] at hk
    | _ => trivial
  refine ⟨fun k => ?_, hu⟩
  cases l with
  | create c =>
    obtain ⟨-, hs⟩ := Option.ite_none_right_eq_some.mp hs
    exact Option.some.inj hs ▸ hopen k
  | run c fault inode => cases createChange_of_runCreate hs <;> exact hopen k
  | aclose c | close c fault => exact hl.elim

/-- Calls that all create a listener on one path. -/
def sharedPath (c : ℕ) : CreateCall := ⟨['/', 'u'], [Char.ofNat (97 + c)], 0o666⟩

/-- The system calls of a creation on a path that is free. -/
def freshCreation (c : ℕ) : List Label := .create c :: List.replicate 9 (.run c false (c + 5))

theorem creates_freshCreation {c : ℕ} (hl : l ∈ freshCreation c) : l.Creates := by
  rcases List.mem_cons.mp hl with rfl | hl
  · trivial
  · rw [List.eq_of_mem_replicate hl]
    trivial

/-- One creation overtakes another one, which takes the path over all the same. -/
theorem orderly_overtaken :
    (unixThreads sharedPath (fun _ => none) 0 0o022).Along
        (Orderly sharedPath (init (fun _ => none) 0 0o022).files) (init (fun _ => none) 0 0o022)
        ((freshCreation 0).dropLast ++ freshCreation 1 ++ [.run 0 false 5]) ∧
      (unixThreads sharedPath (fun _ => none) 0 0o022).Throughout
        (fun s _ s' => s.Follows sharedPath s') (init (fun _ => none) 0 0o022)
        ((freshCreation 0).dropLast ++ freshCreation 1 ++ [.run 0 false 5]) := by
  refine orderly_along (fun c _ => UnixSockets.tmpPath_ne (sharedPath c).path (sharedPath c).hex)
    (unhurried_of_creates fun l hl => ?_)
  rcases List.mem_append.mp hl with hl | hl
  · rcases List.mem_append.mp hl with hl | hl
    · exact creates_freshCreation (List.mem_of_mem_dropLast hl)
    · exact creates_freshCreation hl
  · rw [List.mem_singleton.mp hl]
    trivial

/-- The socket of the second listener gets to the path after the first one has looked at it: the
first one removes it. -/
example : ((unixThreads sharedPath (fun _ => none) 0 0o022).exec (init (fun _ => none) 0 0o022)
    (freshCreation 0 ++ .create 1 :: List.replicate 9 (.run 1 false 6) ++
      [.aclose 0, .close 0 false, .close 0 false, .run 1 false 6, .close 0 false])).map
      (fun s => (s.latest ['/', 'u'], s.closing 1, s.connect ['/', 'u'])) =
    some (some 1, .open_, .notFound) := by decide +kernel

/-! ## The mask -/

/-- The mask that the process had is in force, or some call is to give it back. -/
def Kept (m : Mode) (s : UnixThreads) : Prop :=
  s.umask = m ∨ ∃ c, (s.stage c).saved = some m

/-- The mask can still come back. -/
def Recoverable (calls : ℕ → CreateCall) (leftovers : FilePath → Option Leftover) (bits m : Mode)
    (s : UnixThreads) : Prop :=
  ∃ s', (unixThreads calls leftovers bits m).Steps Machine.anyStep s s' ∧ s'.umask = m

/-- A call gives another mask back only while the call that keeps the one of the process is still to
give that back. -/
def KeeperLast (m : Mode) (s : UnixThreads) : Label → Prop
  | .run c _ _ => ∀ m' b, s.stage c = .giveBack m' b →
    m' = m ∨ ∃ k ≠ c, (s.stage k).saved = some m
  | _ => True

/-- No mask but these two. -/
structure TwoMasks (m : Mode) (s : UnixThreads) : Prop where
  umask : s.umask = m ∨ s.umask = 0o777
  saved : ∀ c m', (s.stage c).saved = some m' → m' = m ∨ m' = 0o777

variable {m : Mode}

theorem kept_congr (humask : s'.umask = s.umask)
    (hsaved : ∀ k, (s'.stage k).saved = (s.stage k).saved) : s'.Kept m ↔ s.Kept m := by
  simp [Kept, humask, hsaved]

theorem saved_setStage {c : ℕ} {st : CreateStage} (h : st.saved = (s.stage c).saved) (k : ℕ) :
    ((s.setStage c st).stage k).saved = (s.stage k).saved := by
  obtain rfl | hk := eq_or_ne k c
  · simp [h]
  · simp [hk]

/-- **What a step does to the masks.** -/
inductive MaskChange (s : UnixThreads) : Label → UnixThreads → Prop
  | none {l : Label} {s' : UnixThreads} (hl : ∀ c fault inode, l = .run c fault inode →
      ∀ m b, s.stage c ≠ .giveBack m b) (humask : s'.umask = s.umask)
      (hsaved : ∀ k, (s'.stage k).saved = (s.stage k).saved) : MaskChange s l s'
  | taken {c : ℕ} {fault : Bool} {inode : ℕ} (hc : s.stage c = .umask) :
      MaskChange s (.run c fault inode) { s.setStage c (.bind s.umask) with umask := 0o777 }
  | given {c : ℕ} {fault : Bool} {inode : ℕ} {m : Mode} {b : Bool} {st : CreateStage}
      (hc : s.stage c = .giveBack m b) (hst : st.saved = .none) :
      MaskChange s (.run c fault inode) { s.setStage c st with umask := m }

theorem maskChange_of_step (hs : s.step calls l = some s') : s.MaskChange l s' := by
  have hother : (∀ c fault inode, l ≠ .run c fault inode) → s'.umask = s.umask →
      (∀ k, (s'.stage k).saved = (s.stage k).saved) → s.MaskChange l s' :=
    fun hl => .none fun c fault inode h => absurd h (hl c fault inode)
  cases l with
  | create c =>
    obtain ⟨hc, hs⟩ := Option.ite_none_right_eq_some.mp hs
    obtain rfl := Option.some.inj hs
    exact hother (by simp) rfl (saved_setStage (by rw [hc]; rfl))
  | run c fault inode =>
    have hrun : s'.umask = s.umask → (∀ m b, s.stage c ≠ .giveBack m b) →
        (∀ k, (s'.stage k).saved = (s.stage k).saved) → s.MaskChange (.run c fault inode) s' := by
      intro humask hgive hsaved
      refine .none ?_ humask hsaved
      rintro _ _ _ ⟨⟩
      exact hgive
    cases createChange_of_runCreate hs with
    | went hst => exact hrun rfl hst.keeps (saved_setStage hst.saved)
    | masked hc => exact .taken hc
    | gave hc => exact .given hc (by split <;> rfl)
    | bound hc | moded _ hc | renamed hc | undone hc =>
      exact hrun rfl (by simp [hc]) (saved_setStage (by simp [hc, CreateStage.saved]))
  | aclose c =>
    simp only [UnixThreads.step] at hs
    split at hs
    · obtain ⟨-, hs⟩ := Option.ite_none_right_eq_some.mp hs
      obtain rfl := Option.some.inj hs
      exact hother (by simp) rfl fun _ => rfl
    · cases hs
  | close c fault =>
    cases closeChange_of_runClose hs <;> exact hother (by simp) rfl fun _ => rfl

namespace MaskChange

theorem twoMasks (hs : s.MaskChange l s') (h : s.TwoMasks m) : s'.TwoMasks m := by
  cases hs with
  | none _ humask hsaved =>
    exact ⟨humask ▸ h.umask, fun c m' hc => h.saved c m' ((hsaved c).symm.trans hc)⟩
  | @taken c _ _ hc =>
    refine ⟨.inr rfl, fun k m' hk => ?_⟩
    obtain rfl | hkc := eq_or_ne k c
    · obtain rfl : s.umask = m' := by simpa [CreateStage.saved] using hk
      exact h.umask
    · exact h.saved k m' (by simpa [hkc] using hk)
  | @given c _ _ m₁ b st hc hst =>
    refine ⟨h.saved c m₁ (by rw [hc]; rfl), fun k m' hk => ?_⟩
    obtain rfl | hkc := eq_or_ne k c
    · simp [hst] at hk
    · exact h.saved k m' (by simpa [hkc] using hk)

/-- A mask that is kept stays so unless it is overwritten. -/
theorem kept_iff (hs : s.MaskChange l s') (h : s.Kept m) : s'.Kept m ↔ s.KeeperLast m l := by
  cases hs with
  | none hl humask hsaved =>
    refine iff_of_true ((kept_congr humask hsaved).mpr h) ?_
    cases l with
    | run c fault inode => exact fun m' b hc => absurd hc (hl c fault inode rfl m' b)
    | _ => trivial
  | @taken c _ _ hc =>
    have hkeeper : ∃ k, ((s.setStage c (.bind s.umask)).stage k).saved = some m := by
      obtain humask | ⟨k, hk⟩ := h
      · exact ⟨c, by simp [CreateStage.saved, humask]⟩
      · have hkc : k ≠ c := by
          rintro rfl
          simp [hc, CreateStage.saved] at hk
        exact ⟨k, by simpa [hkc] using hk⟩
    refine iff_of_true (.inr hkeeper) fun m' b hc' => ?_
    rw [hc] at hc'
    cases hc'
  | @given c _ _ m₁ b st hc hst =>
    have hothers : (∃ k, ((s.setStage c st).stage k).saved = some m) ↔
        ∃ k ≠ c, (s.stage k).saved = some m := by
      refine exists_congr fun k => ?_
      obtain rfl | hkc := eq_or_ne k c
      · simp [hst]
      · simp [hkc]
    constructor
    · rintro hkept m' b' hc'
      obtain ⟨rfl, rfl⟩ := CreateStage.giveBack.inj (hc.symm.trans hc')
      exact hkept.imp_right hothers.mp
    · exact fun hg => (hg m₁ b hc).imp_right hothers.mpr

/-- A mask that is lost does not come back. -/
theorem kept_of (hs : s.MaskChange l s') (hm : m ≠ 0o777) (h : s'.Kept m) : s.Kept m := by
  cases hs with
  | none _ humask hsaved => exact (kept_congr humask hsaved).mp h
  | @taken c _ _ hc =>
    obtain humask | ⟨k, hk⟩ := h
    · exact absurd humask.symm hm
    · obtain rfl | hkc := eq_or_ne k c
      · exact .inl (by simpa [CreateStage.saved] using hk)
      · exact .inr ⟨k, by simpa [hkc] using hk⟩
  | @given c _ _ m₁ b st hc hst =>
    obtain rfl | ⟨k, hk⟩ := h
    · exact .inr ⟨c, by rw [hc]; rfl⟩
    · obtain rfl | hkc := eq_or_ne k c
      · simp [hst] at hk
      · exact .inr ⟨k, by simpa [hkc] using hk⟩

end MaskChange

theorem recoverable_of_giveBack {c : ℕ} {b : Bool} (hc : s.stage c = .giveBack m b) :
    s.Recoverable calls leftovers bits m := by
  have hs : s.runCreate calls c true 0 =
      some { s.setStage c (if b then .statTemporary else .raised) with umask := m } := by
    simp only [runCreate, hc]
  exact ⟨_, .single ⟨.run c true 0, trivial, hs⟩, rfl⟩

/-- The call that keeps the mask can give it back. -/
theorem Kept.recoverable (h : s.Kept m) : s.Recoverable calls leftovers bits m := by
  obtain humask | ⟨c, hsaved⟩ := h
  · exact ⟨s, .refl, humask⟩
  cases hc : s.stage c with
  | giveBack m' b =>
    obtain rfl : m' = m := by simpa [hc, CreateStage.saved] using hsaved
    exact recoverable_of_giveBack hc
  | bind m' =>
    obtain rfl : m' = m := by simpa [hc, CreateStage.saved] using hsaved
    -- where `bind()` fails the mask is next
    have hs : s.runCreate calls c true 0 = some (s.setStage c (.giveBack m' false)) := by
      simp [runCreate, hc]
    have hnext : (s.setStage c (.giveBack m' false)).Recoverable calls leftovers bits m' :=
      recoverable_of_giveBack (c := c) (b := false) (by simp)
    obtain ⟨s', hs', humask⟩ := hnext
    exact ⟨s', .head ⟨.run c true 0, trivial, hs⟩ hs', humask⟩
  | _ => simp [hc, CreateStage.saved] at hsaved

theorem recoverable_iff (h : s.TwoMasks m) : s.Recoverable calls leftovers bits m ↔ s.Kept m := by
  refine ⟨fun ⟨s', hs', humask⟩ => ?_, Kept.recoverable⟩
  obtain rfl | hm := eq_or_ne m 0o777
  · exact .inl (h.umask.elim id id)
  · by_contra hlost
    refine hs'.preserves (I := fun s => ¬ s.Kept m) hlost (fun s l s' hlost _ hs hkept => ?_)
      (.inl humask)
    exact hlost ((maskChange_of_step hs).kept_of hm hkept)

/-- **The mask of the process can come back at any time exactly if it is never overwritten**: no
call gives another mask back where the one that keeps it has done so already. -/
theorem umask_iff (calls : ℕ → CreateCall) (leftovers : FilePath → Option Leftover)
    (bits m : Mode) (ls : List Label) :
    (unixThreads calls leftovers bits m).Along (Recoverable calls leftovers bits m)
        (init leftovers bits m) ls ↔
      (unixThreads calls leftovers bits m).Guarded (KeeperLast m) (init leftovers bits m) ls := by
  have hinit : (init leftovers bits m).TwoMasks m :=
    ⟨.inl rfl, fun c m' hc => by simp [init, CreateStage.saved] at hc⟩
  refine Machine.along_iff_guarded_of hinit ((recoverable_iff hinit).mpr (.inl rfl))
    fun s l s' htwo hrec hs => ?_
  have hmask := maskChange_of_step hs
  have htwo' := hmask.twoMasks htwo
  exact ⟨htwo', (recoverable_iff htwo').trans (hmask.kept_iff ((recoverable_iff htwo).mp hrec))⟩

/-- Two calls overlap, and the one that began first gives its mask back first. -/
example : ((unixThreads sharedPath (fun _ => none) 0 0o022).exec (init (fun _ => none) 0 0o022)
    ([.create 0, .create 1] ++ List.replicate 3 (.run 0 false 5) ++
      List.replicate 3 (.run 1 false 6) ++ List.replicate 2 (.run 0 false 5) ++
      List.replicate 2 (.run 1 false 6))).map UnixThreads.umask = some 0o777 := by decide +kernel

end UnixThreads

end FlockwaveConn
