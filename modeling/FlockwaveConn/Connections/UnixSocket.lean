import FlockwaveConn.Connections.Servers
import FlockwaveConn.Machinery.Exceptions

/-!
# Connections/UnixSocket — a listener on a Unix socket is created as a whole, or not at all

`UnixSocketListener._create()` binds its socket to a temporary name, under a mask that lets nobody
in, and renames it to the path once the mode is right and the socket listens.  Three nested `try`
blocks give back the mask, the temporary file and the socket, each from where there is something to
give back.

A path may be a symbolic link, and there is a file at the path if the link leads to one.
-/

open Std.Do

namespace FlockwaveConn

set_option mvcgen.warning false

/-- Permission bits, or a mask for them. -/
abbrev Mode := BitVec 12

/-- A file that is no link. -/
structure Node where
  inode : ℕ
  isSock : Bool
  mode : Mode
  deriving DecidableEq, Repr

/-- What is there under a name. -/
inductive Entry
  | node (x : Node)
  | symlink (target : FilePath)
  deriving DecidableEq, Repr

/-- A socket of the process. -/
inductive SocketState
  | unbound
  | bound
  | listening (backlog : ℕ)
  | closed
  deriving DecidableEq, Repr

/-- The file system, and the process as far as it matters here. -/
structure Host where
  entries : FilePath → Option Entry
  umask : Mode
  sockets : List SocketState

/-- The system calls of `_create()` that may fail. -/
inductive SystemCall
  | stat
  | socket
  | bind
  | statTemporary
  | chmod
  | listen
  | rename
  deriving DecidableEq, Repr

/-- What `_create()` raises; `ε` are the errors of the system calls. -/
inductive CreateError (ε : Type)
  /-- "UNIX domain sockets are not supported on this platform" -/
  | notSupported
  /-- "Existing file is not a socket" -/
  | fileExists
  /-- There is nothing under the name. -/
  | notFound
  /-- `bind()`, to a name that is there already. -/
  | addressInUse
  | failed (e : ε)
  deriving DecidableEq, Repr

/-- What one run of `_create()` meets. -/
structure Circumstances (ε : Type) where
  /-- The platform has `AF_UNIX`. -/
  hasAfUnix : Bool
  /-- The first digits of `uuid4()`. -/
  hex : FilePath
  /-- The inode that the new socket gets. -/
  inode : ℕ
  /-- The calls that fail. -/
  fault : SystemCall → Option ε

namespace Host

variable {ε : Type}

/-- How many links the system follows. -/
def maxLinks : ℕ := 40

/-- The file that a name leads to, and its own name. -/
def follow (entries : FilePath → Option Entry) : ℕ → FilePath → Option (FilePath × Node)
  | n, path =>
    match entries path, n with
    | none, _ => none
    | some (.node x), _ => some (path, x)
    | some (.symlink _), 0 => none
    | some (.symlink target), n + 1 => follow entries n target

/-- The file at a path. -/
def file (s : Host) (path : FilePath) : Option Node :=
  (follow s.entries maxLinks path).map Prod.snd

/-- The name gets another meaning. -/
def setEntry (path : FilePath) (entry : Option Entry) (s : Host) : Host :=
  { s with entries := Function.update s.entries path entry }

/-- The socket that was created last changes. -/
def setSocket (x : SocketState) (s : Host) : Host :=
  { s with sockets := s.sockets.dropLast ++ [x] }

theorem follow_of_node {entries : FilePath → Option Entry} {path : FilePath} {x : Node}
    (h : entries path = some (.node x)) (n : ℕ) : follow entries n path = some (path, x) := by
  unfold follow
  rw [h]

/-! ## System calls -/

/-- A call that fails where it is to. -/
def attempt (env : Circumstances ε) (call : SystemCall) : EStateM (CreateError ε) Host Unit :=
  match env.fault call with
  | some e => throw (.failed e)
  | none => pure ()

/-- `os.path.exists()` -/
def pathExists (path : FilePath) : EStateM (CreateError ε) Host Bool := do
  return ((← get).file path).isSome

/-- `os.stat()` -/
def stat (env : Circumstances ε) (call : SystemCall) (path : FilePath) :
    EStateM (CreateError ε) Host Node := do
  attempt env call
  match (← get).file path with
  | some x => return x
  | none => throw .notFound

/-- `os.umask()` -/
def setUmask (mask : Mode) : EStateM (CreateError ε) Host Mode :=
  modifyGet fun s => (s.umask, { s with umask := mask })

/-- `socket(AF_UNIX)` -/
def socket (env : Circumstances ε) : EStateM (CreateError ε) Host Unit := do
  attempt env .socket
  modify fun s => { s with sockets := s.sockets ++ [.unbound] }

/-- `sock.bind()`: the new file has the bits that the mask leaves. -/
def bind (env : Circumstances ε) (path : FilePath) : EStateM (CreateError ε) Host Unit := do
  attempt env .bind
  if ((← get).entries path).isSome then throw .addressInUse
  modify fun s =>
    (s.setEntry path (some (.node ⟨env.inode, true, 0o777 &&& ~~~s.umask⟩))).setSocket .bound

/-- `os.chmod()` -/
def chmod (env : Circumstances ε) (path : FilePath) (mode : Mode) :
    EStateM (CreateError ε) Host Unit := do
  attempt env .chmod
  match follow (← get).entries maxLinks path with
  | some (name, x) => modify fun s => s.setEntry name (some (.node { x with mode := mode }))
  | none => throw .notFound

/-- `sock.listen()` -/
def listen (env : Circumstances ε) (backlog : ℕ) : EStateM (CreateError ε) Host Unit := do
  attempt env .listen
  modify fun s => s.setSocket (.listening backlog)

/-- `os.rename()`, over whatever is there. -/
def rename (env : Circumstances ε) (old new : FilePath) :
    EStateM (CreateError ε) Host Unit := do
  attempt env .rename
  match (← get).entries old with
  | some x => modify fun s => (s.setEntry new (some x)).setEntry old none
  | none => throw .notFound

/-- `os.unlink()` -/
def unlink (path : FilePath) : EStateM (CreateError ε) Host Unit := do
  if ((← get).entries path).isNone then throw .notFound
  modify fun s => s.setEntry path none

/-- `sock.close()` -/
def close : EStateM (CreateError ε) Host Unit := modify fun s => s.setSocket .closed

end Host

namespace UnixSocketListener

open Host UnixSockets

variable {ε : Type} (env : Circumstances ε) (path : FilePath) (mode : Mode) (backlog : ℕ)

/-- The innermost `try` but one: `bind()`, under a mask that prevents others from tampering with the
socket. -/
def bindMasked : EStateM (CreateError ε) Host Unit := do
  let oldMask ← setUmask 0o777
  try
    Host.bind env (tmpPath path env.hex)
  finally
    let _ ← setUmask oldMask

/-- …and the innermost one: from the temporary name to the path. -/
def publish : EStateM (CreateError ε) Host ℕ := do
  try
    let x ← stat env .statTemporary (tmpPath path env.hex)
    chmod env (tmpPath path env.hex) mode
    listen env backlog
    Host.rename env (tmpPath path env.hex) path
    pure x.inode
  catch e =>
    Host.unlink (tmpPath path env.hex)
    throw e

/-- The outer `try`. -/
def bindAndPublish : EStateM (CreateError ε) Host ℕ := do
  try
    bindMasked env path
    publish env path mode backlog
  catch e =>
    Host.close
    throw e

/-- `if os.path.exists(path) and not stat.S_ISSOCK(os.stat(path).st_mode)` -/
def checkPath : EStateM (CreateError ε) Host Unit := do
  if ← pathExists path then
    unless (← stat env .stat path).isSock do throw .fileExists

/-- `UnixSocketListener._create()` -/
def create : EStateM (CreateError ε) Host UnixSocketListener := do
  if !env.hasAfUnix then throw .notSupported
  checkPath env path
  socket env
  let inode ← bindAndPublish env path mode backlog
  return ⟨path, inode, true⟩

/-! ## The three `try` blocks -/

variable {env path mode backlog}

/-- There is a socket more than before. -/
structure Acquired (s₀ s : Host) : Prop where
  entries : s.entries = s₀.entries
  umask : s.umask = s₀.umask
  sockets : ∃ y, s.sockets = s₀.sockets ++ [y]

/-- …and it has a temporary name. -/
structure Drafted (tmp : FilePath) (x : Node) (s₀ s : Host) : Prop where
  entries : s.entries = Function.update s₀.entries tmp (some (.node x))
  umask : s.umask = s₀.umask
  sockets : ∃ y, s.sockets = s₀.sockets ++ [y]

/-- Nothing is left of the creation but a closed socket, if it has got that far. -/
structure Undone (s₀ s : Host) : Prop where
  entries : s.entries = s₀.entries
  umask : s.umask = s₀.umask
  sockets : s.sockets = s₀.sockets ∨ s.sockets = s₀.sockets ++ [.closed]

/-- The path is the listener's, and nothing else has changed. -/
structure Created (path tmp : FilePath) (mode : Mode) (backlog : ℕ) (s₀ : Host)
    (l : UnixSocketListener) (s : Host) : Prop where
  own : l.path = path
  named : s.entries path = some (.node ⟨l.inode, true, mode⟩)
  temporary : s.entries tmp = none
  others : ∀ p, p ≠ path → s.entries p = s₀.entries p
  umask : s.umask = s₀.umask
  sockets : s.sockets = s₀.sockets ++ [.listening backlog]
  /-- Whatever file has been at the path was a socket. -/
  replaced : ∀ x, s₀.file path = some x → x.isSock = true

/-- A system call fails. -/
def Faulty (env : Circumstances ε) : Prop := ∃ call e, env.fault call = some e

/-- There is a reason for an exception. -/
def Excused (env : Circumstances ε) (path : FilePath) (s : Host) : Prop :=
  env.hasAfUnix = false ∨ Faulty env ∨ ∃ x, s.file path = some x ∧ x.isSock = false

/-- A listening socket has got to the path. -/
structure Renamed (path : FilePath) (x : Node) (backlog : ℕ) (s₀ s : Host) : Prop where
  entries : s.entries = Function.update s₀.entries path (some (.node x))
  umask : s.umask = s₀.umask
  sockets : s.sockets = s₀.sockets ++ [.listening backlog]

variable {tmp : FilePath} {x : Node} {inode : ℕ} {s₀ s : Host}

theorem undone_self (s : Host) : Undone s s := ⟨rfl, rfl, .inl rfl⟩

theorem Renamed.created (h : Renamed path ⟨inode, true, mode⟩ backlog s₀ s) (hne : tmp ≠ path)
    (hfresh : s₀.entries tmp = none) (hsock : ∀ x, s₀.file path = some x → x.isSock = true) :
    Created path tmp mode backlog s₀ ⟨path, inode, true⟩ s where
  own := rfl
  named := by rw [h.entries, Function.update_self]
  temporary := by rw [h.entries, Function.update_of_ne hne, hfresh]
  others p hp := by rw [h.entries, Function.update_of_ne hp]
  umask := h.umask
  sockets := h.sockets
  replaced := hsock

namespace Drafted

theorem follow (h : Drafted tmp x s₀ s) (n : ℕ) :
    Host.follow s.entries n tmp = some (tmp, x) := by
  refine follow_of_node ?_ n
  rw [h.entries, Function.update_self]

theorem setMode (h : Drafted tmp x s₀ s) (mode : Mode) :
    Drafted tmp { x with mode := mode } s₀
      (s.setEntry tmp (some (.node { x with mode := mode }))) where
  entries := by simp [Host.setEntry, h.entries]
  umask := h.umask
  sockets := h.sockets

theorem setSocket (h : Drafted tmp x s₀ s) (y : SocketState) :
    Drafted tmp x s₀ (s.setSocket y) ∧ (s.setSocket y).sockets = s₀.sockets ++ [y] := by
  obtain ⟨z, hz⟩ := h.sockets
  have hlast : (s.setSocket y).sockets = s₀.sockets ++ [y] := by simp [Host.setSocket, hz]
  exact ⟨⟨h.entries, h.umask, y, hlast⟩, hlast⟩

theorem rename (h : Drafted tmp x s₀ s) (hsockets : s.sockets = s₀.sockets ++ [.listening backlog])
    (hfresh : s₀.entries tmp = none) (hne : path ≠ tmp) :
    Renamed path x backlog s₀ ((s.setEntry path (some (.node x))).setEntry tmp none) where
  entries := by
    have hself : Function.update s₀.entries tmp none = s₀.entries := by
      rw [Function.update_eq_self_iff, hfresh]
    simp only [Host.setEntry, h.entries]
    rw [Function.update_comm hne, Function.update_idem, hself]
  umask := h.umask
  sockets := hsockets

/-- The temporary name is gone again. -/
theorem unlink (h : Drafted tmp x s₀ s) (hfresh : s₀.entries tmp = none) :
    Acquired s₀ (s.setEntry tmp none) where
  entries := by simp [Host.setEntry, h.entries, Function.update_eq_self_iff, hfresh]
  umask := h.umask
  sockets := h.sockets

end Drafted

/-- `bind()` under a mask that leaves nothing. -/
theorem Acquired.bind (h : Acquired s₀ s) (tmp : FilePath) (inode : ℕ) :
    Drafted tmp ⟨inode, true, 0⟩ s₀
      { ({ s with umask := 0o777 }.setEntry tmp (some (.node ⟨inode, true, 0o777 &&& ~~~0o777⟩))
          ).setSocket .bound with umask := s.umask } := by
  obtain ⟨y, hy⟩ := h.sockets
  refine ⟨?_, h.umask, .bound, by simp [Host.setSocket, Host.setEntry, hy]⟩
  simp [Host.setSocket, Host.setEntry, h.entries]

theorem Acquired.close (h : Acquired s₀ s) : Undone s₀ (s.setSocket .closed) := by
  obtain ⟨y, hy⟩ := h.sockets
  exact ⟨h.entries, h.umask, .inr (by simp [Host.setSocket, hy])⟩

/-! ### The system calls, while the socket has its temporary name -/

section

variable (env tmp x s₀)

/-- A call that fails does nothing. -/
theorem spec_attempt (P : Host → Prop) (call : SystemCall) : ⦃fun s => ⌜P s⌝⦄ attempt env call
    ⦃post⟨fun _ s => ⌜P s⌝, fun _ s => ⌜P s ∧ Faulty env⌝⟩⦄ := by
  mvcgen [attempt]
  next he _ h => exact ⟨h, call, _, he⟩

theorem spec_stat (call : SystemCall) :
    ⦃fun s => ⌜Drafted tmp x s₀ s⌝⦄ stat env call tmp
    ⦃post⟨fun y s => ⌜y = x ∧ Drafted tmp x s₀ s⌝,
      fun _ s => ⌜Drafted tmp x s₀ s ∧ Faulty env⌝⟩⦄ := by
  have hattempt := spec_attempt env (Drafted tmp x s₀)
  mvcgen [stat, hattempt]
  · next h _ hy =>
    refine ⟨?_, h⟩
    simpa [Host.file, h.follow] using hy.symm
  · next h hnone => simp [Host.file, h.follow] at hnone

theorem spec_chmod (mode : Mode) : ⦃fun s => ⌜Drafted tmp x s₀ s⌝⦄ chmod env tmp mode
    ⦃post⟨fun _ s => ⌜Drafted tmp { x with mode := mode } s₀ s⌝,
      fun _ s => ⌜Drafted tmp x s₀ s ∧ Faulty env⌝⟩⦄ := by
  have hattempt := spec_attempt env (Drafted tmp x s₀)
  mvcgen [chmod, hattempt]
  · next h name y hy _ =>
    obtain ⟨rfl, rfl⟩ : tmp = name ∧ x = y := by simpa [h.follow] using hy
    exact h.setMode mode
  · next h hnone => simp [h.follow] at hnone

theorem spec_listen (backlog : ℕ) : ⦃fun s => ⌜Drafted tmp x s₀ s⌝⦄ Host.listen env backlog
    ⦃post⟨fun _ s => ⌜Drafted tmp x s₀ s ∧ s.sockets = s₀.sockets ++ [.listening backlog]⌝,
      fun _ s => ⌜Drafted tmp x s₀ s ∧ Faulty env⌝⟩⦄ := by
  have hattempt := spec_attempt env (Drafted tmp x s₀)
  mvcgen [Host.listen, hattempt]
  next h _ => exact h.setSocket _

theorem spec_rename (path : FilePath) (backlog : ℕ) (hfresh : s₀.entries tmp = none)
    (hne : path ≠ tmp) :
    ⦃fun s => ⌜Drafted tmp x s₀ s ∧ s.sockets = s₀.sockets ++ [.listening backlog]⌝⦄
      Host.rename env tmp path
    ⦃post⟨fun _ s => ⌜Renamed path x backlog s₀ s⌝,
      fun _ s => ⌜Drafted tmp x s₀ s ∧ Faulty env⌝⟩⦄ := by
  have hattempt := spec_attempt env fun s =>
    Drafted tmp x s₀ s ∧ s.sockets = s₀.sockets ++ [.listening backlog]
  mvcgen [Host.rename, hattempt]
  · next h y hy _ =>
    obtain rfl : .node x = y := by simpa [h.1.entries] using hy
    exact h.1.rename h.2 hfresh hne
  · next h hnone => simp [h.1.entries] at hnone
  · exact fun h _ hfaulty => ⟨h, hfaulty⟩

theorem spec_unlink (hfresh : s₀.entries tmp = none) :
    ⦃fun s => ⌜∃ x, Drafted tmp x s₀ s ∧ Faulty env⌝⦄
      (Host.unlink tmp : EStateM (CreateError ε) Host Unit)
    ⦃post⟨fun _ s => ⌜Acquired s₀ s ∧ Faulty env⌝,
      fun _ s => ⌜Acquired s₀ s ∧ Faulty env⌝⟩⦄ := by
  mvcgen [Host.unlink]
  · next h _ hnone =>
    obtain ⟨x, h, -⟩ := h
    simp [h.entries] at hnone
  · next h _ _ _ =>
    obtain ⟨x, h, hfaulty⟩ := h
    exact ⟨h.unlink hfresh, hfaulty⟩

/-! ### The blocks -/

variable (path mode backlog)

/-- **The innermost `try`**: the path is taken, or the temporary name is gone. -/
theorem spec_publish (hfresh : s₀.entries (tmpPath path env.hex) = none) :
    ⦃fun s => ⌜Drafted (tmpPath path env.hex) x s₀ s⌝⦄ publish env path mode backlog
    ⦃post⟨fun i s => ⌜i = x.inode ∧ Renamed path { x with mode := mode } backlog s₀ s⌝,
      fun _ s => ⌜Acquired s₀ s ∧ Faulty env⌝⟩⦄ := by
  have hne : path ≠ tmpPath path env.hex := (tmpPath_ne path env.hex).symm
  let y : Node := { x with mode := mode }
  have hstat := spec_stat env (tmpPath path env.hex) x s₀ .statTemporary
  have hchmod := spec_chmod env (tmpPath path env.hex) x s₀ mode
  have hlisten := spec_listen env (tmpPath path env.hex) y s₀ backlog
  have hrename := spec_rename env (tmpPath path env.hex) y s₀ path backlog hfresh hne
  refine EStateM.triple_reraise ?_ (spec_unlink env (tmpPath path env.hex) s₀ hfresh)
  mvcgen [hstat, hchmod, hlisten, hrename]
  · next h => exact h.2
  · next h _ _ _ _ _ _ _ _ hy => exact ⟨congrArg Node.inode h.1, hy⟩
  all_goals exact fun h hfaulty => ⟨_, h, hfaulty⟩

theorem spec_bind (hfresh : s.entries tmp = none) :
    ⦃fun s' => ⌜s' = s⌝⦄ Host.bind env tmp
    ⦃post⟨fun _ s' => ⌜s' = (s.setEntry tmp
        (some (.node ⟨env.inode, true, 0o777 &&& ~~~s.umask⟩))).setSocket .bound⌝,
      fun _ s' => ⌜s' = s ∧ Faulty env⌝⟩⦄ := by
  have hattempt := spec_attempt env (· = s)
  mvcgen [Host.bind, hattempt]
  · next h _ hsome => simp [h, hfresh] at hsome
  · next h _ _ _ => exact h ▸ rfl

/-- **The mask** is given back in any case, and the new file has no permissions yet. -/
theorem spec_bindMasked (hfresh : s₀.entries (tmpPath path env.hex) = none) :
    ⦃fun s => ⌜Acquired s₀ s⌝⦄ bindMasked env path
    ⦃post⟨fun _ s => ⌜Drafted (tmpPath path env.hex) ⟨env.inode, true, 0⟩ s₀ s⌝,
      fun _ s => ⌜Acquired s₀ s ∧ Faulty env⌝⟩⦄ := by
  mvcgen [bindMasked, setUmask, spec_bind, tryFinally]
  · next h _ _ => exact (congrFun h.entries _).trans hfresh
  · next h _ _ _ s hs _ =>
    subst hs
    exact h.bind (tmpPath path env.hex) env.inode
  · next h _ _ _ s hs _ =>
    obtain ⟨rfl, hfaulty⟩ := hs
    exact ⟨⟨h.entries, h.umask, h.sockets⟩, hfaulty⟩

/-- **The outer `try`**: the path is taken, or the socket is closed. -/
theorem spec_bindAndPublish (hfresh : s₀.entries (tmpPath path env.hex) = none) :
    ⦃fun s => ⌜Acquired s₀ s⌝⦄ bindAndPublish env path mode backlog
    ⦃post⟨fun i s => ⌜i = env.inode ∧ Renamed path ⟨env.inode, true, mode⟩ backlog s₀ s⌝,
      fun _ s => ⌜Undone s₀ s ∧ Faulty env⌝⟩⦄ := by
  refine EStateM.triple_reraise (S := fun s => Acquired s₀ s ∧ Faulty env) ?_ ?_
  · have hbind := spec_bindMasked env path s₀ hfresh
    have hpublish := spec_publish env path mode backlog ⟨env.inode, true, 0⟩ s₀ hfresh
    mvcgen [hbind, hpublish]
  · mvcgen [Host.close]
    next h _ => exact ⟨h.1.close, h.2⟩

theorem spec_checkPath : ⦃fun s => ⌜s = s₀⌝⦄ checkPath env path
    ⦃post⟨fun _ s => ⌜s = s₀ ∧ ∀ x, s₀.file path = some x → x.isSock = true⌝,
      fun _ s => ⌜s = s₀ ∧ Excused env path s₀⌝⟩⦄ := by
  have hattempt := spec_attempt env (· = s₀)
  mvcgen [checkPath, pathExists, stat, hattempt]
  · next hs x hx hsock =>
    subst hs
    exact ⟨rfl, fun y hy => Option.some.inj (hx.symm.trans hy) ▸ hsock⟩
  · next hs x hx hnot => exact ⟨hs, .inr (.inr ⟨x, hs ▸ hx, by simpa using hnot⟩)⟩
  · next hs hsome _ _ hs' hnone =>
    subst hs hs'
    simp [hnone] at hsome
  · exact fun hs hfaulty => ⟨hs, .inr (.inl hfaulty)⟩
  · next hs hnone =>
    subst hs
    exact ⟨rfl, fun x hx => absurd (hx ▸ rfl) hnone⟩

theorem spec_socket : ⦃fun s => ⌜s = s₀⌝⦄ socket env
    ⦃post⟨fun _ s => ⌜Acquired s₀ s⌝, fun _ s => ⌜s = s₀ ∧ Faulty env⌝⟩⦄ := by
  have hattempt := spec_attempt env (· = s₀)
  mvcgen [socket, hattempt]
  next h _ =>
    subst h
    exact ⟨rfl, rfl, .unbound, rfl⟩

theorem spec_create (hfresh : s₀.entries (tmpPath path env.hex) = none) :
    ⦃fun s => ⌜s = s₀⌝⦄ create env path mode backlog
    ⦃post⟨fun l s => ⌜Created path (tmpPath path env.hex) mode backlog s₀ l s⌝,
      fun _ s => ⌜Undone s₀ s ∧ Excused env path s₀⌝⟩⦄ := by
  have hblocks := spec_bindAndPublish env path mode backlog s₀ hfresh
  have hcheck := spec_checkPath env path s₀
  have hsocket := spec_socket env s₀
  mvcgen [create, hcheck, hsocket, hblocks]
  · next hunix _ hs => exact ⟨hs ▸ undone_self _, .inl (by simpa using hunix)⟩
  · next hs => exact hs.1
  · next hs _ _ _ _ _ hr =>
    obtain ⟨rfl, hrenamed⟩ := hr
    exact hrenamed.created (tmpPath_ne path env.hex) hfresh hs.2
  · exact fun hundone hfaulty => ⟨hundone, .inr (.inl hfaulty)⟩
  · exact fun hs hfaulty => ⟨hs ▸ undone_self _, .inr (.inl hfaulty)⟩
  · exact fun hs hexcused => ⟨hs ▸ undone_self _, hexcused⟩

end

/-- **A listener is created as a whole or not at all**, wherever `_create()` fails. -/
theorem create_atomic (env : Circumstances ε) (path : FilePath) (mode : Mode) (backlog : ℕ)
    (s : Host) (hfresh : s.entries (tmpPath path env.hex) = none) :
    match (create env path mode backlog).run s with
    | .ok l s' => Created path (tmpPath path env.hex) mode backlog s l s'
    | .error _ s' => Undone s s' ∧ s'.entries (tmpPath path env.hex) = none := by
  have h := EStateM.run_of_triple (spec_create env path mode backlog s hfresh) rfl
  cases hrun : (create env path mode backlog).run s with
  | ok l s' =>
    rw [hrun] at h
    exact h
  | error e s' =>
    rw [hrun] at h
    exact ⟨h.1, (congrFun h.1.entries _).trans hfresh⟩

/-- The new socket listens, and cannot be renamed. -/
def renameFails : Circumstances Unit where
  hasAfUnix := true
  hex := ['8', 'c']
  inode := 5
  fault call := if call = .rename then some () else none

/-- A dead socket is all there is. -/
def deadSocket : Host where
  entries p := if p = ['/', 'u'] then some (.node ⟨3, true, 0o666⟩) else none
  umask := 0o022
  sockets := []

/-- The dead socket is still there then, and nothing else. -/
theorem create_atomic_rename : ∃ e s',
    (create renameFails ['/', 'u'] 0o666 16).run deadSocket = .error e s' ∧
      Undone deadSocket s' ∧ s'.entries ['/', 'u', '.', '8', 'c'] = none :=
  ⟨_, _, rfl, create_atomic renameFails ['/', 'u'] 0o666 16 deadSocket rfl⟩

/-- …and it is created unless a system call fails, or a file is in the way. -/
theorem create_returns (hfresh : s.entries (tmpPath path env.hex) = none)
    (hunix : env.hasAfUnix = true) (hfault : ∀ call, env.fault call = none)
    (hsock : ∀ x, s.file path = some x → x.isSock = true) :
    ∃ l s', (create env path mode backlog).run s = .ok l s' := by
  have h := EStateM.run_of_triple (spec_create env path mode backlog s hfresh) rfl
  cases hrun : (create env path mode backlog).run s with
  | ok l s' => exact ⟨l, s', rfl⟩
  | error e s' =>
    rw [hrun] at h
    obtain hunix' | ⟨call, e, he⟩ | ⟨x, hx, hnot⟩ := h.2
    · simp [hunix] at hunix'
    · simp [hfault] at he
    · simp [hsock x hx] at hnot

/-! ## One creation among others -/

/-- The same files as another model has, where there are no links. -/
def Depicts (s : Host) (files : FilePath → Option File) : Prop :=
  ∃ bits : FilePath → Mode, ∀ p,
    s.entries p = (files p).map fun f => .node ⟨f.inode, f.kind.isSock, bits p⟩

variable {files : FilePath → Option File} {l : UnixSocketListener}

theorem Depicts.file (h : Depicts s files) {f : File} (hf : files path = some f) :
    ∃ x, s.file path = some x ∧ x.isSock = f.kind.isSock := by
  obtain ⟨bits, hs⟩ := h
  refine ⟨⟨f.inode, f.kind.isSock, bits path⟩, ?_, rfl⟩
  rw [Host.file, follow_of_node (by rw [hs, hf]; rfl)]
  rfl

theorem Depicts.free (h : Depicts s files) {p : FilePath} (hp : s.entries p = none) :
    files p = none := by
  obtain ⟨bits, hs⟩ := h
  simpa [hs] using hp

theorem Depicts.created (h : Depicts s₀ files) (hc : Created path tmp mode backlog s₀ l s)
    (k : ℕ) : Depicts s (Function.update files path (some ⟨l.inode, .socket k⟩)) := by
  obtain ⟨bits, hs⟩ := h
  refine ⟨Function.update bits path mode, fun p => ?_⟩
  by_cases hp : p = path
  · subst hp
    simp [hc.named, FileKind.isSock]
  · simp [hc.others p hp, hs, hp]

/-- **What one run of `_create()` does** is a creation among those of any number of listeners. -/
theorem create_refines {u : UnixSockets} (h : Depicts s u.files)
    (hfresh : s.entries (tmpPath path env.hex) = none) :
    match (create env path mode backlog).run s with
    | .ok l s' => Depicts s' (u.create path env.hex l.inode none).files
    | .error _ s' => Depicts s' (u.create path env.hex env.inode (some .bind)).files := by
  have hcreate := EStateM.run_of_triple (spec_create env path mode backlog s hfresh) rfl
  cases hrun : (create env path mode backlog).run s with
  | ok l s' =>
    rw [hrun] at hcreate
    have hsock : ∀ f, u.files path = some f → f.kind.isSock = true := fun f hf => by
      obtain ⟨x, hx, hkind⟩ := h.file hf
      exact hkind ▸ hcreate.replaced x hx
    change Depicts s' (u.create path env.hex l.inode none).files
    rw [u.create_of_free path env.hex l.inode hsock (h.free hfresh)]
    exact h.created hcreate _
  | error e s' =>
    rw [hrun] at hcreate
    obtain ⟨bits, hs⟩ := h
    change Depicts s' (u.create path env.hex env.inode (some .bind)).files
    rw [u.create_bind]
    exact ⟨bits, fun p => (congrFun hcreate.1.entries p).trans (hs p)⟩

/-- The same dead socket, in the other model. -/
def deadSocketOnly : UnixSockets where
  files p := if p = ['/', 'u'] then some ⟨3, .dead⟩ else none
  listeners := []

/-- A dead socket is still there when the new one cannot be renamed, in both. -/
theorem create_refines_rename : ∃ e s',
    (create renameFails ['/', 'u'] 0o666 16).run deadSocket = .error e s' ∧
      Depicts s' (deadSocketOnly.create ['/', 'u'] ['8', 'c'] 5 (some .bind)).files := by
  have hdead : Depicts deadSocket deadSocketOnly.files := by
    refine ⟨fun _ => 0o666, fun p => ?_⟩
    simp only [deadSocket, deadSocketOnly]
    split <;> rfl
  exact ⟨_, _, rfl, @create_refines Unit renameFails ['/', 'u'] 0o666 16 deadSocket _ hdead rfl⟩

end UnixSocketListener

end FlockwaveConn
