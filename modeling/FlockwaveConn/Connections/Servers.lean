import Mathlib.Tactic
import FlockwaveConn.Machinery.Transition

/-!
# Connections/Servers — Unix domain socket listeners that share a path

`UnixSocketListener` binds its socket under a name of its own and renames it to the path, over
whatever socket is there; a listener that closes tries the path, and removes it if nobody answers
and the inode is its own.  So a path is the last listener's that was created on it, for as long as
that one is open, and then it is free (`paths_respected`).

No inode number has to be one of its own for that: from the first listener on, a path never leads to
a socket that nobody listens on.
-/

namespace FlockwaveConn

/-- An absolute path. -/
abbrev FilePath := List Char

/-- What an inode is of. -/
inductive FileKind
  /-- Not a socket. -/
  | regular
  /-- A socket whose process is gone. -/
  | dead
  /-- The socket of a listener, by the number of the listener. -/
  | socket (k : ℕ)
  deriving DecidableEq, Repr

/-- `stat.S_ISSOCK`. -/
def FileKind.isSock : FileKind → Bool
  | .regular => false
  | .dead | .socket _ => true

/-- What a path leads to. -/
structure File where
  inode : ℕ
  kind : FileKind
  deriving DecidableEq, Repr

/-- What other processes have left behind. -/
structure Leftover where
  inode : ℕ
  isSock : Bool

def Leftover.file (x : Leftover) : File := ⟨x.inode, if x.isSock then .dead else .regular⟩

/-- A `UnixSocketListener`. -/
structure UnixSocketListener where
  path : FilePath
  inode : ℕ
  /-- `_wrapped_listener` has not been closed. -/
  listening : Bool
  deriving DecidableEq, Repr

/-- How `connect()` ends. -/
inductive Connect
  /-- Listener `k` answers. -/
  | answered (k : ℕ)
  /-- `ConnectionRefusedError`. -/
  | refused
  | notFound
  deriving DecidableEq, Repr

/-- The file system and the listeners created so far, in the order of their creation. -/
structure UnixSockets where
  files : FilePath → Option File
  listeners : List UnixSocketListener

namespace UnixSockets

/-- Where `_create()` fails once its first check has passed. -/
inductive Failure
  /-- In `bind()`. -/
  | bind
  /-- In `stat()`, `chmod()`, `listen()` or `rename()`. -/
  | afterBind
  deriving DecidableEq, Repr

/-- The operations of any number of listeners, each of them atomic. -/
inductive Label
  /-- `UnixSocketListener.create(path)`, with the digits of `uuid4()`, the inode of the new socket
  and what goes wrong, if anything does. -/
  | create (path hex : FilePath) (inode : ℕ) (failure : Option Failure)
  /-- `aclose()` of listener `k`. -/
  | aclose (k : ℕ)

/-- What other processes have left behind, and no listener. -/
def init (leftovers : FilePath → Option Leftover) : UnixSockets where
  files := fun p => (leftovers p).map Leftover.file
  listeners := []

/-- `f"{path}.{uuid4().hex[:8]}"`. -/
def tmpPath (path hex : FilePath) : FilePath := path ++ '.' :: hex

/-- `connect(path)`. -/
def connect (path : FilePath) (s : UnixSockets) : Connect :=
  match s.files path with
  | none => .notFound
  | some ⟨_, .socket k⟩ =>
    if (s.listeners[k]?.map UnixSocketListener.listening).getD false then .answered k else .refused
  | some ⟨_, .dead⟩ | some ⟨_, .regular⟩ => .refused

/-- `os.unlink(path)`. -/
def unlink (path : FilePath) (s : UnixSockets) : UnixSockets :=
  { s with files := Function.update s.files path none }

/-- `os.rename(old, new)`. -/
def rename (old new : FilePath) (s : UnixSockets) : UnixSockets :=
  { s with files := Function.update (Function.update s.files new (s.files old)) old none }

/-- A socket is bound to a path, for the listener that is created next. -/
def bind (path : FilePath) (inode : ℕ) (s : UnixSockets) : UnixSockets :=
  { s with files := Function.update s.files path (some ⟨inode, .socket s.listeners.length⟩) }

/-- `UnixSocketListener._create`; where it raises there is no new listener. -/
def create (path hex : FilePath) (inode : ℕ) (failure : Option Failure) (s : UnixSockets) :
    UnixSockets :=
  -- `FileExistsError`
  if (s.files path).any fun f => !f.kind.isSock then s
  else
    let tmp := tmpPath path hex
    if (s.files tmp).isSome || failure = some .bind then s
    else
      let s := s.bind tmp inode
      if failure = some .afterBind then s.unlink tmp
      else
        let s := s.rename tmp path
        { s with listeners := s.listeners ++ [⟨path, inode, true⟩] }

/-- `UnixSocketListener._close`. -/
def close (l : UnixSocketListener) (s : UnixSockets) : UnixSockets :=
  match s.connect l.path with
  | .refused => if (s.files l.path).any fun f => l.inode = f.inode then s.unlink l.path else s
  | .answered _ | .notFound => s

/-- `UnixSocketListener.aclose`. -/
def aclose (k : ℕ) (l : UnixSocketListener) (s : UnixSockets) : UnixSockets :=
  { s with listeners := s.listeners.set k { l with listening := false } }.close l

/-- One operation. -/
def step (s : UnixSockets) : Label → Option UnixSockets
  | .create path hex inode failure => some (s.create path hex inode failure)
  | .aclose k => s.listeners[k]?.map fun l => s.aclose k l

end UnixSockets

/-- **Listeners that come and go**, on any paths. -/
def unixSockets (leftovers : FilePath → Option Leftover) :
    Machine UnixSockets UnixSockets.Label where
  init := .init leftovers
  step := UnixSockets.step

namespace UnixSockets

/-! ## Whose the path is -/

/-- Listener `k` is the last one that was created on its path. -/
def Latest (s : UnixSockets) (k : ℕ) (l : UnixSocketListener) : Prop :=
  s.listeners[k]? = some l ∧
    ∀ j l', s.listeners[j]? = some l' → l'.path = l.path → j ≤ k

/-- Another listener has been created on the path since. -/
def Superseded (s : UnixSockets) (k : ℕ) (l : UnixSocketListener) : Prop :=
  ∃ j l', k < j ∧ s.listeners[j]? = some l' ∧ l'.path = l.path

/-- The path of a listener leads to its own socket. -/
def Owns (s : UnixSockets) (k : ℕ) (l : UnixSocketListener) : Prop :=
  s.files l.path = some ⟨l.inode, .socket k⟩

/-- **The listener that was created last on a path answers there**, until it is closed. -/
def LatestAnswers (s : UnixSockets) : Prop :=
  ∀ k l, s.Latest k l → l.listening → s.connect l.path = .answered k

/-- **A listener that closes takes no path but its own away.** -/
def ClosesOwnPath (s : UnixSockets) (x : Label) (s' : UnixSockets) : Prop :=
  ∀ k l, x = .aclose k → s.listeners[k]? = some l →
    (s.Superseded k l → s'.files = s.files) ∧
      (s.Owns k l → s'.files = Function.update s.files l.path none)

/-- The path of the last listener leads to its socket, or nowhere once it has been closed. -/
def Respected (s : UnixSockets) : Prop :=
  ∀ k l, s.Latest k l → s.files l.path = if l.listening then some ⟨l.inode, .socket k⟩ else none

variable {s : UnixSockets} {k : ℕ} {l : UnixSocketListener}

theorem tmpPath_ne (path hex : FilePath) : tmpPath path hex ≠ path := by
  intro h
  have hlen := congrArg List.length h
  simp [tmpPath] at hlen

/-- Every path with a listener has a last one. -/
theorem exists_latest (hk : s.listeners[k]? = some l) :
    ∃ j l', s.Latest j l' ∧ l'.path = l.path ∧ k ≤ j := by
  classical
  let P : ℕ → Prop := fun j => ∃ l', s.listeners[j]? = some l' ∧ l'.path = l.path
  have hlt : ∀ {j l'}, s.listeners[j]? = some l' → j ≤ s.listeners.length :=
    fun h => (List.getElem?_eq_some_iff.mp h).1.le
  obtain ⟨l', hl', hpath⟩ : P (Nat.findGreatest P s.listeners.length) :=
    Nat.findGreatest_spec (hlt hk) ⟨l, hk, rfl⟩
  refine ⟨_, l', ⟨hl', fun i li hi hpi => ?_⟩, hpath, Nat.le_findGreatest (hlt hk) ⟨l, hk, rfl⟩⟩
  exact Nat.le_findGreatest (hlt hi) ⟨li, hi, hpi.trans hpath⟩

theorem Superseded.not_latest (h : s.Superseded k l) : ¬ s.Latest k l := by
  obtain ⟨j, l', hkj, hj, hpath⟩ := h
  exact fun hl => hkj.not_ge (hl.2 j l' hj hpath)

theorem Respected.latestAnswers (h : s.Respected) : s.LatestAnswers := by
  intro k l hl hopen
  have hf := h k l hl
  simp [hopen] at hf
  simp [connect, hf, hl.1, hopen]

theorem respected_init (leftovers : FilePath → Option Leftover) : (init leftovers).Respected := by
  rintro k l ⟨hk, -⟩
  simp [init] at hk

/-! ## One operation -/

/-- From the temporary name to the path. -/
theorem rename_bind (path hex : FilePath) (inode : ℕ) (s : UnixSockets)
    (hfree : s.files (tmpPath path hex) = none) :
    (s.bind (tmpPath path hex) inode).rename (tmpPath path hex) path =
      { s with
        files := Function.update s.files path (some ⟨inode, .socket s.listeners.length⟩) } := by
  have hne : path ≠ tmpPath path hex := (tmpPath_ne path hex).symm
  have hself : Function.update s.files (tmpPath path hex) none = s.files := by
    rw [Function.update_eq_self_iff, hfree]
  simp only [bind, rename, UnixSockets.mk.injEq, and_true, Function.update_self]
  rw [Function.update_comm hne, Function.update_idem, hself]

theorem create_of_free (path hex : FilePath) (inode : ℕ) (s : UnixSockets)
    (hsock : ∀ f, s.files path = some f → f.kind.isSock = true)
    (hfree : s.files (tmpPath path hex) = none) :
    s.create path hex inode none =
      { files := Function.update s.files path (some ⟨inode, .socket s.listeners.length⟩)
        listeners := s.listeners ++ [⟨path, inode, true⟩] } := by
  have hany : (s.files path).any (fun f => !f.kind.isSock) = false := by
    cases hf : s.files path with
    | none => rfl
    | some f => simp [hsock f hf]
  simp [create, hany, hfree, rename_bind]

theorem create_bind (path hex : FilePath) (inode : ℕ) (s : UnixSockets) :
    s.create path hex inode (some .bind) = s := by
  simp [create]

/-- **A creation** leaves everything as it is, or takes the path over. -/
theorem create_cases (path hex : FilePath) (inode : ℕ) (failure : Option Failure)
    (s : UnixSockets) :
    s.create path hex inode failure = s ∨
      s.create path hex inode failure =
        { files := Function.update s.files path (some ⟨inode, .socket s.listeners.length⟩)
          listeners := s.listeners ++ [⟨path, inode, true⟩] } := by
  unfold create
  split
  · exact .inl rfl
  dsimp only
  split
  · exact .inl rfl
  · next htmp =>
    have hnone : s.files (tmpPath path hex) = none := by
      simp only [Bool.or_eq_true, not_or] at htmp
      simpa using htmp.1
    split
    · refine .inl ?_
      simp [bind, unlink, ← hnone]
    · exact .inr (by rw [rename_bind path hex inode s hnone])

/-- **A closing**: the listener no longer listens, and a path that is its own is gone. -/
theorem aclose_listeners : (s.aclose k l).listeners =
    s.listeners.set k { l with listening := false } := by
  unfold aclose close
  split
  · split <;> rfl
  · rfl
  · rfl

theorem aclose_of_owns (hk : s.listeners[k]? = some l) (h : s.Owns k l) :
    (s.aclose k l).files = Function.update s.files l.path none := by
  have hlt : k < s.listeners.length := (List.getElem?_eq_some_iff.mp hk).1
  have hf : s.files l.path = some ⟨l.inode, .socket k⟩ := h
  have hrefused : connect l.path
      { s with listeners := s.listeners.set k { l with listening := false } } = .refused := by
    simp [connect, hf, hlt]
  unfold aclose close
  simp [hrefused, hf, unlink]

theorem aclose_of_ne {q : FilePath} (hq : q ≠ l.path) : (s.aclose k l).files q = s.files q := by
  unfold aclose close
  split
  · split
    · exact Function.update_of_ne hq ..
    · rfl
  · rfl
  · rfl

/-- Nothing happens where the path is free, or another listener answers. -/
theorem aclose_of_not_refused
    (h : connect l.path { s with listeners := s.listeners.set k { l with listening := false } } ≠
      .refused) : (s.aclose k l).files = s.files := by
  unfold aclose close
  split
  · next hr => exact absurd hr h
  · rfl
  · rfl

theorem aclose_of_free (h : s.files l.path = none) : (s.aclose k l).files = s.files :=
  aclose_of_not_refused (by simp [connect, h])

/-- **A listener that has been superseded leaves all paths alone.** -/
theorem Respected.aclose_of_not_latest (h : s.Respected) (hk : s.listeners[k]? = some l)
    (hl : ¬ s.Latest k l) : (s.aclose k l).files = s.files := by
  obtain ⟨j, l', hj, hpath, -⟩ := exists_latest hk
  have hkj : k ≠ j := by
    rintro rfl
    obtain rfl := Option.some.inj (hk.symm.trans hj.1)
    exact hl hj
  have hf := h j l' hj
  rw [hpath] at hf
  split at hf
  · next hopen =>
    refine aclose_of_not_refused ?_
    simp [connect, hf, List.getElem?_set_ne hkj, hj.1, hopen]
  · exact aclose_of_free hf

theorem Respected.create (h : s.Respected) (path hex : FilePath) (inode : ℕ)
    (failure : Option Failure) : (s.create path hex inode failure).Respected := by
  rcases create_cases path hex inode failure s with heq | heq
  · rwa [heq]
  rw [heq]
  rintro k l ⟨hk, hmax⟩
  simp only [List.getElem?_append] at hk hmax
  have hlast : path = l.path → s.listeners.length ≤ k :=
    fun hp => hmax _ ⟨path, inode, true⟩ (by simp) hp
  split at hk
  · next hlt =>
    have hne : l.path ≠ path := fun hp => (hlast hp.symm).not_gt hlt
    change Function.update s.files path _ l.path = _
    rw [Function.update_of_ne hne]
    refine h k l ⟨hk, fun j l' hj hp => hmax j l' ?_ hp⟩
    rwa [if_pos (List.getElem?_eq_some_iff.mp hj).1]
  · next hge =>
    obtain ⟨hidx, rfl⟩ :
        k - s.listeners.length = 0 ∧ (⟨path, inode, true⟩ : UnixSocketListener) = l := by
      simpa [List.getElem?_singleton] using hk
    obtain rfl : k = s.listeners.length := by omega
    simp

theorem Respected.aclose (h : s.Respected) (hk : s.listeners[k]? = some l) :
    (s.aclose k l).Respected := by
  have hlt : k < s.listeners.length := (List.getElem?_eq_some_iff.mp hk).1
  rintro j m ⟨hj, hmax⟩
  rw [aclose_listeners] at hj hmax
  -- the listener itself is the same for its path, only closed
  have hold : ∀ (i : ℕ) (n : UnixSocketListener), s.listeners[i]? = some n →
      ∃ n' : UnixSocketListener, (s.listeners.set k { l with listening := false })[i]? = some n' ∧
        n'.path = n.path := by
    intro i n hi
    by_cases hki : k = i
    · subst hki
      obtain rfl := Option.some.inj (hk.symm.trans hi)
      exact ⟨_, List.getElem?_set_self hlt, rfl⟩
    · exact ⟨n, (List.getElem?_set_ne hki).trans hi, rfl⟩
  have hmax' : ∀ i n, s.listeners[i]? = some n → n.path = m.path → i ≤ j := by
    intro i n hi hp
    obtain ⟨n', hn', hp'⟩ := hold i n hi
    exact hmax i n' hn' (hp'.trans hp)
  by_cases hkj : k = j
  · subst hkj
    obtain rfl : { l with listening := false } = m :=
      Option.some.inj ((List.getElem?_set_self hlt).symm.trans hj)
    have hlatest : s.Latest k l := ⟨hk, hmax'⟩
    have hf := h k l hlatest
    split at hf
    · rw [aclose_of_owns hk hf]
      simp
    · rw [aclose_of_free hf]
      simpa using hf
  · rw [List.getElem?_set_ne hkj] at hj
    have hlatest : s.Latest j m := ⟨hj, hmax'⟩
    by_cases hp : l.path = m.path
    · have hnot : ¬ s.Latest k l := by
        intro hl
        exact hkj (le_antisymm (hmax' k l hk hp) (hl.2 j m hj hp.symm))
      rw [h.aclose_of_not_latest hk hnot]
      exact h j m hlatest
    · rw [aclose_of_ne (Ne.symm hp)]
      exact h j m hlatest

/-- **One operation.** -/
theorem Respected.step {x : Label} {s' : UnixSockets} (h : s.Respected) (hs : s.step x = some s') :
    s'.Respected ∧ s.ClosesOwnPath x s' := by
  cases x with
  | create path hex inode failure =>
    obtain rfl := Option.some.inj hs
    exact ⟨h.create path hex inode failure, fun k l hx => nomatch hx⟩
  | aclose k =>
    obtain ⟨l, hl, rfl⟩ := Option.map_eq_some_iff.mp hs
    refine ⟨h.aclose hl, ?_⟩
    rintro _ _ ⟨⟩ hl'
    obtain rfl := Option.some.inj (hl.symm.trans hl')
    exact ⟨fun hsup => h.aclose_of_not_latest hl hsup.not_latest, aclose_of_owns hl⟩

end UnixSockets

/-- **Listeners that share a path respect each other**, in any run and whatever other processes have
left behind: the last one created answers until it is closed, one that has been superseded takes
nothing away, and the owner takes the path away. -/
theorem paths_respected (leftovers : FilePath → Option Leftover) (xs : List UnixSockets.Label) :
    (unixSockets leftovers).Along UnixSockets.LatestAnswers (.init leftovers) xs ∧
      (unixSockets leftovers).Throughout UnixSockets.ClosesOwnPath (.init leftovers) xs := by
  have hguard := Machine.guarded_anyStep (M := unixSockets leftovers) (.init leftovers) xs
  have hinit := UnixSockets.respected_init leftovers
  refine ⟨?_, hguard.throughout hinit fun s x s' h _ hs => h.step hs⟩
  exact (hguard.along hinit fun s x s' h _ hs => (h.step hs).1).mono fun s h => h.latestAnswers

end FlockwaveConn
