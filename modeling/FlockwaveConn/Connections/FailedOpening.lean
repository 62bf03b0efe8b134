import FlockwaveConn.Connections.Broadcast

/-!
# Connections/FailedOpening — what an opening that fails leaves behind

`_create_and_open_socket()` writes the broadcast address into the connection before it returns the
socket, and only `_close()` takes it out again.  In a `UDPListenerConnection` nothing comes after
that; a `MulticastUDPListenerConnection` still has to join its group, and if that fails, or is
cancelled, the address stays although the connection is `DISCONNECTED`.  In the runs in which it
does not happen a connection that is `DISCONNECTED` has no address of its own
(`forgets_of_notTooLate`).
-/

namespace FlockwaveConn

namespace UDPBroadcaster

open ConnectionBase

variable {Task : Type*}

/-- **A connection that is `DISCONNECTED` has no broadcast address** but the one that the user has
defined. -/
def Forgets (s : UDPBroadcaster Task) : Prop :=
  s.listener.base.state = .disconnected → s.userDefined = none →
    s.broadcastAddress = none ∧ s.broadcast = .noBroadcastAddressError

/-- **No opening fails once the broadcast address has been derived.** -/
def NotTooLate (cfg : BroadcastConfig) (s : UDPBroadcaster Task) : Label Task → Prop
  | .conn (.finish t _) => ∀ host port, s.opening t = .joining host port → s.inferred = none
  | .bound _ _ joins =>
    cfg.allowBroadcast = true → cfg.binding.getBroadcastAddress ≠ none → cfg.group = some false →
      joins = true
  | .lookedUp _ _ joins => cfg.group = some false → joins = true
  | .joined _ joins => joins = true ∨ s.inferred = none
  | .conn _ | .setUserDefined _ => True

/-! ## The invariant -/

variable {cfg : BroadcastConfig} {s s' : UDPBroadcaster Task} {t : Task}

/-- There is no address of a connection that is `DISCONNECTED`, and none before it is derived. -/
structure Clear (s : UDPBroadcaster Task) : Prop where
  disconnected : s.listener.base.state = .disconnected → s.inferred = none
  opening : ∀ t, s.listener.base.place t = .inside .up →
    (∀ host port, s.opening t ≠ .joining host port) → s.inferred = none

theorem Clear.of_none (h : s.inferred = none) : s.Clear := ⟨fun _ => h, fun _ _ _ => h⟩

theorem Clear.forgets (h : s.Clear) : s.Forgets := by
  intro hs hu
  have hnone : s.broadcastAddress = none := by rw [broadcastAddress, hu, h.disconnected hs]; rfl
  exact ⟨hnone, by rw [broadcast, hnone]⟩

/-- There never is an address, and nobody is about to derive one. -/
structure Silent (s : UDPBroadcaster Task) : Prop where
  userDefined : s.userDefined = none
  inferred : s.inferred = none
  opening : ∀ t port, s.opening t ≠ .lookingUp port

theorem Silent.init (cfg : BroadcastConfig) : Silent (.init cfg : UDPBroadcaster Task) :=
  ⟨rfl, rfl, nofun⟩

theorem Silent.broadcast (h : s.Silent) : s.broadcast = .noBroadcastAddressError := by
  rw [UDPBroadcaster.broadcast, broadcastAddress, h.userDefined, h.inferred]
  rfl

variable [DecidableEq Task]

/-- **The end of an opening**: it is a good one, or there was no address yet. -/
theorem Clear.endOpen (h : Tracked cfg s) (ht : s.listener.base.place t = .inside .up) {o : Outcome}
    {host : Option IPAddress} {port : ℕ} (ho : o.success = true ∨ s.inferred = none) :
    (s.endOpen o host port t).Clear := by
  have hlis := endOpen_listener o host port t s
  rcases ho with ho | hnone
  · refine ⟨fun hs => ?_, fun u hu => ?_⟩
    · simp [hlis, UDPListener.endOpen, ho, Direction.target] at hs
    · have hu' : (s.listener.base.leave .up o t).place u = .inside .up := by
        simpa [hlis, UDPListener.endOpen, ho] using hu
      obtain ⟨hut, hu'⟩ := place_of_put hu' (by simp)
      exact absurd (h.sound.alone u t (setState_place_inside.mp hu') ht) hut
  · exact .of_none ((endOpen_inferred ..).trans hnone)

/-- **The end of the base class's part**: what comes after it is a wait, or does not fail. -/
theorem Clear.created (h : Tracked cfg s) (ht : s.listener.base.place t = .inside .up)
    {joins : Bool} {host : Option IPAddress} {port : ℕ}
    (hj : cfg.group = some false → joins = true) : (s.created cfg joins host port t).Clear := by
  unfold UDPBroadcaster.created
  split
  · refine ⟨fun hs => absurd hs (h.sound.opening t ht).1, fun u hu hnot => ?_⟩
    obtain rfl : u = t := h.sound.alone u t hu ht
    exact absurd (Function.update_self ..) (hnot host port)
  · next hg =>
    have hok : (cfg.group.isSome && !joins) = false := by
      rcases hgroup : cfg.group with _ | _ | _
      · rfl
      · simp [hj hgroup]
      · exact absurd hgroup hg
    exact Clear.endOpen h ht (.inl (by rw [hok]; rfl))

/-- A stretch that does not come to `_close()` is no way to `DISCONNECTED`, and whoever it takes
into `_open()` finds the connection there. -/
theorem disconnected_of_step {c c' : UDPListener Task} {l : ConnectionBase.Label Task}
    (hsound : c.Sound) (hl : ∀ t o, l ≠ .finish t o) (hs : c.step l = some c')
    (hc : closes c l = false) :
    (c'.base.state = .disconnected → c.base.state = .disconnected) ∧
      ∀ t, c'.base.place t = .inside .up →
        c.base.place t = .inside .up ∨ c.base.state = .disconnected := by
  obtain ⟨b, hb, rfl⟩ := exists_base_step hl hs
  have hnot : b.place l.task ≠ .inside .down := by simpa [closes, hb] using hc
  rw [UDPListener.runClose_of_not_inside hnot]
  cases ConnectionBase.move_of_step hb with
  | noop => exact ⟨id, fun t ht => .inl ht⟩
  | join | queue | released | giveUp =>
    exact ⟨id, fun u hu => .inl (place_of_put hu (by simp)).2⟩
  | @start d t _ hst =>
    cases d with
    | up => exact ⟨fun _ => hst, fun _ _ => .inr hst⟩
    | down => exact absurd (put_place_self ..) hnot
  | @goOn d t hp =>
    cases d with
    | up => exact absurd hp (hsound.noQueue t true)
    | down => exact absurd (put_place_self ..) hnot
  | finish => exact absurd rfl (hl _ _)

/-- **A stretch of `open()` or `close()` that does not end an opening.** -/
theorem Clear.conn (h : s.Clear) {l : ConnectionBase.Label Task} {c : UDPListener Task}
    (hsound : s.listener.Sound) (hl : ∀ t o, l ≠ .finish t o) (hs : s.listener.step l = some c) :
    Clear { s with
      listener := c, inferred := if closes s.listener l then none else s.inferred } := by
  cases hc : closes s.listener l with
  | true => exact .of_none rfl
  | false =>
    obtain ⟨hstate, hplace⟩ := disconnected_of_step hsound hl hs hc
    refine ⟨fun hd => h.disconnected (hstate hd), fun u hu hnot => ?_⟩
    rcases hplace u hu with hin | hd
    · exact h.opening u hin hnot
    · exact h.disconnected hd

/-- **One step** of a connection that may broadcast. -/
theorem Clear.move (h : s.Clear) (htracked : Tracked cfg s) (hallow : cfg.allowBroadcast = true)
    {l : Label Task} (hm : Move cfg s l s') (hl : NotTooLate cfg s l) : s'.Clear := by
  cases hm with
  | conn hfin hs => exact h.conn htracked.sound hfin hs
  | @fail t o ht _ =>
    refine .endOpen htracked ht (.inr ?_)
    by_cases hj : ∃ host port, s.opening t = .joining host port
    · obtain ⟨host, port, hj⟩ := hj
      exact hl host port hj
    · exact h.opening t ht fun host port hjoin => hj ⟨host, port, hjoin⟩
  | derive ht hb hhost =>
    exact .created (htracked.known ht (by simp [hb]) _ _) ht (hl hallow (by simp [hhost]))
  | @lookUp t _ _ ht hb =>
    have hnone : s.inferred = none := h.opening t ht (by simp [hb])
    exact .of_none hnone
  | @lookedUp t _ _ _ _ ht =>
    have hin := htracked.inside t (by simp [ht])
    exact .created (htracked.known hin (by simp [ht]) _ _) hin hl
  | @join t _ _ joins ht =>
    refine .endOpen htracked (htracked.inside t (by simp [ht])) ?_
    rcases hl with rfl | hnone
    · exact .inl (by simp [Outcome.success])
    · exact .inr hnone
  | setUserDefined => exact ⟨h.disconnected, h.opening⟩

/-! ## Where broadcasts are not allowed -/

theorem Silent.goTo (h : s.Silent) {o : Opening} (ho : ∀ port, o ≠ .lookingUp port) :
    (s.goTo t o).Silent := by
  refine ⟨h.userDefined, h.inferred, fun u port hu => ?_⟩
  rw [goTo_opening] at hu
  split at hu
  · exact ho port hu
  · exact h.opening u port hu

theorem Silent.endOpen (h : s.Silent) (o : Outcome) (host : Option IPAddress) (port : ℕ) :
    (s.endOpen o host port t).Silent := by
  refine ⟨(endOpen_userDefined ..).trans h.userDefined, (endOpen_inferred ..).trans h.inferred,
    fun u port' hu => ?_⟩
  rw [endOpen_opening] at hu
  split at hu
  · cases hu
  · exact h.opening u port' hu

theorem Silent.created (h : s.Silent) (joins : Bool) (host : Option IPAddress) (port : ℕ) :
    (s.created cfg joins host port t).Silent := by
  unfold UDPBroadcaster.created
  split
  · exact h.goTo nofun
  · exact h.endOpen _ _ _

theorem Silent.step (hallow : cfg.allowBroadcast = false) (h : s.Silent) {l : Label Task}
    (hs : s.step cfg l = some s') : s'.Silent := by
  cases l with
  | conn l =>
    cases l with
    | finish t o =>
      obtain ⟨-, rfl⟩ : _ ∧ s.endOpen o none 0 t = s' := by simpa [UDPBroadcaster.step] using hs
      exact h.endOpen _ _ _
    | call | resume | interrupt =>
      obtain ⟨c, -, rfl⟩ := Option.map_eq_some_iff.mp hs
      exact ⟨h.userDefined, by simp [h.inferred], h.opening⟩
  | bound t port joins =>
    cases hb : s.opening t with
    | binding =>
      obtain ⟨-, rfl⟩ : _ ∧ s.bound cfg joins port t = s' := by
        simpa [UDPBroadcaster.step, hb] using hs
      rw [UDPBroadcaster.bound, hallow]
      exact h.created _ _ _
    | _ => simp [UDPBroadcaster.step, hb] at hs
  | lookedUp t host joins =>
    cases ho : s.opening t with
    | lookingUp port => exact absurd ho (h.opening t port)
    | _ => simp [UDPBroadcaster.step, ho] at hs
  | joined t joins =>
    cases ho : s.opening t with
    | joining host port =>
      obtain rfl : s.join cfg joins host port t = s' := by simpa [UDPBroadcaster.step, ho] using hs
      exact h.endOpen _ _ _
    | _ => simp [UDPBroadcaster.step, ho] at hs
  | setUserDefined a =>
    obtain rfl := Option.some.inj hs
    split
    · exact h
    · next ha =>
      have hnone : a = none := by simpa [hallow] using ha
      exact ⟨hnone, h.inferred, h.opening⟩

/-! ## In every run -/

/-- **Where no opening fails too late, a connection that is `DISCONNECTED` has no broadcast address
of its own.** -/
theorem forgets_of_notTooLate (cfg : BroadcastConfig) (s : UDPBroadcaster Task)
    (h : (udpBroadcaster Task cfg).Reach (NotTooLate cfg) s) : s.Forgets := by
  cases hallow : cfg.allowBroadcast with
  | true =>
    have hinv : Tracked cfg s ∧ s.Clear := by
      refine h.invariant (I := fun s => Tracked cfg s ∧ s.Clear)
        ⟨tracked_init cfg, .of_none rfl⟩ ?_
      intro s l s' hI hl hs
      have hm := move_of_step hallow hI.1 hs
      exact ⟨hI.1.move hm, hI.2.move hI.1 hallow hm hl⟩
    exact hinv.2.forgets
  | false =>
    have hinv : s.Silent := h.invariant (I := Silent) (.init cfg)
      fun _ _ _ hI _ hs => hI.step hallow hs
    exact (Clear.of_none hinv.inferred).forgets

/-- `MulticastUDPListenerConnection("239.255.1.2")`. -/
def multicast : BroadcastConfig := ⟨.fixed "239.255.1.2" 0, true, none, some false⟩

/-- Its socket cannot be bound at first; then it can, and the connection is closed again. -/
theorem forgets_multicast :
    ∃ s, (udpBroadcaster Unit multicast).exec (.init multicast)
        [.conn (.call .up ()), .conn (.finish () .raised), .conn (.call .up ()),
          .bound () 5000 true, .conn (.call .down ())] = some s ∧
      s.listener.base.state = .disconnected ∧ s.broadcastPort = some 5000 ∧ s.Forgets := by
  refine ⟨_, rfl, rfl, rfl, forgets_of_notTooLate multicast _ ?_⟩
  refine .next (l := .conn (.call .down ())) (.next (l := .bound () 5000 true)
    (.next (l := .conn (.call .up ())) (.next (l := .conn (.finish () .raised))
      (.next (l := .conn (.call .up ())) .init trivial rfl) ?_ rfl) trivial rfl) ?_ rfl) trivial rfl
  · exact fun _ _ _ => rfl
  · exact fun _ _ _ => rfl

/-- **It cannot join its group**, and still has a broadcast address. -/
theorem address_left_behind :
    ¬ ∀ (cfg : BroadcastConfig) (s : UDPBroadcaster Unit),
      (udpBroadcaster Unit cfg).Reachable s → s.Forgets := by
  intro h
  have hrun := h multicast _ (Machine.reachable_of_exec
    [.conn (.call .up ()), .bound () 5000 false] rfl)
  have hnone : some (IPAddress.limitedBroadcast, 5000) = none := (hrun rfl rfl).1
  cases hnone

end UDPBroadcaster

end FlockwaveConn
