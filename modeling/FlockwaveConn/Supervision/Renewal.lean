import FlockwaveConn.Connections.Invariant
import FlockwaveConn.Connections.Session
import FlockwaveConn.Supervision.Attempts

/-!
# Supervision/Renewal — is a supervised connection closed after an attempt?

`supervise()` opens the connection at the start of an attempt, and at its end it only asks the
policy what to do: it never closes the connection.  Where the attempt ends because the connection
has dropped, or because `open()` failed, there is nothing to close.  Where it ends because the task
does, the connection stays up: it is up when `supervise()` returns, and if the loop goes on `open()`
has nothing to do, so the next `"open"` is about the same connection (`tornDown_of_keeps`).
-/

namespace FlockwaveConn.Supervision

variable {ε : Type*}

namespace Supervising

/-! ## Where a step leads -/

/-- The attempt has its verdict. -/
def Over : Place ε → Prop
  | .sleeping _ | .done _ => True
  | .opening | .waiting | .nursery _ => False

/-- The policy was called with `"open"`. -/
def isAnnouncement : Happening ε → Bool
  | .note (.asked .opened _) => true
  | _ => false

/-- How often it was. -/
def announcements (s : Supervising ε) : ℕ := s.log.countP isAnnouncement

/-- **Where a step of `supervise()` leads.** -/
inductive Goes (P : SupervisionPolicy ε) (hasTask : Bool) : Place ε → Label ε → Place ε → Prop
  | opened : Goes P hasTask .opening .opened (enter hasTask .attending)
  /-- The policy raises when it is called with `"open"`. -/
  | raised {log : List (Happening ε)} {e : Raised ε} {q : Place ε}
    (he : P log .opened = .error e) (hq : Over q) : Goes P hasTask .opening .opened q
  | openFailed {e : ε} {q : Place ε} (hq : Over q) : Goes P hasTask .opening (.openFailed e) q
  | begin_ {n : Nursery ε} {c : Child} (hc : n.child c = .scheduled) :
    Goes P hasTask (.nursery n) (.begin_ c) (.nursery (n.begin_ c))
  | ends {n : Nursery ε} {c : Child} {o : Ending ε} (hc : n.child c = .running)
    (ho : o = .cancelled → n.cancelled = true) :
    Goes P hasTask (.nursery n) (.ends c o) (.nursery (n.finish c o))
  | leave {n : Nursery ε} {o : Ending ε} {q : Place ε} (ht : n.child .task = .ended o)
    (hq : Over q) : Goes P hasTask (.nursery n) .leave q
  | dropped {e : Option ε} {q : Place ε} (hq : Over q) : Goes P hasTask .waiting (.dropped e) q
  | slept {x : ℚ} : Goes P hasTask (.sleeping x) .slept .opening

variable {P : SupervisionPolicy ε} {hasTask : Bool} {s s' : Supervising ε}

theorem over_verdict (ask : Ask (Raised ε)) (ns : List (Note (Raised ε)))
    (arg : PolicyArg (Raised ε)) : Over (enter hasTask (verdict ask ns arg).1) := by
  unfold Supervision.verdict
  split
  · simp only [afterAction]
    split
    · trivial
    · split <;> trivial
    · trivial
  · trivial

/-- The loop goes on to a verdict. -/
theorem over_of_proceed {ev : Event (Raised ε)} {xs : List (Happening ε)}
    {arg : PolicyArg (Raised ε)}
    (hev : ∀ ask, Supervision.step ask s.place.phase ev = some (verdict ask [] arg))
    (h : s.proceed P hasTask ev xs = some s') : Over s'.place := by
  rw [proceed, hev] at h
  obtain rfl := Option.some.inj h
  exact over_verdict _ _ _

theorem goes_of_step {l : Label ε} (h : s.step P hasTask l = some s') :
    Goes P hasTask s.place l s'.place := by
  cases l with
  | opened =>
    simp only [step] at h
    split at h
    · next hpl =>
        rw [proceed, hpl] at h
        obtain ⟨x, hx, rfl⟩ := Option.map_eq_some_iff.mp h
        obtain rfl := Option.some.inj hx
        rw [hpl]
        dsimp only [announce]
        split
        · exact .opened
        · next he => exact .raised he (over_verdict _ _ _)
    · cases h
  | openFailed e =>
    simp only [step] at h
    split at h
    · next hpl =>
        have hover := over_of_proceed (fun ask => by rw [hpl]; rfl) h
        rw [hpl]
        exact .openFailed hover
    · cases h
  | begin_ c =>
    simp only [step] at h
    split at h
    · next n hpl =>
        split at h
        · next hc =>
            obtain rfl := Option.some.inj h
            rw [hpl]
            exact .begin_ hc
        · cases h
    · cases h
  | ends c o =>
    simp only [step] at h
    split at h
    · next n hpl =>
        split at h
        · next hc =>
            split_ifs at h with ho
            obtain rfl := Option.some.inj h
            rw [hpl]
            refine .ends hc fun hcanc => ?_
            subst hcanc
            simpa using ho
        · cases h
    · cases h
  | leave =>
    simp only [step] at h
    split at h
    · next n hpl =>
        split at h
        · next ht hw =>
            have hover : Over s'.place := by
              unfold Nursery.event at h
              split at h <;> exact over_of_proceed (fun ask => by rw [hpl]; rfl) h
            rw [hpl]
            exact .leave ht hover
        · cases h
    · cases h
  | dropped e =>
    simp only [step] at h
    split at h
    · next hpl =>
        have hover := over_of_proceed (fun ask => by rw [hpl]; rfl) h
        rw [hpl]
        exact .dropped hover
    · next hpl =>
        have hover := over_of_proceed (fun ask => by rw [hpl]; rfl) h
        rw [hpl]
        exact .dropped hover
    · cases h
  | slept =>
    simp only [step] at h
    split at h
    · next x hpl =>
        rw [proceed, hpl] at h
        obtain rfl := Option.some.inj h
        rw [hpl]
        exact .slept
    · cases h

theorem quiet_verdict (ask : Ask (Raised ε)) {arg : PolicyArg (Raised ε)} (harg : arg ≠ .opened) :
    ∀ n ∈ (verdict ask [] arg).2, isAnnouncement (.note n) = false := by
  have hasked : ∀ x, isAnnouncement (.note (.asked arg x) : Happening ε) = false := by
    intro x
    cases arg with
    | opened => exact absurd rfl harg
    | closed | exn => rfl
  unfold Supervision.verdict
  split
  · intro n hn
    rcases List.mem_pair.mp hn with rfl | rfl
    · exact hasked _
    · rfl
  · intro n hn
    obtain rfl := List.mem_singleton.mp hn
    exact hasked _

/-- The loop calls the policy with `"open"` only when `open()` has returned. -/
theorem quiet_of_ne_opened {ask : Ask (Raised ε)} {ph : Phase (Raised ε)} {ev : Event (Raised ε)}
    {x : Phase (Raised ε) × List (Note (Raised ε))} (hev : ev ≠ .opened)
    (h : Supervision.step ask ph ev = some x) : ∀ n ∈ x.2, isAnnouncement (.note n) = false := by
  unfold Supervision.step at h
  split at h
  · exact absurd rfl hev
  · obtain rfl := Option.some.inj h
    exact quiet_verdict ask (by simp)
  · obtain rfl := Option.some.inj h
    exact quiet_verdict ask (by simp)
  · obtain rfl := Option.some.inj h
    exact quiet_verdict ask (by simp)
  all_goals cases h
  all_goals simp

theorem announcements_proceed {ev : Event (Raised ε)} {xs : List (Happening ε)} (hev : ev ≠ .opened)
    (hxs : xs.countP isAnnouncement = 0) (h : s.proceed P hasTask ev xs = some s') :
    s'.announcements = s.announcements := by
  obtain ⟨x, hx, rfl⟩ := Option.map_eq_some_iff.mp h
  have hnotes : (x.2.map Happening.note).countP isAnnouncement = 0 := by
    rw [List.countP_eq_zero]
    intro y hy
    obtain ⟨n, hn, rfl⟩ := List.mem_map.mp hy
    simp [quiet_of_ne_opened hev hx n hn]
  have hfirst : (first (enter hasTask x.1)).countP isAnnouncement = 0 := by
    cases enter hasTask x.1 <;> rfl
  simp only [announcements, List.countP_append, hxs, hnotes, hfirst, Nat.add_zero]

/-- Only the end of `open()` is announced. -/
theorem announcements_of_step {l : Label ε} (hl : l ≠ .opened) (h : s.step P hasTask l = some s') :
    s'.announcements = s.announcements := by
  cases l with
  | opened => exact absurd rfl hl
  | openFailed e =>
    simp only [step] at h
    split at h
    · exact announcements_proceed (by simp) rfl h
    · cases h
  | begin_ c | ends c o =>
    simp only [step] at h
    split at h
    · split at h
      · try split_ifs at h
        obtain rfl := Option.some.inj h
        simp [announcements, isAnnouncement]
      · cases h
    · cases h
  | leave =>
    simp only [step] at h
    split at h
    · split at h
      · refine announcements_proceed ?_ rfl h
        unfold Nursery.event
        split <;> simp
      · cases h
    · cases h
  | dropped e =>
    simp only [step] at h
    split at h
    · exact announcements_proceed (by simp) rfl h
    · exact announcements_proceed (by simp) rfl h
    · cases h
  | slept =>
    simp only [step] at h
    split at h
    · exact announcements_proceed (by simp) rfl h
    · cases h

end Supervising

/-! ## A connection and the call that supervises it -/

/-- A connection, its users, and a call of `supervise()` on it, which is the task `none`. -/
structure Attended (User ε : Type*) where
  base : ConnectionBase (Option User)
  /-- The call, once it is made. -/
  call : Option (Supervising ε)
  /-- `is_disconnected` has been `True` since the attempt began to wait for it. -/
  woken : Bool
  /-- The connection has been out of `CONNECTED` since the latest `"open"`. -/
  renewed : Bool

namespace Attended

variable {User : Type*}

/-- Before the call. -/
def init : Attended User ε := ⟨.init, none, false, true⟩

/-- The connection moves on. -/
def setBase (b : ConnectionBase (Option User)) (s : Attended User ε) : Attended User ε :=
  { s with
    base := b
    woken := s.woken || b.isDisconnected
    renewed := s.renewed || b.state ≠ .connected }

/-- `supervise()` moves on. -/
def advance (P : SupervisionPolicy ε) (hasTask : Bool) (l : Supervising.Label ε)
    (s : Attended User ε) : Option (Attended User ε) :=
  s.call.bind fun c => (c.step P hasTask l).map fun c => { s with call := some c }

/-- `connection.open()` has returned, and `"open"` is announced. -/
def opened (P : SupervisionPolicy ε) (hasTask : Bool) (s : Attended User ε) :
    Option (Attended User ε) :=
  (s.advance P hasTask .opened).map fun s =>
    { s with woken := s.base.isDisconnected, renewed := s.base.state ≠ .connected }

/-- The stretches of all tasks. -/
inductive Label (User ε : Type*)
  /-- A task of a user is in `open()` or `close()`. -/
  | user (l : ConnectionBase.Label (Option User))
  /-- `supervise()` is called. -/
  | call
  /-- A wait inside its `connection.open()` ends. -/
  | resume
  /-- Its `_open()` ends, with an exception or without one. -/
  | openEnds (e : Option ε)
  | begin_ (c : Child)
  | ends (c : Child) (o : Ending ε)
  | leave
  | dropped
  | slept

variable [DecidableEq User]

/-- `await connection.open()`, up to its first wait: it may have nothing to do. -/
def open_ (P : SupervisionPolicy ε) (hasTask : Bool) (s : Attended User ε) :
    Option (Attended User ε) :=
  let s := s.setBase (s.base.open_ none)
  if s.base.place none = .outside then s.opened P hasTask else some s

/-- One stretch. -/
def step (P : SupervisionPolicy ε) (hasTask : Bool) (s : Attended User ε) :
    Label User ε → Option (Attended User ε)
  | .user l => if l.task = none then none else (s.base.step l).map fun b => s.setBase b
  | .call =>
    match s.call with
    | none => { s with call := some .init }.open_ P hasTask
    | some _ => none
  | .resume => (s.base.step (.resume none)).bind fun b =>
    if b.place none = .outside then (s.setBase b).opened P hasTask else some (s.setBase b)
  | .openEnds none => (s.base.step (.finish none .returned)).bind fun b =>
    (s.setBase b).opened P hasTask
  | .openEnds (some e) => (s.base.step (.finish none .raised)).bind fun b =>
    (s.setBase b).advance P hasTask (.openFailed e)
  | .begin_ .task => s.advance P hasTask (.begin_ .task)
  | .begin_ .waiter => (s.advance P hasTask (.begin_ .waiter)).map fun s =>
    { s with woken := s.base.isDisconnected }
  | .ends .task o => s.advance P hasTask (.ends .task o)
  -- the wait for a flag ends with the flag or with a cancellation
  | .ends .waiter .returned =>
    if s.woken then s.advance P hasTask (.ends .waiter .returned) else none
  | .ends .waiter .cancelled => s.advance P hasTask (.ends .waiter .cancelled)
  | .ends .waiter (.raised _) => none
  | .leave => s.advance P hasTask .leave
  | .dropped => if s.woken then s.advance P hasTask (.dropped none) else none
  | .slept => (s.advance P hasTask .slept).bind fun s => s.open_ P hasTask

end Attended

/-- **A connection derived from `ConnectionBase`, its users, and `supervise()`.** -/
def attended (User : Type*) [DecidableEq User] (P : SupervisionPolicy ε) (hasTask : Bool) :
    Machine (Attended User ε) (Attended.Label User ε) where
  init := .init
  step := Attended.step P hasTask

namespace Attended

variable {User : Type*} {s s' : Attended User ε}

/-- `supervise()` has returned. -/
def Returned (s : Attended User ε) : Prop := ∃ c, s.call = some c ∧ c.place = .done .returned

/-- How often the policy was called with `"open"`. -/
def announcements (s : Attended User ε) : ℕ := s.call.elim 0 Supervising.announcements

/-- **What a step of a loop does that tears each attempt down.** -/
structure TornDown (s : Attended User ε) (_ : Label User ε) (s' : Attended User ε) : Prop where
  /-- The connection is closed when `supervise()` returns. -/
  closed : s'.Returned → ¬ s.Returned → s'.base.state = .disconnected
  /-- Each `"open"` is about a connection that has been established anew. -/
  anew : s.announcements < s'.announcements → s.renewed = true

/-- The policy does not raise when it is called with `"open"`. -/
def Hears (P : SupervisionPolicy ε) : Prop := ∀ log e, P log .opened ≠ .error e

/-- `supervise()` waits for the connection to drop. -/
def Attending (s : Attended User ε) : Prop :=
  ∃ c, s.call = some c ∧ (c.place = .waiting ∨ ∃ n, c.place = .nursery n)

/-- Where `supervise()` is, and what is known of the connection there. -/
def Sound (s : Attended User ε) : Place ε → Prop
  | .opening | .sleeping _ => s.renewed = true
  | .waiting => s.woken = true → s.base.state = .disconnected
  | .nursery n => (∀ c o, n.child c = .ended o → n.cancelled = true) ∧
    (n.cancelled = true → s.base.state = .disconnected) ∧
    (n.child .waiter = .running → s.woken = true → s.base.state = .disconnected)
  | .done _ => True

/-- `supervise()` is inside `connection.open()`. -/
def Opening (s : Attended User ε) : Prop := ∃ c, s.call = some c ∧ c.place = .opening

/-- **The invariant of the runs that keep the condition.** -/
structure Tied (s : Attended User ε) : Prop where
  coherent : s.base.Coherent
  renewed : s.base.state ≠ .connected → s.renewed = true
  fresh : s.call = none → s.renewed = true
  sound : ∀ c, s.call = some c → s.Sound c.place
  /-- The call is in no other method of the connection. -/
  outside : ¬ s.Opening → s.base.place none = .outside
  /-- It never calls `close()`. -/
  up : (s.base.place none).direction ≠ some .down

theorem tied_init : Tied (init : Attended User ε) where
  coherent := ConnectionBase.coherent_init
  renewed _ := rfl
  fresh _ := rfl
  sound := by simp [init]
  outside _ := rfl
  up := by simp [init, ConnectionBase.init]

/-! ## One step -/

/-- A connection that has dropped is `DISCONNECTED`, as its flag says. -/
theorem state_of_isDisconnected {b : ConnectionBase (Option User)} (h : b.FlagsAgree)
    (hd : b.isDisconnected = true) : b.state = .disconnected := by
  have hflag := h .down
  simp only [ConnectionBase.flag, hd] at hflag
  exact of_decide_eq_true hflag.symm

/-- **The connection moves on.** -/
theorem Tied.setBase (h : Tied s) {b : ConnectionBase (Option User)} (hb : b.Coherent)
    (hk : s.Attending → s.base.state = .disconnected → b.state = .disconnected)
    (hout : ¬ s.Opening → b.place none = .outside)
    (hup : (b.place none).direction ≠ some .down) : Tied (s.setBase b) where
  coherent := hb
  renewed hs := by simp [Attended.setBase, show b.state ≠ .connected from hs]
  fresh hc := by simp [Attended.setBase, h.fresh hc]
  sound c hc := by
    have hs := h.sound c hc
    have hwoken : (s.woken = true → s.base.state = .disconnected) → s.Attending →
        (s.setBase b).woken = true → b.state = .disconnected := by
      intro hw hatt hor
      rcases Bool.or_eq_true_iff.mp hor with hs' | hflag
      · exact hk hatt (hw hs')
      · exact state_of_isDisconnected hb.flags hflag
    cases hpl : c.place with
    | opening | sleeping =>
      rw [hpl] at hs
      exact Bool.or_eq_true_iff.mpr (.inl hs)
    | waiting =>
      rw [hpl] at hs
      exact hwoken hs ⟨c, hc, .inl hpl⟩
    | nursery n =>
      rw [hpl] at hs
      have hatt : s.Attending := ⟨c, hc, .inr ⟨n, hpl⟩⟩
      exact ⟨hs.1, fun hn => hk hatt (hs.2.1 hn), fun hw => hwoken (hs.2.2 hw) hatt⟩
    | done => trivial
  outside := hout
  up := hup

variable {P : SupervisionPolicy ε} {hasTask : Bool}

/-- What `supervise()` does when it moves on. -/
theorem goes_of_advance {l : Supervising.Label ε} (h : s.advance P hasTask l = some s') :
    ∃ c c', s.call = some c ∧ c.step P hasTask l = some c' ∧ s' = { s with call := some c' } ∧
      Supervising.Goes P hasTask c.place l c'.place := by
  obtain ⟨c, hc, hmap⟩ := Option.bind_eq_some_iff.mp h
  obtain ⟨c', hc', rfl⟩ := Option.map_eq_some_iff.mp hmap
  exact ⟨c, c', hc, hc', rfl, Supervising.goes_of_step hc'⟩

/-- `supervise()` has moved to another place. -/
theorem Tied.goTo (h : Tied s) {c : Supervising ε} (hsound : s.Sound c.place)
    (hout : c.place ≠ .opening → s.base.place none = .outside) :
    Tied { s with call := some c } where
  coherent := h.coherent
  renewed := h.renewed
  fresh hc := absurd hc (by simp)
  sound c' hc' := by
    obtain rfl := Option.some.inj hc'
    cases hpl : c.place <;> rw [hpl] at hsound <;> exact hsound
  outside hop := hout fun hpl => hop ⟨c, rfl, hpl⟩
  up := h.up

/-- **`"open"` is announced**, and the wait for the disconnection begins. -/
theorem Tied.opened (hP : Hears P) (h : Tied s) (hout : s.base.place none = .outside)
    (hs : s.opened P hasTask = some s') : Tied s' ∧ ¬ s'.Returned ∧ s'.base = s.base := by
  obtain ⟨s₁, hs₁, rfl⟩ := Option.map_eq_some_iff.mp hs
  obtain ⟨c, c', hc, -, rfl, hgo⟩ := goes_of_advance hs₁
  have hpl : c'.place = .waiting ∨ c'.place = .nursery .init := by
    generalize c.place = p at hgo
    generalize c'.place = q at hgo
    cases hgo with
    | opened => cases hasTask <;> simp [Supervising.enter]
    | raised he => exact absurd he (hP _ _)
  have hdrop : s.base.isDisconnected = true → s.base.state = .disconnected :=
    state_of_isDisconnected h.coherent.flags
  refine ⟨⟨h.coherent, fun hne => by simpa using hne, fun hn => absurd hn (by simp),
    fun d hd => ?_, fun _ => hout, h.up⟩, ?_, rfl⟩
  · obtain rfl := Option.some.inj hd
    rcases hpl with hpl | hpl
    · rw [hpl]
      exact hdrop
    · rw [hpl]
      exact ⟨by simp [Nursery.init], by simp [Nursery.init], fun _ => hdrop⟩
  · rintro ⟨d, hd, hdone⟩
    obtain rfl := Option.some.inj hd
    rcases hpl with hpl | hpl <;> exact absurd (hpl.symm.trans hdone) (by simp)

theorem Opening.not_attending (h : s.Opening) : ¬ s.Attending := by
  obtain ⟨c, hc, hpl⟩ := h
  rintro ⟨d, hd, hw⟩
  obtain rfl := Option.some.inj (hc.symm.trans hd)
  rcases hw with hw | ⟨n, hw⟩ <;> exact absurd (hpl.symm.trans hw) (by simp)

theorem Opening.not_returned (h : s.Opening) : ¬ s.Returned := by
  obtain ⟨c, hc, hpl⟩ := h
  rintro ⟨d, hd, hdone⟩
  obtain rfl := Option.some.inj (hc.symm.trans hd)
  exact absurd (hpl.symm.trans hdone) (by simp)

theorem Tied.opening_of_place (h : Tied s) (hp : s.base.place none ≠ .outside) : s.Opening := by
  by_contra hop
  exact hp (h.outside hop)

theorem Tied.renewed_of_opening (h : Tied s) (hop : s.Opening) : s.renewed = true := by
  obtain ⟨c, hc, hpl⟩ := hop
  have hsound := h.sound c hc
  rwa [hpl] at hsound

theorem announcements_of_advance {l : Supervising.Label ε} (hl : l ≠ .opened)
    (h : s.advance P hasTask l = some s') : s'.announcements = s.announcements := by
  obtain ⟨c, c', hc, hst, rfl, -⟩ := goes_of_advance h
  simp only [announcements, hc, Option.elim_some]
  exact Supervising.announcements_of_step hl hst

/-- An attempt is over while the connection is `DISCONNECTED`. -/
theorem Tied.over (h : Tied s) {c : Supervising ε} (hst : s.base.state = .disconnected)
    (hc : Supervising.Over c.place) (hout : s.base.place none = .outside) :
    Tied { s with call := some c } := by
  refine h.goTo ?_ fun _ => hout
  cases hpl : c.place with
  | sleeping => exact h.renewed (by simp [hst])
  | done => trivial
  | opening | waiting | nursery => simp [hpl, Supervising.Over] at hc

/-- Between the `"open"` and the verdict `supervise()` is in no method of the connection. -/
theorem Tied.outside_of_place (h : Tied s) {c : Supervising ε} (hc : s.call = some c)
    (hpl : c.place ≠ .opening) : s.base.place none = .outside := by
  refine h.outside ?_
  rintro ⟨d, hd, hop⟩
  obtain rfl := Option.some.inj (hc.symm.trans hd)
  exact hpl hop

/-- What `supervise()` does when it moves on, and what is true in the place that it leaves. -/
theorem Tied.goes (h : Tied s) {l : Supervising.Label ε} (hs : s.advance P hasTask l = some s') :
    ∃ x y p q, s.call = some x ∧ x.place = p ∧ y.place = q ∧ s' = { s with call := some y } ∧
      Supervising.Goes P hasTask p l q ∧ s.Sound p ∧
      (p ≠ .opening → s.base.place none = .outside) := by
  obtain ⟨x, y, hx, -, rfl, hgo⟩ := goes_of_advance hs
  exact ⟨x, y, _, _, hx, rfl, rfl, rfl, hgo, h.sound x hx, h.outside_of_place hx⟩

/-- **A child runs its first step**: the one that waits for the disconnection looks at the flag. -/
theorem Tied.begin_ (h : Tied s) {c : Child} (hs : s.advance P hasTask (.begin_ c) = some s')
    {w : Bool} (hw : w = s.woken ∧ c = .task ∨ w = s.base.isDisconnected) :
    Tied { s' with woken := w } ∧ ¬ s'.Returned := by
  obtain ⟨x, y, p, q, -, -, hq, rfl, hgo, hsound, hout⟩ := h.goes hs
  cases hgo with
  | @begin_ n c hc =>
    have hn : s.Sound (.nursery n) := hsound
    have hdrop : s.base.isDisconnected = true → s.base.state = .disconnected :=
      state_of_isDisconnected h.coherent.flags
    refine ⟨⟨h.coherent, h.renewed, fun hnone => absurd hnone (by simp), fun z hz => ?_,
      fun _ => hout (by simp), h.up⟩, ?_⟩
    · obtain rfl := Option.some.inj hz
      rw [hq]
      refine ⟨fun d o hd => hn.1 d o ?_, hn.2.1, fun hrun hwok => ?_⟩
      · simp only [Nursery.begin_, Function.update_apply] at hd
        split at hd
        · exact absurd hd (by simp)
        · exact hd
      · rcases hw with ⟨rfl, rfl⟩ | rfl
        · exact hn.2.2 hrun hwok
        · exact hdrop hwok
    · rintro ⟨z, hz, hdone⟩
      obtain rfl := Option.some.inj hz
      exact absurd (hq.symm.trans hdone) (by simp)

/-- **A child ends**, and the connection has dropped. -/
theorem Tied.ends (h : Tied s) {c : Child} {o : Ending ε}
    (hs : s.advance P hasTask (.ends c o) = some s')
    (hk : ∀ z n, s.call = some z → z.place = .nursery n → n.child c = .running →
      (o = .cancelled → n.cancelled = true) → s.base.state = .disconnected) :
    Tied s' ∧ ¬ s'.Returned := by
  obtain ⟨x, y, p, q, hx, hp, hq, rfl, hgo, -, hout⟩ := h.goes hs
  cases hgo with
  | @ends n c o hc ho =>
    have hdisc : s.base.state = .disconnected := hk x n hx hp hc ho
    refine ⟨h.goTo (hq ▸ ⟨fun _ _ _ => rfl, fun _ => hdisc, fun _ _ => hdisc⟩)
      fun _ => hout (by simp), ?_⟩
    rintro ⟨z, hz, hdone⟩
    obtain rfl := Option.some.inj hz
    exact absurd (hq.symm.trans hdone) (by simp)

/-- **The nursery is left**: whichever child was the first to end, the connection has dropped. -/
theorem Tied.leave (h : Tied s) (hs : s.advance P hasTask .leave = some s') :
    Tied s' ∧ s'.base.state = .disconnected := by
  obtain ⟨x, y, p, q, -, -, hq, rfl, hgo, hsound, hout⟩ := h.goes hs
  cases hgo with
  | @leave n o _ ht hover =>
    have hn : s.Sound (.nursery n) := hsound
    have hdisc : s.base.state = .disconnected := hn.2.1 (hn.1 _ _ ht)
    exact ⟨h.over hdisc (hq ▸ hover) (hout (by simp)), hdisc⟩

/-- **The bare wait ends.** -/
theorem Tied.dropped (h : Tied s) {e : Option ε} (hw : s.woken = true)
    (hs : s.advance P hasTask (.dropped e) = some s') :
    Tied s' ∧ s'.base.state = .disconnected := by
  obtain ⟨x, y, p, q, -, -, hq, rfl, hgo, hsound, hout⟩ := h.goes hs
  cases hgo with
  | dropped hover =>
    have hdisc : s.base.state = .disconnected := hsound hw
    exact ⟨h.over hdisc (hq ▸ hover) (hout (by simp)), hdisc⟩

/-- **`open()` has failed**, so the connection is `DISCONNECTED`. -/
theorem Tied.openFailed (h : Tied s) {e : ε} (hst : s.base.state = .disconnected)
    (hout : s.base.place none = .outside) (hs : s.advance P hasTask (.openFailed e) = some s') :
    Tied s' ∧ s'.base.state = .disconnected := by
  obtain ⟨x, y, p, q, -, -, hq, rfl, hgo, -, -⟩ := h.goes hs
  cases hgo with
  | openFailed hover => exact ⟨h.over hst (hq ▸ hover) hout, hst⟩

/-- `sleep()` has returned: the connection has been out of `CONNECTED` before the next attempt. -/
theorem Tied.slept (h : Tied s) (hs : s.advance P hasTask .slept = some s') :
    Tied s' ∧ s'.Opening ∧ s'.base.place none = .outside ∧ s.renewed = true := by
  obtain ⟨x, y, p, q, -, -, hq, rfl, hgo, hsound, hout⟩ := h.goes hs
  cases hgo with
  | slept =>
    have hren : s.renewed = true := hsound
    have hplace := hout (by simp)
    exact ⟨h.goTo (hq ▸ hren) fun _ => hplace, ⟨y, rfl, hq⟩, hplace, hren⟩

/-- A step without a verdict to stop and without an `"open"`. -/
theorem tornDown_of_quiet {l : Label User ε} (ha : s'.announcements = s.announcements)
    (hr : s'.Returned → s'.base.state = .disconnected) : TornDown s l s' :=
  ⟨fun hret _ => hr hret, fun hlt => absurd hlt (by simp [ha])⟩

variable [DecidableEq User]

/-- The task ends only when its nursery is cancelled or the connection has dropped, and once it has
dropped nobody brings it up again before the verdict. -/
def Keeps (s : Attended User ε) : Label User ε → Prop
  | .ends .task _ => s.base.state = .disconnected ∨
    ∃ c n, s.call = some c ∧ c.place = .nursery n ∧ n.cancelled = true
  | .user l => s.Attending → s.base.state = .disconnected →
    ∀ b, s.base.step l = some b → b.state = .disconnected
  | _ => True

/-- **A step of a user.** -/
theorem Tied.user (h : Tied s) {l : ConnectionBase.Label (Option User)}
    {b : ConnectionBase (Option User)} (hl : l.task ≠ none) (hk : s.Keeps (.user l))
    (hb : s.base.step l = some b) : Tied (s.setBase b) := by
  have hm := ConnectionBase.move_of_step hb
  have hdir : (b.place none).direction = (s.base.place none).direction := by
    rw [hm.place_of_ne hl, ConnectionBase.setState_place_direction]
  refine h.setBase (h.coherent.move hm) (fun hatt hs => hk hatt hs b hb) (fun hop => ?_) ?_
  · rw [← Place.direction_eq_none, hdir, h.outside hop]
    rfl
  · rw [hdir]
    exact h.up

/-- **A step of `open()`.** -/
theorem Tied.own (h : Tied s) {l : ConnectionBase.Label (Option User)}
    {b : ConnectionBase (Option User)} (hop : s.Opening) (hl : l.task = none)
    (hcall : ∀ t, l ≠ .call .down t) (hm : ConnectionBase.Move s.base l b) :
    Tied (s.setBase b) := by
  refine h.setBase (h.coherent.move hm) (fun hatt => absurd hatt hop.not_attending)
    (fun hno => absurd hop hno) ?_
  have hup := h.up
  cases hm with
  | noop => exact hup
  | @join d t | @queue d t | @start d t =>
    obtain rfl : t = none := hl
    cases d with
    | up => simp [ConnectionBase.enter]
    | down => exact absurd rfl (hcall none)
  | @released d t | @giveUp t | @finish d t =>
    obtain rfl : t = none := hl
    simp [ConnectionBase.leave]
  | @goOn d t hp =>
    obtain rfl : t = none := hl
    rw [hp] at hup
    simpa [ConnectionBase.enter] using hup

/-- **`open()` is called.** -/
theorem Tied.open_ (hP : Hears P) (h : Tied s) (hop : s.Opening)
    (hout : s.base.place none = .outside) (hs : s.open_ P hasTask = some s') :
    Tied s' ∧ ¬ s'.Returned := by
  have hbase : Tied (s.setBase (s.base.open_ none)) :=
    h.own hop rfl (by simp) (ConnectionBase.move_of_request (d := .up) hout)
  simp only [Attended.open_] at hs
  split at hs
  · next hplace =>
      obtain ⟨htied, hret, -⟩ := hbase.opened hP hplace hs
      exact ⟨htied, hret⟩
  · obtain rfl := Option.some.inj hs
    exact ⟨hbase, hop.not_returned⟩

/-- **A child ends only when the connection has dropped**, or when the other has brought it down. -/
theorem Tied.disconnected_of_ends (h : Tied s) {c : Child} {o : Ending ε} (hk : s.Keeps (.ends c o))
    (hwait : c = .waiter → s.woken = true ∨ o = .cancelled) {z : Supervising ε} {n : Nursery ε}
    (hz : s.call = some z) (hpl : z.place = .nursery n) (hc : n.child c = .running)
    (ho : o = .cancelled → n.cancelled = true) : s.base.state = .disconnected := by
  have hsound : s.Sound (.nursery n) := hpl ▸ h.sound z hz
  cases c with
  | task =>
    rcases hk with hst | ⟨z', n', hz', hpl', hn'⟩
    · exact hst
    · obtain rfl := Option.some.inj (hz.symm.trans hz')
      obtain rfl : n = n' := by simpa [hpl] using hpl'
      exact hsound.2.1 hn'
  | waiter =>
    rcases hwait rfl with hw | hcanc
    · exact hsound.2.2 hc hw
    · exact hsound.2.1 (ho hcanc)

/-- **One step.** -/
theorem Tied.step (hP : Hears P) (h : Tied s) {l : Label User ε} (hk : s.Keeps l)
    (hs : s.step P hasTask l = some s') : Tied s' ∧ TornDown s l s' := by
  cases l with
  | user l =>
    simp only [Attended.step] at hs
    split_ifs at hs with hl
    obtain ⟨b, hb, rfl⟩ := Option.map_eq_some_iff.mp hs
    exact ⟨h.user hl hk hb, fun hret hno => absurd hret hno, fun hlt => absurd hlt (lt_irrefl _)⟩
  | call =>
    simp only [Attended.step] at hs
    split at hs
    · next hnone =>
        have hout : s.base.place none = .outside := h.outside (by simp [Opening, hnone])
        have hren : s.renewed = true := h.fresh hnone
        have hcall : Tied { s with call := some .init } := h.goTo hren fun _ => hout
        obtain ⟨htied, hret⟩ := hcall.open_ hP ⟨_, rfl, rfl⟩ hout hs
        exact ⟨htied, fun hret' => absurd hret' hret, fun _ => hren⟩
    · cases hs
  | resume =>
    obtain ⟨b, hb, hs⟩ := Option.bind_eq_some_iff.mp hs
    have hm := ConnectionBase.move_of_step hb
    have hop : s.Opening := h.opening_of_place (by cases hm <;> simp [*])
    have hren : s.renewed = true := h.renewed_of_opening hop
    have hbase := h.own hop rfl (by simp) hm
    split_ifs at hs with hout
    · obtain ⟨htied, hret, -⟩ := hbase.opened hP hout hs
      exact ⟨htied, fun hret' => absurd hret' hret, fun _ => hren⟩
    · obtain rfl := Option.some.inj hs
      exact ⟨hbase, fun hret' => absurd hret' hop.not_returned, fun _ => hren⟩
  | openEnds e =>
    cases e with
    | none =>
      obtain ⟨b, hb, hs⟩ := Option.bind_eq_some_iff.mp hs
      have hm := ConnectionBase.move_of_step hb
      have hop : s.Opening := h.opening_of_place (by cases hm; simp [*])
      have hout : b.place none = .outside := by
        cases hm
        exact ConnectionBase.put_place_self ..
      obtain ⟨htied, hret, -⟩ := (h.own hop rfl (by simp) hm).opened hP hout hs
      exact ⟨htied, fun hret' => absurd hret' hret, fun _ => h.renewed_of_opening hop⟩
    | some e =>
      obtain ⟨b, hb, hs⟩ := Option.bind_eq_some_iff.mp hs
      have hm := ConnectionBase.move_of_step hb
      have hop : s.Opening := h.opening_of_place (by cases hm; simp [*])
      have hend : b.place none = .outside ∧ b.state = .disconnected := by
        have hup := h.up
        cases hm with
        | @finish d t o hp =>
          obtain rfl : d = .up := by
            cases d with
            | up => rfl
            | down => exact absurd (by rw [hp]; rfl) hup
          exact ⟨ConnectionBase.put_place_self .., ConnectionBase.leave_state ..⟩
      have hbase := h.own hop rfl (by simp) hm
      obtain ⟨htied, hst⟩ := hbase.openFailed hend.2 hend.1 hs
      have hann : s'.announcements = (s.setBase b).announcements :=
        announcements_of_advance (by simp) hs
      exact ⟨htied, tornDown_of_quiet hann fun _ => hst⟩
  | begin_ c =>
    cases c with
    | task =>
      obtain ⟨htied, hret⟩ := h.begin_ hs (.inl ⟨rfl, rfl⟩)
      obtain ⟨_, _, _, _, rfl, _⟩ := goes_of_advance hs
      exact ⟨htied, tornDown_of_quiet (announcements_of_advance (by simp) hs)
        fun hret' => absurd hret' hret⟩
    | waiter =>
      obtain ⟨s₁, hs₁, rfl⟩ := Option.map_eq_some_iff.mp hs
      have hann := announcements_of_advance (by simp) hs₁
      obtain ⟨htied, hret⟩ := h.begin_ hs₁ (.inr rfl)
      obtain ⟨_, _, _, _, rfl, _⟩ := goes_of_advance hs₁
      exact ⟨htied, tornDown_of_quiet hann fun hret' => absurd hret' hret⟩
  | ends c o =>
    have hrun : s.advance P hasTask (.ends c o) = some s' ∧
        (c = .waiter → s.woken = true ∨ o = .cancelled) := by
      cases c with
      | task => exact ⟨hs, fun hc => absurd hc (by decide)⟩
      | waiter =>
        cases o with
        | returned =>
          simp only [Attended.step] at hs
          split_ifs at hs with hw
          exact ⟨hs, fun _ => .inl hw⟩
        | cancelled => exact ⟨hs, fun _ => .inr rfl⟩
        | raised e => cases hs
    obtain ⟨htied, hret⟩ := h.ends hrun.1
      fun _ _ => h.disconnected_of_ends hk hrun.2
    exact ⟨htied, tornDown_of_quiet (announcements_of_advance (by simp) hrun.1)
      fun hret' => absurd hret' hret⟩
  | leave =>
    obtain ⟨htied, hst⟩ := h.leave hs
    exact ⟨htied, tornDown_of_quiet (announcements_of_advance (by simp) hs) fun _ => hst⟩
  | dropped =>
    simp only [Attended.step] at hs
    split_ifs at hs with hw
    obtain ⟨htied, hst⟩ := h.dropped hw hs
    exact ⟨htied, tornDown_of_quiet (announcements_of_advance (by simp) hs) fun _ => hst⟩
  | slept =>
    obtain ⟨s₁, hs₁, hopen⟩ := Option.bind_eq_some_iff.mp hs
    obtain ⟨htied₁, hop, hout, hren⟩ := h.slept hs₁
    obtain ⟨htied, hret⟩ := htied₁.open_ hP hop hout hopen
    exact ⟨htied, fun hret' => absurd hret' hret, fun _ => hren⟩

variable (User P hasTask)

/-- **Where each attempt fails to open or ends with the connection dropped, it is torn down.** -/
theorem tornDown_of_keeps (hP : Hears P) {ls : List (Label User ε)}
    (h : (attended User P hasTask).Guarded Keeps (attended User P hasTask).init ls) :
    (attended User P hasTask).Throughout TornDown (attended User P hasTask).init ls :=
  h.throughout tied_init fun _ _ _ ht hk hst => ht.step hP hk hst

/-- A user closes the connection, which ends the task. -/
theorem tornDown_dropped :
    (attended (Fin 1) (fun _ _ => .ok (.bool false)) true).Throughout (TornDown (ε := Unit)) .init
      [.call, .openEnds none, .begin_ .task, .begin_ .waiter, .user (.call .down (some 0)),
        .user (.finish (some 0) .returned), .ends .waiter .returned, .ends .task .cancelled,
        .leave] := by
  refine tornDown_of_keeps (Fin 1) _ true (fun _ _ h => by cases h) ?_
  refine .cons rfl trivial <| .cons rfl trivial <| .cons rfl trivial <| .cons rfl trivial <|
    .cons rfl (fun _ hst => ?_) <| .cons rfl (fun _ hst => ?_) <| .cons rfl trivial <|
      .cons rfl (.inl rfl) <| .cons rfl trivial trivial
  · exact absurd hst (by decide)
  · exact absurd hst (by decide)

/-- The task returns while the connection is up, and the policy answers `False`: `supervise()`
returns, and the connection is still open. -/
theorem returns_connected :
    ¬ ∀ (P : SupervisionPolicy Unit) (ls : List (Label (Fin 1) Unit)),
      (attended (Fin 1) P true).Throughout TornDown (attended (Fin 1) P true).init ls := by
  intro h
  have hlast := (h (fun _ _ => .ok (.bool false)) ([.call, .openEnds none, .begin_ .task,
    .begin_ .waiter, .ends .task .returned, .ends .waiter .cancelled] ++ [.leave])).last rfl rfl
  have hclosed := hlast.closed ⟨_, rfl, rfl⟩ (by rintro ⟨c, hc, hpl⟩; cases hc; cases hpl)
  exact absurd hclosed (by decide)

end Attended

end FlockwaveConn.Supervision
