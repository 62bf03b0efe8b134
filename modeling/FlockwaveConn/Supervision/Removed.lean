import FlockwaveConn.Supervision.Teardown

/-!
# Supervision/Removed — what `remove()` leaves behind

`remove()` promises to close the connection.  The clean-up that is to do so runs in the scope
`remove()` has cancelled, so a `_close()` with a checkpoint of its own is interrupted, and the
connection is `CONNECTED` again with nobody to supervise it.

The promise is kept exactly where each checkpoint of a `_close()` that is reached in the cancelled
clean-up is shielded; and, if the clean-up has to wait for another task's transition, where that one
has closed the connection before `Cancelled` is raised in the wait (`removed_is_closed_iff`).
-/

namespace FlockwaveConn.Supervision.Supervised

variable {Task ε : Type*} (S : Setting Task ε)

/-- **`remove()` closes what it removes**: the step in which the call of `supervise()` ends, in a
scope that is cancelled, leaves the connection `DISCONNECTED` and without an entry.  It is about the
connections that were not `CONNECTED` when their supervision started. -/
def ClosesRemoved (s : Supervised Task ε) (_ : Label Task ε) (s' : Supervised Task ε) : Prop :=
  s.cancelled = true → s.shouldClose = true → (∀ r, s.stage ≠ .finished r) →
    (∃ r, s'.stage = .finished r) → s'.conn.state = .disconnected ∧ s'.entry = false

/-- The `_close()` that a cancelled clean-up has reached cannot be cancelled, and its wait for
another task's transition is not left by `Cancelled` before the connection is down. -/
def CleanEnd (s : Supervised Task ε) (l : Label Task ε) : Prop :=
  (∃ r, s.stage = .closing r) → s.cancelled = true → s.shouldClose = true →
    match l with
    | .closed => S.Shielded
    | .cancel => s.conn.state = .disconnected
    | _ => True

/-- The clean-up has no entry any more, and if it is cancelled inside a method of the connection,
then inside `_close()`. -/
structure Closing (s : Supervised Task ε) : Prop where
  entry : ∀ r, s.stage = .closing r → s.entry = false
  inside : ∀ r d, s.stage = .closing r → s.cancelled = true → s.conn.place S.sup = .inside d →
    d = .down

variable {S} {s s' : Supervised Task ε} {l : Label Task ε}

theorem Closing.of_not_closing (h : ∀ r, s.stage ≠ .closing r) : Closing S s :=
  ⟨fun r hr => absurd hr (h r), fun r _ hr => absurd hr (h r)⟩

variable [DecidableEq Task]

/-- The clean-up begins with a call of `close()`. -/
theorem Closing.cleanUp {r : Result ε} (hp : s.conn.place S.sup = .outside) :
    Closing S (s.cleanUp S r) := by
  unfold Supervised.cleanUp
  cases hsc : s.shouldClose with
  | false => exact .of_not_closing (by simp)
  | true => exact ⟨fun _ _ => rfl, fun q d _ _ hin => (ConnectionBase.request_of_inside hp hin).1⟩

/-- **One step** keeps the invariant. -/
theorem Closing.turn (h : Closing S s) (ht : Turn S s l s') : Closing S s' := by
  cases ht with
  | other hne hs =>
    refine ⟨h.entry, fun r d hst hc hin => h.inside r d hst hc ?_⟩
    exact ((ConnectionBase.move_of_step hs).place_inside_of_ne hne).mp hin
  | start => exact .of_not_closing (by simp [start])
  | loop _ hst' =>
    obtain ⟨ph, hph⟩ := hst'
    exact .of_not_closing (by simp [hph])
  | remove =>
    refine ⟨h.entry, fun r d hst hc => h.inside r d hst ?_⟩
    simpa [h.entry r hst] using hc
  | cleanUp _ hp => exact .cleanUp hp
  | goOn hst hc => exact ⟨h.entry, fun r d _ hc' => by simp [withConn, hc] at hc'⟩
  | released | interrupted | closed => exact .of_not_closing (by simp)

/-- A clean-up that is over at once has met a connection that is down. -/
theorem cleanUp_finished {r : Result ε} (hp : s.conn.place S.sup = .outside)
    (hsc : s.shouldClose = true) (hfin : ∃ q, (s.cleanUp S r).stage = .finished q) :
    (s.cleanUp S r).conn.state = .disconnected ∧ (s.cleanUp S r).entry = false := by
  have hout : (s.conn.close S.sup).place S.sup = .outside := by
    by_contra hne
    obtain ⟨q, hq⟩ := hfin
    simp [cleanUp, hsc, withConn, hne] at hq
  obtain ⟨hs, hc⟩ := ConnectionBase.request_of_outside hp hout
  have hconn : (s.cleanUp S r).conn = s.conn := by
    simp only [cleanUp, hsc, if_true, withConn]
    exact hc
  refine ⟨hconn ▸ hs, ?_⟩
  simp [cleanUp, hsc, withConn]

/-- The end of a cancelled `_close()`: the connection is down if every checkpoint was shielded, and
`CONNECTED` again if one was not. -/
theorem leave_closed_iff (c : ConnectionBase Task) (t : Task) :
    (c.leave .down (S.closeOutcome true) t).state = .disconnected ↔ S.Shielded := by
  by_cases hsh : S.Shielded
  · simp [Setting.closeOutcome_of_shielded hsh, Outcome.success, Direction.target, hsh]
  · simp [Setting.closeOutcome_of_not_shielded hsh, Outcome.success, Direction.target,
      Direction.reverse, hsh]

/-- **One step**: a cancelled call that ends leaves the connection closed exactly if it has a clean
end. -/
theorem closesRemoved_iff_of_turn (h : Closing S s) (ht : Turn S s l s') :
    ClosesRemoved s l s' ↔ CleanEnd S s l := by
  cases ht with
  | other | goOn | remove =>
    exact iff_of_true (fun _ _ hnot hfin => absurd hfin.choose_spec (hnot _))
      fun _ _ _ => trivial
  | start => exact iff_of_true (fun _ _ _ hfin => by simp [start] at hfin) fun _ _ _ => trivial
  | released _ hc => exact iff_of_true (fun hc' => by simp [hc] at hc') fun _ _ _ => trivial
  | cleanUp _ hp =>
    exact iff_of_true (fun _ hsc _ hfin => cleanUp_finished hp hsc hfin) fun _ _ _ => trivial
  | loop hst hst' =>
    obtain ⟨ph, hph⟩ := hst
    obtain ⟨ph', hph'⟩ := hst'
    exact iff_of_true (fun _ _ _ hfin => by simp [hph'] at hfin) fun hcl => by simp [hph] at hcl
  | @interrupted r hst _ =>
    refine ⟨fun hR _ hc hsc => (hR hc hsc (by simp [hst]) ⟨_, rfl⟩).1, fun hG hc hsc _ _ => ?_⟩
    exact ⟨hG ⟨r, hst⟩ hc hsc, h.entry r hst⟩
  | @closed r d hst hp =>
    have hend : s.cancelled = true →
        ((s.conn.leave d (S.closeOutcome s.cancelled) S.sup).state = .disconnected ↔
          S.Shielded) := by
      intro hc
      obtain rfl := h.inside r d hst hc hp
      rw [hc]
      exact leave_closed_iff ..
    refine ⟨fun hR _ hc hsc => (hend hc).mp (hR hc hsc (by simp [hst]) ⟨_, rfl⟩).1,
      fun hG hc hsc _ _ => ?_⟩
    exact ⟨(hend hc).mpr (hG ⟨r, hst⟩ hc hsc), h.entry r hst⟩

/-- **In any run, `remove()` closes what it removes exactly if each cancelled clean-up has a clean
end.** -/
theorem removed_is_closed_iff (ls : List (Label Task ε)) :
    (supervised S).Throughout ClosesRemoved (supervised S).init ls
      ↔ (supervised S).Guarded (CleanEnd S) (supervised S).init ls := by
  refine Machine.throughout_congr (I := Closing S) (.of_not_closing (by simp [supervised])) ?_
  intro s l s' hI hs
  have ht := turn_of_step hs
  exact ⟨hI.turn ht, closesRemoved_iff_of_turn hI ht⟩

/-- A supervision without a task and with an indulgent policy, of a connection whose `_close()` has
one checkpoint. -/
def sample : Setting (Fin 1) Unit where
  sup := 0
  hasTask := false
  ask := fun _ _ _ => .ok .none
  checkpoints := [false]

/-- The connection is removed while `supervise()` waits for its disconnection, and it is `CONNECTED`
when its supervision is over. -/
theorem removed_stays_connected :
    ¬ ∀ ls, (supervised sample).Throughout ClosesRemoved (supervised sample).init ls := by
  intro h
  have hrun := h [.start, .callOpen, .opened, .remove, .cancel, .cleanUp, .closed]
  have hend := ((((((hrun _ rfl).2 _ rfl).2 _ rfl).2 _ rfl).2 _ rfl).2 _ rfl).2 _ rfl
  exact absurd (hend.1 rfl rfl (fun _ hr => nomatch hr) ⟨_, rfl⟩).1 (by decide)

end FlockwaveConn.Supervision.Supervised
