import FlockwaveConn.Connections.Invariant

/-!
# Connections/Sequential — calls that do not overlap

Where each call of `open()` or `close()` is over before the next one is made there is a single task,
`()`.  Between two calls the connection is at rest: it is `CONNECTED` or `DISCONNECTED`, and a call
either has nothing to do or goes straight into `_open()` or `_close()`.
-/

namespace FlockwaveConn.ConnectionBase

/-- No call is in progress. -/
structure Resting (c : ConnectionBase Unit) : Prop where
  coherent : c.Coherent
  outside : c.place () = .outside

theorem resting_init : (init : ConnectionBase Unit).Resting := ⟨coherent_init, rfl⟩

namespace Resting

variable {c : ConnectionBase Unit} {d : Direction}

/-- At rest a connection is at one of the two ends. -/
theorem state_eq (h : c.Resting) (d : Direction) :
    c.state = d.target ∨ c.state = d.reverse.target := by
  have hend : ∀ e : Direction, c.state ≠ e.transition := by
    intro e he
    obtain ⟨t, ht⟩ := h.coherent.occupied e he
    exact absurd (h.outside.symm.trans ht) (by simp)
  by_cases hd : c.state = d.target
  · exact .inl hd
  · exact .inr (Direction.eq_reverse_target hd (hend d) (hend d.reverse))

theorem state_ne_iff (h : c.Resting) : c.state ≠ d.target ↔ c.state = d.reverse.target :=
  ⟨(h.state_eq d).resolve_left, fun hs => by simp [hs]⟩

/-- A call that finds the connection where it is to take it does nothing. -/
theorem request_of_eq (hs : c.state = d.target) : c.request d () = c := if_pos hs

/-- A call that finds it at the other end goes into `_open()` or `_close()`. -/
theorem request_of_ne (h : c.Resting) (hs : c.state ≠ d.target) :
    c.request d () = c.enter d () := by
  have hrev := h.state_ne_iff.mp hs
  rw [request, if_neg hs, if_neg (by simp [hrev]), if_neg (by simp [hrev])]

end Resting

/-- The call goes into `_open()` or `_close()`. -/
def Enters (c : ConnectionBase Unit) (d : Direction) : Prop :=
  (c.request d ()).place () = .inside d

instance (c : ConnectionBase Unit) (d : Direction) : Decidable (c.Enters d) :=
  inferInstanceAs (Decidable (_ = _))

/-- A whole call, in which `_open()` or `_close()`, if it is reached, ends as `o`. -/
def call (d : Direction) (o : Outcome) (c : ConnectionBase Unit) : ConnectionBase Unit :=
  if c.Enters d then (c.request d ()).leave d o () else c.request d ()

namespace Resting

variable {c : ConnectionBase Unit} {d : Direction}

theorem enters_iff (h : c.Resting) : c.Enters d ↔ c.state ≠ d.target := by
  constructor
  · intro he hs
    rw [Enters, request_of_eq hs, h.outside] at he
    exact absurd he (by simp)
  · intro hs
    rw [Enters, h.request_of_ne hs]
    exact put_place_self ..

/-- **The end of `_open()` or `_close()` takes the connection to rest again.** -/
theorem leave (h : c.Resting) (hs : c.state ≠ d.target) (o : Outcome) :
    ((c.request d ()).leave d o ()).Resting := by
  rw [h.request_of_ne hs]
  exact ⟨(h.coherent.enter d ()).leave d o (), put_place_self ..⟩

/-- A call that finds the connection where it is to take it. -/
theorem call_of_eq (h : c.Resting) (hs : c.state = d.target) (o : Outcome) : c.call d o = c := by
  rw [ConnectionBase.call, if_neg fun he => h.enters_iff.mp he hs, request_of_eq hs]

theorem call_of_ne (h : c.Resting) (hs : c.state ≠ d.target) (o : Outcome) :
    c.call d o = (c.request d ()).leave d o () := if_pos (h.enters_iff.mpr hs)

theorem call (h : c.Resting) (d : Direction) (o : Outcome) : (c.call d o).Resting := by
  by_cases hs : c.state = d.target
  · rwa [h.call_of_eq hs]
  · rw [h.call_of_ne hs]
    exact h.leave hs o

/-- **A call takes the connection where it is to, unless `_open()` or `_close()` fails.** -/
theorem call_state (h : c.Resting) (d : Direction) (o : Outcome) :
    (c.call d o).state = d.target ↔ c.state = d.target ∨ o = .returned := by
  by_cases hs : c.state = d.target
  · simp [h.call_of_eq hs, hs]
  · cases o <;> simp [h.call_of_ne hs, hs, Outcome.success]

end Resting

end FlockwaveConn.ConnectionBase
