import FlockwaveConn.Connections.Invariant

/-!
# Connections/History — the signals and the flags tell what happened

The changes of state a connection has announced form a walk from `DISCONNECTED` to the state it is
in, and the other two signals are read off that walk (`signalsOf`).  It holds of every run: also
where calls race, `_set_state` is the only one to touch the state.
-/

namespace FlockwaveConn.ConnectionBase

/-- The changes of state among the signals. -/
def changes (xs : List Signal) : List (ConnectionState × ConnectionState) :=
  xs.filterMap fun
    | .stateChanged o n => some (o, n)
    | _ => none

/-- A chain of changes from one state to another, each of them a change indeed. -/
def Walk : ConnectionState → List (ConnectionState × ConnectionState) → ConnectionState → Prop
  | s, [], s' => s = s'
  | s, x :: xs, s' => x.1 = s ∧ x.1 ≠ x.2 ∧ Walk x.2 xs s'

variable {Task : Type*}

/-- **The signals and the flags tell the true history.** -/
structure TrueHistory (c : ConnectionBase Task) : Prop where
  /-- Each old state is the previous new one, and the last new state is the current one. -/
  walk : Walk .disconnected (changes c.signals) c.state
  /-- `connected` and `disconnected` follow the changes into these states, and nothing else is
  sent. -/
  announced : c.signals = (changes c.signals).flatMap signalsOf
  connected : c.isConnected = true ↔ c.state = .connected
  disconnected : c.isDisconnected = true ↔ c.state = .disconnected

theorem Walk.concat {s s' n : ConnectionState} {xs : List (ConnectionState × ConnectionState)}
    (h : Walk s xs s') (hn : s' ≠ n) : Walk s (xs ++ [(s', n)]) n := by
  induction xs generalizing s with
  | nil =>
    obtain rfl : s = s' := h
    exact ⟨rfl, hn, rfl⟩
  | cons x xs ih => exact ⟨h.1, h.2.1, ih h.2.2⟩

theorem changes_signalsOf (x : ConnectionState × ConnectionState) :
    changes (signalsOf x) = [x] := by
  obtain ⟨o, n⟩ := x
  cases n <;> rfl

theorem changes_append (xs ys : List Signal) : changes (xs ++ ys) = changes xs ++ changes ys :=
  List.filterMap_append

theorem trueHistory_init : (init : ConnectionBase Task).TrueHistory :=
  ⟨rfl, rfl, by simp [init], by simp [init]⟩

namespace TrueHistory

variable {c : ConnectionBase Task}

/-- **`_set_state` continues the history.** -/
theorem setState (h : c.TrueHistory) (hf : c.FlagsAgree) (n : ConnectionState) :
    (c.setState n).TrueHistory := by
  by_cases hn : n = c.state
  · rwa [setState_self hn]
  have hch : changes (c.signals ++ signalsOf (c.state, n)) =
      changes c.signals ++ [(c.state, n)] := by
    rw [changes_append, changes_signalsOf]
  rw [setState_of_ne hf hn]
  refine ⟨?_, ?_, by simp, by simp⟩
  · rw [hch]
    exact h.walk.concat fun hs => hn hs.symm
  · calc c.signals ++ signalsOf (c.state, n)
        = (changes c.signals).flatMap signalsOf ++ signalsOf (c.state, n) := by rw [← h.announced]
      _ = (changes c.signals ++ [(c.state, n)]).flatMap signalsOf := by simp
      _ = _ := by rw [hch]

variable [DecidableEq Task]

/-- Where the tasks stand is no part of the history. -/
theorem put (h : c.TrueHistory) (t : Task) (p : Place) : (c.put t p).TrueHistory :=
  ⟨h.walk, h.announced, h.connected, h.disconnected⟩

theorem move {c' : ConnectionBase Task} {l : Label Task} (h : c.TrueHistory) (hf : c.FlagsAgree)
    (hm : Move c l c') : c'.TrueHistory := by
  cases hm with
  | noop => exact h
  | join | queue | released | giveUp => exact h.put _ _
  | start | goOn | finish => exact (h.setState hf _).put _ _

end TrueHistory

/-- **In every state of every run the signals and the flags tell the true history.** -/
theorem trueHistory [DecidableEq Task] (ls : List (Label Task)) :
    (connectionBase Task).Along TrueHistory .init ls := by
  have hany : (connectionBase Task).Guarded Machine.anyStep .init ls := Machine.guarded_anyStep _ _
  refine (hany.along (I := fun c => c.Coherent ∧ c.TrueHistory) ⟨coherent_init, trueHistory_init⟩
    ?_).mono fun c hc => hc.2
  intro c l c' hc _ hs
  have hm := move_of_step hs
  exact ⟨hc.1.move hm, hc.2.move hc.1.flags hm⟩

/-- An `open()` that fails, then one that succeeds. -/
example : ((connectionBase (Fin 1)).exec .init
      [.call .up 0, .finish 0 .raised, .call .up 0, .finish 0 .returned]).map signals
    = some [.stateChanged .disconnected .connecting, .stateChanged .connecting .disconnected,
        .disconnected, .stateChanged .disconnected .connecting,
        .stateChanged .connecting .connected, .connected] := by decide

end FlockwaveConn.ConnectionBase
