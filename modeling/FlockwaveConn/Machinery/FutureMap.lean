import Mathlib.Logic.Function.Basic
import Mathlib.Tactic.TypeStar

/-!
# Machinery/FutureMap — a mapping from keys to one-shot futures

A future is a name and a value that is set at most once.  A key leads to the future that is
registered under it, if there is one; a future stays what it is when its key is gone.
-/

/-- Futures `φ`, some of them registered under a key `κ`. -/
structure FutureMap (κ φ α : Type*) where
  /-- The future under a key. -/
  get : κ → Option φ
  /-- The value of a future, `none` while it is not done. -/
  value : φ → Option α

namespace FutureMap

variable {κ φ α : Type*}

/-- The map without keys. -/
def empty : FutureMap κ φ α := ⟨fun _ => none, fun _ => none⟩

section

variable [DecidableEq κ]

/-- A future goes under a key; what was there before is no longer found. -/
def register (k : κ) (f : φ) (m : FutureMap κ φ α) : FutureMap κ φ α :=
  { m with get := Function.update m.get k (some f) }

/-- The key is gone. -/
def unregister (k : κ) (m : FutureMap κ φ α) : FutureMap κ φ α :=
  { m with get := Function.update m.get k none }

@[simp] theorem register_value (k : κ) (f : φ) (m : FutureMap κ φ α) :
    (m.register k f).value = m.value := rfl

@[simp] theorem unregister_value (k : κ) (m : FutureMap κ φ α) :
    (m.unregister k).value = m.value := rfl

@[simp] theorem register_get_self (k : κ) (f : φ) (m : FutureMap κ φ α) :
    (m.register k f).get k = some f := Function.update_self ..

@[simp] theorem unregister_get_self (k : κ) (m : FutureMap κ φ α) :
    (m.unregister k).get k = none := Function.update_self ..

theorem register_get_of_ne {k k' : κ} (f : φ) (m : FutureMap κ φ α) (h : k' ≠ k) :
    (m.register k f).get k' = m.get k' := Function.update_of_ne h ..

theorem unregister_get_of_ne {k k' : κ} (m : FutureMap κ φ α) (h : k' ≠ k) :
    (m.unregister k).get k' = m.get k' := Function.update_of_ne h ..

/-- What is under a key once another one is gone was there before. -/
theorem get_of_unregister {k k' : κ} {m : FutureMap κ φ α} {f : φ}
    (h : (m.unregister k).get k' = some f) : k' ≠ k ∧ m.get k' = some f := by
  by_cases hk : k' = k
  · subst hk
    simp at h
  · exact ⟨hk, unregister_get_of_ne m hk ▸ h⟩

end

/-! ## Setting a value -/

section

variable [DecidableEq φ]

/-- The future under the key gets a value, if there is one and it is not done. -/
def resolve (k : κ) (x : α) (m : FutureMap κ φ α) : FutureMap κ φ α :=
  match m.get k with
  | some f =>
    match m.value f with
    | none => { m with value := Function.update m.value f (some x) }
    | some _ => m
  | none => m

@[simp] theorem resolve_get (k : κ) (x : α) (m : FutureMap κ φ α) :
    (m.resolve k x).get = m.get := by
  unfold resolve
  split
  · split <;> rfl
  · rfl

theorem resolve_of_get_eq_none {k : κ} {m : FutureMap κ φ α} (x : α) (h : m.get k = none) :
    m.resolve k x = m := by
  simp [resolve, h]

theorem resolve_of_done {k : κ} {m : FutureMap κ φ α} {f : φ} (x : α) (h : m.get k = some f)
    (hv : m.value f ≠ none) : m.resolve k x = m := by
  obtain ⟨y, hy⟩ := Option.ne_none_iff_exists'.mp hv
  simp [resolve, h, hy]

theorem resolve_value_self {k : κ} {m : FutureMap κ φ α} {f : φ} (x : α) (h : m.get k = some f)
    (hv : m.value f = none) : (m.resolve k x).value f = some x := by
  simp [resolve, h, hv]

/-- **A future that is done stays so.** -/
theorem resolve_value_of_some {k : κ} {m : FutureMap κ φ α} {f : φ} {x y : α}
    (h : m.value f = some y) : (m.resolve k x).value f = some y := by
  unfold resolve
  split
  · next g hg =>
      split
      · next hv =>
          have hfg : f ≠ g := by
            rintro rfl
            simp [h] at hv
          exact (Function.update_of_ne hfg ..).trans h
      · exact h
  · exact h

/-- A new value has come through the key of its future. -/
theorem get_of_resolve_value {k : κ} {m : FutureMap κ φ α} {f : φ} {x y : α}
    (h : (m.resolve k x).value f = some y) : m.value f = some y ∨ m.get k = some f ∧ y = x := by
  unfold resolve at h
  split at h
  · next g hg =>
      split at h
      · by_cases hfg : f = g
        · subst hfg
          exact .inr ⟨hg, by simpa [eq_comm] using h⟩
        · exact .inl ((Function.update_of_ne hfg ..).symm.trans h)
      · exact .inl h
  · exact .inl h

end

end FutureMap
