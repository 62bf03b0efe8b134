import Mathlib

/-!
# Machinery/Exceptions — computations that raise, and clean up

An `EStateM ε σ α` ends with a value or with an exception, and what it has done to the state by then
is done in either case.  So `try … catch` and `try … finally` of this monad are those of a language
with exceptions and side effects, and its triples have a postcondition for each of the two ends.
-/

open Std.Do

set_option mvcgen.warning false

namespace EStateM

universe u

variable {ε σ α β : Type u}

/-- **The rule of `try … finally`**: the clean-up runs after a value and after an exception, and an
exception of its own comes in the place of either. -/
@[spec]
theorem spec_tryFinally' (x : EStateM ε σ α) (h : Option α → EStateM ε σ β)
    (Q : PostCond (α × β) (.except ε (.arg σ .pure))) :
    ⦃wp⟦x⟧ (fun a => wp⟦h (some a)⟧ (fun b => Q.1 (a, b), Q.2),
        fun e => wp⟦h none⟧ (fun _ => Q.2.1 e, Q.2), Q.2.2)⦄
      (MonadFinally.tryFinally' x h : EStateM ε σ (α × β)) ⦃Q⦄ := by
  intro s hs
  simp only [wp, PredTrans.apply, MonadFinally.tryFinally', EStateM.run] at hs ⊢
  cases hx : x s with
  | ok a s' =>
    rw [hx] at hs
    dsimp only at hs ⊢
    cases hy : h (some a) s' <;> simpa [hy] using hs
  | error e s' =>
    rw [hx] at hs
    dsimp only at hs ⊢
    cases hy : h none s' <;> simpa [hy] using hs

/-- **The rule of a clean-up that raises again**: `S` is what the exception leaves to it. -/
theorem triple_reraise {x : EStateM ε σ α} {y : EStateM ε σ PUnit} {P R S : σ → Prop}
    {Q : α → σ → Prop}
    (hx : ⦃fun s => ⌜P s⌝⦄ x ⦃post⟨fun a s => ⌜Q a s⌝, fun _ s => ⌜S s⌝⟩⦄)
    (hy : ⦃fun s => ⌜S s⌝⦄ y ⦃post⟨fun _ s => ⌜R s⌝, fun _ s => ⌜R s⌝⟩⦄) :
    ⦃fun s => ⌜P s⌝⦄ tryCatch x (fun e => do y; throw e)
    ⦃post⟨fun a s => ⌜Q a s⌝, fun _ s => ⌜R s⌝⟩⦄ := by
  mvcgen [hx, hy]
  exact id

/-- A triple says how a run ends. -/
theorem run_of_triple {x : EStateM ε σ α} {P : σ → Prop} {Q : α → σ → Prop} {R : ε → σ → Prop}
    (h : ⦃fun s => ⌜P s⌝⦄ x ⦃post⟨fun a s => ⌜Q a s⌝, fun e s => ⌜R e s⌝⟩⦄) {s : σ} (hs : P s) :
    match x.run s with
    | .ok a s' => Q a s'
    | .error e s' => R e s' := by
  have hw := h s hs
  simp only [wp, PredTrans.apply] at hw
  split <;> simp_all

end EStateM
