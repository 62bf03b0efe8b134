import Mathlib.Logic.Equiv.Defs
import Mathlib.Logic.Relation

/-!
# Machinery/Transition — runs of a deterministic labelled machine

A `Machine` is a state, and what each label does to it; a label that is not enabled does nothing at
all (`none`).  Every kind of nondeterminism (the scheduler, the outcome of a call, what the
environment sends) is in the choice of labels, so a run *is* its list of labels.

Two readings of "every run" are used:

* `Reach G s` — some run leads to `s` all of whose steps meet the guard `G`.
* `Along P s ls` / `Throughout R s ls` — one run, given by its labels: `P` at every state it visits,
  `R` between the ends of every step it takes.  `Before` leaves out the last state, `Sometime` asks
  for one state only.
-/

open Relation

/-- A machine that takes one labelled step at a time. -/
structure Machine (σ ℓ : Type*) where
  /-- The state a run starts from. -/
  init : σ
  /-- The effect of a label, `none` where it is not enabled. -/
  step : σ → ℓ → Option σ

namespace Machine

variable {σ ℓ : Type*} (M : Machine σ ℓ)

/-- A step whose state and label meet the guard. -/
def Step (G : σ → ℓ → Prop) (s s' : σ) : Prop := ∃ l, G s l ∧ M.step s l = some s'

/-- States joined by guarded steps. -/
abbrev Steps (G : σ → ℓ → Prop) : σ → σ → Prop := ReflTransGen (M.Step G)

/-- The guard that lets every step pass. -/
def anyStep : σ → ℓ → Prop := fun _ _ => True

/-- **The states of the runs whose steps all meet the guard.** -/
def Reach (G : σ → ℓ → Prop) (s : σ) : Prop := M.Steps G M.init s

/-- The states of all runs. -/
abbrev Reachable (s : σ) : Prop := M.Reach anyStep s

variable {M} {G : σ → ℓ → Prop}

theorem Reach.init : M.Reach G M.init := ReflTransGen.refl

theorem Reach.next {s s' : σ} {l : ℓ} (h : M.Reach G s) (hG : G s l) (hs : M.step s l = some s') :
    M.Reach G s' := ReflTransGen.tail h ⟨l, hG, hs⟩

theorem Reachable.next {s s' : σ} {l : ℓ} (h : M.Reachable s) (hs : M.step s l = some s') :
    M.Reachable s' := Reach.next h trivial hs

/-- A guarded run is a run. -/
theorem Reach.reachable {s : σ} (h : M.Reach G s) : M.Reachable s :=
  ReflTransGen.mono (fun _ _ ⟨l, _, hs⟩ => ⟨l, trivial, hs⟩) _ _ h

/-- **The invariant rule along a stretch of a run**: what every guarded step keeps, every run of
guarded steps keeps. -/
theorem Steps.preserves {I : σ → Prop} {s s' : σ} (h : M.Steps G s s') (hI : I s)
    (hstep : ∀ s l s', I s → G s l → M.step s l = some s' → I s') : I s' := by
  induction h with
  | refl => exact hI
  | tail _ hst ih =>
    obtain ⟨l, hG, hs⟩ := hst
    exact hstep _ l _ ih hG hs

/-- **The invariant rule**: what holds at the start and is kept by every guarded step holds in every
state of a guarded run. -/
theorem Reach.invariant {I : σ → Prop} {s : σ} (h : M.Reach G s) (hinit : I M.init)
    (hstep : ∀ s l s', I s → G s l → M.step s l = some s' → I s') : I s :=
  Steps.preserves h hinit hstep

/-! ## One run, by its labels -/

variable (M)

/-- The state a list of labels leads to, `none` where a label is not enabled. -/
def exec : σ → List ℓ → Option σ
  | s, [] => some s
  | s, l :: ls => (M.step s l).bind fun s' => exec s' ls

/-- `P` holds in every state the run visits, its first state included. -/
def Along (P : σ → Prop) : σ → List ℓ → Prop
  | s, [] => P s
  | s, l :: ls => P s ∧ ∀ s', M.step s l = some s' → Along P s' ls

/-- `P` holds in every state the run visits but the last. -/
def Before (P : σ → Prop) : σ → List ℓ → Prop
  | _, [] => True
  | s, l :: ls => P s ∧ ∀ s', M.step s l = some s' → Before P s' ls

/-- `P` holds in some state the run visits. -/
def Sometime (P : σ → Prop) : σ → List ℓ → Prop
  | s, [] => P s
  | s, l :: ls => P s ∨ ∃ s', M.step s l = some s' ∧ Sometime P s' ls

/-- `R` relates the ends of every step the run takes. -/
def Throughout (R : σ → ℓ → σ → Prop) : σ → List ℓ → Prop
  | _, [] => True
  | s, l :: ls => ∀ s', M.step s l = some s' → R s l s' ∧ Throughout R s' ls

/-- `G` holds of every step the run takes, of its label and the state before it. -/
abbrev Guarded (G : σ → ℓ → Prop) : σ → List ℓ → Prop := M.Throughout fun s l _ => G s l

variable {M}

theorem Along.here {P : σ → Prop} {s : σ} {ls : List ℓ} (h : M.Along P s ls) : P s := by
  cases ls with
  | nil => exact h
  | cons l ls => exact h.1

theorem Sometime.here {P : σ → Prop} {s : σ} (h : P s) (ls : List ℓ) : M.Sometime P s ls := by
  cases ls with
  | nil => exact h
  | cons l ls => exact .inl h

/-- Where `P` fails, a run of which it holds before the end is at its end. -/
theorem Before.eq_nil {P : σ → Prop} {s : σ} {ls : List ℓ} (h : M.Before P s ls) (hs : ¬ P s) :
    ls = [] := by
  cases ls with
  | nil => rfl
  | cons l ls => exact absurd h.1 hs

theorem Before.cons {P : σ → Prop} {s s₁ : σ} {l : ℓ} {ls : List ℓ} (hs : M.step s l = some s₁)
    (hP : P s) (h : M.Before P s₁ ls) : M.Before P s (l :: ls) := by
  refine ⟨hP, fun s' hs' => ?_⟩
  obtain rfl : s₁ = s' := Option.some.inj (hs.symm.trans hs')
  exact h

/-- A step at the head of a run. -/
theorem Throughout.cons {R : σ → ℓ → σ → Prop} {s s₁ : σ} {l : ℓ} {ls : List ℓ}
    (hs : M.step s l = some s₁) (hR : R s l s₁) (h : M.Throughout R s₁ ls) :
    M.Throughout R s (l :: ls) := by
  intro s' hs'
  obtain rfl : s₁ = s' := Option.some.inj (hs.symm.trans hs')
  exact ⟨hR, h⟩

/-- …and at the end of one. -/
theorem Throughout.last {R : σ → ℓ → σ → Prop} {s s₁ s₂ : σ} {ls : List ℓ} {l : ℓ}
    (h : M.Throughout R s (ls ++ [l])) (hex : M.exec s ls = some s₁) (hs : M.step s₁ l = some s₂) :
    R s₁ l s₂ := by
  induction ls generalizing s with
  | nil =>
    obtain rfl := Option.some.inj hex
    exact (h _ hs).1
  | cons l' ls ih =>
    obtain ⟨s', hs', hrest⟩ := Option.bind_eq_some_iff.mp hex
    exact ih (h s' hs').2 hrest

theorem guarded_anyStep (s : σ) (ls : List ℓ) : M.Guarded anyStep s ls := by
  induction ls generalizing s with
  | nil => trivial
  | cons l ls ih => exact fun s' _ => ⟨trivial, ih s'⟩

/-- **A run that meets the guard keeps every guarded invariant**, in each state it visits. -/
theorem Guarded.along {I : σ → Prop} {s : σ} {ls : List ℓ} (h : M.Guarded G s ls) (hI : I s)
    (hstep : ∀ s l s', I s → G s l → M.step s l = some s' → I s') : M.Along I s ls := by
  induction ls generalizing s with
  | nil => exact hI
  | cons l ls ih =>
    refine ⟨hI, fun s' hs => ?_⟩
    obtain ⟨hG, hrest⟩ := h s' hs
    exact ih hrest (hstep s l s' hI hG hs)

/-- **…and has, at every step, what the guard and the invariant give of the step.** -/
theorem Guarded.throughout {I : σ → Prop} {R : σ → ℓ → σ → Prop} {s : σ} {ls : List ℓ}
    (h : M.Guarded G s ls) (hI : I s)
    (hstep : ∀ s l s', I s → G s l → M.step s l = some s' → I s' ∧ R s l s') :
    M.Throughout R s ls := by
  induction ls generalizing s with
  | nil => trivial
  | cons l ls ih =>
    intro s' hs
    obtain ⟨hG, hrest⟩ := h s' hs
    obtain ⟨hI', hR⟩ := hstep s l s' hI hG hs
    exact ⟨hR, ih hrest hI'⟩

/-- **Two properties of a step that agree wherever an invariant of all runs holds agree along every
run.** -/
theorem throughout_congr {I : σ → Prop} {R R' : σ → ℓ → σ → Prop} {s : σ} {ls : List ℓ} (hI : I s)
    (hstep : ∀ s l s', I s → M.step s l = some s' → I s' ∧ (R s l s' ↔ R' s l s')) :
    M.Throughout R s ls ↔ M.Throughout R' s ls := by
  induction ls generalizing s with
  | nil => rfl
  | cons l ls ih =>
    refine forall_congr' fun s' => forall_congr' fun hs => ?_
    obtain ⟨hI', hiff⟩ := hstep s l s' hI hs
    exact and_congr hiff (ih hI')

theorem Along.mono {P Q : σ → Prop} {s : σ} {ls : List ℓ} (h : M.Along P s ls)
    (hPQ : ∀ s, P s → Q s) : M.Along Q s ls := by
  induction ls generalizing s with
  | nil => exact hPQ s h
  | cons l ls ih => exact ⟨hPQ s h.1, fun s' hs => ih (h.2 s' hs)⟩

theorem Along.and {P Q : σ → Prop} {s : σ} {ls : List ℓ} (hP : M.Along P s ls)
    (hQ : M.Along Q s ls) : M.Along (fun s => P s ∧ Q s) s ls := by
  induction ls generalizing s with
  | nil => exact ⟨hP, hQ⟩
  | cons l ls ih => exact ⟨⟨hP.1, hQ.1⟩, fun s' hs => ih (hP.2 s' hs) (hQ.2 s' hs)⟩

/-- A guard that only looks at the label. -/
theorem guarded_of_forall {Q : ℓ → Prop} {ls : List ℓ} (h : ∀ l ∈ ls, Q l) (s : σ) :
    M.Guarded (fun _ l => Q l) s ls := by
  induction ls generalizing s with
  | nil => trivial
  | cons l ls ih =>
    exact fun s' _ => ⟨h l List.mem_cons_self, ih (fun m hm => h m (List.mem_cons_of_mem l hm)) s'⟩

/-- **A property that only guarded steps lead to makes its runs guarded**: a step between two states
with the invariant and with `P` at its end meets `G`.  The steps may be known to meet another guard
already. -/
theorem Along.guarded_of {I P : σ → Prop} {H : σ → ℓ → Prop} {s : σ} {ls : List ℓ}
    (h : M.Along P s ls) (hH : M.Guarded H s ls) (hI : I s)
    (hstep : ∀ s l s', I s → H s l → M.step s l = some s' → P s' → G s l ∧ I s') :
    M.Guarded G s ls := by
  induction ls generalizing s with
  | nil => trivial
  | cons l ls ih =>
    intro s' hs
    have hrest := h.2 s' hs
    obtain ⟨hl, hH'⟩ := hH s' hs
    obtain ⟨hG, hI'⟩ := hstep s l s' hI hl hs hrest.here
    exact ⟨hG, ih hrest hH' hI'⟩

/-- …also where the property itself is all that is known of the state before the step. -/
theorem Along.guarded {P : σ → Prop} {s : σ} {ls : List ℓ} (h : M.Along P s ls)
    (hstep : ∀ s l s', P s → M.step s l = some s' → P s' → G s l) : M.Guarded G s ls :=
  h.guarded_of (guarded_anyStep s ls) h.here
    fun s l s' hP _ hs hP' => ⟨hstep s l s' hP hs hP', hP'⟩

/-- **The exact guard of a property**: where a step from a state with the invariant and with `P`
leads to `P` exactly if it meets `G`, the runs that have `P` in each state are those whose steps all
meet `G`. -/
theorem along_iff_guarded_of {I P : σ → Prop} {s : σ} {ls : List ℓ} (hI : I s) (hP : P s)
    (hstep : ∀ s l s', I s → P s → M.step s l = some s' → I s' ∧ (P s' ↔ G s l)) :
    M.Along P s ls ↔ M.Guarded G s ls := by
  constructor
  · intro h
    refine h.guarded_of (I := fun s => I s ∧ P s) (guarded_anyStep s ls) ⟨hI, hP⟩ ?_
    intro s l s' hs _ hst hP'
    obtain ⟨hI', hiff⟩ := hstep s l s' hs.1 hs.2 hst
    exact ⟨hiff.mp hP', hI', hP'⟩
  · intro h
    refine (h.along (I := fun s => I s ∧ P s) ⟨hI, hP⟩ ?_).mono fun _ hs => hs.2
    intro s l s' hs hG hst
    obtain ⟨hI', hiff⟩ := hstep s l s' hs.1 hs.2 hst
    exact ⟨hI', hiff.mpr hG⟩

/-- …also where there is no invariant but the property itself. -/
theorem along_iff_guarded {P : σ → Prop} {s : σ} {ls : List ℓ} (hP : P s)
    (hstep : ∀ s l s', P s → M.step s l = some s' → (P s' ↔ G s l)) :
    M.Along P s ls ↔ M.Guarded G s ls :=
  along_iff_guarded_of (I := fun _ => True) trivial hP
    fun s l s' _ hP hst => ⟨trivial, hstep s l s' hP hst⟩

/-- The labels of a run are a way to reach its end. -/
theorem steps_of_exec_of {Q : ℓ → Prop} {s s' : σ} {ls : List ℓ} (h : M.exec s ls = some s')
    (hQ : ∀ l ∈ ls, Q l) : M.Steps (fun _ l => Q l) s s' := by
  induction ls generalizing s with
  | nil =>
    obtain rfl : s = s' := by simpa [exec] using h
    exact ReflTransGen.refl
  | cons l ls ih =>
    obtain ⟨s₁, hs, hrest⟩ := Option.bind_eq_some_iff.mp h
    obtain ⟨hl, hls⟩ := List.forall_mem_cons.mp hQ
    exact ReflTransGen.head ⟨l, hl, hs⟩ (ih hrest hls)

theorem steps_of_exec {s s' : σ} {ls : List ℓ} (h : M.exec s ls = some s') :
    M.Steps anyStep s s' := steps_of_exec_of h fun _ _ => trivial

theorem reachable_of_exec {s : σ} (ls : List ℓ) (h : M.exec M.init ls = some s) : M.Reachable s :=
  steps_of_exec h

/-- **What the steps of a run have noted**: where each step adds to a record what its label says,
the record of a run is the one its labels spell. -/
theorem append_of_exec {β : Type*} {f : σ → List β} {g : ℓ → List β} {s s' : σ} {ls : List ℓ}
    (h : M.exec s ls = some s') (hstep : ∀ s l s', M.step s l = some s' → f s' = f s ++ g l) :
    f s' = f s ++ ls.flatMap g := by
  induction ls generalizing s with
  | nil =>
    obtain rfl := Option.some.inj h
    simp
  | cons l ls ih =>
    obtain ⟨s₁, hs, hrest⟩ := Option.bind_eq_some_iff.mp h
    rw [ih hrest, hstep s l s₁ hs, List.append_assoc, List.flatMap_cons]

/-! ## Refinement -/

variable {σ' ℓ' : Type*}

/-- **Forward simulation**: `f` reads a step as one step of `A` that meets the guard, or as none. -/
def ReadAs (A : Machine σ' ℓ') (H : σ' → ℓ' → Prop) (f : σ → σ') (s : σ) (_ : ℓ) (s' : σ) : Prop :=
  f s' = f s ∨ A.Step H (f s) (f s')

/-- **A run that is read so goes where the guarded runs of `A` go.** -/
theorem Throughout.reach {A : Machine σ' ℓ'} {H : σ' → ℓ' → Prop} {f : σ → σ'} {s : σ}
    {ls : List ℓ} (h : M.Throughout (ReadAs A H f) s ls) (hs : A.Reach H (f s)) :
    M.Along (fun s => A.Reach H (f s)) s ls := by
  induction ls generalizing s with
  | nil => exact hs
  | cons l ls ih =>
    refine ⟨hs, fun s' hst => ?_⟩
    obtain ⟨hread, hrest⟩ := h s' hst
    refine ih hrest ?_
    rcases hread with hsame | hstep
    · exact hsame ▸ hs
    · exact ReflTransGen.tail hs hstep

/-! ## Bisimulation -/

/-- **A bisimulation** of two machines whose labels correspond: they start in related states, and
from related states a label leads to related states, or it is enabled in neither machine. -/
structure Bisimulation (M : Machine σ ℓ) (N : Machine σ' ℓ') (e : ℓ ≃ ℓ') (R : σ → σ' → Prop) :
    Prop where
  init : R M.init N.init
  step : ∀ {s t} l, R s t → Option.Rel R (M.step s l) (N.step t (e l))

/-- **Bisimilar machines go through related states**, along any run. -/
theorem Bisimulation.exec {N : Machine σ' ℓ'} {e : ℓ ≃ ℓ'} {R : σ → σ' → Prop}
    (h : Bisimulation M N e R) {s : σ} {t : σ'} (hR : R s t) (ls : List ℓ) :
    Option.Rel R (M.exec s ls) (N.exec t (ls.map e)) := by
  induction ls generalizing s t with
  | nil => exact .some hR
  | cons l ls ih =>
    have hst := h.step l hR
    rw [List.map_cons, Machine.exec, Machine.exec]
    generalize M.step s l = x at hst
    generalize N.step t (e l) = y at hst
    cases hst with
    | some hR' => exact ih hR'
    | none => exact .none

end Machine
