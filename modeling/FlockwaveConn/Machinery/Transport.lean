import Mathlib.Data.List.Basic

/-!
# Machinery/Transport — what may become of messages on their way

A transport is given by what can happen to the messages that are on their way, and by a relation
between those that have come out or are on their way and those that have gone in.  That the relation
is kept is part of the transport, so what uses one has the relation in every state.

Three of them: `reliable`, `lossy` and `unordered`.
-/

variable {α : Type*}

/-- **A transport.** -/
structure Transport (α : Type*) where
  /-- The messages on their way may turn into these. -/
  disturbs : List α → List α → Prop
  /-- What has come out and is on its way, against what has gone in. -/
  carries : List α → List α → Prop
  nil : carries [] []
  concat : ∀ {as bs} x, carries as bs → carries (as ++ [x]) (bs ++ [x])
  disturb : ∀ {as cs cs' bs}, carries (as ++ cs) bs → disturbs cs cs' → carries (as ++ cs') bs

namespace Transport

/-- Nothing happens to a message. -/
def reliable : Transport α where
  disturbs cs cs' := cs' = cs
  carries as bs := as = bs
  nil := rfl
  concat _ h := h ▸ rfl
  disturb h hcs := hcs ▸ h

/-- Messages may be lost. -/
def lossy : Transport α where
  disturbs cs cs' := cs'.Sublist cs
  carries as bs := as.Sublist bs
  nil := List.Sublist.refl []
  concat x h := h.append_right [x]
  disturb h hcs := (hcs.append_left _).trans h

/-- Messages may be lost, come in another order and come more than once. -/
def unordered : Transport α where
  disturbs cs cs' := cs' ⊆ cs
  carries as bs := as ⊆ bs
  nil := List.Subset.refl []
  concat x h := List.append_subset.mpr
    ⟨List.Subset.trans h (List.subset_append_left _ _), List.subset_append_right _ _⟩
  disturb h hcs := by
    obtain ⟨has, hrest⟩ := List.append_subset.mp h
    exact List.append_subset.mpr ⟨has, List.Subset.trans hcs hrest⟩

end Transport
