import FlockwaveConn.Factory.Create

/-!
# Factory/Use — registrations that are undone

`use()` and `use_middleware()` register a name for the time of a `with` block.  They do it in the
same way, each in its own registry: on leaving they unregister the name and then register what has
been there before.  The first of these steps is a `KeyError` if the block has unregistered the name
itself; then the old class is not restored, and the exception of the block gives way to the new one
(`use_undone_iff`).
-/

namespace FlockwaveConn

universe u

/-- The two registries of a factory. -/
inductive Registry
  | classes
  | middleware
  deriving DecidableEq, Repr

/-- What is registered there. -/
abbrev Registry.Entry (F M : Type u) : Registry → Type u
  | .classes => F
  | .middleware => M

/-- What can leave a `with` block. -/
inductive BlockError (ε : Type u)
  | keyError (name : Text)
  /-- A `KeyError` with a `__context__`: the exception that was being handled. -/
  | keyErrorDuring (name : Text) (context : BlockError ε)
  | other (e : ε)

/-- What a block does to a factory, and then; `none` is the normal end.  What `create()` calls, once
it has found it, is the block's own affair. -/
inductive Block (F M V ε : Type u)
  | ended (x : Option (BlockError ε))
  | create (specification : Text ⊕ DictSpecification V)
    (next : Except CreationError (F × List M) → Block F M V ε)
  /-- `register()` or `register_middleware()` -/
  | register (r : Registry) (name : Text) (klass : r.Entry F M) (next : Block F M V ε)
  /-- `unregister()` or `unregister_middleware()` -/
  | unregister (r : Registry) (name : Text) (next : Option (BlockError ε) → Block F M V ε)
  /-- `with factory.use(klass, name)`, or `use_middleware()`. -/
  | use (r : Registry) (klass : r.Entry F M) (name : Text) (block : Block F M V ε)
    (next : Option (BlockError ε) → Block F M V ε)

namespace Factory

variable {F M V ε : Type u}

/-- `self._registry` or `self._middleware_registry` -/
def entries : (r : Registry) → Factory F M → Text → Option (r.Entry F M)
  | .classes, f => f.registry
  | .middleware, f => f.middlewareRegistry

/-- A name gets another meaning, or none. -/
def setEntry : (r : Registry) → Text → Option (r.Entry F M) → Factory F M → Factory F M
  | .classes, name, x, f => { f with registry := Function.update f.registry name x }
  | .middleware, name, x, f =>
    { f with middlewareRegistry := Function.update f.middlewareRegistry name x }

@[simp] theorem entries_setEntry_self (r : Registry) (name : Text) (x : Option (r.Entry F M))
    (f : Factory F M) : (f.setEntry r name x).entries r name = x := by
  cases r <;> exact Function.update_self ..

/-- Nothing else changes, in either registry. -/
theorem entries_setEntry_of_ne {r r' : Registry} {name name' : Text} (h : r' ≠ r ∨ name' ≠ name)
    (x : Option (r.Entry F M)) (f : Factory F M) :
    (f.setEntry r name x).entries r' name' = f.entries r' name' := by
  cases r <;> cases r' <;> first | rfl | exact Function.update_of_ne (by simpa using h) ..

/-- `unregister()`, unless it raises. -/
def unregister (r : Registry) (name : Text) (f : Factory F M) : Option (Factory F M) :=
  (f.entries r name).map fun _ => f.setEntry r name none

/-- The `finally` clause of `use()`, after a block that has ended as `x`. -/
def leave (r : Registry) (name : Text) (old : Option (r.Entry F M))
    (x : Option (BlockError ε)) (f : Factory F M) : Factory F M × Option (BlockError ε) :=
  match f.unregister r name with
  | none => (f, some (x.elim (.keyError name) (.keyErrorDuring name)))
  | some f =>
    match old with
    | none => (f, x)
    | some klass => (f.setEntry r name (some klass), x)

/-- `with factory.use(klass, name)`, or `use_middleware()`, around a block. -/
def use (r : Registry) (klass : r.Entry F M) (name : Text)
    (block : Factory F M → Factory F M × Option (BlockError ε)) (f : Factory F M) :
    Factory F M × Option (BlockError ε) :=
  let old := f.entries r name
  let (f, x) := block (f.setEntry r name (some klass))
  f.leave r name old x

end Factory

namespace Block

variable {F M V ε : Type u} (lib : Stdlib) (value : ParameterValue → V)

/-- A block, from its beginning to its end. -/
def run : Block F M V ε → Factory F M → Factory F M × Option (BlockError ε)
  | ended x, f => (f, x)
  | create specification next, f =>
    run (next ((Factory.toDict lib value specification).bind f.resolve)) f
  | register r name klass next, f => run next (f.setEntry r name (some klass))
  | unregister r name next, f =>
    match f.unregister r name with
    | some f => run (next none) f
    | none => run (next (some (.keyError name))) f
  | use r klass name block next, f =>
    let (f, x) := f.use r klass name (run block)
    run (next x) f

end Block

namespace Factory

variable {F M V ε : Type u} {r : Registry} {name : Text} {f : Factory F M}

theorem register_eq_setEntry (name : Text) (klass : F) (f : Factory F M) :
    f.register name klass = f.setEntry .classes name (some klass) := rfl

theorem registerMiddleware_eq_setEntry (name : Text) (middleware : M) (f : Factory F M) :
    f.registerMiddleware name middleware = f.setEntry .middleware name (some middleware) := rfl

theorem unregister_of_none (h : f.entries r name = none) : f.unregister r name = none := by
  simp only [unregister, h, Option.map_none]

theorem unregister_of_isSome (h : (f.entries r name).isSome) :
    f.unregister r name = some (f.setEntry r name none) := by
  obtain ⟨klass, hklass⟩ := Option.isSome_iff_exists.mp h
  simp only [unregister, hklass, Option.map_some]

/-- A context in which nothing goes wrong: entered in `f`, its block ended as `ended`, and this
is how it was left. -/
structure Undone (r : Registry) (name : Text) (f : Factory F M)
    (ended left : Factory F M × Option (BlockError ε)) : Prop where
  restored : left.1.entries r name = f.entries r name
  others : ∀ r' name', r' ≠ r ∨ name' ≠ name → left.1.entries r' name' = ended.1.entries r' name'
  raised : ∀ e, ended.2 = some e → left.2 = some e

variable (old : Option (r.Entry F M)) (x : Option (BlockError ε))

/-- Unregistered and registered again: both steps of the `finally` clause are as one. -/
theorem leave_of_isSome (h : (f.entries r name).isSome) :
    (f.leave r name old x).1.entries r name = old ∧ (f.leave r name old x).2 = x := by
  rw [leave, unregister_of_isSome h]
  cases old <;> exact ⟨entries_setEntry_self .., rfl⟩

/-- Unregistered in the meantime: the block's exception is now a `__context__`. -/
theorem leave_of_none (h : f.entries r name = none) :
    f.leave r name old x = (f, some (x.elim (.keyError name) (.keyErrorDuring name))) := by
  rw [leave, unregister_of_none h]

/-- Leaving a context changes no other name, in whichever way it goes. -/
theorem leave_of_ne {r' : Registry} {name' : Text} (hne : r' ≠ r ∨ name' ≠ name) :
    (f.leave r name old x).1.entries r' name' = f.entries r' name' := by
  cases h : f.entries r name with
  | none => rw [leave_of_none old x h]
  | some klass =>
    rw [leave, unregister_of_isSome (by simp [h])]
    cases old with
    | none => exact entries_setEntry_of_ne hne none f
    | some k =>
      exact (entries_setEntry_of_ne hne (some k) _).trans (entries_setEntry_of_ne hne none f)

/-- With the name still there, the context is left as it should be. -/
theorem undone_leave {g : Factory F M} (h : (g.entries r name).isSome)
    (x : Option (BlockError ε)) (f : Factory F M) :
    Undone r name f (g, x) (g.leave r name (f.entries r name) x) := by
  obtain ⟨hrestored, hraised⟩ := leave_of_isSome (f.entries r name) x h
  exact ⟨hrestored, fun r' name' => leave_of_ne _ _, fun e he => hraised.trans he⟩

theorem BlockError.keyErrorDuring_ne (name : Text) (e : BlockError ε) :
    BlockError.keyErrorDuring name e ≠ e := by
  intro h
  have := congrArg sizeOf h
  simp at this

/-- A context is undone unless its block has unregistered the name; then it makes no difference
only if the name was free before and the block ends normally. -/
theorem use_undone_iff (lib : Stdlib) (value : ParameterValue → V) (r : Registry)
    (klass : r.Entry F M) (name : Text) (block : Block F M V ε) (f : Factory F M) :
    let ended := block.run lib value (f.setEntry r name (some klass))
    Undone r name f ended (f.use r klass name (block.run lib value)) ↔
      (ended.1.entries r name).isSome ∨ f.entries r name = none ∧ ended.2 = none := by
  intro ended
  have hleft : f.use r klass name (block.run lib value) =
      ended.1.leave r name (f.entries r name) ended.2 := rfl
  rw [hleft]
  cases hname : ended.1.entries r name with
  | some k =>
    have hsome : (ended.1.entries r name).isSome := by
      rw [hname]
      rfl
    exact iff_of_true (undone_leave hsome ended.2 f) (.inl rfl)
  | none =>
    have hnone := leave_of_none (f.entries r name) ended.2 hname
    constructor
    · intro h
      have hfree : f.entries r name = none := by
        rw [← h.restored, hnone, hname]
      refine .inr ⟨hfree, Option.eq_none_iff_forall_not_mem.mpr fun e he => ?_⟩
      have hraised := h.raised e he
      rw [hnone, he] at hraised
      exact BlockError.keyErrorDuring_ne name e (Option.some.inj hraised)
    · rintro (h | ⟨hfree, hended⟩)
      · exact absurd h Bool.false_ne_true
      · exact {
          restored := by rw [hnone, hname, hfree]
          others := fun r' name' => leave_of_ne _ _
          raised := fun e he => absurd (hended.symm.trans he) (Option.some_ne_none e).symm }

/-- The name is taken back in the block: `with factory.use(tls, "tcp"): factory.unregister("tcp")`
leaves nothing registered, where there had been a class before. -/
theorem unregistered_not_restored : ¬ ∀ (lib : Stdlib) (r : Registry)
    (klass : r.Entry String String) (name : Text)
    (block : Block String String ParameterValue Empty) (f : Factory String String),
    Undone r name f (block.run lib id (f.setEntry r name (some klass)))
      (f.use r klass name (block.run lib id)) := by
  intro h
  have hrestored := (h ⟨some 4300, id, fun _ => false, fun _ => true, fun _ => []⟩ .classes
    "tls" "tcp".toList (.unregister .classes "tcp".toList .ended)
    (init.register "tcp".toList "tcp")).restored
  exact absurd hrestored (by decide)

/-! ## Blocks that leave the name alone -/

/-- The block never unregisters the name, nor do the blocks in it.  It may register it again, and
use it. -/
inductive Spares (r : Registry) (name : Text) : Block F M V ε → Prop
  | ended (x : Option (BlockError ε)) : Spares r name (.ended x)
  | create {specification : Text ⊕ DictSpecification V}
    {next : Except CreationError (F × List M) → Block F M V ε} (h : ∀ y, Spares r name (next y)) :
    Spares r name (.create specification next)
  | register {r' : Registry} {name' : Text} {klass : r'.Entry F M} {next : Block F M V ε}
    (h : Spares r name next) : Spares r name (.register r' name' klass next)
  | unregister {r' : Registry} {name' : Text} {next : Option (BlockError ε) → Block F M V ε}
    (hne : r ≠ r' ∨ name ≠ name') (h : ∀ x, Spares r name (next x)) :
    Spares r name (.unregister r' name' next)
  | use {r' : Registry} {klass : r'.Entry F M} {name' : Text} {block : Block F M V ε}
    {next : Option (BlockError ε) → Block F M V ε} (hblock : Spares r name block)
    (h : ∀ x, Spares r name (next x)) : Spares r name (.use r' klass name' block next)

theorem isSome_setEntry (h : (f.entries r name).isSome) (r' : Registry) (name' : Text)
    (klass : r'.Entry F M) : ((f.setEntry r' name' (some klass)).entries r name).isSome := by
  by_cases hr : r = r'
  · subst hr
    by_cases hname : name = name'
    · rw [hname, entries_setEntry_self]
      rfl
    · rwa [entries_setEntry_of_ne (.inr hname)]
  · rwa [entries_setEntry_of_ne (.inl hr)]

/-- A context inside, of whichever name, ends as it began: with the name registered. -/
theorem isSome_leave {r' : Registry} {name' : Text} {old : Option (r'.Entry F M)}
    (h : (f.entries r name).isSome)
    (hold : r' = r → name' = name → old.isSome) (x : Option (BlockError ε)) :
    ((f.leave r' name' old x).1.entries r name).isSome := by
  by_cases hne : r ≠ r' ∨ name ≠ name'
  · rwa [leave_of_ne old x hne]
  · obtain ⟨rfl, rfl⟩ : r = r' ∧ name = name' := by simpa [not_or] using hne
    rw [(leave_of_isSome old x h).1]
    exact hold rfl rfl

/-- Such a block keeps the name registered. -/
theorem Spares.run {block : Block F M V ε} (hblock : Spares r name block) (lib : Stdlib)
    (value : ParameterValue → V) (h : (f.entries r name).isSome) :
    ((block.run lib value f).1.entries r name).isSome := by
  induction hblock generalizing f with
  | ended x => exact h
  | create _ ih => exact ih _ h
  | @register r' name' klass _ _ ih => exact ih (isSome_setEntry h r' name' klass)
  | @unregister r' name' _ hne _ ih =>
    rw [Block.run]
    cases hf : f.unregister r' name' with
    | none => exact ih _ h
    | some f' =>
      refine ih _ ?_
      obtain ⟨_, _, rfl⟩ := Option.map_eq_some_iff.mp hf
      rwa [entries_setEntry_of_ne hne]
  | @use r' klass name' block _ _ _ ihblock ih =>
    refine ih _ (isSome_leave (ihblock (isSome_setEntry h r' name' klass)) ?_ _)
    rintro rfl rfl
    exact h

/-- Whatever else such a block does, it leaves no trace of the context. -/
theorem use_undone_of_spares {block : Block F M V ε} (hblock : Spares r name block) (lib : Stdlib)
    (value : ParameterValue → V) (klass : r.Entry F M) (f : Factory F M) :
    Undone r name f (block.run lib value (f.setEntry r name (some klass)))
      (f.use r klass name (block.run lib value)) := by
  have hset : ((f.setEntry r name (some klass)).entries r name).isSome := by
    rw [entries_setEntry_self]
    rfl
  exact undone_leave (hblock.run lib value hset) _ f

end Factory

end FlockwaveConn
