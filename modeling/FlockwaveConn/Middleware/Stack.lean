import FlockwaveConn.Middleware.ReadOnly

/-!
# Middleware/Stack — what is left of a stack of middleware

The layers of a stack interfere: a `ReadOnlyMiddleware` hides the formatters of the layers below it
from `write()`, a `WriteOnlyMiddleware` hides the reads from all formatters, and where a formatter
raises, the next one does not get to see the item: the one above it for a read, the one below it for
a write.  All that is left of a stack is whether its reads end, and for each item what comes out of
a read that has got it and what becomes of it in a write: two stacks that agree in this are the same
on every connection, and two that do not can be told apart (`indistinguishable_iff`).
-/

namespace FlockwaveConn

variable {τ Item Packet ε E : Type*}

namespace Middleware

/-- What the formatters of a stack raise at an item that is read; the innermost one has it first. -/
def readError : List (Middleware Item ε) → Item → Option (Failure ε)
  | [], _ => none
  | .log onRead _ :: ms, x =>
    match readError ms x, onRead x with
    | some y, _ => some y
    | none, .error y => some y
    | none, .ok _ => none
  | .rd :: ms, x | .wr :: ms, x => readError ms x

/-- What becomes of an item in a `write()`. -/
inductive Fate (ε : Type*)
  /-- It is passed to the wrapped object. -/
  | passed
  /-- A `ReadOnlyMiddleware` drops it. -/
  | dropped
  /-- A formatter raises. -/
  | raises (y : Failure ε)
  deriving DecidableEq

/-- What becomes of an item that is written through a stack; the outermost layer has it first. -/
def fate : List (Middleware Item ε) → Item → Fate ε
  | [], _ => .passed
  | .log _ onWrite :: ms, x =>
    match onWrite x with
    | .ok _ => fate ms x
    | .error y => .raises y
  | .rd :: _, _ => .dropped
  | .wr :: ms, x => fate ms x

end Middleware

/-- A read with what the formatters raise at its item. -/
def Effect.screened (err : Item → Option (Failure ε)) (r : Effect τ Packet (Failure ε) Item) :
    Effect τ Packet (Failure ε) Item :=
  match r.reply with
  | .returned x =>
    match err x with
    | none => r
    | some y => { r with reply := .raised y }
  | _ => r

namespace Connection

open Middleware (readError fate)

variable {c : Connection τ Item Packet ε E} {ms ms' : List (Middleware Item ε)}

/-! ## Through a stack -/

/-- **A read through a stack with a `WriteOnlyMiddleware`** does not end. -/
theorem wrapped_read_of_mem (h : .wr ∈ ms) (e : E) (s : τ) :
    (c.wrapped ms).read e s = ⟨.never, s, []⟩ := by
  induction ms with
  | nil => cases h
  | cons m ms ih =>
    cases m with
    | log onRead onWrite =>
      have hread := ih (by simpa using h)
      change (logging onRead onWrite (c.wrapped ms)).read e s = _
      simp only [logging, hread]
    | rd => exact ih (by simpa using h)
    | wr => rfl

/-- One more formatter. -/
theorem logging_read_of_screened {onRead onWrite : Formatter Item ε} {e : E} {s : τ}
    {r : Effect τ Packet (Failure ε) Item} (h : c.read e s = r.screened (readError ms)) :
    (logging onRead onWrite c).read e s = r.screened (readError (.log onRead onWrite :: ms)) := by
  cases hr : r.reply with
  | returned x =>
    cases hms : readError ms x with
    | some y =>
      -- the item does not get as far as this layer
      have hread : c.read e s = { r with reply := .raised y } := by
        rw [h]
        simp only [Effect.screened, hr, hms]
      simp only [logging, hread, Effect.screened, hr, readError, hms]
    | none =>
      have hread : c.read e s = r := by
        rw [h]
        simp only [Effect.screened, hr, hms]
      simp only [logging, hread, Effect.screened, hr, readError, hms]
      cases onRead x <;> rfl
  | raised y | never =>
    have hread : c.read e s = r := by
      rw [h]
      simp only [Effect.screened, hr]
    simp only [logging, hread, Effect.screened, hr]

/-- **…and through one without** is that of the connection, screened by the formatters. -/
theorem wrapped_read_of_notMem (h : .wr ∉ ms) (e : E) (s : τ) :
    (c.wrapped ms).read e s = (c.read e s).screened (readError ms) := by
  induction ms with
  | nil =>
    unfold Effect.screened
    split <;> rfl
  | cons m ms ih =>
    have hread := ih fun hmem => h (List.mem_cons_of_mem _ hmem)
    cases m with
    | log onRead onWrite => exact logging_read_of_screened hread
    | rd => exact hread
    | wr => exact absurd List.mem_cons_self h

/-- **A write through a stack**, by what becomes of its item. -/
theorem wrapped_write (e : E) (x : Item) (s : τ) :
    (c.wrapped ms).write e x s =
      match fate ms x with
      | .passed => c.write e x s
      | .dropped => ⟨.returned (), s, []⟩
      | .raises y => ⟨.raised y, s, []⟩ := by
  induction ms with
  | nil => rfl
  | cons m ms ih =>
    cases m with
    | log onRead onWrite =>
      change (logging onRead onWrite (c.wrapped ms)).write e x s = _
      simp only [logging, fate]
      cases onWrite x with
      | ok lines => exact ih
      | error y => rfl
    | rd => rfl
    | wr => exact ih

/-! ## Stacks that do the same -/

/-- **Two stacks of which the same is left.** -/
structure SameStack (ms ms' : List (Middleware Item ε)) : Prop where
  blocked : .wr ∈ ms ↔ .wr ∈ ms'
  reads : .wr ∉ ms → ∀ x, readError ms x = readError ms' x
  writes : ∀ x, fate ms x = fate ms' x

theorem SameStack.read_eq (h : SameStack ms ms') (e : E) (s : τ) :
    (c.wrapped ms).read e s = (c.wrapped ms').read e s := by
  by_cases hwr : .wr ∈ ms
  · rw [wrapped_read_of_mem hwr, wrapped_read_of_mem (h.blocked.mp hwr)]
  · rw [wrapped_read_of_notMem hwr, wrapped_read_of_notMem (mt h.blocked.mpr hwr),
      funext (h.reads hwr)]

theorem SameStack.write_eq (h : SameStack ms ms') (e : E) (x : Item) (s : τ) :
    (c.wrapped ms).write e x s = (c.wrapped ms').write e x s := by
  rw [wrapped_write, wrapped_write, h.writes]

/-- …do the same, call by call. -/
theorem SameStack.perform_eq (h : SameStack ms ms') (e : E) (s : τ) (o : Op Item) :
    (c.wrapped ms).perform e s o = (c.wrapped ms').perform e s o := by
  cases o with
  | open_ => simp only [perform, wrapped_open]
  | close => simp only [perform, wrapped_close]
  | read => simp only [perform, h.read_eq]
  | write x => simp only [perform, h.write_eq]
  | broadcast x => simp only [perform, wrapped_broadcast]

theorem SameStack.trace_eq (h : SameStack ms ms') (s : τ) (os : List (Op Item × E)) :
    (c.wrapped ms).trace s os = (c.wrapped ms').trace s os := by
  induction os generalizing s with
  | nil => rfl
  | cons x os ih => rw [trace, trace, h.perform_eq, ih]

/-! ## Stacks that can be told apart -/

universe u v

variable {Item : Type u} {ε : Type v} {ms ms' : List (Middleware Item ε)}

/-- A connection that reads what it is given, or raises, and transmits what is written. -/
def probe (Item : Type u) (ε : Type v) : Connection PUnit.{u + 1} Item Item ε (Option Item) where
  open_ _ s := ⟨.returned (), s, []⟩
  close _ s := ⟨.returned (), s, []⟩
  read e s := ⟨e.elim (.raised .runtimeError) .returned, s, []⟩
  write _ x s := ⟨.returned (), s, [x]⟩
  broadcast := none

/-- A read that raises tells whether reads end at all. -/
theorem read_probe_none :
    (((probe Item ε).wrapped ms).read none ⟨⟩).reply = .never ↔ .wr ∈ ms := by
  constructor
  · intro hnever
    by_contra h
    rw [wrapped_read_of_notMem h] at hnever
    cases hnever
  · intro h
    rw [wrapped_read_of_mem h]

/-- A read of an item tells what the formatters raise at it. -/
theorem readError_eq_of_read (h : .wr ∉ ms) (h' : .wr ∉ ms') {x : Item}
    (hread : ((probe Item ε).wrapped ms).read (some x) ⟨⟩ =
      ((probe Item ε).wrapped ms').read (some x) ⟨⟩) : readError ms x = readError ms' x := by
  rw [wrapped_read_of_notMem h, wrapped_read_of_notMem h'] at hread
  simp only [Effect.screened, probe, Option.elim] at hread
  cases hms : readError ms x <;> cases hms' : readError ms' x <;> simp_all

/-- **A write tells what becomes of its item.** -/
theorem fate_eq_of_write {x : Item}
    (hwrite : ((probe Item ε).wrapped ms).write none x ⟨⟩ =
      ((probe Item ε).wrapped ms').write none x ⟨⟩) : fate ms x = fate ms' x := by
  rw [wrapped_write, wrapped_write] at hwrite
  cases hms : fate ms x <;> cases hms' : fate ms' x <;> simp_all [probe]

/-- **Stacks that agree on the probe** do the same. -/
theorem sameStack_of_probe
    (hread : ∀ e, ((probe Item ε).wrapped ms).read e ⟨⟩ = ((probe Item ε).wrapped ms').read e ⟨⟩)
    (hwrite : ∀ x, ((probe Item ε).wrapped ms).write none x ⟨⟩ =
      ((probe Item ε).wrapped ms').write none x ⟨⟩) : SameStack ms ms' := by
  have hblocked : .wr ∈ ms ↔ .wr ∈ ms' := by
    rw [← read_probe_none, hread, read_probe_none]
  exact ⟨hblocked, fun hwr x => readError_eq_of_read hwr (mt hblocked.mpr hwr) (hread (some x)),
    fun x => fate_eq_of_write (hwrite x)⟩

/-- What a call on the probe does is what is seen of it. -/
theorem effect_eq_of_map {α β : Type*} {f : α → β} (hf : Function.Injective f)
    {r r' : Effect PUnit.{u + 1} Item (Failure ε) α}
    (hreply : (r.map f).reply = (r'.map f).reply) (hsent : (r.map f).sent = (r'.map f).sent) :
    r = r' := by
  obtain ⟨a, s, xs⟩ := r
  obtain ⟨a', s', xs'⟩ := r'
  obtain rfl : xs = xs' := hsent
  have ha : a = a' := by
    cases a <;> cases a' <;> simp_all [Effect.map, hf.eq_iff]
  rw [ha]

/-- **Two stacks are the same to every user of every connection exactly if the same is left of
them.** -/
theorem indistinguishable_iff (ms ms' : List (Middleware Item ε)) :
    (∀ (τ Packet E : Type u) (c : Connection τ Item Packet ε E) (s : τ) (os : List (Op Item × E)),
      (c.wrapped ms).trace s os = (c.wrapped ms').trace s os) ↔ SameStack ms ms' := by
  refine ⟨fun h => ?_, fun h _ _ _ c s os => h.trace_eq s os⟩
  have hcall : ∀ o e, (((probe Item ε).wrapped ms).perform e ⟨⟩ o).reply =
        (((probe Item ε).wrapped ms').perform e ⟨⟩ o).reply ∧
      (((probe Item ε).wrapped ms).perform e ⟨⟩ o).sent =
        (((probe Item ε).wrapped ms').perform e ⟨⟩ o).sent := by
    intro o e
    have htrace := h _ _ _ (probe Item ε) ⟨⟩ [(o, e)]
    simpa [trace] using htrace
  refine sameStack_of_probe (fun e => ?_) fun x => ?_
  · obtain ⟨hreply, hsent⟩ := hcall .read e
    exact effect_eq_of_map (Option.some_injective _) hreply hsent
  · obtain ⟨hreply, hsent⟩ := hcall (.write x) none
    exact effect_eq_of_map (f := fun _ => (none : Option Item)) (fun _ _ _ => rfl) hreply hsent

/-- Of two formatters that raise different exceptions it matters which one is above the other. -/
example : ¬ SameStack
    [.log (fun _ => .error .valueError) (fun _ => .ok []),
      .log (fun _ => .error .typeError) (fun _ => .ok [])]
    [.log (fun _ => .error .typeError) (fun _ => .ok []),
      (.log (fun _ => .error .valueError) (fun _ => .ok []) : Middleware Unit Empty)] := by
  intro h
  have hread := h.reads (by simp) ()
  simp [readError] at hread

end Connection

end FlockwaveConn
