import FlockwaveConn.Factory.Specification

/-!
# Factory/Create — `Factory.create()`

`create()` looks up the factory function and each of the middleware before it calls any of them, so
a specification with a name in it that nobody has registered leaves nothing behind.  Then the
factory function is called, and each middleware on what the one before it has returned
(`create_allOrNothing`).

What a factory function or a middleware returns may depend on all that has been called before.
-/

namespace FlockwaveConn

/-- Keyword arguments, by their names. -/
abbrev Keywords (V : Type*) := Text → Option V

/-- A specification in the form of a dictionary, with any values; `none` stands for a key that is
not there. -/
structure DictSpecification (V : Type*) where
  type : Text
  middleware : Option (List Text)
  host : Option V
  port : Option V
  path : Option V
  username : Option V
  password : Option V
  parameters : Option (Keywords V)

namespace DictSpecification

variable {V : Type*}

/-- `specification.get("middleware", ())` -/
def middlewareTypes (d : DictSpecification V) : List Text := d.middleware.getD []

/-- The members that are passed on if they are there. -/
def members (d : DictSpecification V) : List (Text × Option V) :=
  [("host".toList, d.host), ("port".toList, d.port), ("path".toList, d.path),
    ("username".toList, d.username), ("password".toList, d.password)]

/-- `if name in specification: parameters[name] = specification[name]` -/
def addMember (parameters : Keywords V) (member : Text × Option V) : Keywords V :=
  match member.2 with
  | some v => Function.update parameters member.1 (some v)
  | none => parameters

/-- The `parameters` that the factory function is called with. -/
def keywords (d : DictSpecification V) : Keywords V :=
  let parameters := d.members.foldl addMember fun _ => none
  -- `parameters.update(specification.get("parameters", {}))`
  fun name => (d.parameters.bind (· name)).or (parameters name)

end DictSpecification

/-- What `_url_specification_to_dict()` returns, as a dictionary. -/
def Specification.toDict {V : Type*} (value : ParameterValue → V) (r : Specification) :
    DictSpecification V where
  type := r.type
  middleware := some r.middleware
  host := r.host.map fun s => value (.str s)
  port := r.port.map fun n => value (.int n)
  path := r.path.map fun s => value (.str s)
  username := r.username.map fun s => value (.str s)
  password := r.password.map fun s => value (.str s)
  parameters := r.parameters.map fun ps name => (ps.lookup name).map value

/-- A `Factory`, with factory functions `F` and middleware `M`. -/
structure Factory (F M : Type*) where
  registry : Text → Option F
  middlewareRegistry : Text → Option M

/-- What `create()` raises by itself. -/
inductive CreationError
  | specification (e : SpecificationError)
  | unknownConnectionType (type : Text)
  | unknownMiddlewareType (type : Text)
  deriving DecidableEq, Repr

/-- A call that `create()` makes, with what it returns. -/
inductive FactoryCall (F M V T : Type*)
  | construct (func : F) (parameters : Keywords V) (result : T)
  | wrap (mw : M) (object : T) (result : T)

/-- What factory functions and middleware return, given all that has been called before.  None of
them raises. -/
structure Callables (F M V T : Type*) where
  construct : List (FactoryCall F M V T) → F → Keywords V → T
  wrap : List (FactoryCall F M V T) → M → T → T

namespace Callables

variable {F M V T : Type*} (E : Callables F M V T)

/-- `func(**parameters)` -/
def callFactory (func : F) (parameters : Keywords V) (log : List (FactoryCall F M V T)) :
    T × List (FactoryCall F M V T) :=
  let result := E.construct log func parameters
  (result, log ++ [.construct func parameters result])

/-- `result = mw(result)` -/
def callMiddleware (x : T × List (FactoryCall F M V T)) (mw : M) :
    T × List (FactoryCall F M V T) :=
  let result := E.wrap x.2 mw x.1
  (result, x.2 ++ [.wrap mw x.1 result])

end Callables

namespace Factory

variable {F M V T : Type*}

/-- `Factory.__init__` -/
def init : Factory F M := ⟨fun _ => none, fun _ => none⟩

/-- `Factory.register()`, of a class that is given at once. -/
def register (name : Text) (klass : F) (f : Factory F M) : Factory F M :=
  { f with registry := Function.update f.registry name (some klass) }

/-- `Factory.register_middleware()` -/
def registerMiddleware (name : Text) (middleware : M) (f : Factory F M) : Factory F M :=
  { f with middlewareRegistry := Function.update f.middlewareRegistry name (some middleware) }

/-- The middleware of these types. -/
def lookUpMiddleware (f : Factory F M) (types : List Text) : Except CreationError (List M) :=
  types.mapM fun type =>
    match f.middlewareRegistry type with
    | some mw => .ok mw
    | none => .error (.unknownMiddlewareType type)

/-- The first half of `create()`: the factory function and the middleware. -/
def resolve (f : Factory F M) (d : DictSpecification V) : Except CreationError (F × List M) :=
  match f.registry d.type with
  | none => .error (.unknownConnectionType d.type)
  | some func => (f.lookUpMiddleware d.middlewareTypes).map fun mws => (func, mws)

/-- `create()` of a dictionary. -/
def createFromDict (E : Callables F M V T) (f : Factory F M) (d : DictSpecification V)
    (log : List (FactoryCall F M V T)) : Except CreationError T × List (FactoryCall F M V T) :=
  match f.resolve d with
  | .error e => (.error e, log)
  | .ok (func, mws) =>
    let x := mws.foldl E.callMiddleware (E.callFactory func d.keywords log)
    (.ok x.1, x.2)

/-- `if isinstance(specification, str)`, and so on; `value` is what the values of a URL are among
those of a dictionary. -/
def toDict (lib : Stdlib) (value : ParameterValue → V) :
    Text ⊕ DictSpecification V → Except CreationError (DictSpecification V)
  | .inl s =>
    match urlSpecificationToDict lib s with
    | .ok r => .ok (r.toDict value)
    | .error e => .error (.specification e)
  | .inr d => .ok d

/-- `Factory.create()` -/
def create (lib : Stdlib) (value : ParameterValue → V) (E : Callables F M V T) (f : Factory F M)
    (specification : Text ⊕ DictSpecification V) (log : List (FactoryCall F M V T)) :
    Except CreationError T × List (FactoryCall F M V T) :=
  match toDict lib value specification with
  | .error e => (.error e, log)
  | .ok d => f.createFromDict E d log


/-! ## The two halves -/

/-- The middleware are called one after the other, each on what the one before it has returned. -/
inductive Wraps (E : Callables F M V T) :
    List (FactoryCall F M V T) → List M → T → List (FactoryCall F M V T) → T → Prop
  | nil {log : List (FactoryCall F M V T)} {x : T} : Wraps E log [] x [] x
  | cons {log calls : List (FactoryCall F M V T)} {mw : M} {mws : List M} {x y z : T}
    (hy : y = E.wrap log mw x) (h : Wraps E (log ++ [.wrap mw x y]) mws y calls z) :
    Wraps E log (mw :: mws) x (.wrap mw x y :: calls) z

variable {E : Callables F M V T} {f : Factory F M} {d : DictSpecification V}
  {log : List (FactoryCall F M V T)}

/-- The second loop of `create()` calls each middleware once, the first one first. -/
theorem wraps_foldl (E : Callables F M V T) (mws : List M) (x : T)
    (log : List (FactoryCall F M V T)) :
    ∃ calls z, Wraps E log mws x calls z ∧
      mws.foldl E.callMiddleware (x, log) = (z, log ++ calls) := by
  induction mws generalizing x log with
  | nil => exact ⟨[], x, .nil, by simp⟩
  | cons mw mws ih =>
    let y := E.wrap log mw x
    obtain ⟨calls, z, hwraps, hfold⟩ := ih y (log ++ [.wrap mw x y])
    refine ⟨.wrap mw x y :: calls, z, .cons rfl hwraps, ?_⟩
    rw [List.foldl_cons, Callables.callMiddleware, hfold, List.append_assoc]
    rfl

theorem lookUpMiddleware_cons (f : Factory F M) (type : Text) (types : List Text) :
    f.lookUpMiddleware (type :: types) =
      match f.middlewareRegistry type with
      | none => .error (.unknownMiddlewareType type)
      | some mw => (f.lookUpMiddleware types).map (mw :: ·) := by
  rw [lookUpMiddleware, List.mapM_cons, ← lookUpMiddleware]
  cases f.middlewareRegistry type <;> cases f.lookUpMiddleware types <;> rfl

/-- The first loop stops at the first middleware that is not known… -/
theorem lookUpMiddleware_of_unknown {before after : List Text} {type : Text}
    (hbefore : ∀ t ∈ before, (f.middlewareRegistry t).isSome = true)
    (htype : f.middlewareRegistry type = none) :
    f.lookUpMiddleware (before ++ type :: after) = .error (.unknownMiddlewareType type) := by
  induction before with
  | nil => rw [List.nil_append, lookUpMiddleware_cons, htype]
  | cons t before ih =>
    obtain ⟨mw, hmw⟩ := Option.isSome_iff_exists.mp (hbefore t List.mem_cons_self)
    have hrest := ih fun u hu => hbefore u (List.mem_cons_of_mem t hu)
    rw [List.cons_append, lookUpMiddleware_cons, hmw, hrest]
    rfl

/-- …and finds them all if there is none. -/
theorem lookUpMiddleware_eq_ok {types : List Text} {mws : List M} :
    f.lookUpMiddleware types = .ok mws ↔ types.map f.middlewareRegistry = mws.map some := by
  induction types generalizing mws with
  | nil => cases mws <;> simp [lookUpMiddleware, pure, Except.pure]
  | cons t types ih =>
    rw [lookUpMiddleware_cons, List.map_cons]
    cases f.middlewareRegistry t with
    | none => cases mws <;> simp
    | some mw =>
      cases mws with
      | nil => cases f.lookUpMiddleware types <;> simp [Except.map]
      | cons mw' mws =>
        rw [List.map_cons, List.cons.injEq, ← ih]
        cases f.lookUpMiddleware types <;> simp [Except.map]

/-- What `create()` calls, if it finds it. -/
theorem resolve_eq_ok {func : F} {mws : List M} :
    f.resolve d = .ok (func, mws) ↔ f.registry d.type = some func ∧
      d.middlewareTypes.map f.middlewareRegistry = mws.map some := by
  rw [← lookUpMiddleware_eq_ok, resolve]
  cases f.registry d.type with
  | none => simp
  | some func' => cases f.lookUpMiddleware d.middlewareTypes <;> simp [Except.map]

theorem addMember_apply (kw : Keywords V) (m : Text × Option V) (name : Text) :
    DictSpecification.addMember kw m name = if name = m.1 then m.2.or (kw name) else kw name := by
  obtain ⟨key, value⟩ := m
  cases value with
  | none => simp [DictSpecification.addMember]
  | some v => simp [DictSpecification.addMember, Function.update_apply]

theorem foldl_addMember {members : List (Text × Option V)} (hnd : (members.map Prod.fst).Nodup)
    (kw : Keywords V) (name : Text) :
    members.foldl DictSpecification.addMember kw name =
      ((members.lookup name).bind id).or (kw name) := by
  induction members generalizing kw with
  | nil => rfl
  | cons m members ih =>
    obtain ⟨hm, hmembers⟩ := List.nodup_cons.mp hnd
    rw [List.foldl_cons, ih hmembers, addMember_apply, List.lookup_cons]
    by_cases hname : name = m.1
    · subst hname
      have hnone : members.lookup m.1 = none := by
        refine List.lookup_eq_none_iff.mpr fun q hq => bne_iff_ne.mpr fun heq => ?_
        exact hm (List.mem_map.mpr ⟨q, hq, heq.symm⟩)
      simp [hnone]
    · simp [hname, beq_eq_false_iff_ne.mpr hname]

/-- **Exactly the members that are there are passed on**, and the parameters come before them. -/
theorem keywords_apply (d : DictSpecification V) (name : Text) :
    d.keywords name = (d.parameters.bind (· name)).or ((d.members.lookup name).bind id) := by
  have hnd : (d.members.map Prod.fst).Nodup := by
    simp only [DictSpecification.members, List.map_cons, List.map_nil]
    decide
  simp [DictSpecification.keywords, foldl_addMember hnd]

/-! ## All or nothing -/

/-- **What `create()` has done when it is over**, `log` being what had been called before. -/
structure AllOrNothing (E : Callables F M V T) (f : Factory F M) (d : DictSpecification V)
    (log : List (FactoryCall F M V T))
    (run : Except CreationError T × List (FactoryCall F M V T)) : Prop where
  /-- The type is looked up first, and nothing is called if it is not known. -/
  unknownType : f.registry d.type = none → run = (.error (.unknownConnectionType d.type), log)
  /-- Neither is anything called if a middleware is not known; the error names the first one. -/
  unknownMiddleware : (f.registry d.type).isSome = true →
    ∀ before type after, d.middlewareTypes = before ++ type :: after →
      (∀ t ∈ before, (f.middlewareRegistry t).isSome = true) → f.middlewareRegistry type = none →
        run = (.error (.unknownMiddlewareType type), log)
  /-- Otherwise the factory function is called once, and then each middleware, the first one
  innermost. -/
  created : ∀ func mws, f.registry d.type = some func →
    d.middlewareTypes.map f.middlewareRegistry = mws.map some →
      ∃ parameters object calls result,
        (∀ name, parameters name =
          (d.parameters.bind (· name)).or ((d.members.lookup name).bind id)) ∧
        object = E.construct log func parameters ∧
        Wraps E (log ++ [.construct func parameters object]) mws object calls result ∧
        run = (.ok result, log ++ .construct func parameters object :: calls)

theorem createFromDict_allOrNothing (E : Callables F M V T) (f : Factory F M)
    (d : DictSpecification V) (log : List (FactoryCall F M V T)) :
    AllOrNothing E f d log (f.createFromDict E d log) where
  unknownType h := by rw [createFromDict, resolve, h]
  unknownMiddleware hfunc before type after hmws hbefore htype := by
    obtain ⟨func, hfunc⟩ := Option.isSome_iff_exists.mp hfunc
    rw [createFromDict, resolve, hfunc, hmws]
    simp only [lookUpMiddleware_of_unknown hbefore htype]
    rfl
  created func mws hfunc hmws := by
    let object := E.construct log func d.keywords
    obtain ⟨calls, result, hwraps, hfold⟩ :=
      wraps_foldl E mws object (log ++ [.construct func d.keywords object])
    refine ⟨d.keywords, object, calls, result, keywords_apply d, rfl, hwraps, ?_⟩
    rw [createFromDict, resolve, hfunc]
    simp only [lookUpMiddleware_eq_ok.mpr hmws, Except.map, Callables.callFactory]
    rw [hfold, List.append_assoc]
    rfl

/-- **`create()` is all or nothing**, of a dictionary and of a URL that can be read. -/
theorem create_allOrNothing (lib : Stdlib) (value : ParameterValue → V) (E : Callables F M V T)
    (f : Factory F M) (specification : Text ⊕ DictSpecification V) (d : DictSpecification V)
    (h : toDict lib value specification = .ok d) (log : List (FactoryCall F M V T)) :
    AllOrNothing E f d log (f.create lib value E specification log) := by
  rw [create, h]
  exact createFromDict_allOrNothing E f d log

/-- A factory whose connections are the lists of what has been called for them. -/
def recorder : Callables String String ParameterValue (List String) where
  construct _ func _ := [func]
  wrap _ mw object := mw :: object

/-- `"tcp+log+rd:"`, where nobody has registered `rd`: neither `tcp` nor `log` is called. -/
theorem create_unknown :
    (Factory.create ⟨some 4300, id, fun _ => false, fun _ => true, fun _ => []⟩ id recorder
        ((init.register "tcp".toList "tcp").registerMiddleware "log".toList "log")
        (.inl "tcp+log+rd:".toList) []) =
      (.error (.unknownMiddlewareType "rd".toList), []) := by
  refine (create_allOrNothing _ id recorder _ _ _ rfl []).unknownMiddleware rfl
    ["log".toList] "rd".toList [] rfl ?_ rfl
  exact List.forall_mem_singleton.mpr rfl

end Factory

end FlockwaveConn
