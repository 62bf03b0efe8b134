import Mathlib.Tactic
import FlockwaveConn.Machinery.Arguments
import FlockwaveConn.Machinery.Transition

/-!
# Channels/Rpc/Remote — calling a method of the remote peer

`peer.request.name(*args, **kwds)` makes a method out of an attribute, whose `__call__()` passes the
arguments on to `send_request()`, and that one to `create_request()`.  On the way two functions with
parameters of their own are called, `self` and `method`; a keyword with one of these names is a
`TypeError`, and there is no request.  All others get through (`created_iff`).
-/

namespace FlockwaveConn.Rpc

/-- A `RPCRemoteProxy._Method`; its sender is `send_request()`. -/
structure RemoteMethod where
  name : String
  oneWay : Bool
  deriving DecidableEq, Repr

/-- An argument. -/
inductive Value (α : Type*)
  | none
  | bool (b : Bool)
  | str (s : String)
  | method (m : RemoteMethod)
  | other (x : α)
  deriving DecidableEq, Repr

/-- A call of `create_request()`. -/
structure RequestCall (α : Type*) where
  method : Value α
  args : List (Value α)
  kwargs : List (String × Value α)
  oneWay : Value α
  deriving DecidableEq, Repr

/-- An `RPCRemoteProxy`. -/
structure RPCRemoteProxy where
  /-- `_methods` -/
  methods : List (String × RemoteMethod)
  oneWay : Bool
  deriving DecidableEq, Repr

/-- An `RPCRemotePeer`, and the requests that have been created. -/
structure RPCRemotePeer (α : Type*) where
  notify : RPCRemoteProxy
  request : RPCRemoteProxy
  created : List (RequestCall α)

/-- A name that does not start with an underscore. -/
def IsPublic (name : String) : Prop := name.toList.head? ≠ some '_'

instance (name : String) : Decidable (IsPublic name) := inferInstanceAs (Decidable (_ ≠ _))

/-- The attributes that an object of any class has, such as `__class__`. -/
structure Inherited where
  names : List String
  not_public : ∀ name ∈ names, ¬ IsPublic name

open Signature (BindError spread)

namespace RPCRemoteProxy

/-- The attributes for which `__getattr__()` is not asked. -/
def ownAttributes (inherited : Inherited) : List String :=
  ["_methods", "_sender", "_one_way", "_Method", "__init__", "__getattr__"] ++ inherited.names

/-- `proxy.name`, if that is a method: from `_methods`, or a new one. -/
def getattr (inherited : Inherited) (name : String) (p : RPCRemoteProxy) :
    Option RemoteMethod × RPCRemoteProxy :=
  if name ∈ ownAttributes inherited then (none, p)
  else match p.methods.lookup name with
    | some m => (some m, p)
    | none =>
      let m := ⟨name, p.oneWay⟩
      (some m, { p with methods := p.methods ++ [(name, m)] })

end RPCRemoteProxy

variable {α : Type*}

/-- `async def send_request(method, *args, one_way=False, timeout=None, **kwds)` -/
def sendRequestSignature : Signature String := ⟨["method"], ["one_way", "timeout"]⟩

/-- `send_request()`, up to its call of `create_request()`. -/
def sendRequest (args : List (Value α)) (kwds : List (String × Value α)) :
    Except (BindError String) (RequestCall α) := do
  let b ← sendRequestSignature.bind args kwds
  return {
    method := (b.named "method").getD .none
    args := b.args
    kwargs := b.kwds
    oneWay := (b.named "one_way").getD (.bool false) }

namespace RemoteMethod

/-- `def __call__(self, *args, **kwds)` -/
def callSignature : Signature String := ⟨["self"], []⟩

/-- `_Method.__call__()` -/
def call (args : List (Value α)) (kwds : List (String × Value α)) (m : RemoteMethod) :
    Except (BindError String) (RequestCall α) := do
  let b ← callSignature.bind (.method m :: args) kwds
  let kwds ← spread [("one_way", .bool m.oneWay)] b.kwds
  sendRequest (.str m.name :: b.args) kwds

end RemoteMethod

namespace RPCRemotePeer

/-- `RPCRemotePeer(send_request)` -/
def init : RPCRemotePeer α := ⟨⟨[], true⟩, ⟨[], false⟩, []⟩

/-- `peer.notify` or `peer.request`. -/
def proxy (oneWay : Bool) (s : RPCRemotePeer α) : RPCRemoteProxy :=
  if oneWay then s.notify else s.request

def setProxy (oneWay : Bool) (p : RPCRemoteProxy) (s : RPCRemotePeer α) : RPCRemotePeer α :=
  if oneWay then { s with notify := p } else { s with request := p }

/-- What the user does with the peer. -/
inductive Label (α : Type*)
  /-- `peer.notify.name` or `peer.request.name` -/
  | get (oneWay : Bool) (name : String)
  /-- …and a call of it, which is awaited. -/
  | call (oneWay : Bool) (name : String) (args : List (Value α)) (kwds : List (String × Value α))

variable (inherited : Inherited)

/-- `peer.request.name`, and what it is. -/
def get (oneWay : Bool) (name : String) (s : RPCRemotePeer α) :
    Option RemoteMethod × RPCRemotePeer α :=
  let (m, p) := (s.proxy oneWay).getattr inherited name
  (m, s.setProxy oneWay p)

/-- `await peer.request.name(*args, **kwds)`, of a method. -/
def call (oneWay : Bool) (name : String) (args : List (Value α)) (kwds : List (String × Value α))
    (s : RPCRemotePeer α) : RPCRemotePeer α :=
  let (m, s) := s.get inherited oneWay name
  match m.map (RemoteMethod.call args kwds) with
  | some (.ok c) => { s with created := s.created ++ [c] }
  | some (.error _) | none => s

def step (s : RPCRemotePeer α) : Label α → Option (RPCRemotePeer α)
  | .get oneWay name => some (s.get inherited oneWay name).2
  | .call oneWay name args kwds => some (s.call inherited oneWay name args kwds)

/-- **A remote peer and its user.** -/
def machine : Machine (RPCRemotePeer α) (Label α) where
  init := init
  step := step inherited

/-! ## What gets through -/

/-- A public name, and a dictionary without the two reserved keywords. -/
structure IsPlain (name : String) (kwds : List (String × Value α)) : Prop where
  isPublic : IsPublic name
  nodup : (kwds.map Prod.fst).Nodup
  timeout : "timeout" ∉ kwds.map Prod.fst
  one_way : "one_way" ∉ kwds.map Prod.fst

/-- **The call creates one request, with its own method and arguments.** -/
def Intact (s : RPCRemotePeer α) : Label α → RPCRemotePeer α → Prop
  | .call oneWay name args kwds, s' => IsPlain name kwds →
    s'.created = s.created ++ [⟨.str name, args, kwds, .bool oneWay⟩]
  | .get .., _ => True

/-- No keyword is called like a parameter on the way. -/
def NoClash (_ : RPCRemotePeer α) : Label α → Prop
  | .call _ name _ kwds => IsPlain name kwds →
    "self" ∉ kwds.map Prod.fst ∧ "method" ∉ kwds.map Prod.fst
  | .get .. => True

end RPCRemotePeer

/-! ### The attribute -/

namespace RPCRemoteProxy

variable {inherited : Inherited} {p : RPCRemoteProxy} {oneWay : Bool} {name : String}

theorem not_mem_ownAttributes (h : IsPublic name) : name ∉ ownAttributes inherited := by
  intro hmem
  obtain hown | hinherited := List.mem_append.mp hmem
  · have hall : ∀ n ∈ ["_methods", "_sender", "_one_way", "_Method", "__init__", "__getattr__"],
        ¬ IsPublic n := by decide
    exact hall name hown h
  · exact inherited.not_public name hinherited h

/-- Each method has the name under which it is kept, and the kind of the proxy. -/
structure Serves (oneWay : Bool) (p : RPCRemoteProxy) : Prop where
  kind : p.oneWay = oneWay
  methods : ∀ x ∈ p.methods, x.2 = ⟨x.1, oneWay⟩

/-- **A public attribute is the method of that name**, a new one or not. -/
theorem Serves.getattr_fst (h : p.Serves oneWay) (hname : IsPublic name) :
    (p.getattr inherited name).1 = some ⟨name, oneWay⟩ := by
  rw [getattr, if_neg (not_mem_ownAttributes hname)]
  split
  · next m hm =>
    obtain ⟨before, after, hmethods, -⟩ := List.lookup_eq_some_iff.mp hm
    exact congrArg some (h.methods (name, m) (by simp [hmethods]))
  · rw [h.kind]

theorem Serves.getattr (h : p.Serves oneWay) (inherited : Inherited) (name : String) :
    (p.getattr inherited name).2.Serves oneWay := by
  unfold RPCRemoteProxy.getattr
  split
  · exact h
  · split
    · exact h
    · refine ⟨h.kind, fun x hx => ?_⟩
      obtain hx | hx := List.mem_append.mp hx
      · exact h.methods x hx
      · obtain rfl := List.mem_singleton.mp hx
        rw [h.kind]

end RPCRemoteProxy

/-! ### The call -/

namespace RemoteMethod

variable {m : RemoteMethod} {name : String} {args : List (Value α)} {kwds : List (String × Value α)}

/-- Without a keyword `self`, the method gets as far as `send_request()`. -/
theorem call_eq (h : RPCRemotePeer.IsPlain name kwds) (hself : "self" ∉ kwds.map Prod.fst) :
    m.call args kwds =
      sendRequest (.str m.name :: args) (("one_way", .bool m.oneWay) :: kwds) := by
  have hlen : callSignature.required.length ≤ (Value.method m :: args).length := by
    simp [callSignature]
  have hself' : ∀ n ∈ callSignature.required, n ∉ kwds.map Prod.fst :=
    List.forall_mem_singleton.mpr hself
  have hfilter := Signature.filter_of_disjoint hself' (List.forall_mem_nil _)
  have hspread : spread [("one_way", Value.bool m.oneWay)] kwds =
      .ok (("one_way", .bool m.oneWay) :: kwds) :=
    Signature.spread_of_disjoint (by simpa using h.one_way)
  rw [call, Signature.bind_of_disjoint hlen hself', hfilter]
  change (spread _ kwds).bind _ = _
  rw [hspread]
  rfl

/-- **A call without a clash** goes through both functions. -/
theorem call_of_noClash (h : RPCRemotePeer.IsPlain name kwds)
    (hself : "self" ∉ kwds.map Prod.fst) (hmethod : "method" ∉ kwds.map Prod.fst) :
    m.call args kwds = .ok ⟨.str m.name, args, kwds, .bool m.oneWay⟩ := by
  have hlen : sendRequestSignature.required.length ≤ (Value.str m.name :: args).length := by
    simp [sendRequestSignature]
  have hrequired : ∀ n ∈ sendRequestSignature.required, n ∉ kwds.map Prod.fst :=
    List.forall_mem_singleton.mpr hmethod
  have hkeywordOnly : ∀ n ∈ sendRequestSignature.keywordOnly, n ∉ kwds.map Prod.fst :=
    List.forall_mem_cons.mpr ⟨h.one_way, List.forall_mem_singleton.mpr h.timeout⟩
  have hkeys : ∀ n ∈ sendRequestSignature.required,
      n ∉ (("one_way", Value.bool m.oneWay) :: kwds).map Prod.fst :=
    List.forall_mem_singleton.mpr (by simpa using hmethod)
  have hfilter := Signature.filter_of_disjoint hrequired hkeywordOnly
  have hone : "one_way" ∈ sendRequestSignature.keywordOnly := List.mem_cons_self
  rw [call_eq h hself, sendRequest, Signature.bind_of_disjoint hlen hkeys,
    Signature.filter_cons_of_mem hone, hfilter]
  rfl

/-- **…and one with a clash** is an error in one of them. -/
theorem call_of_clash (h : RPCRemotePeer.IsPlain name kwds)
    (hclash : ¬ ("self" ∉ kwds.map Prod.fst ∧ "method" ∉ kwds.map Prod.fst)) :
    ∃ e, m.call args kwds = .error e := by
  by_cases hself : "self" ∈ kwds.map Prod.fst
  · have hlen : callSignature.required.length ≤ (Value.method m :: args).length := by
      simp [callSignature]
    obtain ⟨e, he⟩ := Signature.bind_of_clash hlen (List.mem_singleton.mpr rfl) hself
    exact ⟨e, by rw [call, he]; rfl⟩
  · have hmethod : "method" ∈ kwds.map Prod.fst := by
      by_contra hmethod
      exact hclash ⟨hself, hmethod⟩
    have hlen : sendRequestSignature.required.length ≤ (Value.str m.name :: args).length := by
      simp [sendRequestSignature]
    have hkey : "method" ∈ (("one_way", Value.bool m.oneWay) :: kwds).map Prod.fst :=
      List.mem_cons_of_mem _ hmethod
    obtain ⟨e, he⟩ := Signature.bind_of_clash hlen (List.mem_singleton.mpr rfl) hkey
    exact ⟨e, by rw [call_eq h hself, sendRequest, he]; rfl⟩

end RemoteMethod

namespace RPCRemotePeer

variable {inherited : Inherited} {oneWay : Bool} {name : String} {args : List (Value α)}
  {kwds : List (String × Value α)} {s s' : RPCRemotePeer α} {l : Label α}

/-- The invariant of all runs. -/
def Sound (s : RPCRemotePeer α) : Prop := ∀ oneWay, (s.proxy oneWay).Serves oneWay

theorem sound_init : Sound (init : RPCRemotePeer α) := by
  intro oneWay
  cases oneWay <;> exact ⟨rfl, by simp [init, proxy]⟩

variable (inherited) in
theorem Sound.get (h : Sound s) (oneWay : Bool) (name : String) :
    Sound (s.get inherited oneWay name).2 := by
  intro other
  have hget := (h oneWay).getattr inherited name
  have hother := h other
  cases oneWay <;> cases other <;> first | exact hget | exact hother

theorem get_created : (s.get inherited oneWay name).2.created = s.created := by
  cases oneWay <;> rfl

theorem Sound.call (h : Sound s) : Sound (s.call inherited oneWay name args kwds) := by
  have hget := h.get inherited oneWay name
  unfold RPCRemotePeer.call
  dsimp only
  split <;> exact hget

theorem Sound.call_created (h : Sound s) (hname : IsPublic name) :
    (s.call inherited oneWay name args kwds).created =
      match (⟨name, oneWay⟩ : RemoteMethod).call args kwds with
      | .ok c => s.created ++ [c]
      | .error _ => s.created := by
  have hfst : (s.get inherited oneWay name).1 = some ⟨name, oneWay⟩ := (h oneWay).getattr_fst hname
  rw [RPCRemotePeer.call]
  dsimp only
  rw [hfst, Option.map_some]
  cases RemoteMethod.call args kwds ⟨name, oneWay⟩ with
  | ok c => exact congrArg (· ++ [c]) get_created
  | error e => exact get_created

/-- **One step** with the user's names and arguments. -/
theorem Sound.step (h : Sound s) (hs : s.step inherited l = some s') :
    Sound s' ∧ (Intact s l s' ↔ NoClash s l) := by
  cases l with
  | get oneWay name =>
    obtain rfl := Option.some.inj hs
    exact ⟨h.get inherited oneWay name, Iff.rfl⟩
  | call oneWay name args kwds =>
    obtain rfl := Option.some.inj hs
    refine ⟨h.call, forall_congr' fun hplain => ?_⟩
    rw [h.call_created hplain.isPublic]
    constructor
    · intro hcreated
      by_contra hclash
      obtain ⟨e, he⟩ := RemoteMethod.call_of_clash hplain hclash
      rw [he] at hcreated
      simp at hcreated
    · rintro ⟨hself, hmethod⟩
      rw [RemoteMethod.call_of_noClash hplain hself hmethod]

/-- **The calls of a run get through intact exactly if no keyword is called like a parameter on the
way.** -/
theorem created_iff (inherited : Inherited) (ls : List (Label α)) :
    (machine inherited).Throughout Intact init ls ↔
      (machine inherited).Guarded NoClash init ls :=
  Machine.throughout_congr sound_init fun _ _ _ h hs => h.step hs

/-- `peer.request.rename(self=…)` creates no request. -/
theorem self_gets_lost : ¬ ∀ (inherited : Inherited) (ls : List (Label ℕ)),
    (machine inherited).Throughout Intact init ls := by
  intro h
  have hplain : IsPlain "rename" [("self", Value.other 0)] :=
    ⟨by decide, by decide, by decide, by decide⟩
  have hcreated := (h ⟨[], List.forall_mem_nil _⟩
    [.call false "rename" [] [("self", .other 0)]] _ rfl).1 hplain
  exact absurd (congrArg List.length hcreated) (by decide)

end RPCRemotePeer

end FlockwaveConn.Rpc
