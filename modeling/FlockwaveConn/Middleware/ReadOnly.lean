import FlockwaveConn.Middleware.Base

/-!
# Middleware/ReadOnly — what a read-only connection transmits

`ReadOnlyMiddleware` replaces `write()`, wherever it stands in a stack, and that is enough for all
that goes through `write()` of the proxy.  It does not replace `broadcast()`, which is the method of
the wrapped object and calls the `write()` of the wrapped object: a read-only connection sends
nothing exactly as long as its broadcasts find no way out (`neverSends_iff_mute`).
-/

namespace FlockwaveConn

variable {τ Item Addr Packet ε E Msg BMsg : Type*}

/-! ## A channel on top -/

/-- The encoders of a `BroadcastMessageChannel`; an encoder may raise. -/
structure ChannelEncoder (Item Msg BMsg : Type*) where
  encoder : Msg → Option Item
  broadcastEncoder : BMsg → Option Item

/-- What the user of a connection does with it, by itself or through a channel on top of it.  The
`receive()` and `aclose()` of a channel are calls to `read()` and `close()`. -/
inductive Use (Item Msg BMsg : Type*)
  | call (o : Op Item)
  /-- `MessageChannel.send`. -/
  | send (m : Msg)
  /-- `BroadcastMessageChannel.broadcast`. -/
  | broadcast (m : BMsg)

namespace Use

/-- The call that is made, unless an encoder raises. -/
def op (ch : ChannelEncoder Item Msg BMsg) (canBroadcast : Bool) : Use Item Msg BMsg →
    Option (Op Item)
  | call o => some o
  | send m => (ch.encoder m).map .write
  | broadcast m =>
      (ch.broadcastEncoder m).map fun x => if canBroadcast then .broadcast x else .write x

/-- What is left of a use when the data is taken away. -/
def shape : Use Item Msg BMsg → Use Unit Unit Unit
  | call (.write _) => call (.write ())
  | call (.broadcast _) => call (.broadcast ())
  | call .open_ => call .open_
  | call .close => call .close
  | call .read => call .read
  | send _ => send ()
  | broadcast _ => broadcast ()

end Use

/-- The calls that a run makes on a connection. -/
def callsOf (ch : ChannelEncoder Item Msg BMsg) (c : Connection τ Item Packet ε E)
    (us : List (Use Item Msg BMsg × E)) : List (Op Item × E) :=
  us.filterMap fun u => (u.1.op ch c.broadcast.isSome).map fun o => (o, u.2)

/-- Two runs that differ only in the data passed to the sending operations. -/
def SameShape (us us' : List (Use Item Msg BMsg × E)) : Prop :=
  us.map (Prod.map Use.shape id) = us'.map (Prod.map Use.shape id)

theorem SameShape.cons {u : Use Item Msg BMsg} {e : E} {us ws : List (Use Item Msg BMsg × E)}
    (h : SameShape ((u, e) :: us) ws) :
    ∃ v vs, ws = (v, e) :: vs ∧ v.shape = u.shape ∧ SameShape us vs := by
  obtain ⟨⟨v, e'⟩, vs, rfl, hx, hvs⟩ := List.map_eq_cons_iff.mp h.symm
  obtain ⟨hv, rfl⟩ := Prod.mk.inj hx
  exact ⟨v, vs, rfl, hv, hvs.symm⟩

/-- **A read-only connection never sends**: a run transmits nothing, and so the peer cannot tell it
from another one with other data. -/
def NeverSends (ch : ChannelEncoder Item Msg BMsg) (c : Connection τ Item Packet ε E) (s : τ)
    (us : List (Use Item Msg BMsg × E)) : Prop :=
  c.sentBy s (callsOf ch c us) = [] ∧
    ∀ us', SameShape us us' → c.sentBy s (callsOf ch c us') = c.sentBy s (callsOf ch c us)

/-! ## What a stack leaves as it is -/

namespace Connection

variable (c : Connection τ Item Packet ε E) (ms : List (Middleware Item ε))

@[simp] theorem wrapped_open : (c.wrapped ms).open_ = c.open_ := by
  induction ms with
  | nil => rfl
  | cons m ms ih => cases m <;> exact ih

@[simp] theorem wrapped_close : (c.wrapped ms).close = c.close := by
  induction ms with
  | nil => rfl
  | cons m ms ih => cases m <;> exact ih

/-- **No middleware replaces `broadcast()`.** -/
@[simp] theorem wrapped_broadcast : (c.wrapped ms).broadcast = c.broadcast := by
  induction ms with
  | nil => rfl
  | cons m ms ih => cases m <;> exact ih

/-- Reading through a stack transmits nothing, if reading does not. -/
theorem sent_wrapped_read (hread : ∀ e s, (c.read e s).sent = []) (e : E) (s : τ) :
    ((c.wrapped ms).read e s).sent = [] := by
  induction ms with
  | nil => exact hread e s
  | cons m ms ih =>
    cases m with
    | log onRead onWrite =>
      change ((logging onRead onWrite (c.wrapped ms)).read e s).sent = []
      simp only [logging]
      split
      · split <;> exact ih
      · exact ih
    | rd => exact ih
    | wr => rfl

/-- **Nothing gets through `write()`** of a stack with a `ReadOnlyMiddleware` in it. -/
theorem sent_wrapped_write (hrd : .rd ∈ ms) (e : E) (x : Item) (s : τ) :
    ((c.wrapped ms).write e x s).sent = [] := by
  induction ms with
  | nil => cases hrd
  | cons m ms ih =>
    cases m with
    | log onRead onWrite =>
      change ((logging onRead onWrite (c.wrapped ms)).write e x s).sent = []
      simp only [logging]
      split
      · exact ih (by simpa using hrd)
      · rfl
    | rd => rfl
    | wr => exact ih (by simpa using hrd)

end Connection

/-! ## What gets out -/

/-- **No broadcast gets out**: whenever one is made there is no broadcast address, or the `write()`
of the wrapped object transmits nothing (there is no socket, or `sendto()` fails). -/
def Mute (k : ConnectionClass τ Item Addr Packet ε E) (c : Connection τ Item Packet ε E) :
    τ → List (Op Item × E) → Prop
  | _, [] => True
  | s, (o, e) :: os =>
    (∀ x address a, o = .broadcast x → k.broadcastAddress = some address → address s = some a →
      (k.write e (k.addressed x a) s).sent = []) ∧ Mute k c (c.perform e s o).state os

variable {k : ConnectionClass τ Item Addr Packet ε E} {ms : List (Middleware Item ε)}
  {c : Connection τ Item Packet ε E}

/-- One call sends something only if it is a broadcast that gets out. -/
theorem sent_perform_iff (hrd : .rd ∈ ms) (e : E) (s : τ) (o : Op Item) :
    ((k.bare.wrapped ms).perform e s o).sent = [] ↔
      ∀ x address a, o = .broadcast x → k.broadcastAddress = some address → address s = some a →
        (k.write e (k.addressed x a) s).sent = [] := by
  cases o with
  | open_ | close => simp [Connection.perform, Effect.map, ConnectionClass.bare]
  | read =>
    refine iff_of_true ?_ nofun
    exact k.bare.sent_wrapped_read ms (fun _ _ => rfl) e s
  | write x =>
    refine iff_of_true ?_ nofun
    exact k.bare.sent_wrapped_write ms hrd e x s
  | broadcast x =>
    cases hb : k.broadcastAddress with
    | none => simp [Connection.perform, ConnectionClass.bare, hb]
    | some address =>
      have hsent : ((k.bare.wrapped ms).perform e s (.broadcast x)).sent =
          (k.broadcast address e x s).sent := by
        simp [Connection.perform, ConnectionClass.bare, hb, Effect.map]
      rw [hsent, ConnectionClass.broadcast]
      constructor
      · rintro h _ _ a ⟨⟩ ⟨⟩ ha
        simpa [ha] using h
      · intro h
        split
        · rfl
        · next a ha => exact h x address a rfl rfl ha

/-- **A run transmits nothing exactly if no broadcast gets out.** -/
theorem sentBy_eq_nil_iff (hrd : .rd ∈ ms) (s : τ) (os : List (Op Item × E)) :
    (k.bare.wrapped ms).sentBy s os = [] ↔ Mute k (k.bare.wrapped ms) s os := by
  induction os generalizing s with
  | nil => simp [Mute]
  | cons x os ih =>
    obtain ⟨o, e⟩ := x
    rw [Connection.sentBy_cons, List.append_eq_nil_iff, sent_perform_iff hrd, ih, Mute]

/-- An object without a `broadcast()`, under a `ReadOnlyMiddleware`, transmits nothing in any
run. -/
theorem sentBy_of_no_broadcast (hrd : .rd ∈ ms) (hk : k.broadcastAddress = none) (s : τ)
    (os : List (Op Item × E)) : (k.bare.wrapped ms).sentBy s os = [] := by
  rw [sentBy_eq_nil_iff hrd]
  induction os generalizing s with
  | nil => trivial
  | cons x os ih => exact ⟨fun _ _ _ _ haddr => by simp [hk] at haddr, ih _⟩

/-- **A read-only connection never sends exactly if its broadcasts do not get out**, in the run and
in those with other data. -/
theorem neverSends_iff_mute (ch : ChannelEncoder Item Msg BMsg) (hrd : .rd ∈ ms) (s : τ)
    (us : List (Use Item Msg BMsg × E)) :
    NeverSends ch (k.bare.wrapped ms) s us ↔
      ∀ us', SameShape us us' →
        Mute k (k.bare.wrapped ms) s (callsOf ch (k.bare.wrapped ms) us') := by
  simp only [← sentBy_eq_nil_iff hrd]
  constructor
  · intro h us' hus
    rw [h.2 us' hus, h.1]
  · intro h
    have h0 := h us rfl
    exact ⟨h0, fun us' hus => by rw [h us' hus, h0]⟩

/-! ## A UDP listener -/

/-- A read-only UDP listener that has no broadcast address never sends. -/
theorem neverSends_without_address :
    NeverSends (⟨some, some⟩ : ChannelEncoder _ _ _)
      ((udpListenerClass Empty).bare.wrapped [.wr, .rd]) ⟨false, none⟩
      [(.call .open_, .opened none), (.broadcast (.buffer [2]), .sent)] := by
  refine (neverSends_iff_mute _ (by simp) _ _).mpr ?_
  rintro us' hus
  obtain ⟨u, _, rfl, hu, hus⟩ := hus.cons
  obtain ⟨v, _, rfl, hv, hus⟩ := hus.cons
  obtain rfl := List.map_eq_nil_iff.mp hus.symm
  obtain rfl : u = .call .open_ := by
    cases u with
    | call o => cases o <;> first | rfl | cases hu
    | _ => cases hu
  obtain ⟨m, rfl⟩ : ∃ m, v = .broadcast m := by
    cases v with
    | call o => cases o <;> cases hv
    | send m => cases hv
    | broadcast m => exact ⟨m, rfl⟩
  refine ⟨nofun, ?_, trivial⟩
  rintro x _ a - ⟨⟩ ha
  cases ha

/-- **One that may broadcast sends what it is given to broadcast.** -/
theorem readOnly_broadcasts :
    ¬ ∀ us, NeverSends (⟨some, some⟩ : ChannelEncoder _ _ _)
      ((udpListenerClass Empty).bare.wrapped [.rd]) ⟨false, none⟩ us := by
  intro h
  have h1 := (h [(.call .open_, .opened (some (.limitedBroadcast, 7))),
    (.broadcast (.buffer [1]), .sent)]).1
  cases h1

end FlockwaveConn
