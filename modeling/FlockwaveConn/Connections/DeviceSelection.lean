import FlockwaveConn.Connections.Serial

/-!
# Connections/DeviceSelection — which USB device a serial port is

`_find_matching_usb_device()` takes the first port that satisfies every criterion given, here with
texts for all of them, and with any relation in the place of `fnmatch()`.  A criterion more leaves
fewer ports to choose from, so it never selects an earlier one (`Selects.of_le`).
-/

/-! ## The first item of a list that satisfies a predicate -/

namespace List

variable {α : Type*} {P Q : α → Prop} {x y : α} {xs : List α} {i : ℕ}

/-- Item `i` is the first one that satisfies `P`. -/
structure IsFirst (P : α → Prop) (xs : List α) (i : ℕ) (x : α) : Prop where
  getElem? : xs[i]? = some x
  holds : P x
  before : ∀ j < i, ∀ y, xs[j]? = some y → ¬ P y

theorem not_isFirst_nil : ¬ IsFirst P [] i x := fun h => by simpa using h.getElem?

theorem isFirst_cons_of_pos (hx : P x) : IsFirst P (x :: xs) i y ↔ i = 0 ∧ x = y := by
  constructor
  · intro h
    obtain rfl : i = 0 := by
      by_contra hi
      exact h.before 0 (Nat.pos_of_ne_zero hi) x rfl hx
    exact ⟨rfl, Option.some.inj h.getElem?⟩
  · rintro ⟨rfl, rfl⟩
    exact ⟨rfl, hx, by simp⟩

theorem isFirst_cons_of_neg (hx : ¬ P x) :
    IsFirst P (x :: xs) i y ↔ ∃ j, i = j + 1 ∧ IsFirst P xs j y := by
  constructor
  · intro h
    cases i with
    | zero =>
      obtain rfl := Option.some.inj h.getElem?
      exact absurd h.holds hx
    | succ j =>
      exact ⟨j, rfl, h.getElem?, h.holds, fun m hm => h.before (m + 1) (by omega)⟩
  · rintro ⟨j, rfl, h⟩
    refine ⟨h.getElem?, h.holds, fun m hm z hz => ?_⟩
    cases m with
    | zero =>
      obtain rfl := Option.some.inj hz
      exact hx
    | succ m => exact h.before m (by omega) z hz

/-- **There is a first one** wherever there is one. -/
theorem exists_isFirst (h : xs[i]? = some x) (hx : P x) : ∃ j ≤ i, ∃ y, IsFirst P xs j y := by
  classical
  have hex : ∃ j, ∃ y, xs[j]? = some y ∧ P y := ⟨i, x, h, hx⟩
  obtain ⟨y, hy, hPy⟩ := Nat.find_spec hex
  refine ⟨Nat.find hex, Nat.find_min' hex ⟨x, h, hx⟩, y, hy, hPy, fun j hj z hz hPz => ?_⟩
  exact Nat.find_min hex hj ⟨z, hz, hPz⟩

/-- A weaker predicate has its first item no later. -/
theorem IsFirst.of_imp (h : IsFirst Q xs i x) (hPQ : ∀ x, Q x → P x) :
    ∃ j ≤ i, ∃ y, IsFirst P xs j y := exists_isFirst h.getElem? (hPQ x h.holds)

end List

namespace FlockwaveConn

open Urllib

/-- The criteria for a device, each a text where it is given. -/
structure UsbCriteria where
  vid : Option Text
  pid : Option Text
  manufacturer : Option Text
  product : Option Text
  serialNumber : Option Text
  deriving DecidableEq, Repr

namespace UsbCriteria

variable (lib : Stdlib) (unicodeLower : Text → Text) (glob : Text → Text → Bool)
  (c : UsbCriteria) (port : PortInfo)

/-- …among the properties of any type. -/
def properties : UsbProperties where
  vid := c.vid.map .str
  pid := c.pid.map .str
  manufacturer := c.manufacturer.map .str
  product := c.product.map .str
  serialNumber := c.serialNumber.map .str

/-- `int(str(vid), 16) if vid is not None else None`, unless it raises a `ValueError`. -/
def readId : Option Text → Option (Option ℤ)
  | none => some none
  | some t => (intHex lib t).map some

/-- `serial_number is not None and port_info.serial_number != serial_number` -/
def serialNumberDiffers (own given : Option Text) : Bool := given.isSome && own != given

/-- `manufacturer is not None and (…)`, and the same for the product. -/
def textDiffers (own given : Option Text) : Bool :=
  match given, own with
  | none, _ => false
  | some _, none => true
  | some pattern, some text => !(glob (lower unicodeLower text) (lower unicodeLower pattern))

/-- `SerialPortConnection._port_info_matches()` -/
def portInfoMatches : Bool :=
  match readId lib c.vid, readId lib c.pid with
  | some vid, some pid =>
    if PortInfo.idDiffers port.vid vid then false
    else if PortInfo.idDiffers port.pid pid then false
    else if serialNumberDiffers port.serialNumber c.serialNumber then false
    else if textDiffers unicodeLower glob port.manufacturer c.manufacturer then false
    else if textDiffers unicodeLower glob port.product c.product then false
    else true
  -- `except ValueError: return False`
  | _, _ => false

/-- `SerialPortConnection._find_matching_usb_device()`, of what `comports()` returns. -/
def findMatchingUsbDevice : List PortInfo → Except FindError Text
  | [] => .error (.noMatchingPort c.properties.given)
  | port :: ports =>
    if c.portInfoMatches lib unicodeLower glob port then .ok port.device
    else findMatchingUsbDevice ports

/-- The path that `_create_stream()` opens. -/
def findPath (path : ParameterValue) (ports : List PortInfo) : Except FindError ParameterValue :=
  -- `if self._path:`
  if path ≠ .str [] ∧ path ≠ .int 0 then
    match SerialPortConnection.matchIds path.text with
    | some (vid, pid) =>
      ({ c with vid := some vid, pid := some pid }
        |>.findMatchingUsbDevice lib unicodeLower glob ports).map .str
    | none => .ok path
  else (c.findMatchingUsbDevice lib unicodeLower glob ports).map .str

/-! ## What the criteria say -/

/-- **The port satisfies every criterion given.** -/
structure Satisfies : Prop where
  /-- A number in base 16. -/
  vid : ∀ t, c.vid = some t → ∃ n, intHex lib t = some n ∧ port.vid = some n
  pid : ∀ t, c.pid = some t → ∃ n, intHex lib t = some n ∧ port.pid = some n
  serialNumber : ∀ t, c.serialNumber = some t → port.serialNumber = some t
  /-- A glob pattern, in any letter case. -/
  manufacturer : ∀ t, c.manufacturer = some t → ∃ own, port.manufacturer = some own ∧
    glob (lower unicodeLower own) (lower unicodeLower t)
  product : ∀ t, c.product = some t → ∃ own, port.product = some own ∧
    glob (lower unicodeLower own) (lower unicodeLower t)

/-- Port `i` is selected. -/
abbrev Selects (ports : List PortInfo) (i : ℕ) (port : PortInfo) : Prop :=
  ports.IsFirst (c.Satisfies lib unicodeLower glob) i port

/-- What `c` gives, `c'` gives as well. -/
structure Weaker (c c' : UsbCriteria) : Prop where
  vid : ∀ t, c.vid = some t → c'.vid = some t
  pid : ∀ t, c.pid = some t → c'.pid = some t
  manufacturer : ∀ t, c.manufacturer = some t → c'.manufacturer = some t
  product : ∀ t, c.product = some t → c'.product = some t
  serialNumber : ∀ t, c.serialNumber = some t → c'.serialNumber = some t

variable {lib unicodeLower glob c port} {c' : UsbCriteria} {ports : List PortInfo}

/-! ## The loop -/

theorem readId_eq_some {own : Option ℤ} {t : Option Text} :
    (∃ v, readId lib t = some v ∧ PortInfo.idDiffers own v = false) ↔
      ∀ s, t = some s → ∃ n, intHex lib s = some n ∧ own = some n := by
  cases t with
  | none => simp [readId, PortInfo.idDiffers]
  | some s => cases intHex lib s <;> simp [readId, PortInfo.idDiffers]

theorem serialNumberDiffers_eq_false {own given : Option Text} :
    serialNumberDiffers own given = false ↔ ∀ t, given = some t → own = some t := by
  cases given <;> simp [serialNumberDiffers]

theorem textDiffers_eq_false {own given : Option Text} :
    textDiffers unicodeLower glob own given = false ↔
      ∀ t, given = some t → ∃ s, own = some s ∧
        glob (lower unicodeLower s) (lower unicodeLower t) := by
  cases given with
  | none => simp [textDiffers]
  | some t => cases own <;> simp [textDiffers]

/-- **A port matches exactly if it satisfies the criteria.** -/
theorem portInfoMatches_iff :
    c.portInfoMatches lib unicodeLower glob port = true ↔
      c.Satisfies lib unicodeLower glob port := by
  unfold portInfoMatches
  constructor
  · intro h
    split at h
    · next vid pid hvid hpid =>
      simp only [Bool.if_false_left, Bool.and_eq_true, Bool.not_eq_true', Bool.and_true,
        decide_eq_false_iff_not, Bool.not_eq_true] at h
      obtain ⟨hvid', hpid', hserial, hmanufacturer, hproduct⟩ := h
      exact ⟨readId_eq_some.mp ⟨vid, hvid, hvid'⟩, readId_eq_some.mp ⟨pid, hpid, hpid'⟩,
        serialNumberDiffers_eq_false.mp hserial, textDiffers_eq_false.mp hmanufacturer,
        textDiffers_eq_false.mp hproduct⟩
    · cases h
  · intro h
    obtain ⟨vid, hvid, hvid'⟩ := readId_eq_some.mpr h.vid
    obtain ⟨pid, hpid, hpid'⟩ := readId_eq_some.mpr h.pid
    simp [hvid, hpid, hvid', hpid', serialNumberDiffers_eq_false.mpr h.serialNumber,
      textDiffers_eq_false.mpr h.manufacturer, textDiffers_eq_false.mpr h.product]

/-- **A device that is found** is that of the port that is selected. -/
theorem find_eq_ok {d : Text} :
    c.findMatchingUsbDevice lib unicodeLower glob ports = .ok d ↔
      ∃ i port, c.Selects lib unicodeLower glob ports i port ∧ port.device = d := by
  induction ports with
  | nil => simp [findMatchingUsbDevice, List.not_isFirst_nil]
  | cons port ports ih =>
    rw [findMatchingUsbDevice]
    split
    · next hmatch =>
      simp only [Selects, List.isFirst_cons_of_pos (portInfoMatches_iff.mp hmatch)]
      simp
    · next hmatch =>
      simp only [Selects, List.isFirst_cons_of_neg fun h => hmatch (portInfoMatches_iff.mpr h)]
      rw [ih]
      constructor
      · rintro ⟨i, port', h, hd⟩
        exact ⟨i + 1, port', ⟨i, rfl, h⟩, hd⟩
      · rintro ⟨_, port', ⟨i, rfl, h⟩, hd⟩
        exact ⟨i, port', h, hd⟩

/-- The only error there is. -/
theorem find_eq_error {e : FindError} :
    c.findMatchingUsbDevice lib unicodeLower glob ports = .error e ↔
      e = .noMatchingPort c.properties.given ∧
        ∀ port ∈ ports, ¬ c.Satisfies lib unicodeLower glob port := by
  induction ports with
  | nil => simp [findMatchingUsbDevice, eq_comm]
  | cons port ports ih =>
    rw [findMatchingUsbDevice, List.forall_mem_cons, ← portInfoMatches_iff]
    split
    · next hmatch => simp [hmatch]
    · next hmatch => simp [hmatch, ih]

/-! ## More criteria -/

/-- A port that satisfies more criteria satisfies fewer. -/
theorem Satisfies.of_weaker (h : c'.Satisfies lib unicodeLower glob port) (hw : Weaker c c') :
    c.Satisfies lib unicodeLower glob port where
  vid t ht := h.vid t (hw.vid t ht)
  pid t ht := h.pid t (hw.pid t ht)
  manufacturer t ht := h.manufacturer t (hw.manufacturer t ht)
  product t ht := h.product t (hw.product t ht)
  serialNumber t ht := h.serialNumber t (hw.serialNumber t ht)

/-- **With more criteria the device comes no earlier in the list.** -/
theorem Selects.of_weaker {i : ℕ} (h : c'.Selects lib unicodeLower glob ports i port)
    (hw : Weaker c c') :
    ∃ j ≤ i, ∃ port, c.Selects lib unicodeLower glob ports j port :=
  h.of_imp fun _ hport => hport.of_weaker hw

/-! ## A vendor and a product ID in the place of a path -/

/-- Four hexadecimal digits. -/
def IsUsbId (t : Text) : Prop := t.length = 4 ∧ ∀ a ∈ t, Text.isHexDigit a = true

theorem matchIds_eq_some {vid pid : Text} (hvid : IsUsbId vid) (hpid : IsUsbId pid) :
    SerialPortConnection.matchIds (vid ++ ':' :: pid) = some (vid, pid) := by
  have hcolon : ':' ∉ vid := fun h => absurd (hvid.2 ':' h) (by decide)
  have hbreak : (vid ++ ':' :: pid).getLast? ≠ some '\n' := by
    intro h
    rw [List.getLast?_append_cons] at h
    obtain h | h := List.mem_cons.mp (List.mem_of_getLast? h)
    · exact absurd h (by decide)
    · exact absurd (hpid.2 '\n' h) (by decide)
  unfold SerialPortConnection.matchIds
  simp only [if_neg hbreak, Text.partition_append hcolon, List.all_eq_true]
  exact if_pos ⟨trivial, hvid.1, hpid.1, hvid.2, hpid.2⟩

/-- **`vid:pid` is looked for as the vendor and the product ID**, next to the other criteria. -/
theorem findPath_ids {vid pid : Text} (hvid : IsUsbId vid) (hpid : IsUsbId pid) :
    c.findPath lib unicodeLower glob (.str (vid ++ ':' :: pid)) ports =
      ({ c with vid := some vid, pid := some pid }.findMatchingUsbDevice lib unicodeLower glob
        ports).map .str := by
  simp [findPath, ParameterValue.text, matchIds_eq_some hvid hpid]

/-! ## With `fnmatch()` -/

theorem readId_map_str (t : Option Text) :
    PortInfo.readId lib (t.map .str) = readId lib t := by
  cases t <;> rfl

theorem serialNumberDiffers_map_str (own given : Option Text) :
    PortInfo.serialNumberDiffers own (given.map .str) = serialNumberDiffers own given := by
  cases given with
  | none => rfl
  | some t =>
    rw [Bool.eq_iff_iff]
    cases own <;> simp [PortInfo.serialNumberDiffers, serialNumberDiffers]

theorem textDiffers_map_str (own given : Option Text) :
    PortInfo.textDiffers unicodeLower own (given.map .str) =
      .ok (textDiffers unicodeLower fnmatch own given) := by
  cases given <;> cases own <;> rfl

theorem textsMatch_properties (port : PortInfo) :
    port.textsMatch unicodeLower c.properties =
      .ok (!(textDiffers unicodeLower fnmatch port.manufacturer c.manufacturer) &&
        !(textDiffers unicodeLower fnmatch port.product c.product)) := by
  simp only [PortInfo.textsMatch, properties, textDiffers_map_str]
  cases textDiffers unicodeLower fnmatch port.manufacturer c.manufacturer <;> rfl

/-- **Texts are a case of properties of any type**: the comparison raises nothing. -/
theorem isMatch_properties (port : PortInfo) :
    port.isMatch lib unicodeLower c.properties =
      .ok (c.portInfoMatches lib unicodeLower fnmatch port) := by
  rw [PortInfo.isMatch, textsMatch_properties, ← apply_ite]
  refine congrArg _ ?_
  simp only [PortInfo.usbDiffers, properties, readId_map_str, serialNumberDiffers_map_str,
    portInfoMatches]
  cases readId lib c.vid with
  | none => rfl
  | some vid =>
    cases readId lib c.pid with
    | none => rfl
    | some pid => simp [Bool.and_assoc]

theorem find_properties (ports : List PortInfo) :
    c.properties.findMatchingUsbDevice lib unicodeLower ports =
      c.findMatchingUsbDevice lib unicodeLower fnmatch ports := by
  induction ports with
  | nil => rfl
  | cons port ports ih =>
    rw [UsbProperties.findMatchingUsbDevice, findMatchingUsbDevice, isMatch_properties, ih]
    cases c.portInfoMatches lib unicodeLower fnmatch port <;> rfl

theorem findPath_properties (path : ParameterValue) (ports : List PortInfo) :
    (⟨path, c.properties⟩ : SerialPortConnection).findPath lib unicodeLower ports =
      c.findPath lib unicodeLower fnmatch path ports := by
  have hids : ∀ vid pid, { c.properties with vid := some (.str vid), pid := some (.str pid)
      }.findMatchingUsbDevice lib unicodeLower ports =
        { c with vid := some vid, pid := some pid }.findMatchingUsbDevice lib unicodeLower fnmatch
          ports :=
    fun vid pid => find_properties (c := { c with vid := some vid, pid := some pid }) ports
  unfold SerialPortConnection.findPath findPath
  rcases SerialPortConnection.matchIds path.text with _ | ⟨vid, pid⟩
  · simp only [find_properties]
  · simp only [find_properties, hids]

/-! ## Which device is selected -/

/-- **Which device is selected**: the first one that satisfies the criteria, no earlier one with a
criterion more, and the one with the vendor and the product ID of the path where the path gives
them.  With `fnmatch()` for the glob relation this is what `_create_stream()` looks for. -/
theorem selection (lib : Stdlib) (unicodeLower : Text → Text) (glob : Text → Text → Bool)
    (c : UsbCriteria) (ports : List PortInfo) :
    (∀ d, c.findMatchingUsbDevice lib unicodeLower glob ports = .ok d ↔
        ∃ i port, c.Selects lib unicodeLower glob ports i port ∧ port.device = d) ∧
      (∀ e, c.findMatchingUsbDevice lib unicodeLower glob ports = .error e ↔
        e = .noMatchingPort c.properties.given ∧
          ∀ port ∈ ports, ¬ c.Satisfies lib unicodeLower glob port) ∧
      (∀ c', Weaker c c' → ∀ i port, c'.Selects lib unicodeLower glob ports i port →
        ∃ j ≤ i, ∃ port, c.Selects lib unicodeLower glob ports j port) ∧
      (∀ vid pid, IsUsbId vid → IsUsbId pid →
        c.findPath lib unicodeLower glob (.str (vid ++ ':' :: pid)) ports =
          ({ c with vid := some vid, pid := some pid }.findMatchingUsbDevice lib unicodeLower glob
            ports).map .str) ∧
      c.findPath lib unicodeLower glob (.str []) ports =
        (c.findMatchingUsbDevice lib unicodeLower glob ports).map .str ∧
      ∀ path, (⟨path, c.properties⟩ : SerialPortConnection).findPath lib unicodeLower ports =
        c.findPath lib unicodeLower fnmatch path ports :=
  ⟨fun _ => find_eq_ok, fun _ => find_eq_error, fun _ hw _ _ h => h.of_weaker hw,
    fun _ _ hvid hpid => findPath_ids hvid hpid, rfl, fun path => findPath_properties path ports⟩

end UsbCriteria

end FlockwaveConn
