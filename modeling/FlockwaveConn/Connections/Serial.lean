import FlockwaveConn.Factory.BareName
import FlockwaveConn.Factory.RoundTrip
import FlockwaveConn.Machinery.Fnmatch
import FlockwaveConn.Machinery.Hexadecimal

/-!
# Connections/Serial — a serial port, found by what is known about its device

With an empty path `SerialPortConnection` looks for the first port that matches what it has been
given.  In a URL such as `serial:?vid=0483&serial_number=0001` the factory turns whatever `int()`
reads into an integer.  That makes no difference for `vid` and `pid`, which are put back into a
string and read in base 16; but no serial number is equal to an integer, and an integer is no glob
pattern, so with one in the place of a manufacturer or a product the search breaks off with an
`AttributeError` at the first port that has one (`findsTheSame_iff`).
-/

namespace FlockwaveConn

open Urllib

/-- What `comports()` says about a port. -/
structure PortInfo where
  device : Text
  vid : Option ℤ
  pid : Option ℤ
  serialNumber : Option Text
  manufacturer : Option Text
  product : Option Text
  deriving DecidableEq, Repr

/-- `_usb_properties`: what a device is looked for by. -/
@[ext]
structure UsbProperties where
  vid : Option ParameterValue
  pid : Option ParameterValue
  manufacturer : Option ParameterValue
  product : Option ParameterValue
  serialNumber : Option ParameterValue
  deriving DecidableEq, Repr

/-- An integer has no `lower()`. -/
inductive AttributeError
  | lower
  deriving DecidableEq, Repr

/-- What ends the search without a device. -/
inductive FindError
  | attribute (e : AttributeError)
  /-- "No USB serial port matching specification: ", and what has been given. -/
  | noMatchingPort (kwds : List (Text × ParameterValue))
  deriving DecidableEq, Repr

/-- `s.lower()`; `unicodeLower` is what becomes of a text that is not ASCII. -/
def lower (unicodeLower : Text → Text) (s : Text) : Text :=
  if s.all isAscii then s.map Char.toLower else unicodeLower s

namespace UsbProperties

/-- `{k: v for k, v in kwds.items() if v is not None}` -/
def given (k : UsbProperties) : List (Text × ParameterValue) :=
  [("vid".toList, k.vid), ("pid".toList, k.pid), ("manufacturer".toList, k.manufacturer),
    ("product".toList, k.product), ("serial_number".toList, k.serialNumber)].filterMap
      fun p => p.2.map (p.1, ·)

end UsbProperties

namespace PortInfo

variable (lib : Stdlib) (unicodeLower : Text → Text) (port : PortInfo) (k : UsbProperties)

/-- `int(str(v), 16)` -/
def hexOf : ParameterValue → Option ℤ
  | .int z => if Text.Fits lib.maxDigits z then intHex lib (Text.ofInt z) else none
  | .str s => intHex lib s

/-- `int(str(vid), 16) if vid is not None else None`, unless it raises a `ValueError`. -/
def readId : Option ParameterValue → Option (Option ℤ)
  | none => some none
  | some v => (hexOf lib v).map some

/-- `vid_as_int is not None and port_info.vid != vid_as_int` -/
def idDiffers (own given : Option ℤ) : Bool := given.isSome && own != given

/-- `serial_number is not None and port_info.serial_number != serial_number` -/
def serialNumberDiffers (own : Option Text) (given : Option ParameterValue) : Bool :=
  given.isSome && own.map .str != given

/-- The same for the manufacturer and for the product, which are glob patterns. -/
def textDiffers (own : Option Text) (given : Option ParameterValue) :
    Except AttributeError Bool :=
  match given, own with
  | none, _ => .ok false
  | some _, none => .ok true
  | some (.int _), some _ => .error .lower
  | some (.str pattern), some text =>
    .ok !(fnmatch (lower unicodeLower text) (lower unicodeLower pattern))

/-- The criteria that are compared as they are. -/
def usbDiffers : Bool :=
  match readId lib k.vid, readId lib k.pid with
  | some vid, some pid =>
    idDiffers port.vid vid || idDiffers port.pid pid ||
      serialNumberDiffers port.serialNumber k.serialNumber
  -- `except ValueError: return False`
  | _, _ => true

/-- The glob patterns. -/
def textsMatch : Except AttributeError Bool :=
  match textDiffers unicodeLower port.manufacturer k.manufacturer with
  | .error e => .error e
  | .ok true => .ok false
  | .ok false => (textDiffers unicodeLower port.product k.product).map (!·)

/-- `SerialPortConnection._port_info_matches()` -/
def isMatch : Except AttributeError Bool :=
  if usbDiffers lib port k then .ok false else textsMatch unicodeLower port k

end PortInfo

namespace UsbProperties

variable (lib : Stdlib) (unicodeLower : Text → Text) (k : UsbProperties)

/-- `SerialPortConnection._find_matching_usb_device()`, of what `comports()` returns. -/
def findMatchingUsbDevice : List PortInfo → Except FindError Text
  | [] => .error (.noMatchingPort k.given)
  | port :: ports =>
    match port.isMatch lib unicodeLower k with
    | .error e => .error (.attribute e)
    | .ok true => .ok port.device
    | .ok false => findMatchingUsbDevice ports

end UsbProperties

/-- A `SerialPortConnection`, before it is opened. -/
structure SerialPortConnection where
  path : ParameterValue
  usbProperties : UsbProperties
  deriving DecidableEq, Repr

namespace SerialPortConnection

/-- `SerialPortConnection(**kwds)` -/
def ofKeywords (kwds : Keywords ParameterValue) : SerialPortConnection where
  path := (kwds "path".toList).getD (.str [])
  usbProperties := {
    vid := kwds "vid".toList
    pid := kwds "pid".toList
    manufacturer := kwds "manufacturer".toList
    product := kwds "product".toList
    serialNumber := kwds "serial_number".toList }

/-- The vendor and the product ID in `^(?P<vid>[0-9a-f]{4}):(?P<pid>[0-9a-f]{4})$`; a line break
may follow. -/
def matchIds (path : Text) : Option (Text × Text) :=
  let path := if path.getLast? = some '\n' then path.dropLast else path
  let (vid, sep, pid) := Text.partition ':' path
  if sep ∧ vid.length = 4 ∧ pid.length = 4 ∧ vid.all Text.isHexDigit ∧ pid.all Text.isHexDigit then
    some (vid, pid)
  else none

/-- The path that `_create_stream()` opens. -/
def findPath (lib : Stdlib) (unicodeLower : Text → Text) (ports : List PortInfo)
    (c : SerialPortConnection) : Except FindError ParameterValue :=
  -- `if self._path:`
  if c.path ≠ .str [] ∧ c.path ≠ .int 0 then
    match matchIds c.path.text with
    | some (vid, pid) =>
      ({ c.usbProperties with vid := some (.str vid), pid := some (.str pid) }
        |>.findMatchingUsbDevice lib unicodeLower ports).map .str
    | none => .ok c.path
  else (c.usbProperties.findMatchingUsbDevice lib unicodeLower ports).map .str

/-- `create_connection`, as far as serial ports are concerned. -/
def createConnection : Factory (Keywords ParameterValue → SerialPortConnection)
    (SerialPortConnection → SerialPortConnection) :=
  Factory.init.register "serial".toList ofKeywords

/-- What calling a function does. -/
def calls : Callables (Keywords ParameterValue → SerialPortConnection)
    (SerialPortConnection → SerialPortConnection) ParameterValue SerialPortConnection where
  construct _ func kwds := func kwds
  wrap _ mw c := mw c

/-! ## The criteria -/

/-- The names of the criteria. -/
def criteria : List Text :=
  ["vid", "pid", "manufacturer", "product", "serial_number"].map String.toList

/-- Some of the criteria, each with a string that is not empty. -/
structure IsCriteria (fields : List (Text × Text)) : Prop where
  ne_nil : fields ≠ []
  names : ∀ p ∈ fields, p.1 ∈ criteria
  nodup : (fields.map Prod.fst).Nodup
  values : ∀ p ∈ fields, p.2 ≠ []

/-- `serial:?`, and the criteria percent-encoded. -/
def url (fields : List (Text × Text)) : Text := "serial:?".toList ++ urlencode fields

/-- `SerialPortConnection(path='', **fields)` -/
def ofFields (fields : List (Text × Text)) : SerialPortConnection :=
  ofKeywords fun name =>
    if name = "path".toList then some (.str []) else (fields.lookup name).map .str

/-- The same device, or no matching port for either; each error also shows what has been given. -/
inductive SameOutcome {α : Type*} : Except FindError α → Except FindError α → Prop
  | device (d : α) : SameOutcome (.ok d) (.ok d)
  | noMatchingPort (kwds kwds' : List (Text × ParameterValue)) :
    SameOutcome (.error (.noMatchingPort kwds)) (.error (.noMatchingPort kwds'))

/-- **The URL selects the same device as the constructor.** -/
def FindsTheSame (lib : Stdlib) (unicodeLower : Text → Text) (ports : List PortInfo)
    (fields : List (Text × Text)) : Prop :=
  ∃ c, (createConnection.create lib id calls (.inl (url fields)) []).1 = .ok c ∧
    SameOutcome (c.findPath lib unicodeLower ports)
      ((ofFields fields).findPath lib unicodeLower ports)

/-- The criterion is given, with a value that `int()` reads. -/
def IsNumber (lib : Stdlib) (fields : List (Text × Text)) (name : Text) : Prop :=
  ∃ s, fields.lookup name = some s ∧ (int lib s).isSome = true

/-- No port gets as far as the first of the criteria that `int()` reads, vendor and product ID
apart: with a serial number none matches, and with a manufacturer or a product none that has passed
what is compared before it has one. -/
structure NoneReaches (lib : Stdlib) (unicodeLower : Text → Text) (ports : List PortInfo)
    (fields : List (Text × Text)) : Prop where
  serialNumber : IsNumber lib fields "serial_number".toList → ∀ port ∈ ports,
    port.isMatch lib unicodeLower (ofFields fields).usbProperties = .ok false
  manufacturer : ¬ IsNumber lib fields "serial_number".toList →
    IsNumber lib fields "manufacturer".toList → ∀ port ∈ ports,
      port.usbDiffers lib (ofFields fields).usbProperties = false → port.manufacturer = none
  product : ¬ IsNumber lib fields "serial_number".toList →
    ¬ IsNumber lib fields "manufacturer".toList → IsNumber lib fields "product".toList →
      ∀ port ∈ ports, port.usbDiffers lib (ofFields fields).usbProperties = false →
        PortInfo.textDiffers unicodeLower port.manufacturer
            (ofFields fields).usbProperties.manufacturer = .ok false → port.product = none

end SerialPortConnection

/-! ## From the URL to the criteria -/

/-- What the factory makes of a string in a URL. -/
def ParameterValue.reread (lib : Stdlib) : ParameterValue → ParameterValue
  | .int z => .int z
  | .str s => Specification.readValue lib s

def UsbProperties.reread (lib : Stdlib) (k : UsbProperties) : UsbProperties where
  vid := k.vid.map (.reread lib)
  pid := k.pid.map (.reread lib)
  manufacturer := k.manufacturer.map (.reread lib)
  product := k.product.map (.reread lib)
  serialNumber := k.serialNumber.map (.reread lib)

namespace SerialPortConnection

variable {lib : Stdlib} {unicodeLower : Text → Text} {ports : List PortInfo}
  {fields : List (Text × Text)}

theorem usbProperties_ofFields (fields : List (Text × Text)) : (ofFields fields).usbProperties = {
    vid := (fields.lookup "vid".toList).map .str
    pid := (fields.lookup "pid".toList).map .str
    manufacturer := (fields.lookup "manufacturer".toList).map .str
    product := (fields.lookup "product".toList).map .str
    serialNumber := (fields.lookup "serial_number".toList).map .str } := rfl

theorem mem_url {c : Char} (hc : c ∈ url fields) : isVisible c = true ∧ c ≠ '/' := by
  have hquote : ∀ t : Text, c ∈ quote t → isVisible c = true ∧ c ≠ '/' := by
    intro t ht
    obtain hu | rfl := mem_quote ht
    · exact ⟨isVisible_of_isUnreserved hu, fun hslash => absurd (hslash ▸ hu) (by decide)⟩
    · decide
  obtain hc | hc := List.mem_append.mp hc
  · have hall : "serial:?".toList.all (fun c => isVisible c && c != '/') = true := rfl
    simpa using List.all_eq_true.mp hall c hc
  · obtain rfl | ⟨s, hs, hc⟩ := Text.mem_intercalate hc
    · decide
    · obtain ⟨p, -, rfl⟩ := List.mem_map.mp hs
      obtain hc | rfl | hc : c ∈ quote p.1 ∨ c = '=' ∨ c ∈ quote p.2 := by simpa using hc
      · exact hquote p.1 hc
      · decide
      · exact hquote p.2 hc

theorem readParameters_urlencode (hlib : ∀ s, Decodes lib s) (h : IsCriteria fields) :
    Specification.readParameters lib (urlencode fields) =
      .ok (fields.map fun p => (p.1, Specification.readValue lib p.2)) := by
  have hqsl : parseQsl lib (urlencode fields) = fields := by
    rw [parseQsl_urlencode lib fun p _ => ⟨hlib p.1, hlib p.2⟩, List.filter_eq_self]
    simpa using h.values
  rw [Specification.readParameters_eq (parseQs_of_nodup (by rw [hqsl]; exact h.nodup)), hqsl]

theorem urlparse_url (lib : Stdlib) (fields : List (Text × Text)) :
    urlparse lib (url fields) = .ok ⟨"serial".toList, [], [], urlencode fields⟩ := by
  have hslash : '/' ∉ url fields := fun hc => (mem_url hc).2 rfl
  have hclean : clean (url fields) = url fields := clean_of_isVisible fun c hc => (mem_url hc).1
  have hscheme : splitScheme (clean (url fields)) = ("serial".toList, '?' :: urlencode fields) := by
    have hhead : "serial".toList.head?.any Char.isAlpha = true := rfl
    have hall : "serial".toList.all (fun c => isSchemeChar c && !c.isUpper) = true := rfl
    rw [hclean]
    exact splitScheme_append hhead (fun c hc => by simpa using List.all_eq_true.mp hall c hc) _
  have hrest : ∀ c ∈ '?' :: urlencode fields, c ∈ clean (url fields) := fun c hc => by
    rw [hclean]
    exact List.mem_append_right "serial:".toList hc
  rw [urlparse, Factory.urlsplit_of_not_mem lib hslash hscheme hrest]
  rfl

/-- **The connection of the URL.** -/
theorem create_url (hlib : ∀ s, Decodes lib s) (h : IsCriteria fields) :
    (createConnection.create lib id calls (.inl (url fields)) []).1 =
      .ok ⟨.str [], (ofFields fields).usbProperties.reread lib⟩ := by
  have hdict : urlSpecificationToDict lib (url fields) = .ok {
      type := "serial".toList
      middleware := []
      parameters := some (fields.map fun p => (p.1, Specification.readValue lib p.2))
      host := none, port := none, path := none, username := none, password := none } := by
    have hne : "serial".toList ≠ [] := List.cons_ne_nil _ _
    have hsplit : "serial".toList.splitOn '+' = ["serial".toList] := by decide
    rw [urlSpecificationToDict, urlparse_url]
    generalize "serial".toList = scheme at hne hsplit ⊢
    simp only [hne, if_false, Specification.ofParts, Text.rpartition, Text.partition,
      List.reverse_nil, Specification.readPort, if_true, readParameters_urlencode hlib h, hsplit]
    rfl
  let d := Specification.toDict id {
    type := "serial".toList
    middleware := []
    parameters := some (fields.map fun p => (p.1, Specification.readValue lib p.2))
    host := none, port := none, path := none, username := none, password := none }
  have hkeywords : ∀ name, d.keywords name =
      (fields.lookup name).map (Specification.readValue lib) := by
    intro name
    have hmembers : (d.members.lookup name).bind id = none := by
      cases hm : d.members.lookup name with
      | none => rfl
      | some v =>
        have hmem := Specification.mem_of_lookup hm
        simp only [d, DictSpecification.members, Specification.toDict, Option.map_none,
          List.mem_cons, Prod.mk.injEq, List.not_mem_nil, or_false] at hmem
        obtain ⟨-, rfl⟩ | ⟨-, rfl⟩ | ⟨-, rfl⟩ | ⟨-, rfl⟩ | ⟨-, rfl⟩ := hmem <;> rfl
    have hparameters : d.parameters.bind (· name) =
        ((fields.map fun p => (p.1, Specification.readValue lib p.2)).lookup name).map id := rfl
    rw [Factory.keywords_apply, hmembers, hparameters, Specification.lookup_map, Option.or_none,
      Option.map_id, id]
  have hpath : fields.lookup "path".toList = none := by
    refine List.lookup_eq_none_iff.mpr fun p hp => bne_iff_ne.mpr fun heq => ?_
    exact absurd (heq ▸ h.names p hp) (by decide)
  have hcreate : (createConnection.create lib id calls (.inl (url fields)) []).1 =
      .ok (ofKeywords d.keywords) := by
    simp only [Factory.create, Factory.toDict, hdict]
    rfl
  rw [hcreate, ofKeywords]
  simp only [hkeywords, hpath, usbProperties_ofFields, UsbProperties.reread, Option.map_map]
  rfl

end SerialPortConnection

/-! ## The search -/

variable {lib : Stdlib} {unicodeLower : Text → Text} {ports : List PortInfo} {port : PortInfo}
  {k k' : UsbProperties}

namespace UsbProperties

/-- There is no matching port exactly if none matches. -/
theorem find_eq_noMatchingPort {kwds : List (Text × ParameterValue)} :
    k.findMatchingUsbDevice lib unicodeLower ports = .error (.noMatchingPort kwds) ↔
      kwds = k.given ∧ ∀ port ∈ ports, port.isMatch lib unicodeLower k = .ok false := by
  induction ports with
  | nil => simp [findMatchingUsbDevice, eq_comm]
  | cons port ports ih =>
    rw [List.forall_mem_cons, findMatchingUsbDevice]
    cases hmatch : port.isMatch lib unicodeLower k with
    | error e => simp
    | ok b => cases b <;> simp [ih]

/-- A device that is found matches. -/
theorem exists_of_find_eq_ok {d : Text}
    (h : k.findMatchingUsbDevice lib unicodeLower ports = .ok d) :
    ∃ port ∈ ports, port.isMatch lib unicodeLower k = .ok true := by
  induction ports with
  | nil => cases h
  | cons port ports ih =>
    cases hmatch : port.isMatch lib unicodeLower k with
    | error e => simp [findMatchingUsbDevice, hmatch] at h
    | ok b =>
      cases b with
      | true => exact ⟨port, List.mem_cons_self, hmatch⟩
      | false =>
        obtain ⟨p, hp, hpm⟩ := ih (by simpa [findMatchingUsbDevice, hmatch] using h)
        exact ⟨p, List.mem_cons_of_mem port hp, hpm⟩

open SerialPortConnection (SameOutcome)

/-- The same ports match, and none of them raises. -/
theorem sameOutcome_of_forall
    (h : ∀ port ∈ ports, ∃ b, port.isMatch lib unicodeLower k = .ok b ∧
      port.isMatch lib unicodeLower k' = .ok b) :
    SameOutcome (k.findMatchingUsbDevice lib unicodeLower ports)
      (k'.findMatchingUsbDevice lib unicodeLower ports) := by
  induction ports with
  | nil => exact .noMatchingPort _ _
  | cons port ports ih =>
    obtain ⟨⟨b, hk, hk'⟩, hports⟩ := List.forall_mem_cons.mp h
    rw [findMatchingUsbDevice, findMatchingUsbDevice, hk, hk']
    cases b with
    | true => exact .device _
    | false => exact ih hports

/-- Where no port matches for the one, the outcome is the same if none matches for the other. -/
theorem sameOutcome_iff_of_never
    (h : ∀ port ∈ ports, port.isMatch lib unicodeLower k ≠ .ok true) :
    SameOutcome (k.findMatchingUsbDevice lib unicodeLower ports)
        (k'.findMatchingUsbDevice lib unicodeLower ports) ↔
      ∀ port ∈ ports, port.isMatch lib unicodeLower k = .ok false ∧
        port.isMatch lib unicodeLower k' = .ok false := by
  constructor
  · generalize ho : k.findMatchingUsbDevice lib unicodeLower ports = o
    generalize ho' : k'.findMatchingUsbDevice lib unicodeLower ports = o'
    rintro (_ | _)
    · obtain ⟨port, hport, hmatch⟩ := exists_of_find_eq_ok ho
      exact absurd hmatch (h port hport)
    · exact fun port hport =>
        ⟨(find_eq_noMatchingPort.mp ho).2 port hport, (find_eq_noMatchingPort.mp ho').2 port hport⟩
  · exact fun hall => sameOutcome_of_forall fun port hport => ⟨false, hall port hport⟩

end UsbProperties

/-! ## One criterion -/

namespace PortInfo

/-- Vendor and product ID are read in base 16, whatever they have been through. -/
theorem readId_reread (lib : Stdlib) (v : Option Text) :
    readId lib (v.map (Specification.readValue lib)) = readId lib (v.map .str) := by
  cases v with
  | none => rfl
  | some s =>
    cases hs : int lib s with
    | none => simp [Specification.readValue, hs]
    | some z =>
      have hfits : Text.Fits lib.maxDigits z := (Text.parseHex_of_parseInt hs).2
      simp [Specification.readValue, hs, readId, hexOf, hfits, intHex_ofInt hs]

theorem map_readValue_of_not_isSome {v : Option Text}
    (h : ¬ ∃ s, v = some s ∧ (int lib s).isSome = true) :
    v.map (Specification.readValue lib) = v.map .str := by
  cases v with
  | none => rfl
  | some s =>
    have hs : int lib s = none := by simpa using h
    simp [Specification.readValue, hs]

/-- No serial number is equal to an integer… -/
theorem serialNumberDiffers_int (own : Option Text) (z : ℤ) :
    serialNumberDiffers own (some (.int z)) = true := by
  cases own <;> rfl

/-- A text that a port does not have does not match… -/
theorem textDiffers_none (unicodeLower : Text → Text) (v : ParameterValue) :
    textDiffers unicodeLower none (some v) = .ok true := by
  cases v <;> rfl

/-- …and an integer is no pattern. -/
theorem textDiffers_int (own : Option Text) (z : ℤ) :
    textDiffers unicodeLower own (some (.int z)) =
      if own = none then .ok true else .error .lower := by
  cases own <;> rfl

theorem textDiffers_str (unicodeLower : Text → Text) (own v : Option Text) :
    ∃ b, textDiffers unicodeLower own (v.map .str) = .ok b := by
  cases v with
  | none => exact ⟨false, rfl⟩
  | some s =>
    cases own with
    | none => exact ⟨true, rfl⟩
    | some text => exact ⟨_, rfl⟩

end PortInfo

namespace SerialPortConnection

variable {fields : List (Text × Text)}

theorem reread_ofFields (lib : Stdlib) (fields : List (Text × Text)) :
    (ofFields fields).usbProperties.reread lib =
      ⟨(fields.lookup "vid".toList).map (Specification.readValue lib),
        (fields.lookup "pid".toList).map (Specification.readValue lib),
        (fields.lookup "manufacturer".toList).map (Specification.readValue lib),
        (fields.lookup "product".toList).map (Specification.readValue lib),
        (fields.lookup "serial_number".toList).map (Specification.readValue lib)⟩ := by
  simp only [usbProperties_ofFields, UsbProperties.reread, Option.map_map]
  rfl

theorem IsNumber.exists_int {name : Text} (h : IsNumber lib fields name) :
    ∃ z s, (fields.lookup name).map (Specification.readValue lib) = some (.int z) ∧
      (fields.lookup name).map ParameterValue.str = some (.str s) := by
  obtain ⟨s, hs, hint⟩ := h
  obtain ⟨z, hz⟩ := Option.isSome_iff_exists.mp hint
  exact ⟨z, s, by simp [hs, Specification.readValue, hz], by rw [hs]; rfl⟩

/-- With strings only nothing is raised. -/
theorem exists_isMatch (lib : Stdlib) (unicodeLower : Text → Text) (fields : List (Text × Text))
    (port : PortInfo) :
    ∃ b, port.isMatch lib unicodeLower (ofFields fields).usbProperties = .ok b := by
  unfold PortInfo.isMatch
  split
  · exact ⟨false, rfl⟩
  rw [usbProperties_ofFields, PortInfo.textsMatch]
  obtain ⟨b, hb⟩ := PortInfo.textDiffers_str unicodeLower port.manufacturer
    (fields.lookup "manufacturer".toList)
  obtain ⟨b', hb'⟩ := PortInfo.textDiffers_str unicodeLower port.product
    (fields.lookup "product".toList)
  simp only [hb, hb']
  cases b with
  | true => exact ⟨false, rfl⟩
  | false => exact ⟨!b', rfl⟩

/-- **A port, with a serial number that is an integer**… -/
theorem isMatch_of_serialNumber (unicodeLower : Text → Text)
    (h : IsNumber lib fields "serial_number".toList) (port : PortInfo) :
    port.isMatch lib unicodeLower ((ofFields fields).usbProperties.reread lib) = .ok false := by
  obtain ⟨z, -, hz, -⟩ := h.exists_int
  have hdiffers : port.usbDiffers lib ((ofFields fields).usbProperties.reread lib) = true := by
    rw [reread_ofFields, PortInfo.usbDiffers, hz]
    split
    · simp [PortInfo.serialNumberDiffers_int]
    · rfl
  rw [PortInfo.isMatch, if_pos hdiffers]

section

variable (hserial : ¬ IsNumber lib fields "serial_number".toList)
include hserial

theorem usbDiffers_reread (port : PortInfo) :
    port.usbDiffers lib ((ofFields fields).usbProperties.reread lib) =
      port.usbDiffers lib (ofFields fields).usbProperties := by
  rw [reread_ofFields, usbProperties_ofFields]
  simp only [PortInfo.usbDiffers, PortInfo.readId_reread,
    PortInfo.map_readValue_of_not_isSome hserial]

/-- …with a manufacturer that is one… -/
theorem isMatch_of_manufacturer (unicodeLower : Text → Text)
    (h : IsNumber lib fields "manufacturer".toList) (port : PortInfo) :
    port.isMatch lib unicodeLower ((ofFields fields).usbProperties.reread lib) ≠ .ok true ∧
      (port.isMatch lib unicodeLower ((ofFields fields).usbProperties.reread lib) = .ok false ∧
        port.isMatch lib unicodeLower (ofFields fields).usbProperties = .ok false ↔
          (port.usbDiffers lib (ofFields fields).usbProperties = false →
            port.manufacturer = none)) := by
  obtain ⟨z, s, hz, hs⟩ := h.exists_int
  rw [PortInfo.isMatch, PortInfo.isMatch, usbDiffers_reread hserial]
  cases hdiffers : port.usbDiffers lib (ofFields fields).usbProperties with
  | true => simp
  | false =>
    rw [reread_ofFields, usbProperties_ofFields]
    simp only [PortInfo.textsMatch, hz, hs, PortInfo.textDiffers_int]
    cases port.manufacturer with
    | none => simp [PortInfo.textDiffers_none]
    | some text => simp

variable (hmanufacturer : ¬ IsNumber lib fields "manufacturer".toList)
include hmanufacturer

/-- …with a product that is one… -/
theorem isMatch_of_product (unicodeLower : Text → Text)
    (h : IsNumber lib fields "product".toList) (port : PortInfo) :
    port.isMatch lib unicodeLower ((ofFields fields).usbProperties.reread lib) ≠ .ok true ∧
      (port.isMatch lib unicodeLower ((ofFields fields).usbProperties.reread lib) = .ok false ∧
        port.isMatch lib unicodeLower (ofFields fields).usbProperties = .ok false ↔
          (port.usbDiffers lib (ofFields fields).usbProperties = false →
            PortInfo.textDiffers unicodeLower port.manufacturer
              (ofFields fields).usbProperties.manufacturer = .ok false → port.product = none)) := by
  obtain ⟨z, s, hz, hs⟩ := h.exists_int
  rw [PortInfo.isMatch, PortInfo.isMatch, usbDiffers_reread hserial]
  cases hdiffers : port.usbDiffers lib (ofFields fields).usbProperties with
  | true => simp
  | false =>
    obtain ⟨b, hb⟩ := PortInfo.textDiffers_str unicodeLower port.manufacturer
      (fields.lookup "manufacturer".toList)
    rw [reread_ofFields, usbProperties_ofFields]
    simp only [PortInfo.textsMatch, PortInfo.map_readValue_of_not_isSome hmanufacturer, hb, hz, hs,
      PortInfo.textDiffers_int]
    cases b with
    | true => simp
    | false =>
      cases port.product with
      | none => simp [PortInfo.textDiffers_none, Except.map]
      | some text => simp [Except.map]

/-- …and with none of them. -/
theorem isMatch_reread (unicodeLower : Text → Text)
    (h : ¬ IsNumber lib fields "product".toList) (port : PortInfo) :
    port.isMatch lib unicodeLower ((ofFields fields).usbProperties.reread lib) =
      port.isMatch lib unicodeLower (ofFields fields).usbProperties := by
  rw [PortInfo.isMatch, PortInfo.isMatch, usbDiffers_reread hserial, reread_ofFields,
    usbProperties_ofFields, PortInfo.textsMatch, PortInfo.textsMatch]
  simp only [PortInfo.map_readValue_of_not_isSome hmanufacturer,
    PortInfo.map_readValue_of_not_isSome h]

end

/-! ## The same device -/

theorem sameOutcome_map {a b : Except FindError Text} :
    SameOutcome (a.map ParameterValue.str) (b.map ParameterValue.str) ↔ SameOutcome a b := by
  constructor
  · intro h
    cases a with
    | error e =>
      cases b <;> cases h
      exact .noMatchingPort _ _
    | ok d =>
      cases b <;> cases h
      exact .device d
  · rintro (_ | _)
    · exact .device _
    · exact .noMatchingPort _ _

theorem findsTheSame_iff_search (hlib : ∀ s, Decodes lib s) (h : IsCriteria fields) :
    FindsTheSame lib unicodeLower ports fields ↔ SameOutcome
      (((ofFields fields).usbProperties.reread lib).findMatchingUsbDevice lib unicodeLower ports)
      ((ofFields fields).usbProperties.findMatchingUsbDevice lib unicodeLower ports) := by
  rw [← sameOutcome_map, FindsTheSame, create_url hlib h]
  constructor
  · rintro ⟨c, hc, hsame⟩
    obtain rfl := Except.ok.inj hc
    exact hsame
  · exact fun hsame => ⟨_, rfl, hsame⟩

/-- **The URL selects the same device as the constructor exactly if no port gets as far as a serial
number, a manufacturer or a product that `int()` reads.** -/
theorem findsTheSame_iff (lib : Stdlib) (hlib : ∀ s, Decodes lib s) (unicodeLower : Text → Text)
    (ports : List PortInfo) (fields : List (Text × Text)) (h : IsCriteria fields) :
    FindsTheSame lib unicodeLower ports fields ↔ NoneReaches lib unicodeLower ports fields := by
  rw [findsTheSame_iff_search hlib h]
  by_cases hserial : IsNumber lib fields "serial_number".toList
  · have hnever := isMatch_of_serialNumber unicodeLower hserial
    rw [UsbProperties.sameOutcome_iff_of_never fun port _ => by simp [hnever port]]
    constructor
    · exact fun hall => ⟨fun _ port hport => (hall port hport).2, fun hs => absurd hserial hs,
        fun hs => absurd hserial hs⟩
    · exact fun hn port hport => ⟨hnever port, hn.serialNumber hserial port hport⟩
  by_cases hmanufacturer : IsNumber lib fields "manufacturer".toList
  · have hport := isMatch_of_manufacturer hserial unicodeLower hmanufacturer
    rw [UsbProperties.sameOutcome_iff_of_never fun port _ => (hport port).1]
    simp only [(hport _).2]
    exact ⟨fun hall => ⟨fun hs => absurd hs hserial, fun _ _ => hall,
      fun _ hm => absurd hmanufacturer hm⟩, fun hn => hn.manufacturer hserial hmanufacturer⟩
  by_cases hproduct : IsNumber lib fields "product".toList
  · have hport := isMatch_of_product hserial hmanufacturer unicodeLower hproduct
    rw [UsbProperties.sameOutcome_iff_of_never fun port _ => (hport port).1]
    simp only [(hport _).2]
    exact ⟨fun hall => ⟨fun hs => absurd hs hserial, fun _ hm => absurd hm hmanufacturer,
      fun _ _ _ => hall⟩, fun hn => hn.product hserial hmanufacturer hproduct⟩
  · refine iff_of_true (UsbProperties.sameOutcome_of_forall fun port _ => ?_) ?_
    · obtain ⟨b, hb⟩ := exists_isMatch lib unicodeLower fields port
      exact ⟨b, (isMatch_reread hserial hmanufacturer unicodeLower hproduct port).trans hb, hb⟩
    · exact ⟨fun hs => absurd hs hserial, fun _ hm => absurd hm hmanufacturer,
        fun _ _ hp => absurd hp hproduct⟩

/-! ### Two devices -/

/-- `comports()` of a computer with one receiver. -/
def receiver : PortInfo :=
  ⟨"/dev/ttyACM0".toList, some 0x1546, some 0x1a8, some "0001".toList, some "u-blox AG".toList,
    some "GNSS receiver".toList⟩

/-- `serial:?vid=1546&manufacturer=U-Blox%2A` finds it… -/
theorem findsTheSame_vendor :
    FindsTheSame ⟨some 4300, id, fun _ => false, fun _ => true, decodeUtf8⟩ id [receiver]
      [("vid".toList, "1546".toList), ("manufacturer".toList, "U-Blox*".toList)] := by
  refine (findsTheSame_iff _ (decodes_of_decodeUtf8 rfl) id [receiver] _ ?_).mpr ?_
  · exact ⟨List.cons_ne_nil _ _, by decide, by decide, by decide⟩
  · exact {
      serialNumber := by
        rintro ⟨s, hs, -⟩
        cases hs
      manufacturer := by
        rintro - ⟨s, hs, hint⟩
        obtain rfl := Option.some.inj hs
        exact absurd hint (by decide)
      product := by
        rintro - - ⟨s, hs, -⟩
        cases hs }

/-- …but `serial:?serial_number=0001` does not. -/
theorem serialNumber_lost : ¬ ∀ (lib : Stdlib) (unicodeLower : Text → Text)
    (ports : List PortInfo) (fields : List (Text × Text)), (∀ s, Decodes lib s) →
      IsCriteria fields → FindsTheSame lib unicodeLower ports fields := by
  intro h
  let lib : Stdlib := ⟨some 4300, id, fun _ => false, fun _ => true, decodeUtf8⟩
  have hlib : ∀ s, Decodes lib s := decodes_of_decodeUtf8 rfl
  have hfields : IsCriteria [("serial_number".toList, "0001".toList)] :=
    ⟨List.cons_ne_nil _ _, by decide, by decide, by decide⟩
  have hnumber : IsNumber lib [("serial_number".toList, "0001".toList)] "serial_number".toList :=
    ⟨"0001".toList, rfl, rfl⟩
  have hreaches := (findsTheSame_iff lib hlib id [receiver] _ hfields).mp
    (h lib id [receiver] _ hlib hfields)
  have hmatch : receiver.isMatch lib id
      (ofFields [("serial_number".toList, "0001".toList)]).usbProperties = .ok true := rfl
  have hnone := hreaches.serialNumber hnumber receiver (List.mem_singleton.mpr rfl)
  exact absurd (hmatch.symm.trans hnone) (by simp)

end SerialPortConnection

end FlockwaveConn
