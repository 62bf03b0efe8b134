import FlockwaveConn.Factory.RoundTrip

/-!
# Factory/Query — the parameters of a URL

A parameter is to be an integer if it is made of digits and a sign, and a string otherwise.
`_url_specification_to_dict()` leaves both to the standard library: `parse_qs()` drops what is
blank, and `int()` reads white space, underscores and digits that are not ASCII as well, but not a
number with too many digits.  So the parameters are what they should be only if there is none of
these among them (`converts_iff`).
-/

namespace FlockwaveConn

open Urllib

namespace Specification

variable {lib : Stdlib} {parts : SplitResult} {s : Text}

/-- The fields of a query, each with its decoded name and the value as it stands. -/
def queryFields (lib : Stdlib) (query : Text) : List (Text × Text) :=
  ((query.splitOn '&').filter (· ≠ [])).map fun field =>
    (unquotePlus lib (Text.partition '=' field).1, (Text.partition '=' field).2.2)

/-- A value that contains digits and signs only is cast to an integer. -/
def documentedValue (v : Text) : ParameterValue :=
  match Text.plainInt v with
  | some z => .int z
  | none => .str v

/-- A URL specification that can be read, and does not say anything twice. -/
structure IsURL (lib : Stdlib) (s : Text) (parts : SplitResult) : Prop where
  parse : urlparse lib s = .ok parts
  scheme : parts.scheme ≠ []
  port : ∃ port, readPort lib
    (Text.partition ':' (Text.rpartition '@' parts.netloc).2.2).2.2 = .ok port
  names : ((queryFields lib parts.query).map Prod.fst).Nodup

/-- **Each parameter of the query is there, with the documented value.** -/
def ConvertsAsDocumented (lib : Stdlib) (s : Text) (query : Text) : Prop :=
  ∃ r ps, urlSpecificationToDict lib s = .ok r ∧ r.parameters = some ps ∧ ∀ name,
    ps.lookup name =
      ((queryFields lib query).lookup name).map fun raw => documentedValue (unquotePlus lib raw)

/-- The value is not blank, and `int()` reads it only if it is digits and a sign. -/
structure IsStrict (lib : Stdlib) (raw : Text) : Prop where
  ne_nil : raw ≠ []
  short : (Text.plainInt (unquotePlus lib raw)).isSome = true →
    Text.IsShort lib.maxDigits (unquotePlus lib raw)
  strict : Text.plainInt (unquotePlus lib raw) = none → int lib (unquotePlus lib raw) = none

/-! ## What is read -/

theorem isAscii_of_plainNat {n : ℕ} (h : Text.plainNat s = some n) :
    ∀ c ∈ s, isAscii c = true := fun c hc =>
  isAscii_of_isVisible (isVisible_of_isDigit ((Text.plainNat_eq_some h).2.1 c hc))

theorem int_of_plainInt {z : ℤ} (h : Text.plainInt s = some z) :
    int lib s = if Text.IsShort lib.maxDigits s then some z else none := by
  have hascii : ∀ c ∈ s, isAscii c = true := by
    obtain ⟨n, ⟨t, rfl, ht, -⟩ | ⟨t, rfl, ht, -⟩ | ⟨hs, -⟩⟩ := Text.plainInt_eq_some h
    · exact List.forall_mem_cons.mpr ⟨rfl, isAscii_of_plainNat ht⟩
    · exact List.forall_mem_cons.mpr ⟨rfl, isAscii_of_plainNat ht⟩
    · exact isAscii_of_plainNat hs
  rw [int_of_isAscii hascii, Text.parseInt_of_plainInt h]

/-- When a value is what it should be. -/
theorem readValue_eq_documented {v : Text} : readValue lib v = documentedValue v ↔
    ((Text.plainInt v).isSome = true → Text.IsShort lib.maxDigits v) ∧
      (Text.plainInt v = none → int lib v = none) := by
  cases hplain : Text.plainInt v with
  | some z =>
    by_cases hshort : Text.IsShort lib.maxDigits v <;>
      simp [readValue, documentedValue, hplain, int_of_plainInt hplain, hshort]
  | none => cases hint : int lib v <;> simp [readValue, documentedValue, hplain, hint]

/-- What becomes of a value. -/
def readField (lib : Stdlib) (raw : Text) : Option ParameterValue :=
  if raw = [] then none else some (readValue lib (unquotePlus lib raw))

theorem readField_eq_documented {raw : Text} :
    readField lib raw = some (documentedValue (unquotePlus lib raw)) ↔ IsStrict lib raw := by
  unfold readField
  split
  · next hnil => exact iff_of_false (by simp) fun h => h.ne_nil hnil
  · next hne =>
    rw [Option.some_inj, readValue_eq_documented]
    exact ⟨fun h => ⟨hne, h.1, h.2⟩, fun h => ⟨h.short, h.strict⟩⟩

/-- `parse_qsl()` drops the blank fields and the blank values. -/
theorem parseQsl_eq (lib : Stdlib) (query : Text) :
    parseQsl lib query =
      ((queryFields lib query).filter (·.2 ≠ [])).map fun p => (p.1, unquotePlus lib p.2) := by
  rw [parseQsl, queryFields]
  induction query.splitOn '&' with
  | nil => rfl
  | cons field fields ih =>
    by_cases hfield : field = []
    · simpa [hfield, Text.partition] using ih
    · by_cases hvalue : (Text.partition '=' field).2.2 = [] <;> simpa [hfield, hvalue] using ih

theorem readParameters_queryFields {query : Text}
    (h : ((queryFields lib query).map Prod.fst).Nodup) :
    readParameters lib query =
      .ok ((queryFields lib query).filterMap fun p => (readField lib p.2).map (p.1, ·)) := by
  have hnodup : ((parseQsl lib query).map Prod.fst).Nodup := by
    rw [parseQsl_eq, List.map_map]
    exact h.sublist (List.filter_sublist.map _)
  rw [readParameters_eq (parseQs_of_nodup hnodup), parseQsl_eq]
  clear hnodup h
  induction queryFields lib query with
  | nil => rfl
  | cons p fields ih => by_cases hp : p.2 = [] <;> simpa [readField, hp] using ih

/-- **The parameters of a URL.** -/
theorem IsURL.read (h : IsURL lib s parts) :
    ∃ r, urlSpecificationToDict lib s = .ok r ∧ r.parameters =
      some ((queryFields lib parts.query).filterMap fun p =>
        (readField lib p.2).map (p.1, ·)) := by
  obtain ⟨port, hport⟩ := h.port
  rw [urlSpecificationToDict, h.parse]
  simp only [h.scheme, if_false, ofParts, hport, readParameters_queryFields h.names]
  exact ⟨_, rfl, rfl⟩

/-- **Each parameter of a URL is there as documented exactly if none of the values is blank, none
that is digits and a sign has too many digits, and `int()` reads no other.** -/
theorem converts_iff (lib : Stdlib) (s : Text) (parts : SplitResult) (h : IsURL lib s parts) :
    ConvertsAsDocumented lib s parts.query ↔
      ∀ p ∈ queryFields lib parts.query, IsStrict lib p.2 := by
  obtain ⟨r, hr, hps⟩ := h.read
  have hconverts : ConvertsAsDocumented lib s parts.query ↔ ∀ name,
      ((queryFields lib parts.query).lookup name).bind (readField lib) =
        ((queryFields lib parts.query).lookup name).map fun raw =>
          documentedValue (unquotePlus lib raw) := by
    simp only [← lookup_filterMap h.names]
    constructor
    · rintro ⟨r', ps, hr', hps', hall⟩ name
      obtain rfl := Except.ok.inj (hr.symm.trans hr')
      obtain rfl := Option.some.inj (hps.symm.trans hps')
      exact hall name
    · exact fun hall => ⟨r, _, hr, hps, hall⟩
  rw [hconverts]
  constructor
  · intro hall p hp
    have hfield := hall p.1
    rw [lookup_of_mem h.names hp] at hfield
    exact readField_eq_documented.mp hfield
  · intro hall name
    cases hname : (queryFields lib parts.query).lookup name with
    | none => rfl
    | some raw => exact readField_eq_documented.mpr (hall (name, raw) (mem_of_lookup hname))

/-- `x:?n=-1&s=a%20b` is read as documented. -/
theorem converts_text :
    ConvertsAsDocumented ⟨some 4300, id, fun _ => false, fun _ => true, fun _ => []⟩
      "x:?n=-1&s=a%20b".toList "n=-1&s=a%20b".toList := by
  refine (converts_iff _ _ ⟨"x".toList, [], [], "n=-1&s=a%20b".toList⟩ ?_).mpr ?_
  · exact ⟨rfl, by decide, ⟨none, rfl⟩, by decide⟩
  · refine List.forall_mem_cons.mpr ⟨⟨by decide, by decide, by decide⟩, ?_⟩
    exact List.forall_mem_singleton.mpr ⟨by decide, by decide, by decide⟩

/-- A blank parameter is dropped: `x:?a=`. -/
theorem blank_dropped : ¬ ∀ lib s parts, IsURL lib s parts →
    ConvertsAsDocumented lib s parts.query := by
  intro h
  let lib : Stdlib := ⟨some 4300, id, fun _ => false, fun _ => true, fun _ => []⟩
  have hurl : IsURL lib "x:?a=".toList ⟨"x".toList, [], [], "a=".toList⟩ :=
    ⟨rfl, by decide, ⟨none, rfl⟩, by decide⟩
  have hstrict := (converts_iff lib _ _ hurl).mp (h lib _ _ hurl)
  exact (hstrict ("a".toList, []) (by decide)).ne_nil rfl

end Specification

end FlockwaveConn
