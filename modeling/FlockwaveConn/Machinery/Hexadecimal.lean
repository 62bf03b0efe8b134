import FlockwaveConn.Machinery.Urllib

/-!
# Machinery/Hexadecimal — `int(s, 16)`

A text that `int(s)` reads is also one that `int(s, 16)` reads, and then it makes no difference
whether it is read as it stands or has been through `int()` and `str()` before (`parseHex_ofInt`):
white space, underscores, a `+` and zeros in front do not count in either base.
-/

namespace Text

variable {s t : Text} {m : Option ℕ} {n : ℕ} {z : ℤ}

/-- The characters that are digits, where single underscores may stand between them. -/
def digitsOf (p : Char → Bool) : Text → Option Text
  | [] => none
  | [c] => if p c then some [c] else none
  | c :: '_' :: s => if p c then (digitsOf p s).map (c :: ·) else none
  | c :: s => if p c then (digitsOf p s).map (c :: ·) else none

def isHexDigit (c : Char) : Bool := (Urllib.hexValue c).isSome

def ofHexDigits (ds : Text) : ℕ := ds.foldl (fun n c => 16 * n + (Urllib.hexValue c).getD 0) 0

/-- The prefix `0x`, which an underscore may follow. -/
def dropHexPrefix : Text → Text
  | '0' :: x :: '_' :: s => if x = 'x' ∨ x = 'X' then s else '0' :: x :: '_' :: s
  | '0' :: x :: s => if x = 'x' ∨ x = 'X' then s else '0' :: x :: s
  | s => s

/-- A number without a sign; there is no limit to its digits. -/
def parseHexNat (s : Text) : Option ℕ := (digitsOf isHexDigit (dropHexPrefix s)).map ofHexDigits

/-- `int(s, 16)` -/
def parseHex (s : Text) : Option ℤ :=
  match strip s with
  | '+' :: s => (parseHexNat s).map Nat.cast
  | '-' :: s => (parseHexNat s).map fun (n : ℕ) => -(n : ℤ)
  | s => (parseHexNat s).map Nat.cast

/-! ## Decimal digits in base 16 -/

theorem digitsOf_isDigit (s : Text) : digitsOf Char.isDigit s = digits s := by
  fun_induction digits s <;> simp_all [digitsOf]

theorem digitsOf_mono {p q : Char → Bool} (hpq : ∀ c, p c = true → q c = true) {ds : Text}
    (h : digitsOf p s = some ds) : digitsOf q s = some ds := by
  fun_induction digitsOf p s generalizing ds with
  | case1 | case3 | case5 | case7 => cases h
  | case2 c hc => simpa [digitsOf, hpq c hc] using h
  | case4 c s hc ih =>
    obtain ⟨es, hes, rfl⟩ := Option.map_eq_some_iff.mp h
    rw [digitsOf, if_pos (hpq c hc), ih hes]
    rfl
  | case6 c s hnil hunderscore hc ih =>
    obtain ⟨es, hes, rfl⟩ := Option.map_eq_some_iff.mp h
    rw [digitsOf, if_pos (hpq c hc), ih hes]
    · rfl
    · exact hnil
    · exact hunderscore

theorem digits_eq_some {ds : Text} (h : digits s = some ds) :
    ds ≠ [] ∧ ∀ c ∈ ds, c.isDigit = true := by
  fun_induction digits s generalizing ds with
  | case1 | case3 | case5 | case7 => cases h
  | case2 c hc =>
    obtain rfl := Option.some.inj h
    exact ⟨List.cons_ne_nil _ _, List.forall_mem_singleton.mpr hc⟩
  | case4 c s hc ih | case6 c s _ _ hc ih =>
    obtain ⟨es, hes, rfl⟩ := Option.map_eq_some_iff.mp h
    exact ⟨List.cons_ne_nil _ _, List.forall_mem_cons.mpr ⟨hc, (ih hes).2⟩⟩

theorem isHexDigit_of_isDigit (c : Char) (h : c.isDigit = true) : isHexDigit c = true := by
  rw [isHexDigit, Urllib.hexValue, if_pos h]
  rfl

theorem digits_of_not_isDigit {c : Char} (hc : c.isDigit = false) (s : Text) :
    digits (c :: s) = none := by
  unfold digits
  split <;> simp_all

/-- A number in base 10 has no prefix. -/
theorem dropHexPrefix_of_digits {ds : Text} (h : digits s = some ds) : dropHexPrefix s = s := by
  have hx : ∀ x t, x = 'x' ∨ x = 'X' → digits ('0' :: x :: t) = none := by
    rintro x t (rfl | rfl) <;> simp [digits, digits_of_not_isDigit]
  fun_cases dropHexPrefix s with
  | case1 x t hxx => rw [hx x _ hxx] at h; cases h
  | case2 | case4 | case5 => rfl
  | case3 x t _ hxx => rw [hx x t hxx] at h; cases h

/-! ## Through `int()` and `str()` -/

theorem ofHexDigits_append (ds : Text) (c : Char) :
    ofHexDigits (ds ++ [c]) = 16 * ofHexDigits ds + (Urllib.hexValue c).getD 0 := by
  simp [ofHexDigits]

theorem hexValue_digitChar : ∀ d < 10, Urllib.hexValue d.digitChar = some d := by decide

theorem ofHexDigits_toDigits_step {d : ℕ} (hd : d < 10) (n : ℕ) :
    ofHexDigits (Nat.toDigits 10 (10 * n + d)) = 16 * ofHexDigits (Nat.toDigits 10 n) + d := by
  obtain rfl | hn := Nat.eq_zero_or_pos n
  · have hzero : ofHexDigits (Nat.toDigits 10 0) = 0 := rfl
    rw [Nat.mul_zero, Nat.zero_add, Nat.toDigits_of_lt_base hd, hzero]
    simp [ofHexDigits, hexValue_digitChar d hd]
  · rw [← Nat.toDigits_append_toDigits (by decide) hn hd, Nat.toDigits_of_lt_base hd,
      ofHexDigits_append, hexValue_digitChar d hd]
    rfl

/-- **Zeros in front do not count.** -/
theorem ofHexDigits_toDigits {ds : Text} (h : ∀ c ∈ ds, c.isDigit = true) :
    ofHexDigits (Nat.toDigits 10 (Nat.ofDigitChars 10 ds 0)) = ofHexDigits ds := by
  induction ds using List.reverseRecOn with
  | nil => rfl
  | append_singleton ds c ih =>
    have hc : c.isDigit = true := h c (by simp)
    have hcode : c.toNat ≤ 57 := (Char.isDigit_iff_toNat.mp hc).2
    have hd : c.toNat - '0'.toNat < 10 := by
      change c.toNat - 48 < 10
      omega
    have hvalue : Urllib.hexValue c = some (c.toNat - '0'.toNat) := if_pos hc
    rw [Nat.ofDigitChars_append, Nat.ofDigitChars_cons, Nat.ofDigitChars_nil,
      ofHexDigits_toDigits_step hd, ih fun e he => h e (List.mem_append_left _ he),
      ofHexDigits_append, hvalue]
    rfl

theorem ofDigitChars_lt {ds : Text} (h : ∀ c ∈ ds, c.isDigit = true) :
    Nat.ofDigitChars 10 ds 0 < 10 ^ ds.length := by
  induction ds using List.reverseRecOn with
  | nil => simp
  | append_singleton ds c ih =>
    have hcode : c.toNat ≤ 57 := (Char.isDigit_iff_toNat.mp (h c (by simp))).2
    have hd : c.toNat - '0'.toNat < 10 := by
      change c.toNat - 48 < 10
      omega
    have hds := ih fun e he => h e (List.mem_append_left _ he)
    rw [Nat.ofDigitChars_append, Nat.ofDigitChars_cons, Nat.ofDigitChars_nil, List.length_append,
      List.length_singleton, Nat.pow_succ]
    omega

/-- The number that a decimal number becomes when its digits are read in base 16. -/
def rehex (n : ℕ) : ℕ := ofHexDigits (Nat.toDigits 10 n)

/-- **A number without a sign is read in base 16 as well.** -/
theorem parseHexNat_of_parseNat (h : parseNat m s = some n) :
    parseHexNat s = some (rehex n) ∧ ∀ k ∈ m, (Nat.toDigits 10 n).length ≤ k := by
  obtain ⟨ds, hds, hn⟩ := Option.bind_eq_some_iff.mp h
  obtain ⟨hlen, hn⟩ := Option.ite_none_right_eq_some.mp hn
  obtain rfl := Option.some.inj hn
  obtain ⟨hne, hdigit⟩ := digits_eq_some hds
  constructor
  · rw [parseHexNat, dropHexPrefix_of_digits hds,
      digitsOf_mono isHexDigit_of_isDigit ((digitsOf_isDigit s).trans hds), rehex,
      ofHexDigits_toDigits hdigit]
    rfl
  · intro k hk
    have hpos : 0 < ds.length := List.length_pos_iff.mpr hne
    exact ((Nat.length_toDigits_le_iff (by decide) hpos).mpr (ofDigitChars_lt hdigit)).trans
      (hlen k hk)

theorem sign_mul_rehex (n : ℕ) : (n : ℤ).sign * rehex n = rehex n := by
  cases n with
  | zero => rfl
  | succ n => rw [Int.sign_natCast_of_ne_zero n.succ_ne_zero, one_mul]

/-- **What `int(s, 16)` makes of a text that `int(s)` reads** depends on the number only. -/
theorem parseHex_of_parseInt (h : parseInt m s = some z) :
    parseHex s = some (z.sign * rehex z.natAbs) ∧ Fits m z := by
  unfold parseInt at h
  unfold parseHex
  generalize strip s = t at h ⊢
  split at h
  all_goals
    obtain ⟨n, hn, rfl⟩ := Option.map_eq_some_iff.mp h
    obtain ⟨hhex, hlen⟩ := parseHexNat_of_parseNat hn
    refine ⟨?_, by simpa [Fits] using hlen⟩
    simp only [hhex, Option.map_some, Int.sign_neg, Int.natAbs_neg, Int.natAbs_natCast, neg_mul,
      sign_mul_rehex]

/-- **It makes no difference in base 16 whether a text has been through `int()` and `str()`.** -/
theorem parseHex_ofInt (h : parseInt m s = some z) : parseHex (ofInt z) = parseHex s := by
  have hself : parseInt none (ofInt z) = some z := by
    rw [parseInt_ofInt, if_pos]
    exact fun _ hk => by cases hk
  rw [(parseHex_of_parseInt hself).1, (parseHex_of_parseInt h).1]

end Text

namespace Urllib

/-- `int(s, 16)` of any text. -/
def intHex (lib : Stdlib) (s : Text) : Option ℤ :=
  s.map (fun c => if isAscii c then c else lib.decimal c) |> Text.parseHex

/-- A number that has been read, written and read again in base 16. -/
theorem intHex_ofInt {lib : Stdlib} {s : Text} {z : ℤ} (h : int lib s = some z) :
    intHex lib (Text.ofInt z) = intHex lib s := by
  have hascii : ∀ c ∈ Text.ofInt z, isAscii c = true := fun c hc =>
    isAscii_of_isVisible (isVisible_of_mem_ofInt hc)
  have hmap : (Text.ofInt z).map (fun c => if isAscii c then c else lib.decimal c) =
      Text.ofInt z :=
    (List.map_congr_left fun c hc => if_pos (hascii c hc)).trans (List.map_id _)
  rw [intHex, hmap]
  exact Text.parseHex_ofInt h

end Urllib
