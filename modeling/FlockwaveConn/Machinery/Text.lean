import Mathlib.Data.List.Basic
import Mathlib.Data.List.DropRight
import Mathlib.Tactic

/-!
# Machinery/Text — text, cut at a character, and numbers in it

A `Text` is a list of code points.  `partition` and `rpartition` cut at the first and at the last
occurrence of a character, and `parseInt` reads an integer the way `int()` does: white space around
it, a sign, and digits with single underscores between them.
-/

/-- A `str`. -/
abbrev Text := List Char

namespace Text

variable {x : Char} {a b s : Text}

/-! ## Cutting -/

/-- `s.partition(x)`: what is before the first `x`, whether there is one, and what is after it. -/
def partition (x : Char) : Text → Text × Bool × Text
  | [] => ([], false, [])
  | c :: s =>
    if c = x then ([], true, s)
    else (c :: (partition x s).1, (partition x s).2)

/-- `s.rpartition(x)`, at the last `x`; without one all of `s` is after it. -/
def rpartition (x : Char) (s : Text) : Text × Bool × Text :=
  match partition x s.reverse with
  | (after, true, before) => (before.reverse, true, after.reverse)
  | _ => ([], false, s)

theorem partition_append (h : x ∉ a) (b : Text) : partition x (a ++ x :: b) = (a, true, b) := by
  induction a with
  | nil => simp [partition]
  | cons c a ih =>
    obtain ⟨hc, ha⟩ : x ≠ c ∧ x ∉ a := by simpa using h
    simp [partition, Ne.symm hc, ih ha]

theorem partition_of_not_mem (h : x ∉ s) : partition x s = (s, false, []) := by
  induction s with
  | nil => rfl
  | cons c s ih =>
    obtain ⟨hc, hs⟩ : x ≠ c ∧ x ∉ s := by simpa using h
    simp [partition, Ne.symm hc, ih hs]

/-- What is before the first `x` has no `x` in it. -/
theorem not_mem_partition (x : Char) (s : Text) : x ∉ (partition x s).1 := by
  induction s with
  | nil => simp [partition]
  | cons c s ih =>
    by_cases hc : c = x
    · simp [partition, hc]
    · simp [partition, hc, Ne.symm hc, ih]

theorem rpartition_append (h : x ∉ b) (a : Text) : rpartition x (a ++ x :: b) = (a, true, b) := by
  have hrev : (a ++ x :: b).reverse = b.reverse ++ x :: a.reverse := by simp
  rw [rpartition, hrev, partition_append (by simpa using h)]
  simp

theorem rpartition_of_not_mem (h : x ∉ s) : rpartition x s = ([], false, s) := by
  rw [rpartition, partition_of_not_mem (by simpa using h)]

/-- What is in a text that has been put together. -/
theorem mem_intercalate {c : Char} {ls : List Text} (h : c ∈ List.intercalate [x] ls) :
    c = x ∨ ∃ l ∈ ls, c ∈ l := by
  induction ls with
  | nil => simp at h
  | cons l ls ih =>
    by_cases hne : ls = []
    · subst hne
      exact .inr ⟨l, by simp, by simpa using h⟩
    rw [List.intercalate_cons_of_ne_nil hne] at h
    have hcases : c ∈ l ∨ c = x ∨ c ∈ List.intercalate [x] ls := by simpa using h
    obtain hl | hx | hrest := hcases
    · exact .inr ⟨l, by simp, hl⟩
    · exact .inl hx
    · obtain hx | ⟨m, hm, hc⟩ := ih hrest
      · exact .inl hx
      · exact .inr ⟨m, List.mem_cons_of_mem l hm, hc⟩

theorem mem_intercalate_of_mem {c : Char} {ls : List Text} {l : Text} (hl : l ∈ ls) (hc : c ∈ l) :
    c ∈ List.intercalate [x] ls := by
  induction ls with
  | nil => cases hl
  | cons m ls ih =>
    by_cases hne : ls = []
    · subst hne
      obtain rfl := List.mem_singleton.mp hl
      simpa using hc
    rw [List.intercalate_cons_of_ne_nil hne]
    obtain rfl | hl := List.mem_cons.mp hl
    · simp [hc]
    · simp [ih hl]

/-! ## Integers -/

/-- The digits of a number, where single underscores may stand between them. -/
def digits : Text → Option Text
  | [] => none
  | [c] => if c.isDigit then some [c] else none
  | c :: '_' :: s => if c.isDigit then (digits s).map (c :: ·) else none
  | c :: s => if c.isDigit then (digits s).map (c :: ·) else none

/-- White space, for `int()` (and for `isspace()` in C). -/
def isSpace (c : Char) : Bool := c.toNat = 32 || 9 ≤ c.toNat && c.toNat ≤ 13

/-- `s.strip()`, of the white space that `int()` passes over. -/
def strip (s : Text) : Text := (s.dropWhile isSpace).rdropWhile isSpace

/-- A number without a sign; the interpreter may set a limit to the digits it has. -/
def parseNat (maxDigits : Option ℕ) (s : Text) : Option ℕ :=
  (digits s).bind fun ds =>
    if ∀ m ∈ maxDigits, ds.length ≤ m then some (Nat.ofDigitChars 10 ds 0) else none

/-- `int(s)` -/
def parseInt (maxDigits : Option ℕ) (s : Text) : Option ℤ :=
  match strip s with
  | '+' :: s => (parseNat maxDigits s).map Nat.cast
  | '-' :: s => (parseNat maxDigits s).map fun (n : ℕ) => -(n : ℤ)
  | s => (parseNat maxDigits s).map Nat.cast

/-- `str(z)` -/
def ofInt : ℤ → Text
  | .ofNat n => Nat.toDigits 10 n
  | .negSucc n => '-' :: Nat.toDigits 10 (n + 1)

theorem ofInt_ne_nil (z : ℤ) : ofInt z ≠ [] := by
  cases z with
  | ofNat n => exact Nat.toDigits_ne_nil
  | negSucc n => exact List.cons_ne_nil _ _

/-- The number has no more digits than the limit allows. -/
def Fits (maxDigits : Option ℕ) (z : ℤ) : Prop :=
  ∀ m ∈ maxDigits, (Nat.toDigits 10 z.natAbs).length ≤ m

instance (maxDigits : Option ℕ) (z : ℤ) : Decidable (Fits maxDigits z) :=
  inferInstanceAs (Decidable (∀ m ∈ maxDigits, (Nat.toDigits 10 z.natAbs).length ≤ m))

/-- Digits alone are a number. -/
theorem digits_of_isDigit (hne : s ≠ []) (h : ∀ c ∈ s, c.isDigit = true) : digits s = some s := by
  induction s with
  | nil => exact absurd rfl hne
  | cons c s ih =>
    have hc := h c List.mem_cons_self
    cases s with
    | nil => simp [digits, hc]
    | cons d s =>
      have hs : ∀ e ∈ d :: s, e.isDigit = true := fun e he => h e (List.mem_cons_of_mem c he)
      have hd : d ≠ '_' := by
        rintro rfl
        exact absurd (hs '_' List.mem_cons_self) (by decide)
      rw [digits, if_pos hc, ih (by simp) hs]
      · rfl
      · simp
      · exact fun _ hu => hd (List.cons.inj hu).1

/-- A text without white space at its ends. -/
theorem strip_of_forall (h : ∀ c ∈ s, isSpace c = false) : strip s = s := by
  have hdrop : s.dropWhile isSpace = s := by
    cases s with
    | nil => rfl
    | cons c s => simp [h c List.mem_cons_self]
  rw [strip, hdrop, List.rdropWhile_eq_self_iff]
  exact fun hne => by simp [h _ (List.getLast_mem hne)]

theorem isSpace_of_isDigit {c : Char} (h : c.isDigit = true) : isSpace c = false := by
  have hc : 48 ≤ c.toNat := (Char.isDigit_iff_toNat.mp h).1
  simp only [isSpace, Bool.or_eq_false_iff, Bool.and_eq_false_iff, decide_eq_false_iff_not]
  omega

theorem isDigit_of_mem_toDigits {n : ℕ} : ∀ c ∈ Nat.toDigits 10 n, c.isDigit = true :=
  fun _ hc => Nat.isDigit_of_mem_toDigits (by decide) (by decide) hc

theorem parseNat_toDigits (maxDigits : Option ℕ) (n : ℕ) :
    parseNat maxDigits (Nat.toDigits 10 n) =
      if ∀ m ∈ maxDigits, (Nat.toDigits 10 n).length ≤ m then some n else none := by
  rw [parseNat, digits_of_isDigit Nat.toDigits_ne_nil isDigit_of_mem_toDigits]
  simp

/-! ### Digits and signs only -/

/-- The number that a text of decimal digits denotes. -/
def plainNat (s : Text) : Option ℕ :=
  if s ≠ [] ∧ s.all Char.isDigit = true then some (Nat.ofDigitChars 10 s 0) else none

/-- The integer that a text of an optional sign and decimal digits denotes. -/
def plainInt : Text → Option ℤ
  | '+' :: s => (plainNat s).map Nat.cast
  | '-' :: s => (plainNat s).map fun (n : ℕ) => -(n : ℤ)
  | s => (plainNat s).map Nat.cast

/-- The number of digits is within the limit. -/
def IsShort (maxDigits : Option ℕ) (s : Text) : Prop := ∀ m ∈ maxDigits, s.countP Char.isDigit ≤ m

instance (maxDigits : Option ℕ) (s : Text) : Decidable (IsShort maxDigits s) :=
  inferInstanceAs (Decidable (∀ m ∈ maxDigits, s.countP Char.isDigit ≤ m))

theorem plainNat_eq_some {n : ℕ} (h : plainNat s = some n) :
    s ≠ [] ∧ (∀ c ∈ s, c.isDigit = true) ∧ n = Nat.ofDigitChars 10 s 0 := by
  unfold plainNat at h
  obtain ⟨hs, hn⟩ := Option.ite_none_right_eq_some.mp h
  exact ⟨hs.1, List.all_eq_true.mp hs.2, (Option.some.inj hn).symm⟩

theorem parseNat_of_plainNat {maxDigits : Option ℕ} {n : ℕ} (h : plainNat s = some n) :
    parseNat maxDigits s = if IsShort maxDigits s then some n else none := by
  obtain ⟨hne, hdigit, rfl⟩ := plainNat_eq_some h
  rw [parseNat, digits_of_isDigit hne hdigit]
  simp [IsShort, List.countP_eq_length.mpr hdigit]

/-- What a text of an optional sign and digits looks like. -/
theorem plainInt_eq_some {z : ℤ} (h : plainInt s = some z) :
    ∃ n, (∃ t, s = '+' :: t ∧ plainNat t = some n ∧ z = n) ∨
      (∃ t, s = '-' :: t ∧ plainNat t = some n ∧ z = -n) ∨ plainNat s = some n ∧ z = n := by
  unfold plainInt at h
  split at h
  · obtain ⟨n, hn, rfl⟩ := Option.map_eq_some_iff.mp h
    exact ⟨n, .inl ⟨_, rfl, hn, rfl⟩⟩
  · obtain ⟨n, hn, rfl⟩ := Option.map_eq_some_iff.mp h
    exact ⟨n, .inr (.inl ⟨_, rfl, hn, rfl⟩)⟩
  · obtain ⟨n, hn, rfl⟩ := Option.map_eq_some_iff.mp h
    exact ⟨n, .inr (.inr ⟨hn, rfl⟩)⟩

/-- **`int()` of digits and a sign**, within the limit. -/
theorem parseInt_of_plainInt {maxDigits : Option ℕ} {z : ℤ} (h : plainInt s = some z) :
    parseInt maxDigits s = if IsShort maxDigits s then some z else none := by
  have hsigned : ∀ x t n, isSpace x = false → plainNat t = some n → strip (x :: t) = x :: t :=
    fun x t n hx ht => strip_of_forall <| List.forall_mem_cons.mpr
      ⟨hx, fun c hc => isSpace_of_isDigit ((plainNat_eq_some ht).2.1 c hc)⟩
  have hshort : ∀ x t, x.isDigit = false → (IsShort maxDigits (x :: t) ↔ IsShort maxDigits t) := by
    intro x t hx
    rw [IsShort, IsShort, List.countP_cons_of_neg (by simp [hx])]
  obtain ⟨n, ⟨t, rfl, ht, rfl⟩ | ⟨t, rfl, ht, rfl⟩ | ⟨hs, rfl⟩⟩ := plainInt_eq_some h
  · rw [parseInt, hsigned '+' t n rfl ht]
    simp only [parseNat_of_plainNat ht, hshort '+' t rfl, apply_ite (Option.map _)]
    rfl
  · rw [parseInt, hsigned '-' t n rfl ht]
    simp only [parseNat_of_plainNat ht, hshort '-' t rfl, apply_ite (Option.map _)]
    rfl
  · obtain ⟨-, hdigit, -⟩ := plainNat_eq_some hs
    rw [parseInt, strip_of_forall fun c hc => isSpace_of_isDigit (hdigit c hc)]
    split
    · exact absurd (hdigit '+' List.mem_cons_self) (by decide)
    · exact absurd (hdigit '-' List.mem_cons_self) (by decide)
    · rw [parseNat_of_plainNat hs, apply_ite (Option.map _)]
      rfl

/-- **`int(str(z))` is `z`**, within the limit. -/
theorem parseInt_ofInt (maxDigits : Option ℕ) (z : ℤ) :
    parseInt maxDigits (ofInt z) = if Fits maxDigits z then some z else none := by
  cases z with
  | ofNat n =>
    have hstrip : strip (Nat.toDigits 10 n) = Nat.toDigits 10 n :=
      strip_of_forall fun c hc => isSpace_of_isDigit (isDigit_of_mem_toDigits c hc)
    rw [ofInt, parseInt, hstrip]
    split
    · next s hs => exact absurd (isDigit_of_mem_toDigits (n := n) '+' (by simp [hs])) (by decide)
    · next s hs => exact absurd (isDigit_of_mem_toDigits (n := n) '-' (by simp [hs])) (by decide)
    · rw [parseNat_toDigits, apply_ite (Option.map _)]
      rfl
  | negSucc n =>
    have hstrip : strip ('-' :: Nat.toDigits 10 (n + 1)) = '-' :: Nat.toDigits 10 (n + 1) := by
      refine strip_of_forall fun c hc => ?_
      rcases List.mem_cons.mp hc with rfl | hc
      · decide
      · exact isSpace_of_isDigit (isDigit_of_mem_toDigits c hc)
    rw [ofInt, parseInt, hstrip]
    simp only [parseNat_toDigits, apply_ite (Option.map _)]
    rfl

end Text
