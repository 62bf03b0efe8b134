import FlockwaveConn.Machinery.Urllib
import FlockwaveConn.Middleware.Hexdump

/-!
# Middleware/Restore — from a hex dump back to the bytes

`restore()` looks at a dump line by line: it drops what looks like an address, tells by the columns
which tool the line is from, and reads as many columns as the bytes take up there.

What `hexdump()` writes it reads back, in all but three cases: there is nothing to dump, the last
line consists of one blank, which goes away with the white space around the dump, or the address
has become so long that it is not recognized (`restore_hexdump`).
-/

namespace FlockwaveConn

open Urllib (hexValue)

/-! ## Chunks -/

section

variable {α : Type*} {a xs : List α} {size : ℕ}

@[simp] theorem chunks_nil (size : ℕ) : chunks ([] : List α) size = [] := by simp [chunks]

/-- **The first chunk**, and those of what comes after it. -/
theorem chunks_append (hsize : 0 < size) (ha : a.length = size) (xs : List α) :
    chunks (a ++ xs) size = a :: chunks xs size := by
  have hdiv : (a ++ xs).length / size = xs.length / size + 1 := by
    rw [List.length_append, ha, Nat.add_div_left _ hsize]
  have hmod : (a ++ xs).length % size = xs.length % size := by
    rw [List.length_append, ha, Nat.add_mod_left]
  have hdrop : ∀ i, (a ++ xs).drop ((i + 1) * size) = xs.drop (i * size) := by
    intro i
    rw [Nat.succ_mul, Nat.add_comm, ← List.drop_drop, ← ha, List.drop_left]
  rw [chunks, hdiv, hmod, List.range_succ_eq_map, List.map_cons, List.map_map, chunks, hdrop]
  have hfirst : ((a ++ xs).drop (0 * size)).take size = a := by
    rw [Nat.zero_mul, List.drop_zero, ← ha, List.take_left]
  rw [hfirst, List.cons_append]
  refine congrArg (fun ys => a :: (ys ++ _)) (List.map_congr_left fun i _ => ?_)
  exact congrArg (List.take size) (hdrop i)

/-- What is not more than a chunk is one. -/
theorem chunks_of_le (hne : xs ≠ []) (h : xs.length ≤ size) : chunks xs size = [xs] := by
  have hpos : 0 < xs.length := List.length_pos_of_ne_nil hne
  rcases h.lt_or_eq with hlt | heq
  · simp [chunks, Nat.div_eq_of_lt hlt, Nat.mod_eq_of_lt hlt, hpos.ne']
  · have happ := chunks_append (heq ▸ hpos) heq []
    rwa [List.append_nil, chunks_nil] at happ

/-- **Induction chunk by chunk**, where the last one need not be full. -/
theorem chunks_induction {P : List α → Prop} (hsize : 0 < size) (nil : P [])
    (last : ∀ xs, xs ≠ [] → xs.length ≤ size → P xs)
    (full : ∀ a xs, a.length = size → xs ≠ [] → P xs → P (a ++ xs)) (xs : List α) : P xs := by
  induction hn : xs.length using Nat.strong_induction_on generalizing xs with
  | _ n ih =>
    by_cases hnil : xs = []
    · rwa [hnil]
    by_cases hle : xs.length ≤ size
    · exact last xs hnil hle
    have hlt : size < xs.length := not_le.mp hle
    have hdrop : (xs.drop size).length < n := by
      rw [List.length_drop]
      omega
    have hrest : xs.drop size ≠ [] := fun h => hle (List.drop_eq_nil_iff.mp h)
    rw [← List.take_append_drop size xs]
    exact full _ _ (List.length_take_of_le hlt.le) hrest (ih _ hdrop _ rfl)

theorem chunks_ne_nil (hsize : 0 < size) (hne : xs ≠ []) : chunks xs size ≠ [] := by
  induction xs using chunks_induction hsize with
  | nil => exact absurd rfl hne
  | last xs h hle =>
    rw [chunks_of_le h hle]
    exact List.cons_ne_nil _ _
  | full a xs ha h ih =>
    rw [chunks_append hsize ha]
    exact List.cons_ne_nil _ _

end

/-! ## Two digits a byte -/

/-- A byte in hexadecimal. -/
def hexByte (b : UInt8) : Line := [hexDigit (b.toNat / 16), hexDigit (b.toNat % 16)]

theorem chunks_hexlify_cons (b : UInt8) (d : List UInt8) :
    chunks (hexlify (b :: d)) 2 = hexByte b :: chunks (hexlify d) 2 :=
  chunks_append (a := hexByte b) Nat.zero_lt_two rfl (hexlify d)

@[simp] theorem dump_nil : dump [] = [] := by simp [dump, hexlify]

@[simp] theorem dump_singleton (b : UInt8) : dump [b] = hexByte b := by
  rw [dump, chunks_hexlify_cons]
  simp [hexlify]

theorem dump_cons_cons (b c : UInt8) (d : List UInt8) :
    dump (b :: c :: d) = hexByte b ++ ' ' :: dump (c :: d) := by
  have hne : chunks (hexlify (c :: d)) 2 ≠ [] := by
    rw [chunks_hexlify_cons]
    exact List.cons_ne_nil _ _
  rw [dump, chunks_hexlify_cons, List.intercalate_cons_of_ne_nil hne, List.append_assoc]
  rfl

/-- One dump behind another. -/
theorem dump_append {d d' : List UInt8} (hd : d ≠ []) (hd' : d' ≠ []) :
    dump (d ++ d') = dump d ++ ' ' :: dump d' := by
  induction d with
  | nil => exact absurd rfl hd
  | cons b d ih =>
    cases d with
    | nil =>
      obtain ⟨c, d', rfl⟩ := List.exists_cons_of_ne_nil hd'
      exact (dump_cons_cons b c d').trans (by rw [dump_singleton])
    | cons c d =>
      rw [List.cons_append, List.cons_append, dump_cons_cons, ← List.cons_append,
        ih (List.cons_ne_nil _ _), dump_cons_cons]
      simp

/-- Three columns a byte, but for the last one. -/
theorem length_dump {d : List UInt8} (hd : d ≠ []) : (dump d).length + 1 = 3 * d.length := by
  induction d with
  | nil => exact absurd rfl hd
  | cons b d ih =>
    cases d with
    | nil => simp [hexByte]
    | cons c d =>
      have hlen := ih (List.cons_ne_nil _ _)
      rw [dump_cons_cons]
      simp only [hexByte, List.length_append, List.length_cons, List.length_nil] at hlen ⊢
      omega

/-! ## `restore()` -/

/-- `c.isspace()` -/
def isWhitespace (c : Char) : Bool :=
  let n := c.toNat
  9 ≤ n && n ≤ 13 || 28 ≤ n && n ≤ 32 || n = 0x85 || n = 0xA0 || n = 0x1680 ||
    0x2000 ≤ n && n ≤ 0x200A || n = 0x2028 || n = 0x2029 || n = 0x202F || n = 0x205F || n = 0x3000

/-- What `restore()` raises. -/
inductive RestoreError
  /-- `line[2]`, of a line that is too short. -/
  | indexError
  /-- `bytes.fromhex()` -/
  | valueError
  deriving DecidableEq, Repr

/-- `dehex()`: white space may stand between two bytes. -/
def dehex : Text → Option (List UInt8)
  | [] => some []
  | [c] => if Text.isSpace c then some [] else none
  | c :: d :: s =>
    if Text.isSpace c then dehex (d :: s)
    else
      match hexValue c, hexValue d with
      | some i, some j => (dehex s).map (UInt8.ofNat (16 * i + j) :: ·)
      | _, _ => none

/-- `minhexwidth` -/
def minHexWidth : ℕ := 2 * 16

/-- `bytehexwidth` -/
def byteHexWidth : ℕ := 3 * 16 - 1

/-- `sepstart` -/
def sepStart : ℕ := (2 + 1) * 7 + 2

/-- A line without its address, if it has one. -/
def dropAddress (line : Text) : Text :=
  let addrend := line.idxOf ':'
  if ':' ∈ line ∧ 0 < addrend ∧ addrend < minHexWidth then line.drop (addrend + 1) else line

/-- `hexdata`, by the separator in the middle of a line. -/
def hexData (line : Text) : Text :=
  let sep := (line.drop sepStart).take 3
  if sep.take 2 = [' ', ' '] ∧ sep.drop 2 ≠ [' '] then line.take (byteHexWidth + 1)
  -- Far Manager
  else if sep.drop 2 = [' '] then
    line.take sepStart ++ (line.drop (sepStart + 3)).take (byteHexWidth + 2 - (sepStart + 3))
  -- Scapy, no separator
  else line.take byteHexWidth

/-- The bytes of a line, from its first digit on. -/
def restoreBytes (row : Text) : Except RestoreError (List UInt8) :=
  match row[2]? with
  | none => .error .indexError
  | some c => (dehex (if c = ' ' then hexData row else row)).elim (.error .valueError) .ok

def restoreLine (line : Text) : Except RestoreError (List UInt8) :=
  restoreBytes ((dropAddress line).dropWhile isWhitespace)

/-- `restore()` -/
def restore (dump : Text) : Except RestoreError (List UInt8) :=
  let text := (dump.dropWhile isWhitespace).rdropWhile isWhitespace
  ((text.splitOn '\n').mapM restoreLine).map List.flatten

example : restore "00 11 22 33 44 55 66 77 | 88 99 AA BB CC DD EE FF  ..\"3DUfw........".toList =
    .ok [0x00, 0x11, 0x22, 0x33, 0x44, 0x55, 0x66, 0x77,
      0x88, 0x99, 0xAA, 0xBB, 0xCC, 0xDD, 0xEE, 0xFF] := by decide +kernel

/-! ## Reading digits -/

theorem isSpace_hexDigit : ∀ n < 16, Text.isSpace (hexDigit n) = false := by decide

theorem isWhitespace_hexDigit : ∀ n < 16, isWhitespace (hexDigit n) = false := by decide

theorem hexDigit_ne_blank : ∀ n < 16, hexDigit n ≠ ' ' := by decide

theorem hexValue_upperHexDigit : ∀ n < 16, hexValue (hexDigit n) = some n := by decide

theorem dehex_hexByte_append (b : UInt8) (s : Text) :
    dehex (hexByte b ++ s) = (dehex s).map (b :: ·) := by
  have hb := b.toNat_lt
  have hcode : UInt8.ofNat (16 * (b.toNat / 16) + b.toNat % 16) = b := by
    rw [Nat.div_add_mod]
    exact UInt8.ofNat_toNat
  rw [hexByte]
  simp only [List.cons_append, List.nil_append]
  rw [dehex, isSpace_hexDigit _ (by omega), hexValue_upperHexDigit _ (by omega),
    hexValue_upperHexDigit _ (by omega)]
  simp only [hcode, Bool.false_eq_true, if_false]

@[simp] theorem dehex_blank (s : Text) : dehex (' ' :: s) = dehex s := by
  cases s with
  | nil => rfl
  | cons d s => exact if_pos rfl

theorem dehex_blanks (n : ℕ) : dehex (List.replicate n ' ') = some [] := by
  induction n with
  | zero => rfl
  | succ n ih => rwa [List.replicate_succ, dehex_blank]

/-- **A dump is read to its end**, whatever comes after it. -/
theorem dehex_dump_append (d : List UInt8) (s : Text) :
    dehex (dump d ++ s) = (dehex s).map (d ++ ·) := by
  induction d with
  | nil => simp
  | cons b d ih =>
    cases d with
    | nil =>
      rw [dump_singleton, dehex_hexByte_append]
      rfl
    | cons c d =>
      rw [dump_cons_cons, List.append_assoc, List.cons_append, dehex_hexByte_append, dehex_blank,
        ih, Option.map_map]
      rfl

/-! ## The columns of a line -/

/-- The hexadecimal part of a line, with a wider gap after eight bytes. -/
def hexColumns (d : List UInt8) : Text :=
  (dump d).take (8 * 3) ++ if 8 < d.length then ' ' :: (dump d).drop (8 * 3) else []

theorem hexColumns_of_le {d : List UInt8} (h : d.length ≤ 8) : hexColumns d = dump d := by
  have hlen : (dump d).length ≤ 8 * 3 := by
    by_cases hd : d = []
    · simp [hd]
    · have := length_dump hd
      omega
  rw [hexColumns, if_neg (not_lt.mpr h), List.append_nil, List.take_of_length_le hlen]

/-- Eight bytes, two blanks, and the other bytes. -/
theorem hexColumns_of_lt {d : List UInt8} (h : 8 < d.length) :
    (dump (d.take 8)).length = 23 ∧ d.drop 8 ≠ [] ∧
      hexColumns d = dump (d.take 8) ++ ' ' :: ' ' :: dump (d.drop 8) := by
  have htake : (d.take 8).length = 8 := List.length_take_of_le h.le
  have hne : d.take 8 ≠ [] := List.ne_nil_of_length_pos (by omega)
  have hlen : (dump (d.take 8)).length = 23 := by
    have := length_dump hne
    omega
  have hdrop : d.drop 8 ≠ [] := List.ne_nil_of_length_pos (by rw [List.length_drop]; omega)
  have hdump : dump d = (dump (d.take 8) ++ [' ']) ++ dump (d.drop 8) := by
    rw [← List.take_append_drop 8 d, dump_append hne hdrop, List.take_append_drop]
    simp
  have hlen' : (dump (d.take 8) ++ [' ']).length = 8 * 3 := by simp [hlen]
  refine ⟨hlen, hdrop, ?_⟩
  rw [hexColumns, if_pos h, hdump, ← hlen', List.take_left, List.drop_left]
  simp

theorem length_hexColumns {d : List UInt8} (hne : d ≠ []) :
    (hexColumns d).length + (if 8 < d.length then 0 else 1) = 3 * d.length := by
  split
  · next h =>
    obtain ⟨hlen, hdrop, hcols⟩ := hexColumns_of_lt h
    have hrest := length_dump hdrop
    rw [List.length_drop] at hrest
    rw [hcols]
    simp only [List.length_append, List.length_cons, hlen]
    omega
  · next h =>
    rw [hexColumns_of_le (not_lt.mp h)]
    exact length_dump hne

theorem dehex_hexColumns_append (d : List UInt8) (s : Text) :
    dehex (hexColumns d ++ s) = (dehex s).map (d ++ ·) := by
  by_cases h : 8 < d.length
  · rw [(hexColumns_of_lt h).2.2, List.append_assoc, dehex_dump_append]
    simp only [List.cons_append, dehex_blank, dehex_dump_append, Option.map_map]
    refine congrArg (fun f => Option.map f (dehex s)) (funext fun x => ?_)
    rw [Function.comp_apply, ← List.append_assoc, List.take_append_drop]
  · rw [hexColumns_of_le (not_lt.mp h), dehex_dump_append]

/-- A line behind its address: the columns, padded to fifty, and the characters. -/
def row (d : List UInt8) : Text :=
  hexColumns d ++ List.replicate (50 - (hexColumns d).length) ' ' ++ d.map printable

/-- **A line behind its address** is a blank and a row. -/
theorem dumpText_eq {d : List UInt8} (hne : d ≠ []) (hle : d.length ≤ 16) :
    dumpText d = ' ' :: row d := by
  have hlen := length_hexColumns hne
  have hpos := List.length_pos_of_ne_nil hne
  have hpad : 2 + (if d.length < 16 then 3 * (16 - d.length) else 0) +
      (if d.length ≤ 8 then 1 else 0) = 50 - (hexColumns d).length := by
    split_ifs at hlen ⊢ <;> omega
  rw [dumpText, hpad, row, hexColumns]
  simp

/-! ## One line read back -/

/-- A dump begins with a digit. -/
theorem dump_eq_cons {d : List UInt8} (hne : d ≠ []) :
    ∃ n < 16, ∃ s, dump d = hexDigit n :: s := by
  obtain ⟨b, d, rfl⟩ := List.exists_cons_of_ne_nil hne
  have hb := b.toNat_lt
  cases d with
  | nil => exact ⟨b.toNat / 16, by omega, _, dump_singleton b⟩
  | cons c d => exact ⟨b.toNat / 16, by omega, _, dump_cons_cons b c d⟩

/-- What ends before the separator is read as it is. -/
theorem hexData_of_length_le {row : Text} (h : row.length ≤ sepStart) : hexData row = row := by
  have hlen : row.length ≤ byteHexWidth := h.trans (by decide)
  rw [hexData, List.drop_eq_nil_of_le h]
  exact List.take_of_length_le hlen

/-- **Up to eight bytes**, padded with blanks, look as if there was a separator. -/
theorem dehex_hexData_of_le {d : List UInt8} (hne : d ≠ []) (hle : d.length ≤ 8) (s : Text) :
    dehex (hexData (hexColumns d ++ List.replicate (50 - (hexColumns d).length) ' ' ++ s)) =
      some d := by
  have hlen := length_hexColumns hne
  rw [if_neg (not_lt.mpr hle)] at hlen
  set H := hexColumns d with hH
  set pad := List.replicate (sepStart - H.length) ' '
  set gap : Text := [' ', ' ', ' ']
  set rest := List.replicate 24 ' ' ++ s
  have hblank : List.replicate (50 - H.length) ' ' = pad ++ (gap ++ List.replicate 24 ' ') := by
    have hcount : 50 - H.length = (sepStart - H.length) + 27 := by
      simp only [sepStart]
      omega
    rw [hcount, ← List.replicate_append_replicate]
    rfl
  have hfirst : (H ++ pad).length = sepStart := by
    simp only [pad, List.length_append, List.length_replicate, sepStart]
    omega
  have hrow : H ++ List.replicate (50 - H.length) ' ' ++ s = (H ++ pad) ++ (gap ++ rest) := by
    simp only [hblank, rest, List.append_assoc]
  have hdata : hexData ((H ++ pad) ++ (gap ++ rest)) = (H ++ pad) ++ List.replicate 23 ' ' := by
    rw [hexData, ← hfirst, List.drop_left, ← List.drop_drop, List.drop_left, List.take_left, hfirst]
    rfl
  rw [hrow, hdata, List.append_assoc, dehex_hexColumns_append, List.replicate_append_replicate,
    dehex_blanks]
  simp

/-- **More than eight bytes** have two blanks in the middle, and are read up to a fixed column. -/
theorem dehex_hexData_of_lt {d : List UInt8} (h : 8 < d.length) (hle : d.length ≤ 16) {s : Text}
    (hs : dehex (s.take (byteHexWidth + 1 - (hexColumns d).length)) = some []) :
    dehex (hexData (hexColumns d ++ s)) = some d := by
  obtain ⟨hfirst, hdrop, hcols⟩ := hexColumns_of_lt h
  obtain ⟨n, hn, rest, hrest⟩ := dump_eq_cons hdrop
  have hsep : ((hexColumns d ++ s).drop sepStart).take 3 = [' ', ' ', hexDigit n] := by
    have hstart : sepStart = (dump (d.take 8)).length := hfirst.symm
    rw [hcols, List.append_assoc, hstart, List.drop_left, hrest]
    rfl
  have hdata : hexData (hexColumns d ++ s) = (hexColumns d ++ s).take (byteHexWidth + 1) := by
    rw [hexData, hsep]
    exact if_pos ⟨rfl, by simpa using hexDigit_ne_blank n hn⟩
  have hwidth : (hexColumns d).length ≤ byteHexWidth + 1 := by
    have hlen := length_hexColumns (List.ne_nil_of_length_pos (Nat.zero_lt_of_lt h))
    rw [if_pos h] at hlen
    simp only [byteHexWidth]
    omega
  rw [hdata, List.take_append, List.take_of_length_le hwidth, dehex_hexColumns_append, hs]
  simp

section

variable {d : List UInt8}

/-- The third column is blank if there is a second byte. -/
theorem getElem?_hexColumns_append (h : 2 ≤ d.length) (s : Text) :
    (hexColumns d ++ s)[2]? = some ' ' := by
  match d, h with
  | b :: c :: d, _ => simp [hexColumns, dump_cons_cons, hexByte]

/-- A line in columns is read by its columns. -/
theorem restoreBytes_of_blank {row : Text} (hthird : row[2]? = some ' ')
    (hdata : dehex (hexData row) = some d) : restoreBytes row = .ok d := by
  rw [restoreBytes, hthird]
  simp only [if_true, hdata, Option.elim_some]

/-- **A line with its characters** is read back. -/
theorem restoreBytes_padded (hne : d ≠ []) (hle : d.length ≤ 16) (s : Text) :
    restoreBytes (hexColumns d ++ List.replicate (50 - (hexColumns d).length) ' ' ++ s) =
      .ok d := by
  have hdata : dehex (hexData (hexColumns d ++
      List.replicate (50 - (hexColumns d).length) ' ' ++ s)) = some d := by
    by_cases h : 8 < d.length
    · rw [List.append_assoc]
      refine dehex_hexData_of_lt h hle ?_
      have hpad : byteHexWidth + 1 - (hexColumns d).length ≤
          (List.replicate (50 - (hexColumns d).length) ' ').length := by
        simp only [byteHexWidth, List.length_replicate]
        omega
      rw [List.take_append_of_le_length hpad, List.take_replicate, dehex_blanks]
    · exact dehex_hexData_of_le hne (not_lt.mp h) s
  have hthird : (hexColumns d ++ List.replicate (50 - (hexColumns d).length) ' ' ++ s)[2]? =
      some ' ' := by
    by_cases h : 2 ≤ d.length
    · rw [List.append_assoc]
      exact getElem?_hexColumns_append h _
    · obtain ⟨b, rfl⟩ : ∃ b, d = [b] :=
        List.length_eq_one_iff.mp (by have := List.length_pos_of_ne_nil hne; omega)
      rw [hexColumns_of_le (by simp), dump_singleton]
      rfl
  exact restoreBytes_of_blank hthird hdata

/-- **A line without characters** is read back if it has two bytes. -/
theorem restoreBytes_bare (h : 2 ≤ d.length) (hle : d.length ≤ 16) :
    restoreBytes (hexColumns d) = .ok d := by
  have hne : d ≠ [] := List.ne_nil_of_length_pos (Nat.zero_lt_of_lt h)
  have hnil : dehex [] = some [] := rfl
  have hdata : dehex (hexData (hexColumns d)) = some d := by
    by_cases hlt : 8 < d.length
    · rw [← List.append_nil (hexColumns d)]
      exact dehex_hexData_of_lt hlt hle (by rw [List.take_nil, hnil])
    · have hlen := length_hexColumns hne
      rw [if_neg hlt] at hlen
      have hshort : (hexColumns d).length ≤ sepStart := by
        simp only [sepStart]
        omega
      have hdehex := dehex_hexColumns_append d []
      rw [List.append_nil] at hdehex
      rw [hexData_of_length_le hshort, hdehex, hnil]
      simp
  have hthird := getElem?_hexColumns_append h []
  rw [List.append_nil] at hthird
  exact restoreBytes_of_blank hthird hdata

end

/-! ## Addresses -/

theorem mem_hexAddress {a : ℕ} {c : Char} (hc : c ∈ hexAddress a) : ∃ n < 16, c = hexDigit n := by
  rcases List.mem_append.mp hc with h | h
  · exact ⟨0, by norm_num, List.eq_of_mem_replicate h⟩
  · obtain ⟨n, hn, rfl⟩ := List.mem_map.mp h
    exact ⟨n, Nat.digits_lt_base (by norm_num) (List.mem_reverse.mp hn), rfl⟩

theorem length_hexAddress_lt_iff {a : ℕ} : (hexAddress a).length < minHexWidth ↔ a < 16 ^ 31 := by
  have hdigits : (Nat.digits 16 a).length ≤ 31 ↔ a < 16 ^ 31 :=
    Nat.digits_length_le_iff (by norm_num) a
  rw [← hdigits, hexAddress, List.length_leftpad, List.length_map, List.length_reverse, minHexWidth]
  omega

/-- The first colon is the one behind the address. -/
theorem idxOf_hexAddress_append (a : ℕ) (s : Text) :
    (hexAddress a ++ ':' :: s).idxOf ':' = (hexAddress a).length := by
  rw [List.idxOf_append, if_neg (colon_notMem_hexAddress a), List.idxOf_cons_self, Nat.zero_add]

theorem eight_le_length_hexAddress (a : ℕ) : 8 ≤ (hexAddress a).length := by
  rw [hexAddress, List.length_leftpad]
  exact le_max_left _ _

/-- An address goes away if it is not too long. -/
theorem dropAddress_hexAddress_append (a : ℕ) (s : Text) :
    dropAddress (hexAddress a ++ ':' :: s) =
      if a < 16 ^ 31 then s else hexAddress a ++ ':' :: s := by
  have hpos := eight_le_length_hexAddress a
  have hcolon : ':' ∈ hexAddress a ++ ':' :: s := by simp
  rw [dropAddress, idxOf_hexAddress_append]
  by_cases h : a < 16 ^ 31
  · have hlt := length_hexAddress_lt_iff.mpr h
    rw [if_pos h]
    simp only [hcolon, hlt, true_and, and_true, if_pos (Nat.zero_lt_of_lt hpos)]
    rw [← List.drop_drop, List.drop_left]
    rfl
  · have hlt := mt length_hexAddress_lt_iff.mp h
    rw [if_neg h, if_neg (fun hand => hlt hand.2.2)]

/-- A colon is no digit. -/
theorem dehex_eq_none_of_colon {s : Text} (h : ':' ∈ s) : dehex s = none := by
  have hcolon : hexValue ':' = none := by decide
  induction s using dehex.induct with
  | case1 => cases h
  | case2 c hc =>
    obtain rfl : ':' = c := by simpa using h
    exact absurd hc (by decide)
  | case3 c hc => exact if_neg hc
  | case4 c d s hc ih =>
    rw [dehex, if_pos hc]
    refine ih ?_
    rcases List.mem_cons.mp h with rfl | h
    · exact absurd hc (by decide)
    · exact h
  | case5 c d s hc i j hj hi ih =>
    have hs : ':' ∈ s := by
      rcases List.mem_cons.mp h with rfl | h
      · rw [hcolon] at hi
        cases hi
      rcases List.mem_cons.mp h with rfl | h
      · rw [hcolon] at hj
        cases hj
      · exact h
    rw [dehex, if_neg hc, hi, hj, ih hs]
    rfl
  | case6 c d s hc hdigit =>
    rw [dehex, if_neg hc]
    split
    · next i j hi hj => exact (hdigit i j hi hj).elim
    · rfl

/-- **A line behind its address**: the address is gone, or the line is no hexadecimal text. -/
theorem restoreLine_hexAddress_append (a : ℕ) {row : Text} {n : ℕ} (hn : n < 16)
    (hrow : row.head? = some (hexDigit n)) :
    restoreLine (hexAddress a ++ ':' :: ' ' :: row) =
      if a < 16 ^ 31 then restoreBytes row else .error .valueError := by
  obtain ⟨row, rfl⟩ : ∃ s, row = hexDigit n :: s := by
    cases row with
    | nil => cases hrow
    | cons c s => exact ⟨s, by rw [Option.some.inj hrow]⟩
  rw [restoreLine, dropAddress_hexAddress_append]
  by_cases h : a < 16 ^ 31
  · rw [if_pos h, if_pos h, List.dropWhile_cons_of_pos rfl,
      List.dropWhile_cons_of_neg (by simp [isWhitespace_hexDigit n hn])]
  · rw [if_neg h, if_neg h]
    have hpos := eight_le_length_hexAddress a
    match haddr : hexAddress a, hpos with
    | x :: y :: z :: s, _ =>
      have hdigit : ∀ c ∈ x :: y :: z :: s, ∃ n < 16, c = hexDigit n := by
        intro c hc
        exact mem_hexAddress (haddr ▸ hc)
      obtain ⟨i, hi, rfl⟩ := hdigit x (by simp)
      obtain ⟨k, hk, rfl⟩ := hdigit z (by simp)
      rw [List.cons_append, List.dropWhile_cons_of_neg (by simp [isWhitespace_hexDigit i hi]),
        restoreBytes]
      have hcolon : dehex (hexDigit i :: (y :: hexDigit k :: s ++ ':' :: ' ' ::
          hexDigit n :: row)) = none := dehex_eq_none_of_colon (by simp)
      simp only [List.cons_append, List.getElem?_cons_succ, List.getElem?_cons_zero,
        if_neg (hexDigit_ne_blank k hk)]
      rw [List.cons_append, List.cons_append] at hcolon
      rw [hcolon]
      rfl

/-! ## The white space around a dump -/

theorem printable_cases : ∀ b : UInt8, printable b ≠ '\n' ∧
    (isWhitespace (printable b) = true ↔ b = 0x20) := by
  have h : ∀ n < 256, printable (UInt8.ofNat n) ≠ '\n' ∧
      (isWhitespace (printable (UInt8.ofNat n)) = true ↔ UInt8.ofNat n = 0x20) := by
    decide +kernel
  intro b
  simpa using h b.toNat b.toNat_lt

/-- White space at the end is that of the second part, if there is something else in it. -/
theorem rdropWhile_append_of_ne_nil {α : Type*} {p : α → Bool} {s : List α}
    (hs : s.rdropWhile p ≠ []) (r : List α) : (r ++ s).rdropWhile p = r ++ s.rdropWhile p := by
  have hne : s.reverse.dropWhile p ≠ [] := by simpa [List.rdropWhile] using hs
  rw [List.rdropWhile, List.reverse_append, List.dropWhile_append, if_neg (by simpa using hne),
    List.reverse_append, List.reverse_reverse, List.rdropWhile]

/-- White space at the end goes away, also if it is all there is in the second part. -/
theorem rdropWhile_append_of_forall {α : Type*} {p : α → Bool} {s : List α} (hs : ∀ x ∈ s, p x)
    (r : List α) : (r ++ s).rdropWhile p = r.rdropWhile p := by
  rw [List.rdropWhile, List.reverse_append, List.dropWhile_append_of_pos (by simpa using hs),
    List.rdropWhile]

/-- The columns of a line end with a digit. -/
theorem hexColumns_eq_concat {d : List UInt8} (hne : d ≠ []) :
    ∃ n < 16, ∃ s, hexColumns d = s ++ [hexDigit n] := by
  have hdump : ∀ {d : List UInt8}, d ≠ [] → ∃ n < 16, ∃ s, dump d = s ++ [hexDigit n] := by
    intro d hd
    induction d with
    | nil => exact absurd rfl hd
    | cons b d ih =>
      cases d with
      | nil => exact ⟨b.toNat % 16, by omega, [hexDigit (b.toNat / 16)], dump_singleton b⟩
      | cons c d =>
        obtain ⟨n, hn, s, hs⟩ := ih (List.cons_ne_nil _ _)
        exact ⟨n, hn, hexByte b ++ ' ' :: s, by rw [dump_cons_cons, hs]; simp⟩
  by_cases h : 8 < d.length
  · obtain ⟨-, hdrop, hcols⟩ := hexColumns_of_lt h
    obtain ⟨n, hn, s, hs⟩ := hdump hdrop
    exact ⟨n, hn, dump (d.take 8) ++ ' ' :: ' ' :: s, by rw [hcols, hs]; simp⟩
  · obtain ⟨n, hn, s, hs⟩ := hdump hne
    exact ⟨n, hn, s, by rw [hexColumns_of_le (not_lt.mp h), hs]⟩

theorem head?_hexColumns_append {d : List UInt8} (hne : d ≠ []) (s : Text) :
    ∃ n < 16, (hexColumns d ++ s).head? = some (hexDigit n) := by
  have hcols : ∃ d' ≠ [], ∃ t, hexColumns d = dump d' ++ t := by
    by_cases h : 8 < d.length
    · have htake : 0 < (d.take 8).length := by
        rw [List.length_take]
        omega
      exact ⟨d.take 8, List.ne_nil_of_length_pos htake, _, (hexColumns_of_lt h).2.2⟩
    · exact ⟨d, hne, [], by rw [hexColumns_of_le (not_lt.mp h), List.append_nil]⟩
  obtain ⟨d', hne', t, hcols⟩ := hcols
  obtain ⟨n, hn, s', hs⟩ := dump_eq_cons hne'
  exact ⟨n, hn, by rw [hcols, hs]; rfl⟩

/-- **The last line without the white space at its end** is read back unless it consists of one
blank. -/
theorem restoreBytes_rdropWhile_row {d : List UInt8} (hne : d ≠ []) (hle : d.length ≤ 16) :
    (∃ n < 16, ((row d).rdropWhile isWhitespace).head? = some (hexDigit n)) ∧
      restoreBytes ((row d).rdropWhile isWhitespace) =
        if d = [0x20] then .error .indexError else .ok d := by
  obtain ⟨n, hn, s, hs⟩ := hexColumns_eq_concat hne
  have hself : (hexColumns d).rdropWhile isWhitespace = hexColumns d := by
    rw [hs, List.rdropWhile_concat_neg _ _ _ (by simp [isWhitespace_hexDigit n hn])]
  by_cases hblank : ∀ b ∈ d, b = 0x20
  · have hstrip : (row d).rdropWhile isWhitespace = hexColumns d := by
      rw [row, List.append_assoc, rdropWhile_append_of_forall, hself]
      intro c hc
      rcases List.mem_append.mp hc with hc | hc
      · rw [List.eq_of_mem_replicate hc]
        rfl
      · obtain ⟨b, hb, rfl⟩ := List.mem_map.mp hc
        exact (printable_cases b).2.mpr (hblank b hb)
    rw [hstrip]
    refine ⟨by simpa using head?_hexColumns_append hne [], ?_⟩
    by_cases hone : d = [0x20]
    · rw [if_pos hone, hone, hexColumns_of_le (by simp), dump_singleton]
      rfl
    · rw [if_neg hone]
      refine restoreBytes_bare ?_ hle
      by_contra hlt
      obtain ⟨b, rfl⟩ : ∃ b, d = [b] :=
        List.length_eq_one_iff.mp (by have := List.length_pos_of_ne_nil hne; omega)
      exact hone (congrArg (fun c => [c]) (hblank b (by simp)))
  · have hchars : (d.map printable).rdropWhile isWhitespace ≠ [] := by
      intro h
      rw [List.rdropWhile_eq_nil_iff] at h
      exact hblank fun b hb => (printable_cases b).2.mp (h _ (List.mem_map_of_mem hb))
    have hone : d ≠ [0x20] := by
      rintro rfl
      exact hblank (by simp)
    rw [row, rdropWhile_append_of_ne_nil hchars, if_neg hone]
    refine ⟨?_, restoreBytes_padded hne hle _⟩
    rw [List.append_assoc]
    exact head?_hexColumns_append hne _

/-! ## A whole dump -/

/-- The dump of some data, with the number of its first line. -/
def dumpFrom (k : ℕ) (data : List UInt8) : Text :=
  ['\n'].intercalate (((chunks data 16).zipIdx k).map fun d => dumpLine d.2 d.1)

/-- What comes back of it. -/
def restored (k : ℕ) (data : List UInt8) : Except RestoreError (List UInt8) :=
  if 16 ^ 31 < 16 * k + data.length then .error .valueError
  else if data.length % 16 = 1 ∧ data.getLast? = some 0x20 then .error .indexError
  else .ok data

theorem dumpLine_eq (k : ℕ) {d : List UInt8} (hne : d ≠ []) (hle : d.length ≤ 16) :
    dumpLine k d = (hexAddress (k * 16) ++ [':', ' ']) ++ row d := by
  rw [dumpLine, dumpText_eq hne hle, List.append_assoc]
  rfl

theorem newline_notMem_dumpLine (k : ℕ) {d : List UInt8} (hne : d ≠ []) (hle : d.length ≤ 16) :
    '\n' ∉ dumpLine k d := by
  have hdigit : ∀ n < 16, hexDigit n ≠ '\n' := by decide
  have hdump : ∀ d : List UInt8, '\n' ∉ dump d := by
    intro d
    induction d with
    | nil => simp
    | cons b d ih =>
      have hb := b.toNat_lt
      have hbyte : '\n' ∉ hexByte b := by
        simp [hexByte, (hdigit _ (by omega : b.toNat / 16 < 16)).symm,
          (hdigit _ (by omega : b.toNat % 16 < 16)).symm]
      cases d with
      | nil => rwa [dump_singleton]
      | cons c d =>
        rw [dump_cons_cons]
        simpa [hbyte] using ih
  have haddr : '\n' ∉ hexAddress (k * 16) := by
    intro h
    obtain ⟨n, hn, hc⟩ := mem_hexAddress h
    exact hdigit n hn hc.symm
  have hcols : '\n' ∉ hexColumns d := by
    intro h
    rcases List.mem_append.mp h with h | h
    · exact hdump d (List.mem_of_mem_take h)
    · split_ifs at h with hlt
      · rcases List.mem_cons.mp h with h | h
        · exact absurd h (by decide)
        · exact hdump d (List.mem_of_mem_drop h)
      · cases h
  have hchars : '\n' ∉ d.map printable := by
    intro h
    obtain ⟨b, -, hb⟩ := List.mem_map.mp h
    exact (printable_cases b).1 hb
  rw [dumpLine_eq k hne hle, row]
  simp [haddr, hcols, hchars]

theorem dumpFrom_of_le (k : ℕ) {d : List UInt8} (hne : d ≠ []) (hle : d.length ≤ 16) :
    dumpFrom k d = dumpLine k d := by
  rw [dumpFrom, chunks_of_le hne hle]
  simp

theorem dumpFrom_append (k : ℕ) {d xs : List UInt8} (hd : d.length = 16) (hne : xs ≠ []) :
    dumpFrom k (d ++ xs) = dumpLine k d ++ '\n' :: dumpFrom (k + 1) xs := by
  have hchunks : (((chunks xs 16).zipIdx (k + 1)).map fun d => dumpLine d.2 d.1) ≠ [] := by
    have hne' : chunks xs 16 ≠ [] := chunks_ne_nil (by norm_num) hne
    simpa using hne'
  rw [dumpFrom, chunks_append (by norm_num) hd, List.zipIdx_cons, List.map_cons,
    List.intercalate_cons_of_ne_nil hchunks, List.append_assoc]
  rfl

/-- A line that is not the last one. -/
theorem restoreLine_dumpLine (k : ℕ) {d : List UInt8} (hne : d ≠ []) (hle : d.length ≤ 16) :
    restoreLine (dumpLine k d) = if k * 16 < 16 ^ 31 then .ok d else .error .valueError := by
  obtain ⟨n, hn, hhead⟩ := head?_hexColumns_append hne
    (List.replicate (50 - (hexColumns d).length) ' ' ++ d.map printable)
  rw [← List.append_assoc, ← row] at hhead
  rw [dumpLine, dumpText_eq hne hle, restoreLine_hexAddress_append _ hn hhead, row,
    restoreBytes_padded hne hle]

/-- The last line, without the white space at its end. -/
theorem restoreLine_rdropWhile_dumpLine (k : ℕ) {d : List UInt8} (hne : d ≠ [])
    (hle : d.length ≤ 16) :
    restoreLine ((dumpLine k d).rdropWhile isWhitespace) = restored k d := by
  obtain ⟨⟨n, hn, hhead⟩, hbytes⟩ := restoreBytes_rdropWhile_row hne hle
  have hpos := List.length_pos_of_ne_nil hne
  have hrow : (row d).rdropWhile isWhitespace ≠ [] := by
    intro h
    rw [h] at hhead
    cases hhead
  have haddr : 16 ^ 31 < 16 * k + d.length ↔ ¬ k * 16 < 16 ^ 31 := by
    norm_num
    omega
  have hlast : d.length % 16 = 1 ∧ d.getLast? = some 0x20 ↔ d = [0x20] := by
    constructor
    · rintro ⟨hmod, hget⟩
      obtain ⟨b, rfl⟩ : ∃ b, d = [b] := List.length_eq_one_iff.mp (by omega)
      exact congrArg (fun c => [c]) (Option.some.inj hget)
    · rintro rfl
      exact ⟨rfl, rfl⟩
  rw [dumpLine_eq k hne hle, rdropWhile_append_of_ne_nil hrow, List.append_assoc]
  refine (restoreLine_hexAddress_append _ hn hhead).trans ?_
  rw [restored, hbytes]
  by_cases hlong : k * 16 < 16 ^ 31
  · rw [if_pos hlong, if_neg (fun h => haddr.mp h hlong)]
    exact if_congr hlast.symm rfl rfl
  · rw [if_neg hlong, if_pos (haddr.mpr hlong)]

/-- What comes back of more than a line. -/
theorem restored_append (k : ℕ) {d xs : List UInt8} (hd : d.length = 16) (hne : xs ≠ []) :
    restored k (d ++ xs) =
      if k * 16 < 16 ^ 31 then (restored (k + 1) xs).map (d ++ ·) else .error .valueError := by
  have hpos := List.length_pos_of_ne_nil hne
  have hmod : (d ++ xs).length % 16 = xs.length % 16 := by
    rw [List.length_append, hd, Nat.add_mod_left]
  have hlast : (d ++ xs).getLast? = xs.getLast? := by
    rw [List.getLast?_append_of_ne_nil _ hne]
  have hlen : 16 * k + (d ++ xs).length = 16 * (k + 1) + xs.length := by
    rw [List.length_append, hd]
    omega
  rw [restored, restored, hmod, hlast, hlen]
  by_cases h : k * 16 < 16 ^ 31
  · rw [if_pos h]
    split_ifs <;> rfl
  · have hlong : 16 ^ 31 < 16 * (k + 1) + xs.length := by
      norm_num at h ⊢
      omega
    rw [if_neg h, if_pos hlong]

/-- A dump does not begin with white space, and there is more in it. -/
theorem rdropWhile_dumpFrom (k : ℕ) {data : List UInt8} (hne : data ≠ []) :
    (dumpFrom k data).dropWhile isWhitespace = dumpFrom k data ∧
      (dumpFrom k data).rdropWhile isWhitespace ≠ [] := by
  have hline : ∃ s, dumpFrom k data = hexAddress (k * 16) ++ s := by
    induction data using chunks_induction (by norm_num : 0 < 16) with
    | nil => exact absurd rfl hne
    | last d hd hle => exact ⟨_, dumpFrom_of_le k hd hle⟩
    | full d xs hd hxs _ =>
      rw [dumpFrom_append k hd hxs, dumpLine, List.append_assoc]
      exact ⟨_, rfl⟩
  have hfirst : ∃ n < 16, ∃ s, dumpFrom k data = hexDigit n :: s := by
    obtain ⟨s, hs⟩ := hline
    obtain ⟨c, t, haddr⟩ := List.exists_cons_of_length_pos
      (Nat.lt_of_lt_of_le (by norm_num) (eight_le_length_hexAddress (k * 16)))
    obtain ⟨n, hn, rfl⟩ := mem_hexAddress (haddr ▸ List.mem_cons_self)
    exact ⟨n, hn, t ++ s, by rw [hs, haddr]; rfl⟩
  obtain ⟨n, hn, s, hs⟩ := hfirst
  have hdigit := isWhitespace_hexDigit n hn
  rw [hs]
  refine ⟨List.dropWhile_cons_of_neg (by simp [hdigit]), fun h => ?_⟩
  have hall := List.rdropWhile_eq_nil_iff.mp h (hexDigit n) (by simp)
  simp [hdigit] at hall

/-- **The lines of a dump are read back one by one.** -/
theorem mapM_restoreLine_dumpFrom {data : List UInt8} (hne : data ≠ []) (k : ℕ) :
    ((((dumpFrom k data).rdropWhile isWhitespace).splitOn '\n').mapM restoreLine).map
      List.flatten = restored k data := by
  induction data using chunks_induction (by norm_num : 0 < 16) generalizing k with
  | nil => exact absurd rfl hne
  | last d hd hle =>
    have hnl : '\n' ∉ (dumpLine k d).rdropWhile isWhitespace := fun h =>
      newline_notMem_dumpLine k hd hle ((List.rdropWhile_prefix _ _).mem h)
    rw [dumpFrom_of_le k hd hle, List.splitOn_eq_singleton hnl, List.mapM_cons, List.mapM_nil,
      restoreLine_rdropWhile_dumpLine k hd hle]
    cases restored k d with
    | error x => rfl
    | ok bytes => exact congrArg Except.ok (List.append_nil bytes)
  | full d xs hd hxs ih =>
    have hdne : d ≠ [] := List.ne_nil_of_length_pos (by omega)
    have hline : dumpFrom k (d ++ xs) = (dumpLine k d ++ ['\n']) ++ dumpFrom (k + 1) xs := by
      rw [dumpFrom_append k hd hxs, List.append_assoc]
      rfl
    rw [hline, rdropWhile_append_of_ne_nil (rdropWhile_dumpFrom (k + 1) hxs).2, List.append_assoc,
      List.singleton_append, List.splitOn_append_cons_self_of_not_mem
        (newline_notMem_dumpLine k hdne hd.le), restored_append k hd hxs, ← ih hxs,
      List.mapM_cons, restoreLine_dumpLine k hdne hd.le]
    by_cases hlong : k * 16 < 16 ^ 31
    · rw [if_pos hlong, if_pos hlong]
      cases (((dumpFrom (k + 1) xs).rdropWhile isWhitespace).splitOn '\n').mapM restoreLine with
      | error x => rfl
      | ok lines => rfl
    · rw [if_neg hlong, if_neg hlong]
      rfl

/-- **A dump is read back**, unless its addresses are too long or there is too little in its last
line. -/
theorem restore_hexdump (data : List UInt8) :
    restore (['\n'].intercalate (dumpgen data)) =
      if 16 ^ 31 < data.length then .error .valueError
      else if data = [] ∨ data.length % 16 = 1 ∧ data.getLast? = some 0x20 then .error .indexError
      else .ok data := by
  by_cases hne : data = []
  · rw [hne]
    rfl
  · have hres := mapM_restoreLine_dumpFrom hne 0
    have hfrom : ['\n'].intercalate (dumpgen data) = dumpFrom 0 data := rfl
    rw [restore, hfrom, (rdropWhile_dumpFrom 0 hne).1]
    simp only [hres, restored, hne, false_or, Nat.mul_zero, Nat.zero_add]

end FlockwaveConn
