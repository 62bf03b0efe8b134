import FlockwaveConn.Middleware.Base

/-!
# Middleware/Hexdump — the hex dump of a byte string

A line of a dump is an address, a colon, the bytes in hexadecimal and the same bytes as characters.
Who wants the line without its address looks for the colon, so what matters here is that the first
colon of a line is the one behind the address (`stripAddress_dumpLine`).
-/

namespace FlockwaveConn

/-! ## Chunks -/

/-- The generator `chunks()`: the full chunks, and what is left. -/
def chunks {α : Type*} (seq : List α) (size : ℕ) : List (List α) :=
  (List.range (seq.length / size)).map (fun i => (seq.drop (i * size)).take size) ++
    if seq.length % size = 0 then [] else [seq.drop (seq.length / size * size)]

/-! ## Hexadecimal digits -/

/-- An upper-case digit. -/
def hexDigit (d : ℕ) : Char := d.digitChar.toUpper

/-- No digit is a colon. -/
theorem hexDigit_ne_colon {d : ℕ} (hd : d < 16) : hexDigit d ≠ ':' := by
  have h : ∀ d : Fin 16, hexDigit d ≠ ':' := by decide
  exact h ⟨d, hd⟩

/-- `"%08X" % addr`. -/
def hexAddress (addr : ℕ) : Line := ((Nat.digits 16 addr).reverse.map hexDigit).leftpad 8 '0'

/-- `binascii.hexlify(binary).upper()`. -/
def hexlify (binary : List UInt8) : Line :=
  binary.flatMap fun b => [hexDigit (b.toNat / 16), hexDigit (b.toNat % 16)]

/-- `dump()`. -/
def dump (binary : List UInt8) : Line := [' '].intercalate (chunks (hexlify binary) 2)

theorem colon_notMem_hexAddress (addr : ℕ) : ':' ∉ hexAddress addr := by
  intro h
  rcases List.mem_append.mp h with h | h
  · cases List.eq_of_mem_replicate h
  · obtain ⟨d, hd, hc⟩ := List.mem_map.mp h
    exact hexDigit_ne_colon (Nat.digits_lt_base (by norm_num) (List.mem_reverse.mp hd)) hc

/-! ## Lines -/

/-- A byte as a character: printable ASCII, or a dot. -/
def printable (b : UInt8) : Char :=
  if 0x20 ≤ b ∧ b ≤ 0x7E then Char.ofNat b.toNat else '.'

/-- What follows the colon in a line. -/
def dumpText (d : List UInt8) : Line :=
  ' ' :: (dump d).take (8 * 3) ++ (if 8 < d.length then ' ' :: (dump d).drop (8 * 3) else []) ++
    List.replicate (2 + (if d.length < 16 then 3 * (16 - d.length) else 0) +
      if d.length ≤ 8 then 1 else 0) ' ' ++ d.map printable

/-- A line of `dumpgen()`. -/
def dumpLine (addr : ℕ) (d : List UInt8) : Line := hexAddress (addr * 16) ++ ':' :: dumpText d

/-- `dumpgen()`, which is `hexdump()` of a bytes-like object. -/
def dumpgen (data : List UInt8) : List Line :=
  (chunks data 16).zipIdx.map fun d => dumpLine d.2 d.1

/-- `line[line.index(":") + 1 :]`, where `index()` raises if there is no colon. -/
def stripAddress {ε : Type*} (line : Line) : Except (Failure ε) Line :=
  if ':' ∈ line then .ok (line.drop (line.idxOf ':' + 1)) else .error .valueError

/-- **What is stripped is the address**, and it is always there. -/
@[simp] theorem stripAddress_dumpLine {ε : Type*} (addr : ℕ) (d : List UInt8) :
    (stripAddress (dumpLine addr d) : Except (Failure ε) Line) = .ok (dumpText d) := by
  have hidx : (dumpLine addr d).idxOf ':' = (hexAddress (addr * 16)).length := by
    rw [dumpLine, List.idxOf_append, if_neg (colon_notMem_hexAddress _), List.idxOf_cons_self,
      Nat.zero_add]
  rw [stripAddress, if_pos (by simp [dumpLine]), hidx]
  simp [dumpLine]

/-- A dump without its addresses. -/
theorem mapM_stripAddress_dumpgen {ε : Type*} (data : List UInt8) :
    ((dumpgen data).mapM stripAddress : Except (Failure ε) (List Line)) =
      .ok ((chunks data 16).map dumpText) := by
  have hline : (stripAddress : Line → Except (Failure ε) Line) ∘
      (fun d : List UInt8 × ℕ => dumpLine d.2 d.1) = fun d => pure (dumpText d.1) := by
    funext d
    rw [Function.comp_apply, stripAddress_dumpLine]
    rfl
  rw [dumpgen, List.mapM_map, hline, List.mapM_pure]
  have hfst : (chunks data 16).zipIdx.map (fun d => dumpText d.1) =
      ((chunks data 16).zipIdx.map Prod.fst).map dumpText := by
    rw [List.map_map]
    rfl
  rw [hfst, List.zipIdx_map_fst]
  rfl

example : dumpLine 1 [0x00, 0x11, 0x22, 0x33, 0x44, 0x55, 0x66, 0x77,
      0x88, 0x99, 0xAA, 0xBB, 0xCC, 0xDD, 0xEE, 0xFF] =
    "00000010: 00 11 22 33 44 55 66 77  88 99 AA BB CC DD EE FF  ..\"3DUfw........".toList := by
  decide +kernel

end FlockwaveConn
