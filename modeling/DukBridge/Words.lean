import Mathlib.Algebra.Order.Ring.Int
import Mathlib.Data.List.Basic

/-!
# Slots, C integers and bytes in memory

Everything that crosses between Go and C is packed into 64-bit slots (`void*`,
`uint64`). The casts are the ones the bridge writes, on a platform with 64-bit
`long` and pointers and 32-bit `int`.
-/
namespace DukBridge

abbrev Bytes := List UInt8

/-- `void*`, `unsigned long`, `size_t`, `uintptr`. -/
abbrev Word := UInt64

/-- The bytes of an ASCII literal of the source. -/
def ascii (s : String) : Bytes := s.toList.map fun c => UInt8.ofNat c.toNat

/-- `(int)(long)p` -/
def intOfPtr (p : Word) : Int32 := p.toInt64.toInt32

/-- `C.int(n)` of a Go length. -/
def cInt (n : Nat) : Int32 := (Int64.ofNat n).toInt32

/-- `C.size_t(n)` of a C `int`, which extends the sign. -/
def sizeOfInt (n : Int32) : Word := n.toInt64.toUInt64

def double2voidp (d : Float) : Word := d.toBits

def voidp2double (v : Word) : Float := Float.ofBits v

theorem toNat_toUInt64 (n : Int64) : (n.toUInt64.toNat : Int) = n.toInt % 2 ^ 64 := by
  have bits : n.toInt = (n.toUInt64.toNat : Int).bmod (2 ^ 64) := by
    rw [← UInt64.toNat_toBitVec, Int64.toBitVec_toUInt64]
    exact BitVec.toInt_eq_toNat_bmod _
  have bound := n.toUInt64.toNat_lt
  rw [bits, Int.bmod_def]
  split <;> omega

/-- The cast to `int` keeps the low 32 bits. -/
theorem toInt_intOfPtr (n : Int) : (intOfPtr (Int64.ofInt n).toUInt64).toInt = n.bmod (2 ^ 32) := by
  rw [intOfPtr, Int64.toInt64_toUInt64, Int64.toInt_toInt32, Int64.toInt_ofInt]
  exact Int.bmod_bmod_of_dvd (by decide)

/-- A length keeps its low 32 bits; read as a negative `int` it becomes an enormous `size_t`. -/
theorem sizeOfInt_cInt (n : Nat) : (sizeOfInt (cInt n)).toNat =
    if n % 2 ^ 32 < 2 ^ 31 then n % 2 ^ 32 else n % 2 ^ 32 + 2 ^ 64 - 2 ^ 32 := by
  have narrowed : (cInt n).toInt64.toInt = (n : Int).bmod (2 ^ 32) := by
    rw [Int32.toInt_toInt64, cInt, Int64.toInt_toInt32, Int64.toInt_ofNat']
    exact Int.bmod_bmod_of_dvd (by decide)
  -- the sign is extended to all 64 bits
  have word := toNat_toUInt64 (cInt n).toInt64
  rw [narrowed, Int.bmod_def] at word
  change ((sizeOfInt (cInt n)).toNat : Int) = _ at word
  split at word <;> split <;> omega

theorem sizeOfInt_cInt_of_lt {n : Nat} (small : n < 2 ^ 31) :
    sizeOfInt (cInt n) = UInt64.ofNat n := by
  apply UInt64.toNat.inj
  rw [sizeOfInt_cInt, UInt64.toNat_ofNat']
  split <;> omega

/-! ### Memory -/

abbrev Memory := Word → UInt8

def Memory.read (mem : Memory) (addr : Word) (len : Nat) : Bytes :=
  (List.range len).map fun i => mem (addr + UInt64.ofNat i)

@[simp] theorem Memory.length_read (mem : Memory) (addr : Word) (len : Nat) :
    (mem.read addr len).length = len := by
  simp [Memory.read]

/-- A Go string or byte slice: its header, and the bytes the header points at. -/
structure GoBytes (mem : Memory) where
  addr : Word
  data : Bytes
  stored : mem.read addr data.length = data
  /-- `len` is a Go `int`. -/
  bounded : data.length < 2 ^ 63
  /-- Only an empty string or slice may have a nil pointer. -/
  located : data ≠ [] → addr ≠ 0

end DukBridge
