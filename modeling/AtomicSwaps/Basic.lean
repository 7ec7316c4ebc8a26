import Mathlib.Data.FinEnum
import Mathlib.Data.Fintype.Vector

/-!
# Machine widths and byte strings

The fixed-width integers of the Rust and Solidity code are bit vectors, so `+`
wraps as the release builds do; saturating and checked variants are named as in
the source. Byte arrays of a fixed length carry their length in the type.
-/

namespace AtomicSwaps

abbrev U64 := BitVec 64
abbrev U128 := BitVec 128
abbrev U256 := BitVec 256

/-- A `[u8; n]`, `bytesN` or `FixedBytes<n>`. -/
abbrev Bytes (length : Nat) := List.Vector UInt8 length

abbrev Bytes32 := Bytes 32

instance : Finite Bytes32 := inferInstance

/-- The array `[byte; n]`. -/
def Bytes.fill (length : Nat) (byte : UInt8) : Bytes length := List.Vector.replicate length byte

/-- The all-zero array. -/
def Bytes.zero (length : Nat) : Bytes length := Bytes.fill length 0

/-- The first `length` bytes of a slice, when there are that many. -/
def Bytes.ofSlice? (length : Nat) (slice : List UInt8) : Option (Bytes length) :=
  if exact : slice.length = length then some ⟨slice, exact⟩ else none

@[simp] theorem Bytes.ofSlice?_toList {length : Nat} (bytes : Bytes length) :
    Bytes.ofSlice? length bytes.toList = some bytes := by
  obtain ⟨list, exact⟩ := bytes
  simp [Bytes.ofSlice?, List.Vector.toList, exact]

theorem Bytes.ofSlice?_eq_some {length : Nat} {slice : List UInt8} {bytes : Bytes length} :
    Bytes.ofSlice? length slice = some bytes ↔ slice = bytes.toList := by
  constructor
  · intro found
    by_cases exact : slice.length = length
    · simp only [Bytes.ofSlice?, exact, dite_true] at found
      injection found with same
      rw [← same]
      rfl
    · simp [Bytes.ofSlice?, exact] at found
  · rintro rfl
    exact Bytes.ofSlice?_toList bytes

/-- `u64::saturating_add`. -/
def U64.saturatingAdd (left right : U64) : U64 :=
  if left.toNat + right.toNat < 2 ^ 64 then left + right else BitVec.allOnes 64

@[simp] theorem U64.toNat_saturatingAdd (left right : U64) :
    (U64.saturatingAdd left right).toNat = min (left.toNat + right.toNat) (2 ^ 64 - 1) := by
  unfold U64.saturatingAdd
  split
  · simp only [BitVec.toNat_add]
    omega
  · simp only [BitVec.toNat_allOnes]
    omega

/-- `u64::saturating_sub`. -/
def U64.saturatingSub (left right : U64) : U64 := if right ≤ left then left - right else 0

@[simp] theorem U64.toNat_saturatingSub (left right : U64) :
    (U64.saturatingSub left right).toNat = left.toNat - right.toNat := by
  unfold U64.saturatingSub
  split
  · rename_i below
    exact BitVec.toNat_sub_of_le below
  · rename_i above
    have order : left.toNat < right.toNat := by simpa [BitVec.le_def] using above
    have zero : (0 : U64).toNat = 0 := rfl
    omega

/-- `Ord::min` of two integers. -/
def U64.min (left right : U64) : U64 := if left ≤ right then left else right

/-- `Ord::max` of two integers. -/
def U64.max (left right : U64) : U64 := if left ≤ right then right else left

@[simp] theorem U64.toNat_min (left right : U64) :
    (U64.min left right).toNat = Min.min left.toNat right.toNat := by
  unfold U64.min
  split <;> (rename_i order; simp only [BitVec.le_def] at order; omega)

@[simp] theorem U64.toNat_max (left right : U64) :
    (U64.max left right).toNat = Max.max left.toNat right.toNat := by
  unfold U64.max
  split <;> (rename_i order; simp only [BitVec.le_def] at order; omega)

/-- `U256::saturating_to::<u64>`. -/
def U256.saturatingTo64 (value : U256) : U64 := BitVec.ofNat 64 (min value.toNat (2 ^ 64 - 1))

@[simp] theorem U256.toNat_saturatingTo64 (value : U256) :
    value.saturatingTo64.toNat = min value.toNat (2 ^ 64 - 1) := by
  simp only [U256.saturatingTo64, BitVec.toNat_ofNat]
  omega

/-- Seconds to the milliseconds of the LEZ wire format; wraps like the release build. -/
def secsToMillis (secs : U64) : U64 := secs * 1000

theorem toNat_secsToMillis {secs : U64} (fits : secs.toNat * 1000 < 2 ^ 64) :
    (secsToMillis secs).toNat = secs.toNat * 1000 := by
  have thousand : (1000 : U64).toNat = 1000 := rfl
  simp only [secsToMillis, BitVec.toNat_mul, thousand]
  exact Nat.mod_eq_of_lt fits

/-- `PREIMAGE` of the contract tests. -/
def testPreimage : Bytes32 :=
  ⟨[115, 101, 99, 114, 101, 116, 95, 112, 114, 101, 105, 109, 97, 103, 101, 95, 102, 111,
    114, 95, 116, 101, 115, 116, 105, 110, 103, 95, 49, 50, 51, 52], rfl⟩

/-- The SHA-256 hash of `testPreimage`. -/
def testHashlock : Bytes32 :=
  ⟨[14, 246, 150, 17, 169, 30, 8, 5, 7, 147, 135, 254, 224, 184, 159, 183, 214, 252, 213, 5,
    34, 13, 64, 123, 172, 170, 64, 206, 3, 23, 69, 223], rfl⟩

end AtomicSwaps
