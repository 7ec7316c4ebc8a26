import AtomicSwaps.Basic
import AtomicSwaps.Data.Assert
import AtomicSwaps.Data.LittleEndian

/-!
# Escrow accounts and their byte format

`HTLCEscrow` of `programs/lez-htlc` with the byte format it is stored in: a
125-byte header and the preimage. `fromBytes` reads the header by offsets and
ignores what follows the preimage, as the program does; a panic is an error
carrying its message.
-/

namespace AtomicSwaps.Lez

open Assert

abbrev AccountId := Bytes32

/-- Lifecycle states of an escrow, in the order of their byte values. -/
inductive HTLCState where
  | Locked
  | Claimed
  | Refunded
deriving DecidableEq, Repr

/-- Instructions the HTLC program can execute. -/
inductive HTLCInstruction where
  | Lock (hashlock : Bytes32) (takerId : AccountId) (amount : U128) (timelock : U64)
  | Claim (preimage : List UInt8)
  | Refund
deriving DecidableEq

/-- Data stored in the escrow PDA account. -/
structure HTLCEscrow where
  hashlock : Bytes32
  makerId : AccountId
  takerId : AccountId
  amount : U128
  state : HTLCState
  timelock : U64
  preimage : Option (List UInt8)
deriving DecidableEq

namespace HTLCState

/-- `state as u8`. -/
def toByte : HTLCState → UInt8
  | .Locked => 0
  | .Claimed => 1
  | .Refunded => 2

/-- The state a stored byte stands for. -/
def fromByte (byte : UInt8) : Except String HTLCState :=
  if byte = 0 then .ok .Locked
  else if byte = 1 then .ok .Claimed
  else if byte = 2 then .ok .Refunded
  else .error s!"invalid escrow state: {byte}"

@[simp] theorem fromByte_toByte (state : HTLCState) : fromByte state.toByte = .ok state := by
  cases state <;> rfl

end HTLCState

namespace HTLCEscrow

/-- The preimage field: a length prefix and the bytes. -/
def preimageBytes (preimage : Option (List UInt8)) : List UInt8 :=
  match preimage with
  | some preimage => LittleEndian.encode 4 preimage.length ++ preimage
  | none => LittleEndian.encode 4 0

/-- `HTLCEscrow::to_bytes`. -/
def toBytes (escrow : HTLCEscrow) : List UInt8 :=
  escrow.hashlock.toList ++ escrow.makerId.toList ++ escrow.takerId.toList ++
    LittleEndian.encode 16 escrow.amount.toNat ++ [escrow.state.toByte] ++
    LittleEndian.encode 8 escrow.timelock.toNat ++ preimageBytes escrow.preimage

/-- The bytes `data[start..start + width]`. -/
def slice (data : List UInt8) (start width : Nat) : List UInt8 := (data.drop start).take width

theorem length_slice {data : List UInt8} {start width : Nat}
    (within : start + width ≤ data.length) : (slice data start width).length = width := by
  simp only [slice, List.length_take, List.length_drop]
  omega

/-- Reads the preimage field; an empty one counts as none. -/
def readPreimage (data : List UInt8) : Except String (Option (List UInt8)) :=
  let preimageLen := LittleEndian.decode (slice data 121 4)
  if 0 < preimageLen then
    if 125 + preimageLen ≤ data.length then .ok (some (slice data 125 preimageLen))
    else .error "escrow data truncated: expected preimage"
  else .ok none

/-- `HTLCEscrow::from_bytes`. -/
def fromBytes (data : List UInt8) : Except String HTLCEscrow :=
  if long : 125 ≤ data.length then do
    let state ← HTLCState.fromByte (data.get ⟨112, by omega⟩)
    let preimage ← readPreimage data
    return {
      hashlock := ⟨slice data 0 32, length_slice (by omega)⟩
      makerId := ⟨slice data 32 32, length_slice (by omega)⟩
      takerId := ⟨slice data 64 32, length_slice (by omega)⟩
      amount := BitVec.ofNat 128 (LittleEndian.decode (slice data 96 16))
      state
      timelock := BitVec.ofNat 64 (LittleEndian.decode (slice data 113 8))
      preimage }
  else .error "escrow data too short"

/-- What `toBytes` can write so that `fromBytes` reads it back: a stored preimage
is non-empty and its length fits the prefix. -/
def Encodable (escrow : HTLCEscrow) : Prop :=
  ∀ preimage, escrow.preimage = some preimage → 0 < preimage.length ∧ preimage.length < 2 ^ 32

theorem length_toBytes (escrow : HTLCEscrow) :
    escrow.toBytes.length = 125 + (escrow.preimage.getD []).length := by
  cases stored : escrow.preimage with
  | none => simp [toBytes, preimageBytes, stored]
  | some bytes =>
      simp [toBytes, preimageBytes, stored]
      omega

/-- The bytes between a front part and a back part of known lengths. -/
theorem slice_eq_of_split {data : List UInt8} {start width : Nat}
    (front field back : List UInt8) (split : data = front ++ field ++ back)
    (before : front.length = start) (exact : field.length = width) :
    slice data start width = field := by
  subst split before exact
  simp [slice]

/-- The preimage field is read back behind any 121 bytes of header, whatever follows it. -/
theorem readPreimage_append {front suffix : List UInt8} {preimage : Option (List UInt8)}
    (header : front.length = 121)
    (encodable : ∀ bytes, preimage = some bytes → 0 < bytes.length ∧ bytes.length < 2 ^ 32) :
    readPreimage (front ++ preimageBytes preimage ++ suffix) = .ok preimage := by
  cases preimage with
  | none =>
      have length : slice (front ++ preimageBytes none ++ suffix) 121 4 =
          LittleEndian.encode 4 0 :=
        slice_eq_of_split front _ suffix (by simp [preimageBytes]) header (by simp)
      have zero : LittleEndian.decode (LittleEndian.encode 4 0) = 0 := by
        simp [LittleEndian.decode_encode]
      simp only [readPreimage, length, zero, Nat.lt_irrefl, if_false]
  | some bytes =>
      obtain ⟨nonempty, fits⟩ := encodable bytes rfl
      have length : slice (front ++ preimageBytes (some bytes) ++ suffix) 121 4 =
          LittleEndian.encode 4 bytes.length :=
        slice_eq_of_split front _ (bytes ++ suffix) (by simp [preimageBytes]) header (by simp)
      have decoded : LittleEndian.decode (LittleEndian.encode 4 bytes.length) = bytes.length := by
        rw [LittleEndian.decode_encode]
        exact Nat.mod_eq_of_lt fits
      have stored :
          slice (front ++ preimageBytes (some bytes) ++ suffix) 125 bytes.length = bytes :=
        slice_eq_of_split (front ++ LittleEndian.encode 4 bytes.length) bytes suffix
          (by simp [preimageBytes]) (by simp [header]) rfl
      have long : 125 + bytes.length ≤
          (front ++ preimageBytes (some bytes) ++ suffix).length := by
        simp only [preimageBytes, List.length_append, LittleEndian.length_encode, header]
        omega
      simp only [readPreimage, length, decoded, nonempty, long, stored, if_true]

/-- The number in a field written by `LittleEndian.encode`. -/
theorem ofNat_decode_encode {bits width : Nat} (range : 256 ^ width = 2 ^ bits)
    (value : BitVec bits) :
    BitVec.ofNat bits (LittleEndian.decode (LittleEndian.encode width value.toNat)) = value := by
  rw [LittleEndian.decode_encode, range, Nat.mod_eq_of_lt value.isLt, BitVec.ofNat_toNat,
    BitVec.setWidth_eq]

/-- Reading back a written escrow, whatever follows it. -/
theorem fromBytes_toBytes_append {escrow : HTLCEscrow} (encodable : escrow.Encodable)
    (suffix : List UInt8) : fromBytes (escrow.toBytes ++ suffix) = .ok escrow := by
  obtain ⟨hashlock, makerId, takerId, amount, state, timelock, preimage⟩ := escrow
  set data := toBytes ⟨hashlock, makerId, takerId, amount, state, timelock, preimage⟩ ++ suffix
    with shape
  have long : 125 ≤ data.length := by
    rw [shape, List.length_append, length_toBytes]
    omega
  have hashlockField : slice data 0 32 = hashlock.toList :=
    slice_eq_of_split [] _ _ (by simp [shape, toBytes]; rfl) rfl (by simp)
  have makerField : slice data 32 32 = makerId.toList :=
    slice_eq_of_split hashlock.toList _ _ (by simp [shape, toBytes]; rfl) (by simp) (by simp)
  have takerField : slice data 64 32 = takerId.toList :=
    slice_eq_of_split (hashlock.toList ++ makerId.toList) _ _ (by simp [shape, toBytes]; rfl)
      (by simp) (by simp)
  have amountField : slice data 96 16 = LittleEndian.encode 16 amount.toNat :=
    slice_eq_of_split (hashlock.toList ++ makerId.toList ++ takerId.toList) _ _
      (by simp [shape, toBytes]; rfl) (by simp) (by simp)
  have timelockField : slice data 113 8 = LittleEndian.encode 8 timelock.toNat :=
    slice_eq_of_split (hashlock.toList ++ makerId.toList ++ takerId.toList ++
      LittleEndian.encode 16 amount.toNat ++ [state.toByte]) _ (preimageBytes preimage ++ suffix)
      (by rw [shape, toBytes]; simp only [List.append_assoc]) (by simp) (by simp)
  have stateField : data.get ⟨112, by omega⟩ = state.toByte := by
    simp [shape, toBytes]
  have preimageField : readPreimage data = .ok preimage :=
    readPreimage_append (by simp) encodable
  have amountRead : BitVec.ofNat 128 (LittleEndian.decode (slice data 96 16)) = amount := by
    rw [amountField]
    exact ofNat_decode_encode (by decide) amount
  have timelockRead : BitVec.ofNat 64 (LittleEndian.decode (slice data 113 8)) = timelock := by
    rw [timelockField]
    exact ofNat_decode_encode (by decide) timelock
  simp only [fromBytes, long, dite_true, stateField, HTLCState.fromByte_toByte, preimageField,
    amountRead, timelockRead, hashlockField, makerField, takerField]
  rfl

/-- Reading back a written escrow. -/
theorem fromBytes_toBytes {escrow : HTLCEscrow} (encodable : escrow.Encodable) :
    fromBytes escrow.toBytes = .ok escrow := by
  simpa using fromBytes_toBytes_append encodable []

/-- What `fromBytes` accepts has at least a header, and a preimage it returns is
non-empty with a length that fits the prefix. -/
theorem fromBytes_encodable {data : List UInt8} {escrow : HTLCEscrow}
    (read : fromBytes data = .ok escrow) : escrow.Encodable := by
  intro preimage stored
  by_cases long : 125 ≤ data.length
  · simp only [fromBytes, long, dite_true, bind_eq_ok, pure_eq_ok] at read
    obtain ⟨state, -, field, preimageField, rfl⟩ := read
    obtain rfl : field = some preimage := stored
    simp only [readPreimage] at preimageField
    split at preimageField
    · rename_i nonempty
      split at preimageField
      · rename_i within
        obtain rfl : slice data 125 _ = preimage := by simpa using preimageField
        have range := LittleEndian.decode_lt (slice data 121 4)
        rw [length_slice (by omega)] at range
        rw [length_slice within]
        exact ⟨nonempty, range⟩
      · cases preimageField
    · simp at preimageField
  · simp [fromBytes, long] at read

/-! ## What is accepted -/

/-- The length prefix of the preimage. -/
def preimageLength (data : List UInt8) : Nat := LittleEndian.decode (slice data 121 4)

/-- The header is whole, its state byte names a state, and the preimage it announces is
there. -/
def WellFormed (data : List UInt8) : Prop :=
  125 ≤ data.length ∧ data.getD 112 0 ≤ 2 ∧ 125 + preimageLength data ≤ data.length

instance (data : List UInt8) : Decidable (WellFormed data) := by
  unfold WellFormed
  infer_instance

/-- A field and the one behind it. -/
theorem slice_append_slice (data : List UInt8) (start width next : Nat) :
    slice data start width ++ slice data (start + width) next = slice data start (width + next) := by
  simp only [slice, ← List.drop_drop, List.take_add]

/-- The bytes `LittleEndian.encode` writes for the number of a field. -/
theorem encode_ofNat_decode {bits width : Nat} (range : 256 ^ width = 2 ^ bits)
    {field : List UInt8} (exact : field.length = width) :
    LittleEndian.encode width (BitVec.ofNat bits (LittleEndian.decode field)).toNat = field := by
  have small := LittleEndian.decode_lt field
  rw [exact, range] at small
  rw [BitVec.toNat_ofNat, Nat.mod_eq_of_lt small, ← exact, LittleEndian.encode_decode]

end HTLCEscrow

/-- The bytes that name a state, and that the state is written as. -/
theorem HTLCState.fromByte_eq_ok {byte : UInt8} {state : HTLCState} :
    fromByte byte = .ok state ↔ byte = state.toByte := by
  constructor
  · intro read
    unfold fromByte at read
    split at read
    · cases read
      assumption
    split at read
    · cases read
      assumption
    split at read
    · cases read
      assumption
    · cases read
  · rintro rfl
    exact fromByte_toByte state

theorem HTLCState.fromByte_ok_iff {byte : UInt8} :
    (∃ state, fromByte byte = .ok state) ↔ byte ≤ 2 := by
  constructor
  · rintro ⟨state, read⟩
    rw [fromByte_eq_ok] at read
    subst read
    cases state <;> decide
  · intro small
    have cases3 : byte.toNat = 0 ∨ byte.toNat = 1 ∨ byte.toNat = 2 := by
      have bound : byte.toNat ≤ 2 := small
      omega
    rcases cases3 with zero | one | two
    · exact ⟨.Locked, fromByte_eq_ok.mpr (UInt8.toNat_inj.mp zero)⟩
    · exact ⟨.Claimed, fromByte_eq_ok.mpr (UInt8.toNat_inj.mp one)⟩
    · exact ⟨.Refunded, fromByte_eq_ok.mpr (UInt8.toNat_inj.mp two)⟩

namespace HTLCEscrow

theorem readPreimage_ok_iff {data : List UInt8} (header : 125 ≤ data.length) :
    (∃ preimage, readPreimage data = .ok preimage) ↔
      125 + preimageLength data ≤ data.length := by
  unfold readPreimage preimageLength
  by_cases announced : 0 < LittleEndian.decode (slice data 121 4)
  · by_cases within : 125 + LittleEndian.decode (slice data 121 4) ≤ data.length
    · simp [announced, within]
    · simp [announced, within]
  · have none : LittleEndian.decode (slice data 121 4) = 0 := by omega
    simp [none, header]

/-- The preimage field that is read is the one that would be written. -/
theorem preimageBytes_of_read {data : List UInt8} {preimage : Option (List UInt8)}
    (header : 125 ≤ data.length) (read : readPreimage data = .ok preimage) :
    preimageBytes preimage = slice data 121 (4 + preimageLength data) := by
  have prefixBytes : LittleEndian.encode 4 (preimageLength data) = slice data 121 4 := by
    have whole := LittleEndian.encode_decode (slice data 121 4)
    rwa [length_slice (by omega)] at whole
  rw [← slice_append_slice, ← prefixBytes]
  simp only [readPreimage] at read
  split at read
  · split at read
    · rename_i within
      cases read
      simp only [preimageBytes, length_slice within]
      rfl
    · cases read
  · rename_i absent
    cases read
    have none : preimageLength data = 0 := by
      unfold preimageLength
      omega
    simp [preimageBytes, none, slice]

/-- `from_bytes` succeeds on exactly the well-formed byte strings. -/
theorem fromBytes_ok_iff {data : List UInt8} :
    (∃ escrow, fromBytes data = .ok escrow) ↔ WellFormed data := by
  by_cases long : 125 ≤ data.length
  · have within : 112 < data.length := by omega
    have stateByte : data.getD 112 0 = data.get ⟨112, within⟩ := by
      simp [List.getD, within]
    simp only [fromBytes, long, dite_true, bind_eq_ok, pure_eq_ok, WellFormed, true_and]
    rw [stateByte, ← HTLCState.fromByte_ok_iff, ← readPreimage_ok_iff long]
    constructor
    · rintro ⟨escrow, state, named, preimage, stored, -⟩
      exact ⟨⟨state, named⟩, ⟨preimage, stored⟩⟩
    · rintro ⟨⟨state, named⟩, ⟨preimage, stored⟩⟩
      exact ⟨_, state, named, preimage, stored, rfl⟩
  · simp [fromBytes, long, WellFormed]

/-- What `from_bytes` reads is written back as the bytes it was read from. -/
theorem toBytes_of_read {data : List UInt8} {escrow : HTLCEscrow}
    (read : fromBytes data = .ok escrow) :
    escrow.toBytes = data.take (125 + preimageLength data) := by
  obtain ⟨long, -, -⟩ := fromBytes_ok_iff.mp ⟨escrow, read⟩
  simp only [fromBytes, long, dite_true, bind_eq_ok, pure_eq_ok] at read
  obtain ⟨state, named, preimage, stored, rfl⟩ := read
  have stateField : [state.toByte] = slice data 112 1 := by
    rw [← HTLCState.fromByte_eq_ok.mp named]
    simp only [slice, List.get_eq_getElem]
    rw [List.drop_eq_getElem_cons (by omega)]
    rfl
  have amountField : LittleEndian.encode 16
      (BitVec.ofNat 128 (LittleEndian.decode (slice data 96 16))).toNat = slice data 96 16 :=
    encode_ofNat_decode (by decide) (length_slice (by omega))
  have timelockField : LittleEndian.encode 8
      (BitVec.ofNat 64 (LittleEndian.decode (slice data 113 8))).toNat = slice data 113 8 :=
    encode_ofNat_decode (by decide) (length_slice (by omega))
  have preimageField := preimageBytes_of_read long stored
  rw [← slice_append_slice] at preimageField
  have whole : data.take (125 + preimageLength data) =
      slice data 0 (125 + preimageLength data) := rfl
  rw [whole, show 125 + preimageLength data = 32 + (32 + (32 + (16 + (1 + (8 +
    (4 + preimageLength data)))))) by omega]
  simp only [← slice_append_slice, Nat.zero_add, Nat.reduceAdd]
  simp only [toBytes, List.Vector.toList_mk, amountField, timelockField, preimageField, stateField,
    List.append_assoc]

end HTLCEscrow

end AtomicSwaps.Lez
