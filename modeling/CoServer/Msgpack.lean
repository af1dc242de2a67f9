import CoServer.BinaryMessage

/-!
The binary format of msgpack: the packed form of a value that holds one byte
vector, and the return of that vector by the unpacker.
-/

namespace CoServer

namespace FormatConstants

def bin8 : UInt8 := 0xc4

def bin16 : UInt8 := 0xc5

def bin32 : UInt8 := 0xc6

end FormatConstants

def emplaceIntegral (width value : Nat) : Bytes := (LittleEndian.bytes width value).reverse

def readIntegral (width : Nat) (data : Bytes) : Option (Nat × Bytes) :=
  if data.length < width then none
  else some (LittleEndian.value (data.take width).reverse, data.drop width)

/-- A packable value type with one member, a `std::vector<std::byte>`. -/
structure Blob where
  data : Bytes
  deriving DecidableEq, Repr

namespace Blob

def pack (value : Blob) : Bytes × Bool :=
  let size := value.data.length
  if size < 2 ^ 8 - 1 then (FormatConstants.bin8 :: UInt8.ofNat size :: value.data, true)
  else if size < 2 ^ 16 - 1 then
    (FormatConstants.bin16 :: emplaceIntegral 2 size ++ value.data, true)
  else if size < 2 ^ 32 - 1 then
    (FormatConstants.bin32 :: emplaceIntegral 4 size ++ value.data, true)
  else ([], false)

def unpackSized (value : Blob) (width : Nat) (data : Bytes) : Blob × Bool :=
  match readIntegral width data with
  | none => (value, false)
  | some (binSize, rest) =>
      if rest.length < binSize then (value, false) else (⟨rest.take binSize⟩, true)

def unpack (value : Blob) (data : Bytes) : Blob × Bool :=
  match data with
  | [] => (value, false)
  | constant :: rest =>
      if constant = FormatConstants.bin32 then value.unpackSized 4 rest
      else if constant = FormatConstants.bin16 then value.unpackSized 2 rest
      else if constant = FormatConstants.bin8 then value.unpackSized 1 rest
      else (value, false)

instance : Packable Blob where
  empty := ⟨[]⟩
  packer := pack
  unpacker := unpack

theorem readIntegral_emplace {width value : Nat} (bound : value < 256 ^ width) (rest : Bytes) :
    readIntegral width (emplaceIntegral width value ++ rest) = some (value, rest) := by
  have length : (emplaceIntegral width value).length = width := by simp [emplaceIntegral]
  have front : (emplaceIntegral width value ++ rest).take width = emplaceIntegral width value := by
    rw [List.take_append_of_le_length (Nat.le_of_eq length.symm), List.take_of_length_le
      (Nat.le_of_eq length)]
  have back : (emplaceIntegral width value ++ rest).drop width = rest := by
    rw [List.drop_append_of_le_length (Nat.le_of_eq length.symm), List.drop_of_length_le
      (Nat.le_of_eq length), List.nil_append]
  rw [readIntegral, if_neg (by simp [length]), front, back, emplaceIntegral, List.reverse_reverse,
    LittleEndian.value_bytes bound]

theorem unpackSized_emplace (width : Nat) (data : Bytes) (bound : data.length < 256 ^ width)
    (value : Blob) :
    value.unpackSized width (emplaceIntegral width data.length ++ data) = (⟨data⟩, true) := by
  simp [unpackSized, readIntegral_emplace bound]

theorem unpack_pack (value start : Blob) (packed : (pack value).2 = true) :
    unpack start (pack value).1 = (value, true) := by
  have one : ∀ size, emplaceIntegral 1 size = [UInt8.ofNat size] := fun _ => rfl
  simp only [pack] at packed ⊢
  split
  · rename_i small
    have sized := unpackSized_emplace 1 value.data (by omega) start
    rw [one] at sized
    simpa [unpack, FormatConstants.bin8, FormatConstants.bin16, FormatConstants.bin32] using sized
  · split
    · have sized := unpackSized_emplace 2 value.data (by omega) start
      simpa [unpack, FormatConstants.bin16, FormatConstants.bin32] using sized
    · split
      · have sized := unpackSized_emplace 4 value.data (by omega) start
        simpa [unpack, FormatConstants.bin32] using sized
      · rename_i large larger largest
        rw [if_neg large, if_neg larger, if_neg largest] at packed
        cases packed

end Blob

end CoServer
