import CoServer.Msgpack
import CoServer.Msgpack.Schema
import Mathlib.Algebra.Group.Int.Defs

/-!
`Packer`: the bytes that packing a value appends, and whether it returns. What has
been appended before an exception stays in the output.
-/

namespace CoServer

namespace FormatConstants

def nil : UInt8 := 0xc0

def falseBool : UInt8 := 0xc2

def trueBool : UInt8 := 0xc3

def ext8 : UInt8 := 0xc7

def ext16 : UInt8 := 0xc8

def ext32 : UInt8 := 0xc9

def float32 : UInt8 := 0xca

def float64 : UInt8 := 0xcb

def uint8 : UInt8 := 0xcc

def uint16 : UInt8 := 0xcd

def uint32 : UInt8 := 0xce

def uint64 : UInt8 := 0xcf

def int8 : UInt8 := 0xd0

def int16 : UInt8 := 0xd1

def int32 : UInt8 := 0xd2

def int64 : UInt8 := 0xd3

def fixext1 : UInt8 := 0xd4

def fixext2 : UInt8 := 0xd5

def fixext4 : UInt8 := 0xd6

def fixext8 : UInt8 := 0xd7

def fixext16 : UInt8 := 0xd8

def str8 : UInt8 := 0xd9

def str16 : UInt8 := 0xda

def str32 : UInt8 := 0xdb

def array16 : UInt8 := 0xdc

def array32 : UInt8 := 0xdd

def map16 : UInt8 := 0xde

def map32 : UInt8 := 0xdf

end FormatConstants

namespace Msgpack

open FormatConstants

abbrev Packed := Bytes × Bool

def returns (bytes : Bytes) : Packed := (bytes, true)

def throws : Packed := ([], false)

def Packed.andThen (first next : Packed) : Packed :=
  if first.2 then (first.1 ++ next.1, next.2) else first

theorem Packed.andThen_eq {first next : Packed} {bytes : Bytes} :
    first.andThen next = (bytes, true) ↔
      ∃ front back, first = (front, true) ∧ next = (back, true) ∧ bytes = front ++ back := by
  obtain ⟨front, completed⟩ := first
  obtain ⟨back, completed'⟩ := next
  cases completed with
  | false => simp [andThen]
  | true =>
      simp only [andThen, ↓reduceIte, Prod.mk.injEq, and_true]
      constructor
      · rintro ⟨rfl, rfl⟩
        exact ⟨front, back, rfl, ⟨rfl, rfl⟩, rfl⟩
      · rintro ⟨_, _, rfl, ⟨rfl, rfl⟩, rfl⟩
        exact ⟨rfl, rfl⟩

/-- The casts between signed and unsigned integers of so many bytes. -/
def unsigned (width : Nat) (value : Int) : Nat := (value % 256 ^ width).toNat

def signed (width value : Nat) : Int := (value : Int).bmod (256 ^ width)

def emplaceCombined (constant : UInt8) (width value : Nat) : Bytes :=
  constant :: emplaceIntegral width value

/-- `pack_map_header` and `pack_array_header` -/
def packHeader (sizeMask constant16 constant32 : UInt8) (size : Nat) : Packed :=
  if size < 16 then returns [UInt8.ofNat size ||| sizeMask]
  else if size < 2 ^ 16 - 1 then returns (emplaceCombined constant16 2 size)
  else if size < 2 ^ 32 - 1 then returns (emplaceCombined constant32 4 size)
  else throws

def packMapHeader : Nat → Packed := packHeader 0x80 map16 map32

def packArrayHeader : Nat → Packed := packHeader 0x90 array16 array32

def packItems {α : Type} (pack : α → Packed) : List α → Packed
  | [] => returns []
  | item :: rest => (pack item).andThen (packItems pack rest)

def packInt8 (value : Int) : Bytes :=
  (if value > 31 ∨ value < -32 then [int8] else []) ++ [UInt8.ofNat (unsigned 1 value)]

def packInt16 (value : Int) : Bytes :=
  if value > -2 ^ 7 ∧ value < 2 ^ 7 - 1 then packInt8 value
  else emplaceCombined int16 2 (unsigned 2 value)

def packInt32 (value : Int) : Bytes :=
  if value > -2 ^ 15 ∧ value < 2 ^ 15 - 1 then packInt16 value
  else emplaceCombined int32 4 (unsigned 4 value)

def packInt64 (value : Int) : Bytes :=
  if value > -2 ^ 31 ∧ value < 2 ^ 31 - 1 then packInt32 value
  else emplaceCombined int64 8 (unsigned 8 value)

def packUInt8 (value : Nat) : Bytes :=
  if value < 0x80 then [UInt8.ofNat value] else [uint8, UInt8.ofNat value]

def packUInt16 (value : Nat) : Bytes :=
  if value > 2 ^ 8 - 1 then emplaceCombined uint16 2 value else packUInt8 value

def packUInt32 (value : Nat) : Bytes :=
  if value > 2 ^ 16 - 1 then emplaceCombined uint32 4 value else packUInt16 value

def packUInt64 (value : Nat) : Bytes :=
  if value > 2 ^ 32 - 1 then emplaceCombined uint64 8 value else packUInt32 value

def packBool (value : Bool) : Bytes := if value then [trueBool] else [falseBool]

def packString (value : Bytes) : Packed :=
  if value.length < 32 then returns ((UInt8.ofNat value.length ||| 0xa0) :: value)
  else if value.length < 2 ^ 8 - 1 then returns (str8 :: UInt8.ofNat value.length :: value)
  else if value.length < 2 ^ 16 - 1 then returns (emplaceCombined str16 2 value.length ++ value)
  else if value.length < 2 ^ 32 - 1 then returns (emplaceCombined str32 4 value.length ++ value)
  else throws

def packBinary (value : Bytes) : Packed := Blob.pack ⟨value⟩

def nanoSecondsPerSecond : Int := 10 ^ 9

/-- The seconds before a count of nanoseconds, and the nanoseconds from there to it. -/
def splitCount (count : Int) : Int × Int :=
  let nanoSeconds := count.tmod nanoSecondsPerSecond
  let (seconds, nanoSeconds) :=
    if nanoSeconds < 0 then (-1, nanoSecondsPerSecond + nanoSeconds) else (0, nanoSeconds)
  (seconds + count.tdiv nanoSecondsPerSecond, nanoSeconds)

def packTimePoint (count : Int) : Bytes :=
  let (seconds, nanoSeconds) := splitCount count
  if seconds / 2 ^ 34 = 0 then
    let data64 := nanoSeconds.toNat <<< 34 ||| seconds.toNat
    if data64 &&& 0xFFFFFFFC00000000 = 0 then
      fixext4 :: UInt8.ofNat (unsigned 1 (-1)) :: emplaceIntegral 4 (data64 % 2 ^ 32)
    else fixext8 :: UInt8.ofNat (unsigned 1 (-1)) :: emplaceIntegral 8 data64
  else
    ext8 :: 12 :: UInt8.ofNat (unsigned 1 (-1)) ::
      (emplaceIntegral 4 nanoSeconds.toNat ++ emplaceIntegral 8 (unsigned 8 seconds))

def packVariantHeader (size : Nat) : Packed :=
  if size = 1 then returns [fixext1]
  else if size = 2 then returns [fixext2]
  else if size = 4 then returns [fixext4]
  else if size = 8 then returns [fixext8]
  else if size = 16 then returns [fixext16]
  else if size < 2 ^ 8 - 1 then returns (emplaceCombined ext8 1 size)
  else if size < 2 ^ 16 - 1 then returns (emplaceCombined ext16 2 size)
  else if size < 2 ^ 32 - 1 then returns (emplaceCombined ext32 4 size)
  else throws

/-- The held value is packed twice, first to count its bytes. -/
def packVariant (index : Nat) (held : Packed) : Packed :=
  if held.2 then
    if signed 1 index > 127 then throws
    else (packVariantHeader held.1.length).andThen ((returns [UInt8.ofNat index]).andThen held)
  else throws

def Schema.pack : (type : Schema) → type.Value → Packed
  | .int8, (value : Int8) => returns (packInt8 value.toInt)
  | .int16, (value : Int16) => returns (packInt16 value.toInt)
  | .int32, (value : Int32) => returns (packInt32 value.toInt)
  | .int64, (value : Int64) => returns (packInt64 value.toInt)
  | .uint8, (value : UInt8) => returns (packUInt8 value.toNat)
  | .uint16, (value : UInt16) => returns (packUInt16 value.toNat)
  | .uint32, (value : UInt32) => returns (packUInt32 value.toNat)
  | .uint64, (value : UInt64) => returns (packUInt64 value.toNat)
  | .nullptr, _ => returns [nil]
  | .bool, (value : Bool) => returns (packBool value)
  | .float, (value : UInt32) => returns (emplaceCombined float32 4 value.toNat)
  | .double, (value : UInt64) => returns (emplaceCombined float64 8 value.toNat)
  | .string, value => packString value
  | .binary, value => packBinary value
  | .timePoint, (value : Int64) => returns (packTimePoint value.toInt)
  | .nothing, _ => returns []
  | .pair first second, value => (first.pack value.1).andThen (second.pack value.2)
  | .collection item, (items : List item.Value) =>
      (packArrayHeader items.length).andThen (packItems item.pack items)
  | .array _ item, items => (packArrayHeader items.1.length).andThen (packItems item.pack items.1)
  | .map key value, entries =>
      (packMapHeader entries.list.length).andThen
        (packItems (fun entry => (key.pack entry.1).andThen (value.pack entry.2)) entries.list)
  | .variant _ _ alternative, held => packVariant held.1 ((alternative held.1).pack held.2)

end Msgpack

end CoServer
