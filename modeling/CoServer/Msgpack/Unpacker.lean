import CoServer.Msgpack.Packer

/-!
`Unpacker`: its position is what is left of the data. An overload fills the value
that it is handed, and what an exception leaves in that value stays there. Outside
of what the language defines are: a `subspan` beyond the data, a copy beyond the
end of a `std::array`, and an overflow of a loop counter or of a time point.
-/

namespace CoServer.Msgpack

open FormatConstants

inductive Unpacked (α : Type)
  | returned (value : α) (rest : Bytes)
  | thrown (left : α)
  | undefined
  deriving DecidableEq

namespace Unpacked

variable {α β : Type}

/-- The value is assigned when it has been read. -/
def assign (left : α) (convert : β → α) : Option (β × Bytes) → Unpacked α
  | some (value, rest) => .returned (convert value) rest
  | none => .thrown left

end Unpacked

/-- `current` and `increment` -/
def takeByte : Bytes → Option (Nat × Bytes)
  | [] => none
  | byte :: rest => some (byte.toNat, rest)

def readBytes (size : Nat) (data : Bytes) : Option (Bytes × Bytes) :=
  if size ≤ data.length then some (data.take size, data.drop size) else none

/-- `unpack_map_header` and `unpack_array_header` -/
def unpackHeader (constant16 constant32 : UInt8) : Bytes → Option (Nat × Bytes)
  | [] => none
  | constant :: rest =>
      if constant = constant32 then readIntegral 4 rest
      else if constant = constant16 then readIntegral 2 rest
      else some ((constant &&& 0x0f).toNat, rest)

def unpackMapHeader : Bytes → Option (Nat × Bytes) := unpackHeader map16 map32

def unpackArrayHeader : Bytes → Option (Nat × Bytes) := unpackHeader array16 array32

section Loop

variable {α β : Type} (unpackItem : Bytes → Unpacked α) (add : β → α → β)

def unpackLoop : Nat → β → Bytes → Unpacked β
  | 0, filled, data => .returned filled data
  | count + 1, filled, data =>
      match unpackItem data with
      | .returned item rest => unpackLoop count (add filled item) rest
      | .thrown _ => .thrown filled
      | .undefined => .undefined

/-- The counter of the loop is an `int`. -/
def unpackCounted (count : Nat) (filled : β) (data : Bytes) : Unpacked β :=
  if count < 2 ^ 31 then unpackLoop unpackItem add count filled data
  else
    match unpackLoop unpackItem add (2 ^ 31) filled data with
    | .returned _ _ => .undefined
    | .thrown left => .thrown left
    | .undefined => .undefined

def unpackSized (header : Bytes → Option (Nat × Bytes)) (filled : β) (data : Bytes) : Unpacked β :=
  match header data with
  | some (count, rest) => unpackCounted unpackItem add count filled rest
  | none => .thrown filled

end Loop

def unpackCollection {α : Type} (unpackItem : Bytes → Unpacked α) :
    List α → Bytes → Unpacked (List α) :=
  unpackSized unpackItem (fun items item => items ++ [item]) unpackArrayHeader

def unpackMap {κ ν : Type} {same : κ → κ → Bool} (unpackEntry : Bytes → Unpacked (κ × ν)) :
    Entries same ν → Bytes → Unpacked (Entries same ν) :=
  unpackSized unpackEntry (fun entries entry => entries.insertOrAssign entry.1 entry.2)
    unpackMapHeader

theorem copied_length {α : Type} {size : Nat} {items array : List α} (fits : items.length ≤ size)
    (sized : array.length = size) : (items ++ array.drop items.length).length = size := by
  rw [List.length_append, List.length_drop]
  omega

abbrev copiedOver {α : Type} {size : Nat} (array : { items : List α // items.length = size })
    (items : List α) (fits : items.length ≤ size) : { items : List α // items.length = size } :=
  ⟨items ++ array.1.drop items.length, copied_length fits array.2⟩

/-- The items are read into a vector, which is copied over the front of the array. -/
def unpackArray {α : Type} {size : Nat} (unpackItem : Bytes → Unpacked α)
    (array : { items : List α // items.length = size }) (data : Bytes) :
    Unpacked { items : List α // items.length = size } :=
  match unpackCollection unpackItem [] data with
  | .returned items rest =>
      if fits : items.length ≤ size then .returned (copiedOver array items fits) rest
      else .undefined
  | .thrown _ => .thrown array
  | .undefined => .undefined

def unpackPair {α β : Type} (unpackFirst : α → Bytes → Unpacked α) (unpackSecond : β → Bytes → Unpacked β)
    (pair : α × β) (data : Bytes) : Unpacked (α × β) :=
  match unpackFirst pair.1 data with
  | .returned first rest =>
      match unpackSecond pair.2 rest with
      | .returned second rest => .returned (first, second) rest
      | .thrown second => .thrown (first, second)
      | .undefined => .undefined
  | .thrown first => .thrown (first, pair.2)
  | .undefined => .undefined

def unpackInt8 : Bytes → Option (Int × Bytes)
  | [] => none
  | constant :: rest =>
      (takeByte (if constant = int8 then rest else constant :: rest)).map fun (byte, rest) =>
        (signed 1 byte, rest)

def unpackInt16 : Bytes → Option (Int × Bytes)
  | [] => none
  | constant :: rest =>
      if constant = int16 then (readIntegral 2 rest).map fun (value, rest) => (signed 2 value, rest)
      else if constant = int8 then unpackInt8 (constant :: rest)
      else some (signed 1 constant.toNat, rest)

-- the last branches of the two wider types do not extend the sign of the byte
def unpackInt32 : Bytes → Option (Int × Bytes)
  | [] => none
  | constant :: rest =>
      if constant = int32 then (readIntegral 4 rest).map fun (value, rest) => (signed 4 value, rest)
      else if constant = int16 then unpackInt16 (constant :: rest)
      else if constant = int8 then unpackInt8 (constant :: rest)
      else some (constant.toNat, rest)

def unpackInt64 : Bytes → Option (Int × Bytes)
  | [] => none
  | constant :: rest =>
      if constant = int64 then (readIntegral 8 rest).map fun (value, rest) => (signed 8 value, rest)
      else if constant = int32 then unpackInt32 (constant :: rest)
      else if constant = int16 then unpackInt16 (constant :: rest)
      else if constant = int8 then unpackInt8 (constant :: rest)
      else some (constant.toNat, rest)

def unpackUInt8 : Bytes → Option (Nat × Bytes)
  | [] => none
  | constant :: rest => takeByte (if constant = uint8 then rest else constant :: rest)

def unpackUInt16 : Bytes → Option (Nat × Bytes)
  | [] => none
  | constant :: rest =>
      if constant = uint16 then readIntegral 2 rest
      else takeByte (if constant = uint8 then rest else constant :: rest)

def unpackUInt32 : Bytes → Option (Nat × Bytes)
  | [] => none
  | constant :: rest =>
      if constant = uint32 then readIntegral 4 rest
      else if constant = uint16 then readIntegral 2 rest
      else takeByte (if constant = uint8 then rest else constant :: rest)

def unpackUInt64 : Bytes → Option (Nat × Bytes)
  | [] => none
  | constant :: rest =>
      if constant = uint64 then readIntegral 8 rest
      else if constant = uint32 then readIntegral 4 rest
      else if constant = uint16 then readIntegral 2 rest
      else takeByte (if constant = uint8 then rest else constant :: rest)

def unpackNullptr : Bytes → Option (Unit × Bytes)
  | [] => none
  | constant :: rest => if constant = nil then some ((), rest) else none

def unpackBool : Bytes → Option (Bool × Bytes)
  | [] => none
  | constant :: rest =>
      if constant = falseBool ∨ constant = trueBool then some (constant ≠ falseBool, rest) else none

/-- `float` and `double` -/
def unpackFloating (format : UInt8) (width : Nat) : Bytes → Option (Nat × Bytes)
  | [] => none
  | constant :: rest => if constant = format then readIntegral width rest else none

def unpackString : Bytes → Option (Bytes × Bytes)
  | [] => none
  | constant :: rest =>
      (if constant = str32 then readIntegral 4 rest
        else if constant = str16 then readIntegral 2 rest
        else if constant = str8 then readIntegral 1 rest
        else some ((constant &&& 0x1f).toNat, rest)).bind fun (size, rest) => readBytes size rest

def unpackBinary : Bytes → Option (Bytes × Bytes)
  | [] => none
  | constant :: rest =>
      (if constant = bin32 then readIntegral 4 rest
        else if constant = bin16 then readIntegral 2 rest
        else if constant = bin8 then readIntegral 1 rest
        else none).bind fun (size, rest) => readBytes size rest

/-- The sum of two durations as a count of nanoseconds. -/
def toCount (seconds nanoSeconds : Int) : Option Int64 :=
  let count := seconds * nanoSecondsPerSecond
  if -2 ^ 63 ≤ count ∧ count < 2 ^ 63 ∧ nanoSeconds + count < 2 ^ 63 then
    some (Int64.ofInt (nanoSeconds + count))
  else none

/-- The extension type of a time stamp is -1. -/
def expectTimeStamp : Bytes → Option Bytes
  | [] => none
  | type :: rest => if signed 1 type.toNat = -1 then some rest else none

def readTimePoint : Bytes → Option ((Int × Int) × Bytes)
  | [] => none
  | constant :: rest =>
      if constant = fixext4 then
        (expectTimeStamp rest).bind fun rest =>
          (readIntegral 4 rest).map fun (seconds, rest) => ((seconds, 0), rest)
      else if constant = fixext8 then
        (expectTimeStamp rest).bind fun rest =>
          (readIntegral 8 rest).map fun (data64, rest) =>
            (((data64 &&& 0x00000003FFFFFFFF : Nat), (data64 >>> 34 : Nat)), rest)
      else if constant = ext8 then
        (readIntegral 1 rest).bind fun (_, rest) =>
          (expectTimeStamp rest).bind fun rest =>
            (readIntegral 4 rest).bind fun (nanoSeconds, rest) =>
              (readIntegral 8 rest).map fun (seconds, rest) => ((signed 8 seconds, nanoSeconds), rest)
      else none

def unpackTimePoint (value : Int64) (data : Bytes) : Unpacked Int64 :=
  match readTimePoint data with
  | some ((seconds, nanoSeconds), rest) =>
      match toCount seconds nanoSeconds with
      | some count => .returned count rest
      | none => .undefined
  | none => .thrown value

/-- The size and the index of a variant. -/
def unpackVariantHeader : Bytes → Option ((Nat × Int) × Bytes)
  | [] => none
  | constant :: rest =>
      (if constant = fixext1 then some (1, rest)
        else if constant = fixext2 then some (2, rest)
        else if constant = fixext4 then some (4, rest)
        else if constant = fixext8 then some (8, rest)
        else if constant = fixext16 then some (16, rest)
        else if constant = ext8 then readIntegral 1 rest
        else if constant = ext16 then readIntegral 2 rest
        else if constant = ext32 then readIntegral 4 rest
        else none).bind fun (size, rest) =>
          (readIntegral 1 rest).map fun (index, rest) => ((size, signed 1 index), rest)

def unpackVariant {last : Nat} {α : Fin (last + 1) → Type}
    (unpackFresh : ∀ index, Bytes → Unpacked (α index)) (held : Σ index, α index) (data : Bytes) :
    Unpacked (Σ index, α index) :=
  match unpackVariantHeader data with
  | none => .thrown held
  | some ((size, index), rest) =>
      if index < 0 ∨ index > signed 1 last then .thrown held
      else if size ≤ rest.length then
        if inside : index.toNat < last + 1 then
          match unpackFresh ⟨index.toNat, inside⟩ (rest.take size) with
          | .returned value _ => .returned ⟨_, value⟩ (rest.drop size)
          | .thrown left => .thrown ⟨_, left⟩
          | .undefined => .undefined
        else .thrown held
      else .undefined

def Schema.unpack : (type : Schema) → type.Value → Bytes → Unpacked type.Value
  | .int8, left, data => .assign left Int8.ofInt (unpackInt8 data)
  | .int16, left, data => .assign left Int16.ofInt (unpackInt16 data)
  | .int32, left, data => .assign left Int32.ofInt (unpackInt32 data)
  | .int64, left, data => .assign left Int64.ofInt (unpackInt64 data)
  | .uint8, left, data => .assign left UInt8.ofNat (unpackUInt8 data)
  | .uint16, left, data => .assign left UInt16.ofNat (unpackUInt16 data)
  | .uint32, left, data => .assign left UInt32.ofNat (unpackUInt32 data)
  | .uint64, left, data => .assign left UInt64.ofNat (unpackUInt64 data)
  | .nullptr, left, data => .assign left id (unpackNullptr data)
  | .bool, left, data => .assign left id (unpackBool data)
  | .float, left, data => .assign left UInt32.ofNat (unpackFloating float32 4 data)
  | .double, left, data => .assign left UInt64.ofNat (unpackFloating float64 8 data)
  | .string, left, data => .assign left id (unpackString data)
  | .binary, left, data => .assign left id (unpackBinary data)
  | .timePoint, left, data => unpackTimePoint left data
  | .nothing, left, data => .returned left data
  | .pair first second, left, data => unpackPair first.unpack second.unpack left data
  | .collection item, left, data => unpackCollection (item.unpack item.fresh) left data
  | .array _ item, left, data => unpackArray (item.unpack item.fresh) left data
  | .map key value, left, data =>
      unpackMap (unpackPair key.unpack value.unpack (key.fresh, value.fresh)) left data
  | .variant _ _ alternative, left, data =>
      unpackVariant (fun index => (alternative index).unpack (alternative index).fresh) left data

end CoServer.Msgpack
