import CoServer.Connection
import CoServer.Foundation.LittleEndian

/-!
`BinaryMessage`: a payload behind its length in eight bytes, most significant
first. `length_` is a native integer of a little endian machine, so its memory is
`LittleEndian.bytes 8`. The packer and the unpacker of the value type are
parameters. `none` stands for an exception of `resize` and for undefined behaviour.
-/

namespace CoServer

/-- What msgpack does with a value type: the bytes its packer appends and whether
it returns, and the value its unpacker leaves and whether it returns. -/
class Packable (T : Type) where
  empty : T
  packer : T → Bytes × Bool
  unpacker : T → Bytes → T × Bool

structure BinaryMessage (T : Type) where
  length : Nat
  headIdx : Nat
  buffer : Bytes
  bodyIdx : Nat
  value : T
  deriving DecidableEq

namespace BinaryMessage

variable {T : Type}

/-- Construction from a value; `length_` is left with whatever its memory held. -/
def ofValue (uninitialized : Nat) (value : T) : BinaryMessage T where
  length := uninitialized
  headIdx := 0
  buffer := []
  bodyIdx := 0
  value := value

def pack [Packable T] (msg : BinaryMessage T) : Error × BinaryMessage T :=
  let (packed, completed) := Packable.packer msg.value
  if completed then
    (none, ⟨packed.length, 0, packed, 0, Packable.empty⟩)
  else
    (some .serializationError, ⟨0, 0, packed, 0, msg.value⟩)

def unpack [Packable T] (msg : BinaryMessage T) : Error × BinaryMessage T :=
  let (value, completed) := Packable.unpacker (Packable.empty : T) msg.buffer
  if completed then
    (none, { msg with value := value, buffer := [] })
  else
    (some .deserializationError, { msg with value := value })

def consumeHeaderSome (msg : BinaryMessage T) (data : Bytes) : Reply × BinaryMessage T :=
  let remaining := 8 - msg.headIdx
  let numCopy := min data.length remaining
  let headBytes := Splice.store (LittleEndian.bytes 8 msg.length) msg.headIdx (data.take numCopy)
  let headIdx := msg.headIdx + numCopy
  ((none, decide (headIdx ≥ 8), numCopy),
    { msg with
      length := LittleEndian.swap 8 (LittleEndian.value headBytes)
      headIdx := headIdx })

/-- The buffer of a body call, which has the size of the length. -/
def sizedBuffer (msg : BinaryMessage T) : Option Bytes :=
  if msg.buffer.length ≠ msg.length then resize msg.buffer msg.length else some msg.buffer

def consumeBodySome (msg : BinaryMessage T) (data : Bytes) : Option (Reply × BinaryMessage T) :=
  msg.sizedBuffer.map fun buffer =>
    let remaining := msg.length - msg.bodyIdx
    let numCopy := min data.length remaining
    let bodyIdx := msg.bodyIdx + numCopy
    ((none, decide (bodyIdx ≥ msg.length), numCopy),
      { msg with
        buffer := Splice.store buffer msg.bodyIdx (data.take numCopy)
        bodyIdx := bodyIdx })

def produceHeaderSome (msg : BinaryMessage T) (out : Bytes) : Reply × Bytes × BinaryMessage T :=
  let remaining := 8 - msg.headIdx
  let numCopy := min out.length remaining
  let lengthVal := LittleEndian.swap 8 msg.length
  let headIdx := msg.headIdx + numCopy
  let finished := decide (headIdx ≥ 8)
  ((none, finished, numCopy),
    Splice.store out 0 (Splice.window (LittleEndian.bytes 8 lengthVal) msg.headIdx numCopy),
    { msg with headIdx := if finished then 0 else headIdx })

def produceBodySome (msg : BinaryMessage T) (out : Bytes) :
    Option (Reply × Bytes × BinaryMessage T) :=
  msg.sizedBuffer.map fun buffer =>
    let remaining := msg.length - msg.bodyIdx
    let numCopy := min out.length remaining
    let bodyIdx := msg.bodyIdx + numCopy
    let finished := decide (bodyIdx ≥ msg.length)
    ((none, finished, numCopy), Splice.store out 0 (Splice.window buffer msg.bodyIdx numCopy),
      { msg with buffer := buffer, bodyIdx := if finished then 0 else bodyIdx })

-- A new length may be less than what has been read or written of the old body. The
-- difference then wraps, and the copy is outside of the buffer.
instance : MessageLike (BinaryMessage T) where
  consumeHeaderSome msg data := some (msg.consumeHeaderSome data)
  consumeBodySome msg data := if msg.bodyIdx ≤ msg.length then msg.consumeBodySome data else none
  produceHeaderSome msg out := some (msg.produceHeaderSome out)
  produceBodySome msg out := if msg.bodyIdx ≤ msg.length then msg.produceBodySome out else none

end BinaryMessage

end CoServer
