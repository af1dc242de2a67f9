import CoServer.Http.PicoHttp

/-!
The chunked decoder of picohttpparser. `src` and `dst` of the C code are the bytes
left of the buffer and the bytes decoded so far; since `dst` never passes `src`,
the buffer holds the decoded bytes, then the undecoded ones, and then what it held
before. The machine takes one byte at a time, data included.
-/

namespace CoServer.Http

inductive ChunkedState
  | inChunkSize
  | inChunkExt
  | inChunkHeaderExpectLf
  | inChunkData
  | inChunkDataExpectCr
  | inChunkDataExpectLf
  | inTrailersLineHead
  | inTrailersLineMiddle
  deriving DecidableEq, Repr

structure ChunkedDecoder where
  bytesLeftInChunk : Nat
  consumeTrailer : Bool
  hexCount : Nat
  state : ChunkedState
  totalRead : Nat
  totalOverhead : Nat
  deriving DecidableEq, Repr

def decodeHex (char : UInt8) : Option Nat :=
  if 0x30 ≤ char ∧ char ≤ 0x39 then some (char.toNat - 0x30)
  else if 0x41 ≤ char ∧ char ≤ 0x46 then some (char.toNat - 0x41 + 0xa)
  else if 0x61 ≤ char ∧ char ≤ 0x66 then some (char.toNat - 0x61 + 0xa)
  else none

/-- What the machine does with a byte: it rejects it, takes it and may decode it, or
takes it as the last one. -/
inductive ChunkedMove
  | rejected (decoder : ChunkedDecoder)
  | taken (decoder : ChunkedDecoder) (decoded : Bytes)
  | completed (decoder : ChunkedDecoder)
  deriving DecidableEq, Repr

namespace ChunkedDecoder

def chunkExt (decoder : ChunkedDecoder) (char : UInt8) : ChunkedMove :=
  if char = cr then .taken { decoder with state := .inChunkHeaderExpectLf } []
  else if char = lf then .rejected decoder
  else .taken decoder []

def chunkSize (decoder : ChunkedDecoder) (char : UInt8) : ChunkedMove :=
  match decodeHex char with
  | none =>
      if decoder.hexCount = 0 then .rejected decoder
      else if char = space ∨ char = tab ∨ char = 0x3b ∨ char = lf ∨ char = cr then
        chunkExt { decoder with hexCount := 0, state := .inChunkExt } char
      else .rejected decoder
  | some digit =>
      if decoder.hexCount = 16 then .rejected decoder
      else .taken { decoder with
        bytesLeftInChunk := decoder.bytesLeftInChunk * 16 + digit
        hexCount := decoder.hexCount + 1 } []

def chunkHeaderExpectLf (decoder : ChunkedDecoder) (char : UInt8) : ChunkedMove :=
  if char ≠ lf then .rejected decoder
  else if decoder.bytesLeftInChunk = 0 then
    if decoder.consumeTrailer then .taken { decoder with state := .inTrailersLineHead } []
    else .completed decoder
  else .taken { decoder with state := .inChunkData } []

def chunkDataExpectCr (decoder : ChunkedDecoder) (char : UInt8) : ChunkedMove :=
  if char ≠ cr then .rejected decoder
  else .taken { decoder with state := .inChunkDataExpectLf } []

def chunkData (decoder : ChunkedDecoder) (char : UInt8) : ChunkedMove :=
  if decoder.bytesLeftInChunk = 0 then
    chunkDataExpectCr { decoder with state := .inChunkDataExpectCr } char
  else
    .taken { decoder with
      bytesLeftInChunk := decoder.bytesLeftInChunk - 1
      state := if decoder.bytesLeftInChunk = 1 then .inChunkDataExpectCr else .inChunkData } [char]

def chunkDataExpectLf (decoder : ChunkedDecoder) (char : UInt8) : ChunkedMove :=
  if char ≠ lf then .rejected decoder else .taken { decoder with state := .inChunkSize } []

def trailersLineHead (decoder : ChunkedDecoder) (char : UInt8) : ChunkedMove :=
  if char = cr then .taken decoder []
  else if char = lf then .completed decoder
  else .taken { decoder with state := .inTrailersLineMiddle } []

def trailersLineMiddle (decoder : ChunkedDecoder) (char : UInt8) : ChunkedMove :=
  if char = lf then .taken { decoder with state := .inTrailersLineHead } []
  else .taken decoder []

def move (decoder : ChunkedDecoder) : UInt8 → ChunkedMove :=
  match decoder.state with
  | .inChunkSize => decoder.chunkSize
  | .inChunkExt => decoder.chunkExt
  | .inChunkHeaderExpectLf => decoder.chunkHeaderExpectLf
  | .inChunkData => decoder.chunkData
  | .inChunkDataExpectCr => decoder.chunkDataExpectCr
  | .inChunkDataExpectLf => decoder.chunkDataExpectLf
  | .inTrailersLineHead => decoder.trailersLineHead
  | .inTrailersLineMiddle => decoder.trailersLineMiddle

/-- The return value, the decoder, the decoded bytes and the undecoded ones. -/
def run (decoder : ChunkedDecoder) (decoded : Bytes) : Bytes → Int × ChunkedDecoder × Bytes × Bytes
  | [] => (-2, decoder, decoded, [])
  | char :: rest =>
      match decoder.move char with
      | .rejected decoder => (-1, decoder, decoded, char :: rest)
      | .taken decoder more => run decoder (decoded ++ more) rest
      | .completed decoder => (rest.length, decoder, decoded, rest)

end ChunkedDecoder

/-- The return value, the decoder, the buffer, and the length decoded. -/
def phrDecodeChunked (decoder : ChunkedDecoder) (buf : Bytes) : Int × ChunkedDecoder × Bytes × Nat :=
  let (ret, decoder, decoded, rest) :=
    { decoder with totalRead := decoder.totalRead + buf.length }.run [] buf
  let buf' := decoded ++ rest ++ buf.drop (decoded.length + rest.length)
  if ret = -2 then
    let overhead := decoder.totalOverhead + (buf.length - decoded.length)
    let decoder := { decoder with totalOverhead := overhead }
    if overhead ≥ 100 * 1024 ∧ decoder.totalRead - overhead < decoder.totalRead / 4 then
      (-1, decoder, buf', decoded.length)
    else (-2, decoder, buf', decoded.length)
  else (ret, decoder, buf', decoded.length)

/-- The decoder of a request: zeros but for the trailer, which is consumed. -/
def ChunkedDecoder.init : ChunkedDecoder := ⟨0, true, 0, .inChunkSize, 0, 0⟩

end CoServer.Http
