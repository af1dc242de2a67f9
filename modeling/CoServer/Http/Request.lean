import CoServer.Connection
import CoServer.Http.ChunkedDecoder
import CoServer.Http.Field
import Mathlib.Data.List.Infix

/-!
`Http::Request`: the scan for the end of the head, the fields taken from the
parsed head, and the body by its length or by chunks. A view into the header
buffer is the text it shows. `none` stands for undefined behaviour and for an
exception: `back()` of an empty path, a copy beyond the end of the body, and a
resize to a size below zero. The other sizes of a body are at most `maxBodySize_`,
a MiB, so that `resize` returns.
-/

namespace CoServer.Http

def maxNumHeaders : Nat := 32

structure Request where
  headerBuffer : Bytes
  maxHeaderSize : Nat
  headerBufferIdx : Nat
  last : UInt8
  numFound : UInt8
  body : Bytes
  maxBodySize : Nat
  bodyIdx : Nat
  chunkedDecoder : ChunkedDecoder
  method : Bytes
  target : Bytes
  version : Bytes
  path : List Bytes
  params : List (Bytes × Bytes)
  contentLength : Option Nat
  chunked : Bool
  fields : List (Bytes × Bytes)
  numHeaders : Nat
  deriving DecidableEq

namespace Request

def ofBuffer (headerBuffer : Bytes) : Request where
  headerBuffer := headerBuffer
  maxHeaderSize := headerBuffer.length
  headerBufferIdx := 0
  last := 0
  numFound := 0
  body := []
  maxBodySize := 1024 * 1024
  bodyIdx := 0
  chunkedDecoder := .init
  method := []
  target := []
  version := []
  path := []
  params := []
  contentLength := none
  chunked := false
  fields := List.replicate maxNumHeaders ([], [])
  numHeaders := 0

def ofSize (maxHeaderSize : Nat) : Request := ofBuffer (List.replicate maxHeaderSize 0)

def get (req : Request) (field : Field) : Option Bytes :=
  ((req.fields.take req.numHeaders).find? fun entry => field.named entry.1).map Prod.snd

def getNamed (req : Request) (field : Bytes) : Option Bytes :=
  ((req.fields.take req.numHeaders).find? fun entry => entry.1 == field).map Prod.snd

def getList (req : Request) (field : Field) : List Bytes :=
  ((req.fields.take req.numHeaders).filter fun entry => field.named entry.1).map Prod.snd

/-- The pairs of a query; one round for each unit of fuel. -/
def splitQuery (query : Bytes) : Nat → Nat → List (Bytes × Bytes)
  | 0, _ => []
  | fuel + 1, start =>
      if start < query.length then
        let amp := (findChar query 0x26 start).getD query.length
        let pair := Splice.window query start (amp - start)
        let entry := match findChar pair 0x3d 0 with
          | some eq => (pair.take eq, pair.drop (eq + 1))
          | none => (pair, [])
        entry :: splitQuery query fuel (amp + 1)
      else []

/-- The length of the body, when the head has a field for it; `none` when that is
no number. -/
def readContentLength (req : Request) : Option Request :=
  match req.get .contentLength with
  | none => some req
  | some text =>
      match fromChars text with
      | none => none
      | some value => some { req with contentLength := some value }

def readChunked (req : Request) : Request :=
  if req.contentLength.isNone ∧
      (req.getList .transferEncoding).any (fun text => decide (ascii "chunked" <:+: text)) then
    { req with chunked := true }
  else req

/-- The target before its question mark, and the query behind it. -/
def splitTarget (target : Bytes) : Bytes × Option Bytes :=
  match findChar target 0x3f 0 with
  | none => (target, none)
  | some pos => (target.take pos, some (target.drop (pos + 1)))

def readTarget (req : Request) : Option Request :=
  let (pathPart, query) := splitTarget req.target
  (splitPath pathPart).map fun spans =>
    let req := { req with
      path := req.path ++
        spans.map fun span => Splice.window pathPart span.position span.length }
    match query with
    | none => req
    | some query => { req with params := req.params ++ splitQuery query query.length 0 }

def versionText (minorVersion : Nat) : Bytes :=
  if minorVersion = 0 then ascii "1.0" else if minorVersion = 1 then ascii "1.1" else ascii "1.1"

def fieldsOf (headers : List PhrHeader) : List (Bytes × Bytes) :=
  headers.map fun header => (header.name.getD [], header.value)

def deserialize (req : Request) : Option (Bool × Request) :=
  let (ret, numHeaders, parsed) := phrParseRequest req.headerBuffer maxNumHeaders
  let req := { req with numHeaders := numHeaders }
  if ret ≤ 0 then some (false, req)
  else
    match parsed with
    | none => none
    | some parsed =>
        let req := { req with
          method := parsed.method
          target := parsed.path
          version := versionText parsed.minorVersion
          fields := Splice.store req.fields 0 (fieldsOf parsed.headers) }
        match req.readContentLength with
        | none => some (false, req)
        | some req => req.readChunked.readTarget.map fun req => (true, req)

/-- `last_` and `numFound_` after a byte. -/
def scanStep (state : UInt8 × UInt8) (char : UInt8) : UInt8 × UInt8 :=
  (char,
    if char = cr ∧ state.1 ≠ cr then state.2 + 1
    else if char = lf ∧ state.1 = cr then state.2 + 1
    else 0)

/-- The loop over the bytes, with the number read. -/
def scan : Bytes → Nat → UInt8 × UInt8 → Nat → (UInt8 × UInt8) × Nat
  | [], _, state, numRead => (state, numRead)
  | char :: rest, index, state, numRead =>
      let state := scanStep state char
      scan rest (index + 1) state (if state.2 = 4 then index + 1 else numRead)

/-- The request after the loop, and the number of bytes to copy. -/
def scanData (req : Request) (data : Bytes) : Request × Nat :=
  let writeable := req.maxHeaderSize - req.headerBufferIdx
  let maxRead := if writeable ≥ data.length then data.length else writeable
  let (state, numRead) := scan (data.take maxRead) 0 (req.last, req.numFound) maxRead
  ({ req with last := state.1, numFound := state.2 }, numRead)

def copyHeader (req : Request) (data : Bytes) (numRead : Nat) : Request :=
  { req with
    headerBuffer := Splice.store req.headerBuffer req.headerBufferIdx (data.take numRead)
    headerBufferIdx := req.headerBufferIdx + numRead }

def acceptHeader (req : Request) (numRead : Nat) : Option (Reply × Request) :=
  match req.deserialize with
  | none => none
  | some (false, req) => some ((some .invalidMessage, true, 0), req)
  | some (true, req) => some ((none, true, numRead), req)

def consumeHeaderSome (req : Request) (data : Bytes) : Option (Reply × Request) :=
  let writeable := req.maxHeaderSize - req.headerBufferIdx
  let (req, numRead) := req.scanData data
  let finished := decide (req.numFound = 4)
  if numRead = writeable ∧ finished = false then some ((some .invalidMessage, true, 0), req)
  else
    let req := req.copyHeader data numRead
    if finished then req.acceptHeader numRead else some ((none, false, numRead), req)

def consumeSizedSome (req : Request) (length : Nat) (data : Bytes) : Option (Reply × Request) :=
  if length > req.maxBodySize then some ((some .invalidMessage, true, 0), req)
  else
    let body := if req.body.length ≠ length then resizeTo req.body length else req.body
    let writeable := length - req.bodyIdx
    let numCopy := min data.length writeable
    let bodyIdx := req.bodyIdx + numCopy
    some ((none, decide (bodyIdx ≥ length), numCopy),
      { req with
        body := Splice.store body req.bodyIdx (data.take numCopy)
        bodyIdx := bodyIdx })

/-- The body as it is resized before a chunk is copied. -/
def growBody (req : Request) (numCopy : Nat) : Request :=
  let body := if req.body.length < 1024 then resizeTo req.body 1024 else req.body
  { req with
    body :=
      if body.length < req.bodyIdx + numCopy then resizeTo body (min req.maxBodySize (body.length * 2))
      else body }

/-- What follows the decoding, from its return value and the length decoded. -/
def chunkReply (req : Request) (ret : Int) (size : Nat) : Option (Reply × Request) :=
  if ret = -1 then some ((some .invalidMessage, true, 0), req)
  else if ret = -2 then some ((none, false, size), { req with bodyIdx := req.bodyIdx + size })
  else if req.bodyIdx + size < ret.toNat then none
  else
    -- a difference below zero wraps, and the caller gets it as it is
    let encoded := if ret.toNat ≤ size then size - ret.toNat else size + sizeModulus - ret.toNat
    some ((none, true, encoded),
      { req with body := resizeTo req.body (req.bodyIdx + size - ret.toNat) })

def consumeChunkedSome (req : Request) (data : Bytes) : Option (Reply × Request) :=
  let writeable := req.maxBodySize - req.bodyIdx
  let numCopy := min data.length writeable
  let req := req.growBody numCopy
  if writeable = 0 then some ((some .invalidMessage, true, 0), req)
  else if req.bodyIdx + numCopy > req.body.length then none
  else
    let (ret, decoder, decoded, size) := phrDecodeChunked req.chunkedDecoder (data.take numCopy)
    { req with
      body := Splice.store req.body req.bodyIdx decoded
      chunkedDecoder := decoder }.chunkReply ret size

def consumeBodySome (req : Request) (data : Bytes) : Option (Reply × Request) :=
  match req.contentLength with
  | some (length + 1) => req.consumeSizedSome (length + 1) data
  | _ => if req.chunked then req.consumeChunkedSome data else some ((none, true, 0), req)

theorem consumeHeaderSome_ok {req req' : Request} {data : Bytes} {complete : Bool} {count : Nat}
    (reply : req.consumeHeaderSome data = some ((none, complete, count), req')) :
    count = (req.scanData data).2 ∧
      ((complete = true ∧ (req.scanData data).1.numFound = 4 ∧
        ((req.scanData data).1.copyHeader data count).deserialize = some (true, req')) ∨
      (complete = false ∧ (req.scanData data).1.numFound ≠ 4 ∧
        count ≠ req.maxHeaderSize - req.headerBufferIdx ∧
        req' = (req.scanData data).1.copyHeader data count)) := by
  simp only [consumeHeaderSome] at reply
  by_cases finished : (req.scanData data).1.numFound = 4
  · simp only [finished, decide_true, Bool.true_eq_false, and_false, ↓reduceIte, acceptHeader] at reply
    split at reply
    · cases reply
    · cases reply
    · rename_i accepted
      cases reply
      exact ⟨rfl, Or.inl ⟨rfl, finished, accepted⟩⟩
  · simp only [finished, decide_false, and_true, Bool.false_eq_true, ↓reduceIte] at reply
    by_cases full : (req.scanData data).2 = req.maxHeaderSize - req.headerBufferIdx
    · rw [if_pos full] at reply
      cases reply
    · rw [if_neg full] at reply
      cases reply
      exact ⟨rfl, Or.inr ⟨rfl, finished, full, rfl⟩⟩

instance : MessageLike Request where
  consumeHeaderSome := consumeHeaderSome
  consumeBodySome := consumeBodySome
  produceHeaderSome req out := some ((some .invalidMessage, true, 0), out, req)
  produceBodySome req out := some ((some .invalidMessage, true, 0), out, req)

end Request

end CoServer.Http
