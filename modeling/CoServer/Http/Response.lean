import CoServer.Connection
import CoServer.Http.Field

/-!
`Http::Response`: the header grows in a buffer that is given or allocated, and
that `alloc_` replaces by a larger one when it is full; the same index serves to
write the header and then to hand it out. Memory that is allocated but not
written holds zeros here, and is never read. Allocation succeeds. `none` stands for
the exception of a `resize` beyond `max_size`.
-/

namespace CoServer.Http

structure Response where
  headerBuffer : Bytes
  headerBufferIdx : Nat
  headerSize : Nat
  defaultKeepAlive : Bool
  contentLength : Nat
  hasContentType : Bool
  hasConnection : Bool
  serialized : Bool
  stringBody : Bytes
  body : Bytes
  bodyIdx : Nat
  isBodyString : Bool

namespace Response

def blank (headerBuffer : Bytes) (uninitialized : Bool) : Response where
  headerBuffer := headerBuffer
  headerBufferIdx := 0
  headerSize := 0
  defaultKeepAlive := true
  contentLength := 0
  hasContentType := false
  hasConnection := false
  serialized := false
  stringBody := []
  body := []
  bodyIdx := 0
  isBodyString := uninitialized

def alloc (res : Response) (num : Nat) : Response :=
  { res with
    headerBuffer :=
      if res.headerBuffer.length ≤ res.headerBufferIdx + num then
        let newSize := max (res.headerBuffer.length + res.headerBuffer.length / 2 + 1)
          (res.headerBufferIdx + num)
        Splice.store (List.replicate newSize 0) 0
          (Splice.window res.headerBuffer 0 res.headerBufferIdx)
      else res.headerBuffer }

/-- The `memcpy` of a text behind the header so far. -/
def put (res : Response) (text : Bytes) : Response :=
  { res with
    headerBuffer := Splice.store res.headerBuffer res.headerBufferIdx text
    headerBufferIdx := res.headerBufferIdx + text.length }

def init (res : Response) (status reason version : Bytes) : Response :=
  let res := { res with
    defaultKeepAlive := if version = ascii "1.0" then false else res.defaultKeepAlive }
  let fieldSize := (ascii "HTTP/").length + version.length + 1 + status.length + 1 +
    reason.length + (ascii "\r\n").length
  let res := res.alloc fieldSize
  (((((((res.put (ascii "HTTP/")).put version).put (ascii " ")).put status).put (ascii " ")).put
    reason).put (ascii "\r\n"))

def ofStatus (status : Status) (version headerBuffer : Bytes) (uninitialized : Bool) : Response :=
  (blank headerBuffer uninitialized).init (statusStrArr status).1 (statusStrArr status).2 version

/-- `none` when the number does not fit into the ten characters it is printed to. -/
def ofNumber (status : Int × Bytes) (version headerBuffer : Bytes) (uninitialized : Bool) :
    Option Response :=
  if (toChars status.1).length ≤ 10 then
    some ((blank headerBuffer uninitialized).init (toChars status.1) status.2 version)
  else none

def ofStatusAllocated (status : Status) (version : Bytes) (uninitialized : Bool) : Response :=
  ((blank [] uninitialized).alloc 4096).init (statusStrArr status).1 (statusStrArr status).2 version

def ofNumberAllocated (status : Int × Bytes) (version : Bytes) (uninitialized : Bool) :
    Option Response :=
  if (toChars status.1).length ≤ 10 then
    some (((blank [] uninitialized).alloc 4096).init (toChars status.1) status.2 version)
  else none

def putField (res : Response) (name value : Bytes) : Response :=
  let fieldSize := name.length + (ascii ": ").length + value.length + (ascii "\r\n").length
  ((((res.alloc fieldSize).put name).put (ascii ": ")).put value).put (ascii "\r\n")

def set (res : Response) (field : Field) (value : Bytes) : Response :=
  let res :=
    if field = .contentType then { res with hasContentType := true }
    else if field = .connection then { res with hasConnection := true }
    else if field = .contentLength then
      { res with contentLength := (fromChars value).getD res.contentLength }
    else res
  res.putField (fieldStrArr field) value

def setNamed (res : Response) (field value : Bytes) : Response :=
  let res :=
    if Field.contentType.named field then { res with hasContentType := true }
    else if Field.connection.named field then { res with hasConnection := true }
    else if Field.contentLength.named field then
      { res with contentLength := (fromChars value).getD res.contentLength }
    else res
  res.putField field value

def setBody (res : Response) (data : Bytes) : Response :=
  { res with stringBody := [], body := data, isBodyString := false }

def setBodyString (res : Response) (data : Bytes) : Response :=
  { res with body := [], stringBody := data, isBodyString := true }

def serialize (res : Response) : Response :=
  let res := { res with serialized := true }
  let hasBody := decide (res.body.length + res.stringBody.length > 0)
  let res :=
    if !res.hasContentType && hasBody then
      res.set .contentType
        (if res.isBodyString then ascii "text/plain" else ascii "application/octet-stream")
    else res
  let res :=
    if !res.hasConnection then
      res.set .connection (if res.defaultKeepAlive then ascii "keep-alive" else ascii "close")
    else res
  let res :=
    if res.contentLength = 0 then
      let length := if res.isBodyString then res.stringBody.length else res.body.length
      { res with contentLength := length }.set .contentLength (toChars length)
    else res
  (res.alloc (ascii "\r\n").length).put (ascii "\r\n")

def produceHeaderSome (res : Response) (out : Bytes) : Reply × Bytes × Response :=
  let res :=
    if !res.serialized then
      { res.serialize with
        headerSize := res.serialize.headerBufferIdx
        headerBufferIdx := 0 }
    else res
  let remaining := res.headerSize - res.headerBufferIdx
  let numCopy := min out.length remaining
  let headerBufferIdx := res.headerBufferIdx + numCopy
  let finished := decide (headerBufferIdx ≥ res.headerSize)
  ((none, finished, numCopy),
    Splice.store out 0 (Splice.window res.headerBuffer res.headerBufferIdx numCopy),
    { res with headerBufferIdx := if finished then 0 else headerBufferIdx })

/-- What both branches of `produceBodySome` do with their own body. -/
def produceFrom (body : Bytes) (bodyIdx : Nat) (out : Bytes) : Reply × Bytes × Nat :=
  if body.length = 0 then ((none, true, 0), out, bodyIdx)
  else
    let remaining := body.length - bodyIdx
    let numCopy := min out.length remaining
    let finished := decide (bodyIdx + numCopy ≥ body.length)
    ((none, finished, numCopy), Splice.store out 0 (Splice.window body bodyIdx numCopy),
      if finished then 0 else bodyIdx + numCopy)

/-- The body of a call, which has the size of the length that was set. -/
def sizedBody (res : Response) (body : Bytes) : Option Bytes :=
  if res.contentLength > 0 ∧ res.contentLength ≠ body.length then resize body res.contentLength
  else some body

def produceBodySome (res : Response) (out : Bytes) : Option (Reply × Bytes × Response) :=
  if res.isBodyString then
    (res.sizedBody res.stringBody).map fun stringBody =>
      let (reply, out, bodyIdx) := produceFrom stringBody res.bodyIdx out
      (reply, out, { res with stringBody := stringBody, bodyIdx := bodyIdx })
  else
    (res.sizedBody res.body).map fun body =>
      let (reply, out, bodyIdx) := produceFrom body res.bodyIdx out
      (reply, out, { res with body := body, bodyIdx := bodyIdx })

section PutField

variable (res : Response) (name value : Bytes)

@[simp] theorem putField_hasContentType :
    (res.putField name value).hasContentType = res.hasContentType := rfl

@[simp] theorem putField_hasConnection :
    (res.putField name value).hasConnection = res.hasConnection := rfl

@[simp] theorem putField_contentLength :
    (res.putField name value).contentLength = res.contentLength := rfl

@[simp] theorem putField_defaultKeepAlive :
    (res.putField name value).defaultKeepAlive = res.defaultKeepAlive := rfl

@[simp] theorem putField_serialized : (res.putField name value).serialized = res.serialized := rfl

@[simp] theorem putField_stringBody : (res.putField name value).stringBody = res.stringBody := rfl

@[simp] theorem putField_body : (res.putField name value).body = res.body := rfl

@[simp] theorem putField_bodyIdx : (res.putField name value).bodyIdx = res.bodyIdx := rfl

@[simp] theorem putField_isBodyString :
    (res.putField name value).isBodyString = res.isBodyString := rfl

end PutField

instance : MessageLike Response where
  consumeHeaderSome res _ := some ((some .invalidMessage, true, 0), res)
  consumeBodySome res _ := some ((some .invalidMessage, true, 0), res)
  produceHeaderSome res out := some (res.produceHeaderSome out)
  produceBodySome := produceBodySome

end Response

end CoServer.Http
