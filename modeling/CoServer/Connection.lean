import CoServer.StaticBuffer

/-!
`Connection::read` and `Connection::write` as coroutines. A call is its message,
its loop flag and the point it has reached; `readStep` and `writeStep` run it to
its next point, and `completeRead` and `completeWrite` resume it after its
`co_await` with what the socket did. `none` stands for a call that has no such
step: it is suspended or has returned, or its message threw or ran into undefined
behaviour.
-/

namespace CoServer

/-- `std::tuple<Error, bool, std::size_t>`: error, completion, number of bytes. -/
abbrev Reply := Error × Bool × Nat

/-- A span to fill is passed by its contents and handed back with the new ones. -/
class MessageLike (M : Type) where
  consumeHeaderSome : M → Bytes → Option (Reply × M)
  consumeBodySome : M → Bytes → Option (Reply × M)
  produceHeaderSome : M → Bytes → Option (Reply × Bytes × M)
  produceBodySome : M → Bytes → Option (Reply × Bytes × M)

inductive Phase
  | header
  | body
  deriving DecidableEq, Repr

inductive ReadState
  | start
  | readHeader
  | readBody
  deriving DecidableEq, Repr

inductive WriteState
  | start
  | writeHeader
  | writeBody
  deriving DecidableEq, Repr

structure Connection where
  readBuffer : StaticBuffer 4096
  writeBuffer : StaticBuffer 4096
  readState : ReadState
  writeState : WriteState

def Connection.init : Connection where
  readBuffer := StaticBuffer.init 4096
  writeBuffer := StaticBuffer.init 4096
  readState := .start
  writeState := .start

inductive ReadPoint
  | loop
  | suspended (span : Span)
  | drain
  | body
  | returned (err : Error)
  deriving DecidableEq, Repr

structure ReadCall (M : Type) where
  msg : M
  doneRead : Bool
  point : ReadPoint

inductive ReadEvent
  | requested (span : Span)
  | received (bytes : Bytes)
  | consumed (phase : Phase) (offered : Bytes) (numBytes : Nat)
  | refused (phase : Phase) (offered : Bytes)
  | returned (err : Error)
  deriving DecidableEq, Repr

/-- The outcome of `async_read_some`: whether `ec` is set, and the bytes stored. -/
structure SocketRead where
  failed : Bool
  bytes : Bytes

namespace Connection

variable {M : Type}

def read (conn : Connection) (msg : M) : Connection × ReadCall M × List ReadEvent :=
  if conn.readState ≠ .start then
    (conn, ⟨msg, false, .returned (some .invalidState)⟩, [.returned (some .invalidState)])
  else
    ({ conn with readState := .readHeader }, ⟨msg, false, .loop⟩, [])

def readStep [MessageLike M] (conn : Connection) (call : ReadCall M) :
    Option (Connection × ReadCall M × List ReadEvent) :=
  match call.point with
  | .loop =>
      if call.doneRead then
        some (conn, { call with point := .returned none }, [.returned none])
      else if conn.readBuffer.empty then
        some (conn, { call with point := .suspended conn.readBuffer.writableSpan },
          [.requested conn.readBuffer.writableSpan])
      else
        some (conn, { call with point := .drain }, [])
  | .drain =>
      if conn.readBuffer.empty then
        some (conn, { call with point := .loop }, [])
      else if conn.readState = .readHeader then
        match MessageLike.consumeHeaderSome call.msg conn.readBuffer.contents with
        | none => none
        | some ((some code, _, _), msg) =>
            some (conn, ⟨msg, call.doneRead, .returned (some code)⟩,
              [.refused .header conn.readBuffer.contents, .returned (some code)])
        | some ((none, complete, numBytes), msg) =>
            some ({ conn with
                readBuffer := conn.readBuffer.consume numBytes
                readState := if complete then .readBody else conn.readState },
              ⟨msg, call.doneRead, .body⟩,
              [.consumed .header conn.readBuffer.contents numBytes])
      else
        some (conn, { call with point := .body }, [])
  | .body =>
      if conn.readState = .readBody then
        match MessageLike.consumeBodySome call.msg conn.readBuffer.contents with
        | none => none
        | some ((some code, _, _), msg) =>
            some (conn, ⟨msg, call.doneRead, .returned (some code)⟩,
              [.refused .body conn.readBuffer.contents, .returned (some code)])
        | some ((none, complete, numBytes), msg) =>
            some ({ conn with
                readBuffer := conn.readBuffer.consume numBytes
                readState := if complete then .start else conn.readState },
              ⟨msg, if complete then true else call.doneRead, if complete then .loop else .drain⟩,
              [.consumed .body conn.readBuffer.contents numBytes])
      else
        some (conn, { call with point := .drain }, [])
  | .suspended _ => none
  | .returned _ => none

def completeRead (conn : Connection) (call : ReadCall M) (result : SocketRead) :
    Option (Connection × ReadCall M × List ReadEvent) :=
  match call.point with
  | .suspended span =>
      if result.bytes.length ≤ span.length then
        let filled := { conn with readBuffer := conn.readBuffer.fill span result.bytes }
        if result.failed || result.bytes.length == 0 then
          let err := if result.bytes.length = 0 then ErrorCode.connectionEnded else .socketReadError
          some (filled, { call with point := .returned (some err) }, [.returned (some err)])
        else
          some ({ filled with readBuffer := filled.readBuffer.commit result.bytes.length },
            { call with point := .drain }, [.received result.bytes])
      else
        none
  | _ => none

end Connection

inductive WritePoint
  | loop
  | fill
  | fillBody
  | flush
  | suspended (span : Span)
  | returned (err : Error)
  deriving DecidableEq, Repr

structure WriteCall (M : Type) where
  msg : M
  doneWrite : Bool
  point : WritePoint

inductive WriteEvent
  | produced (phase : Phase) (bytes : Bytes)
  | refused (phase : Phase)
  | handed (span : Span)
  | sent (bytes : Bytes)
  | returned (err : Error)
  deriving DecidableEq, Repr

def WriteEvent.sentBytes : WriteEvent → Bytes
  | .sent bytes => bytes
  | _ => []

/-- The outcome of `async_write_some`: whether `ec` is set, and the bytes accepted. -/
structure SocketWrite where
  failed : Bool
  count : Nat

namespace Connection

variable {M : Type}

def write (conn : Connection) (msg : M) : Connection × WriteCall M × List WriteEvent :=
  if conn.writeState ≠ .start then
    (conn, ⟨msg, false, .returned (some .invalidState)⟩, [.returned (some .invalidState)])
  else
    ({ conn with writeState := .writeHeader }, ⟨msg, false, .loop⟩, [])

def writeStep [MessageLike M] (conn : Connection) (call : WriteCall M) :
    Option (Connection × WriteCall M × List WriteEvent) :=
  match call.point with
  | .loop =>
      if call.doneWrite then
        some (conn, { call with point := .returned none }, [.returned none])
      else
        some (conn, { call with point := .fill }, [])
  | .fill =>
      if conn.writeBuffer.writableSpan.length > 0 then
        if conn.writeState = .writeHeader then
          match MessageLike.produceHeaderSome call.msg
              (conn.writeBuffer.load conn.writeBuffer.writableSpan) with
          | none => none
          | some ((some code, _, _), out, msg) =>
              some ({ conn with
                  writeBuffer := conn.writeBuffer.fill conn.writeBuffer.writableSpan out },
                ⟨msg, call.doneWrite, .returned (some code)⟩,
                [.refused .header, .returned (some code)])
          | some ((none, complete, numBytes), out, msg) =>
              let filled := conn.writeBuffer.fill conn.writeBuffer.writableSpan out
              some ({ conn with
                  writeBuffer := filled.commit numBytes
                  writeState := if complete then .writeBody else conn.writeState },
                ⟨msg, call.doneWrite, .fillBody⟩, [.produced .header (filled.committed numBytes)])
        else
          some (conn, { call with point := .fillBody }, [])
      else
        some (conn, { call with point := .flush }, [])
  | .fillBody =>
      if conn.writeState = .writeBody then
        match MessageLike.produceBodySome call.msg
            (conn.writeBuffer.load conn.writeBuffer.writableSpan) with
        | none => none
        | some ((some code, _, _), out, msg) =>
            some ({ conn with
                writeBuffer := conn.writeBuffer.fill conn.writeBuffer.writableSpan out },
              ⟨msg, call.doneWrite, .returned (some code)⟩,
              [.refused .body, .returned (some code)])
        | some ((none, complete, numBytes), out, msg) =>
            let filled := conn.writeBuffer.fill conn.writeBuffer.writableSpan out
            some ({ conn with
                writeBuffer := filled.commit numBytes
                writeState := if complete then .start else conn.writeState },
              ⟨msg, if complete then true else call.doneWrite, if complete then .flush else .fill⟩,
              [.produced .body (filled.committed numBytes)])
      else
        some (conn, { call with point := .fill }, [])
  | .flush =>
      if conn.writeBuffer.empty then
        some (conn, { call with point := .loop }, [])
      else
        some (conn, { call with point := .suspended conn.writeBuffer.readableSpan },
          [.handed conn.writeBuffer.readableSpan])
  | .suspended _ => none
  | .returned _ => none

def completeWrite (conn : Connection) (call : WriteCall M) (result : SocketWrite) :
    Option (Connection × WriteCall M × List WriteEvent) :=
  match call.point with
  | .suspended span =>
      if result.count ≤ span.length then
        let sent := conn.writeBuffer.load ⟨span.position, result.count⟩
        if result.failed || result.count == 0 then
          let err := if result.count = 0 then ErrorCode.connectionEnded else .socketWriteError
          some (conn, { call with point := .returned (some err) }, [.sent sent, .returned (some err)])
        else
          some ({ conn with writeBuffer := conn.writeBuffer.consume result.count },
            { call with point := .flush }, [.sent sent])
      else
        none
  | _ => none

end Connection

end CoServer
