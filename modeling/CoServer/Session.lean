import CoServer.Http.Request
import CoServer.Http.Response
import CoServer.Http.Router

/-!
`TestServer::connect`: requests are read from a connection and answered one after
another until a call fails or nothing answers. Every request is read into the head
buffer of the coroutine, and a handler may build its response there, so what the
buffer holds behind a response is not fixed. A handler runs without suspending; its
environment is what an uninitialised member of the response is left with.
-/

namespace CoServer

open Http

abbrev Handlers := Router (Request × Bytes) (ReaderM Bool) Response

inductive SessionPoint
  | loop
  | reading (call : ReadCall Request)
  | handling (req : Request)
  | writing (call : WriteCall Response)
  | ended (err : Error)

structure Session where
  conn : Connection
  headBuff : Bytes
  point : SessionPoint

def Session.init (headBuff : Bytes) : Session := ⟨Connection.init, headBuff, .loop⟩

/-- What the coroutine runs on with: nothing but its own state, or what its
environment decides. -/
inductive SessionChoice
  | run
  | handle (uninitialized : Bool)
  | reuse (headBuff : Bytes)
  | receive (result : SocketRead)
  | accept (result : SocketWrite)

inductive SessionEvent
  | read (event : ReadEvent)
  | requested (req : Request)
  | answered (res : Response)
  | write (event : WriteEvent)
  | ended (err : Error)

namespace Session

def resumeRead (session : Session) (after : Connection × ReadCall Request × List ReadEvent) :
    Session × List SessionEvent :=
  ({ session with conn := after.1, point := .reading after.2.1 }, after.2.2.map .read)

def resumeWrite (session : Session) (after : Connection × WriteCall Response × List WriteEvent) :
    Session × List SessionEvent :=
  ({ session with conn := after.1, point := .writing after.2.1 }, after.2.2.map .write)

def finish (session : Session) (err : Error) : Session × List SessionEvent :=
  ({ session with point := .ended err }, [.ended err])

def afterRead (session : Session) (call : ReadCall Request) : Option (Session × List SessionEvent) :=
  match call.point with
  | .returned none =>
      some ({ session with headBuff := call.msg.headerBuffer, point := .handling call.msg },
        [.requested call.msg])
  | .returned (some code) => some (session.finish (some code))
  | _ => (session.conn.readStep call).map session.resumeRead

def afterHandle (handlers : Handlers) (session : Session) (req : Request) (uninitialized : Bool) :
    Option (Session × List SessionEvent) :=
  (handlers.handle req.path (req, session.headBuff)).map fun answer =>
    match answer.run uninitialized with
    | none => session.finish none
    | some res =>
        let after := session.resumeWrite (session.conn.write res)
        (after.1, .answered res :: after.2)

def afterWrite (session : Session) (call : WriteCall Response) : Option (Session × List SessionEvent) :=
  match call.point with
  | .returned none => none
  | .returned (some code) => some (session.finish (some code))
  | _ => (session.conn.writeStep call).map session.resumeWrite

/-- `none` stands for a choice that the coroutine is not at, and for a call of an
absent handler. -/
def step (handlers : Handlers) (session : Session) (choice : SessionChoice) :
    Option (Session × List SessionEvent) :=
  match session.point, choice with
  | .loop, .run => some (session.resumeRead (session.conn.read (Request.ofBuffer session.headBuff)))
  | .reading call, .run => session.afterRead call
  | .reading call, .receive result => (session.conn.completeRead call result).map session.resumeRead
  | .handling req, .handle uninitialized => afterHandle handlers session req uninitialized
  | .writing call, .run => session.afterWrite call
  | .writing call, .accept result =>
      (session.conn.completeWrite call result).map session.resumeWrite
  | .writing call, .reuse headBuff =>
      if call.point = .returned none ∧ headBuff.length = session.headBuff.length then
        some ({ session with headBuff := headBuff, point := .loop }, [])
      else none
  | _, _ => none

def Step (handlers : Handlers) (session : Session) (events : List SessionEvent) (next : Session) :
    Prop :=
  ∃ choice, session.step handlers choice = some (next, events)

end Session

/-- The handlers may answer the request so; `none` stands for no answer. -/
def Answers (handlers : Handlers) (req : Request) (answer : Option Response) : Prop :=
  ∃ headBuff uninitialized reply,
    handlers.handle req.path (req, headBuff) = some reply ∧ reply.run uninitialized = answer

end CoServer
