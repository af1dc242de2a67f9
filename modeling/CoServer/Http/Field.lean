import CoServer.Http.Text

/-!
The statuses and the header fields of HTTP, with their texts.
-/

namespace CoServer.Http

inductive Status
  | switchingProtocols
  | ok
  | created
  | noContent
  | badRequest
  | unauthorized
  | forbidden
  | notFound
  | methodNotAllowed
  | conflict
  | internalServerError
  | notImplemented
  | badGateway
  | serviceUnavailable
  | gatewayTimeout
  deriving DecidableEq, Repr

def statusStrArr : Status → Bytes × Bytes
  | .switchingProtocols => (ascii "101", ascii "Switching Protocols")
  | .ok => (ascii "200", ascii "OK")
  | .created => (ascii "201", ascii "Created")
  | .noContent => (ascii "204", ascii "No Content")
  | .badRequest => (ascii "400", ascii "Bad Request")
  | .unauthorized => (ascii "401", ascii "Unauthorized")
  | .forbidden => (ascii "403", ascii "Forbidden")
  | .notFound => (ascii "404", ascii "Not Found")
  | .methodNotAllowed => (ascii "405", ascii "Method Not Allowed")
  | .conflict => (ascii "409", ascii "Conflict")
  | .internalServerError => (ascii "500", ascii "Internal Server Error")
  | .notImplemented => (ascii "501", ascii "Not Implemented")
  | .badGateway => (ascii "502", ascii "Bad Gateway")
  | .serviceUnavailable => (ascii "503", ascii "Service Unavailable")
  | .gatewayTimeout => (ascii "504", ascii "Gateway Timeout")

inductive Field
  | host
  | contentLength
  | contentType
  | connection
  | accept
  | userAgent
  | transferEncoding
  | authorization
  | cookie
  deriving DecidableEq, Repr

def fieldStrArr : Field → Bytes
  | .host => ascii "Host"
  | .contentLength => ascii "Content-Length"
  | .contentType => ascii "Content-Type"
  | .connection => ascii "Connection"
  | .accept => ascii "Accept"
  | .userAgent => ascii "User-Agent"
  | .transferEncoding => ascii "Transfer-Encoding"
  | .authorization => ascii "Authorization"
  | .cookie => ascii "Cookie"

def fieldStrArrLower : Field → Bytes
  | .host => ascii "host"
  | .contentLength => ascii "content-length"
  | .contentType => ascii "content-type"
  | .connection => ascii "connection"
  | .accept => ascii "accept"
  | .userAgent => ascii "user-agent"
  | .transferEncoding => ascii "transfer-encoding"
  | .authorization => ascii "authorization"
  | .cookie => ascii "cookie"

/-- A name is compared with the two spellings only. -/
def Field.named (field : Field) (name : Bytes) : Bool :=
  name == fieldStrArr field || name == fieldStrArrLower field

theorem lower_named {field : Field} {name : Bytes} (named : field.named name = true) :
    lower name = fieldStrArrLower field := by
  simp only [Field.named, Bool.or_eq_true, beq_iff_eq] at named
  rcases named with rfl | rfl
  · cases field <;> decide
  · cases field <;> decide

end CoServer.Http
