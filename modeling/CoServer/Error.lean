import Mathlib.Algebra.Group.Nat.Defs
import Mathlib.Data.List.Basic

/-!
Error codes and the values shared by the connection and its messages. `Error{}`
holds no code and stands for success. A `Span` is a `std::span` or a
`std::string_view`: offset and size of a view into some memory.
-/

namespace CoServer

inductive ErrorCode
  | serializationError
  | deserializationError
  | nullValue
  | invalidState
  | invalidMessage
  | socketReadError
  | socketWriteError
  | connectionEnded
  | noError
  deriving DecidableEq, Repr

abbrev Error := Option ErrorCode

abbrev Bytes := List UInt8

def sizeModulus : Nat := 2 ^ 64

structure Span where
  position : Nat
  length : Nat
  deriving DecidableEq, Repr

/-- `max_size` of a vector and of a string of bytes. -/
def maxSize : Nat := 2 ^ 63 - 1

/-- What a `resize` that returns leaves of a vector or a string of bytes. -/
def resizeTo (buffer : Bytes) (size : Nat) : Bytes :=
  buffer.take size ++ List.replicate (size - buffer.length) 0

/-- A size above `max_size` is an `std::length_error`. -/
def resize (buffer : Bytes) (size : Nat) : Option Bytes :=
  if size ≤ maxSize then some (resizeTo buffer size) else none

theorem resizeTo_length (buffer : Bytes) (size : Nat) : (resizeTo buffer size).length = size := by
  simp only [resizeTo, List.length_append, List.length_take, List.length_replicate]
  omega

theorem resizeTo_same (buffer : Bytes) : resizeTo buffer buffer.length = buffer := by
  simp [resizeTo]

end CoServer
