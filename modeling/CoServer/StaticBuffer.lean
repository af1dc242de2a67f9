import CoServer.Error
import CoServer.Foundation.Splice

/-!
The fixed buffer between a socket and a message. A callee stores a block at the
front of the writable span (`fill`, cut to the span), the caller commits a count
of it, and bytes are consumed from the front of the readable span. Space is
reclaimed only when consuming empties the buffer.
-/

namespace CoServer

open Splice

structure StaticBuffer (bufSize : Nat) where
  buffer : Bytes
  read : Nat
  write : Nat
  sized : buffer.length = bufSize
  ordered : read ≤ write
  bounded : write ≤ bufSize

namespace StaticBuffer

variable {bufSize : Nat}

def init (bufSize : Nat) : StaticBuffer bufSize where
  buffer := List.replicate bufSize 0
  read := 0
  write := 0
  sized := by simp
  ordered := Nat.le_refl 0
  bounded := Nat.zero_le _

def size (self : StaticBuffer bufSize) : Nat := self.write - self.read

def empty (self : StaticBuffer bufSize) : Bool := self.size == 0

def writableSpan (self : StaticBuffer bufSize) : Span :=
  ⟨self.write, bufSize - self.write⟩

def readableSpan (self : StaticBuffer bufSize) : Span :=
  ⟨self.read, self.write - self.read⟩

def load (self : StaticBuffer bufSize) (span : Span) : Bytes :=
  window self.buffer span.position span.length

def contents (self : StaticBuffer bufSize) : Bytes := self.load self.readableSpan

def clip (bufSize : Nat) (span : Span) (block : Bytes) : Bytes :=
  block.take (min span.length (bufSize - span.position))

def fill (self : StaticBuffer bufSize) (span : Span) (block : Bytes) : StaticBuffer bufSize where
  buffer := store self.buffer span.position (clip bufSize span block)
  read := self.read
  write := self.write
  sized := by
    by_cases inside : span.position ≤ bufSize
    · rw [store_length, self.sized]
      simp only [clip, List.length_take, self.sized]
      omega
    · have nothing : clip bufSize span block = [] := by
        simp [clip, Nat.sub_eq_zero_of_le (Nat.le_of_not_le inside)]
      rw [nothing, store_nil, self.sized]
  ordered := self.ordered
  bounded := self.bounded

-- No count a caller passes comes near `sizeModulus`, so the sum is exact.
def commit (self : StaticBuffer bufSize) (size : Nat) : StaticBuffer bufSize where
  buffer := self.buffer
  read := self.read
  write := if self.write + size > bufSize then bufSize else self.write + size
  sized := self.sized
  ordered := by
    have := self.ordered
    have := self.bounded
    split <;> omega
  bounded := by split <;> omega

-- Here the sum may wrap: a chunked body can report a count below zero.
def consume (self : StaticBuffer bufSize) (size : Nat) : StaticBuffer bufSize :=
  if below : (self.read + size) % sizeModulus < self.write then
    { buffer := self.buffer
      read := (self.read + size) % sizeModulus
      write := self.write
      sized := self.sized
      ordered := Nat.le_of_lt below
      bounded := self.bounded }
  else
    { buffer := self.buffer
      read := 0
      write := 0
      sized := self.sized
      ordered := Nat.le_refl 0
      bounded := Nat.zero_le _ }

@[simp] theorem init_contents (bufSize : Nat) : (init bufSize).contents = [] := by
  simp [init, contents, readableSpan, load]

@[simp] theorem init_write (bufSize : Nat) : (init bufSize).write = 0 := rfl

@[simp] theorem fill_write (self : StaticBuffer bufSize) (span : Span) (block : Bytes) :
    (self.fill span block).write = self.write := rfl

@[simp] theorem fill_size (self : StaticBuffer bufSize) (span : Span) (block : Bytes) :
    (self.fill span block).size = self.size := rfl

theorem contents_length (self : StaticBuffer bufSize) : self.contents.length = self.size := by
  have ordered := self.ordered
  have bounded := self.bounded
  refine window_length ?_
  simp only [readableSpan, self.sized]
  omega

theorem empty_iff (self : StaticBuffer bufSize) : self.empty = true ↔ self.contents = [] := by
  rw [← List.length_eq_zero_iff, contents_length, empty, beq_iff_eq]

theorem empty_eq_false_iff (self : StaticBuffer bufSize) :
    self.empty = false ↔ self.contents ≠ [] := by
  rw [Ne, ← empty_iff, Bool.not_eq_true]

theorem fill_contents (self : StaticBuffer bufSize) (block : Bytes) :
    (self.fill self.writableSpan block).contents = self.contents := by
  have ordered := self.ordered
  have bounded := self.bounded
  refine window_store_below ?_ ?_
  · simpa [writableSpan, self.sized] using bounded
  · simp only [readableSpan, fill, writableSpan]
    omega

def committed (self : StaticBuffer bufSize) (count : Nat) : Bytes :=
  window self.buffer self.write (min count (bufSize - self.write))

theorem commit_write (self : StaticBuffer bufSize) (count : Nat) :
    (self.commit count).write = self.write + min count (bufSize - self.write) := by
  have bounded := self.bounded
  simp only [commit]
  split <;> omega

theorem commit_contents (self : StaticBuffer bufSize) (count : Nat) :
    (self.commit count).contents = self.contents ++ self.committed count := by
  have ordered := self.ordered
  have adjacent : self.write = self.read + (self.write - self.read) := by omega
  simp only [contents, load, readableSpan, committed, commit_write]
  rw [show (self.commit count).buffer = self.buffer from rfl,
    show (self.commit count).read = self.read from rfl]
  conv_rhs => rw [adjacent, Nat.add_sub_cancel_left, window_append]
  congr 1
  omega

theorem committed_fill {self : StaticBuffer bufSize} {block : Bytes} {count : Nat}
    (stored : count ≤ block.length) (fits : count ≤ bufSize - self.write) :
    (self.fill self.writableSpan block).committed count = block.take count := by
  have inside : self.writableSpan.position ≤ self.buffer.length := by
    simpa [writableSpan, self.sized] using self.bounded
  have within : count ≤ (clip bufSize self.writableSpan block).length := by
    simp only [clip, writableSpan, List.length_take]
    omega
  rw [committed, fill_write, Nat.min_eq_left fits]
  refine (window_store_same inside within).trans ?_
  simp only [clip, writableSpan, List.take_take, Nat.min_self, Nat.min_eq_left fits]

theorem commit_readable {self : StaticBuffer bufSize} {block : Bytes}
    (fits : block.length ≤ bufSize - self.write) :
    ((self.fill self.writableSpan block).commit block.length).contents = self.contents ++ block := by
  rw [commit_contents, fill_contents, committed_fill (Nat.le_refl _) fits, List.take_length]

section Consume

variable (addressable : bufSize < sizeModulus)
include addressable

theorem consume_contents (self : StaticBuffer bufSize) {count : Nat} (within : count ≤ self.size) :
    (self.consume count).contents = self.contents.drop count := by
  have ordered := self.ordered
  have bounded := self.bounded
  have exact_ : (self.read + count) % sizeModulus = self.read + count := by
    refine Nat.mod_eq_of_lt ?_
    simp only [size] at within
    omega
  simp only [size] at within
  rw [consume]
  split
  · simp only [contents, load, readableSpan, exact_, window_drop, Nat.sub_sub]
  · rename_i reset
    rw [List.drop_eq_nil_of_le]
    · simp [contents, load, readableSpan]
    · rw [contents_length, size]
      omega

theorem consume_offered (self : StaticBuffer bufSize) {count : Nat}
    (within : count ≤ self.contents.length) : (self.consume count).contents = self.contents.drop count :=
  consume_contents addressable self (by rwa [← contents_length])

theorem consume_whole (self : StaticBuffer bufSize) :
    (self.consume self.contents.length).contents = [] := by
  rw [consume_offered addressable self (Nat.le_refl _), List.drop_length]

end Consume

def Settled (self : StaticBuffer bufSize) : Prop := self.contents = [] → self.write = 0

theorem init_settled (bufSize : Nat) : (init bufSize).Settled := fun _ => rfl

theorem consume_settled (self : StaticBuffer bufSize) (count : Nat) :
    (self.consume count).Settled := by
  intro nothing
  rw [consume] at nothing ⊢
  split at nothing
  · rename_i below
    have length := congrArg List.length nothing
    rw [contents_length] at length
    simp only [size, List.length_nil] at length
    omega
  · rename_i reset
    rw [dif_neg reset]

theorem Settled.commit {self : StaticBuffer bufSize} (settled : self.Settled) (count : Nat) :
    (self.commit count).Settled := by
  intro nothing
  rw [commit_contents, List.append_eq_nil_iff] at nothing
  have start := settled nothing.1
  have length := congrArg List.length nothing.2
  have bounded := self.bounded
  rw [committed, window_length (by rw [self.sized]; omega), List.length_nil] at length
  rw [commit_write]
  omega

theorem Settled.fill {self : StaticBuffer bufSize} (settled : self.Settled) (block : Bytes) :
    (self.fill self.writableSpan block).Settled := by
  intro nothing
  rw [fill_contents] at nothing
  exact settled nothing

end StaticBuffer

end CoServer
