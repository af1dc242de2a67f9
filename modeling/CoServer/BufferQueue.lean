import CoServer.Foundation.Fifo
import CoServer.StaticBuffer

/-!
The buffer as a queue of bytes. Blocks are stored at the front of the writable
span, a count of the span is committed, and a count of what is readable is
consumed, in any order. Space comes back only when consuming empties the buffer;
the queue that it refines does not tell.
-/

namespace CoServer

open Splice Transition

inductive BufferEvent
  | stored (block : Bytes)
  | committed (bytes : Bytes)
  | consumed (count : Nat)
  deriving DecidableEq

def BufferEvent.seen : BufferEvent → List (Fifo.Event UInt8)
  | .stored _ => []
  | .committed bytes => [.entered bytes]
  | .consumed count => [.left count]

def committedBytes (events : List BufferEvent) : Bytes :=
  Fifo.enteredItems (events.flatMap BufferEvent.seen)

def consumedCount (events : List BufferEvent) : Nat :=
  Fifo.leftCount (events.flatMap BufferEvent.seen)

namespace StaticBuffer

variable {bufSize : Nat}

inductive Step : StaticBuffer bufSize → List BufferEvent → StaticBuffer bufSize → Prop
  | store {self : StaticBuffer bufSize} {block : Bytes} : block.length ≤ self.writableSpan.length →
      Step self [.stored block] (self.fill self.writableSpan block)
  | commit {self : StaticBuffer bufSize} {count : Nat} : count ≤ self.writableSpan.length →
      Step self [.committed ((self.load self.writableSpan).take count)] (self.commit count)
  | consume {self : StaticBuffer bufSize} {count : Nat} : count ≤ self.size →
      Step self [.consumed count] (self.consume count)

theorem load_writable (self : StaticBuffer bufSize) (count : Nat) :
    (self.load self.writableSpan).take count = self.committed count := window_take _ _ _ _

theorem step_queue (addressable : bufSize < sizeModulus) {self next : StaticBuffer bufSize}
    {events : List BufferEvent} {queue : Fifo.Queue UInt8 bufSize} (holds : queue.items = self.contents)
    (taken : Step self events next) : ∃ queue' : Fifo.Queue UInt8 bufSize,
      Run Fifo.Step queue (events.flatMap BufferEvent.seen) queue' ∧ queue'.items = next.contents := by
  have bounded : next.contents.length ≤ bufSize := by
    have below := next.bounded
    rw [contents_length, size]
    omega
  cases taken with
  | store => exact ⟨queue, Run.refl, by rw [holds, fill_contents]⟩
  | commit fits =>
      refine ⟨⟨_, bounded⟩, Run.single (Fifo.Step.enter ?_), rfl⟩
      simp only [holds, commit_contents, load_writable]
  | consume fits =>
      refine ⟨⟨_, bounded⟩, Run.single (Fifo.Step.leave ?_ ?_), rfl⟩
      · rw [holds, contents_length]
        exact fits
      · simp only [holds, consume_contents addressable self fits]

theorem run_stored {first self : StaticBuffer bufSize} {events : List BufferEvent}
    (run : Run Step first events self) {front : List BufferEvent} {block : Bytes}
    (last : events = front ++ [.stored block]) : (self.load self.writableSpan).take block.length = block := by
  cases run with
  | refl => simp at last
  | snoc _ taken =>
      cases taken with
      | store fits =>
          obtain ⟨_, same⟩ := List.append_inj' last rfl
          cases same
          rw [load_writable, committed_fill (Nat.le_refl _) fits, List.take_length]
      | commit | consume =>
          obtain ⟨_, same⟩ := List.append_inj' last rfl
          cases same

theorem run_committed {first self : StaticBuffer bufSize} {front back : List BufferEvent}
    {block bytes : Bytes}
    (run : Run Step first (front ++ .stored block :: .committed bytes :: back) self) :
    bytes.take block.length = block.take bytes.length := by
  have one : ∀ (self : StaticBuffer bufSize) events next, Step self events next →
      ∃ event, events = [event] := by
    intro self events next taken
    cases taken <;> exact ⟨_, rfl⟩
  rw [List.append_cons] at run
  obtain ⟨middle, _, earlier, taken, _⟩ := run.cut one
  have held := run_stored earlier rfl
  cases taken with
  | @commit count fits =>
      have whole : ((middle.load middle.writableSpan).take count).length = count := by
        rw [load_writable, committed, window_length]
        · exact Nat.min_eq_left fits
        · have below := middle.bounded
          rw [middle.sized]
          omega
      rw [whole, List.take_take, Nat.min_comm, ← List.take_take, held]

/-- What holds of a buffer behind a sequence of operations: it is a queue of the
committed bytes, storing touches none of them, and what is emptied is as new. -/
structure RefinesQueue (events : List BufferEvent) (self : StaticBuffer bufSize) : Prop where
  offsets : self.read ≤ self.write ∧ self.write ≤ bufSize
  queue : ∃ queue : Fifo.Queue UInt8 bufSize,
    Run Fifo.Step Fifo.Queue.empty (events.flatMap BufferEvent.seen) queue ∧
      queue.items = self.load self.readableSpan
  readable : consumedCount events ≤ (committedBytes events).length ∧
    self.load self.readableSpan = (committedBytes events).drop (consumedCount events)
  stored : ∀ front block bytes back, events = front ++ .stored block :: .committed bytes :: back →
    bytes.take block.length = block.take bytes.length
  kept : ∀ block : Bytes, block.length ≤ self.writableSpan.length →
    (self.fill self.writableSpan block).readableSpan = self.readableSpan ∧
      (self.fill self.writableSpan block).load self.readableSpan = self.load self.readableSpan
  emptied : ∀ count ≤ self.size, (self.consume count).empty = true →
    (self.consume count).read = 0 ∧ (self.consume count).write = 0 ∧
      (self.consume count).writableSpan = ⟨0, bufSize⟩

theorem buffer_refines_queue (bufSize : UInt64) (events : List BufferEvent)
    (self : StaticBuffer bufSize.toNat) (run : Run Step (init bufSize.toNat) events self) :
    RefinesQueue events self := by
  have addressable : bufSize.toNat < sizeModulus := bufSize.toNat_lt
  have start : (Fifo.Queue.empty : Fifo.Queue UInt8 bufSize.toNat).items =
      (init bufSize.toNat).contents := (init_contents _).symm
  obtain ⟨queue, seen, held⟩ := Run.simulated
    (fun self (queue : Fifo.Queue UInt8 bufSize.toNat) => queue.items = self.contents)
    (fun _ _ _ _ holds taken => step_queue addressable holds taken) start run
  obtain ⟨within, items⟩ := Fifo.run_items seen
  refine ⟨⟨self.ordered, self.bounded⟩, ⟨queue, seen, held⟩, ⟨within, held.symm.trans items⟩, ?_, ?_, ?_⟩
  · rintro front block bytes back rfl
    exact run_committed run
  · intro block _
    exact ⟨rfl, fill_contents self block⟩
  · intro count _ empty
    have nothing := consume_settled self count ((empty_iff _).mp empty)
    have ordered := (self.consume count).ordered
    exact ⟨by omega, nothing, by rw [writableSpan, nothing, Nat.sub_zero]⟩

/-- Three bytes are stored, two of them committed, and the two consumed. -/
theorem buffer_refines_queue_emptied : ∃ events, ∃ self : StaticBuffer (4 : UInt64).toNat,
    committedBytes events = [1, 2] ∧ consumedCount events = 2 ∧ RefinesQueue events self := by
  have run := ((Run.single (@Step.store _ (init (4 : UInt64).toNat) [1, 2, 3] (by decide))).snoc
    (@Step.commit _ _ 2 (by decide))).snoc (@Step.consume _ _ 2 (by decide))
  exact ⟨_, _, by decide, by decide, buffer_refines_queue 4 _ _ run⟩

end StaticBuffer

end CoServer
