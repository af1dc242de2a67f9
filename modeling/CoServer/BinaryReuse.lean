import CoServer.BinaryRoundTrip
import CoServer.BinarySending

/-!
A `BinaryMessage` that has received a frame. Its cursors are left at the ends of
the header and of the payload, where no function but a drain or a pack takes them
from, so it has nothing to send and no room for the header of another frame.
-/

namespace CoServer

namespace BinaryMessage

variable {T : Type}

/-- The message consumes exactly the frame of a payload, the header in one chunk and
the rest in chunks of the given sizes, and has the payload in its buffer. -/
def Receives (payload more : Bytes) (sizes : List Nat) (msg last : BinaryMessage T) : Prop :=
  ∃ headCount headed bodyCount,
    feed MessageLike.consumeHeaderSome [8] (frame payload ++ more) msg = some (headCount, headed) ∧
    feed MessageLike.consumeBodySome sizes ((frame payload ++ more).drop headCount) headed =
      some (bodyCount, last) ∧
    headCount + bodyCount = (frame payload).length ∧ last.buffer = payload

/-- The message is drained to the frame of a payload by the given spans. -/
def Forwards (payload : Bytes) (headSpans bodySpans : List Bytes) (msg : BinaryMessage T) : Prop :=
  ∃ header headed body last,
    drain MessageLike.produceHeaderSome headSpans msg = some (header, headed) ∧
    drain MessageLike.produceBodySome bodySpans headed = some (body, last) ∧
    header ++ body = frame payload

theorem frame_length (payload : Bytes) : (frame payload).length = 8 + payload.length := by
  rw [frame, List.length_append, lengthHeader_length]

theorem feedHeader_finished {input : Bytes} {count : Nat} {msg last : BinaryMessage T}
    (completed : feed MessageLike.consumeHeaderSome [8] input msg = some (count, last)) :
    count = 8 - msg.headIdx ∧ 8 ≤ last.headIdx := by
  have reply := consumeHeaderSome_taken msg (input.take 8) _ rfl
  by_cases fits : 8 ≤ msg.headIdx + min (input.take 8).length (8 - msg.headIdx)
  · rw [decide_eq_true fits] at reply
    rw [feed_complete [] reply] at completed
    cases completed
    exact ⟨by omega, fits⟩
  · rw [decide_eq_false fits] at reply
    rw [feed_more [] reply] at completed
    cases completed

theorem drainHeader_received {msg headed : BinaryMessage T} {spans : List Bytes} {header : Bytes}
    (atHead : 8 ≤ msg.headIdx)
    (drained : drain MessageLike.produceHeaderSome spans msg = some (header, headed)) :
    header = [] ∧ headed = { msg with headIdx := 0 } := by
  have none_ : 8 - msg.headIdx = 0 := by omega
  cases spans with
  | nil => cases drained
  | cons out rest =>
      simp only [drain, MessageLike.produceHeaderSome, produceHeaderSome, none_, Nat.min_zero,
        Nat.add_zero, ge_iff_le, atHead, decide_true, ↓reduceIte, Option.some.injEq, Prod.mk.injEq,
        List.take_zero] at drained
      exact ⟨drained.1.symm, drained.2.symm⟩

theorem drain_received {payload : Bytes} {msg headed last : BinaryMessage T}
    {headSpans bodySpans : List Bytes} {header body : Bytes} (packed : Packed payload msg)
    (atHead : 8 ≤ msg.headIdx) (atBody : msg.bodyIdx = payload.length)
    (headDrained : drain MessageLike.produceHeaderSome headSpans msg = some (header, headed))
    (bodyDrained : drain MessageLike.produceBodySome bodySpans headed = some (body, last)) :
    header ++ body = [] := by
  obtain ⟨rfl, rfl⟩ := drainHeader_received atHead headDrained
  have rest : BodyPending payload [] { msg with headIdx := 0 } :=
    ⟨⟨packed.length, packed.buffer⟩, rfl, Nat.le_of_eq atBody, by
      rw [show ({ msg with headIdx := 0 } : BinaryMessage T).bodyIdx = payload.length from atBody,
        List.drop_length]⟩
  exact ((emitsBody payload).drained rest bodyDrained).1

theorem unpack_receives [Packable T] {msg last : BinaryMessage T} {payload more : Bytes}
    {sizes : List Nat} (atHead : 8 ≤ msg.headIdx) :
    ¬ Receives payload more sizes msg.unpack.2 last := by
  rintro ⟨headCount, headed, bodyCount, headFed, bodyFed, whole, buffer⟩
  have head : msg.unpack.2.headIdx = msg.headIdx := by
    simp only [unpack]
    split <;> rfl
  have counted := (feedHeader_finished headFed).1
  obtain ⟨taken, _, _, _, size⟩ := feedBody_finished bodyFed
  rw [buffer] at size
  rw [frame_length] at whole
  omega

theorem received_never_restored [Packable T] (first received : BinaryMessage T) (payload more : Bytes)
    (sizes : List Nat) (receives : Receives payload more sizes first received) :
    ¬ (received.headIdx = 0 ∧ received.bodyIdx = 0) ∧
      (∀ headSpans bodySpans, ¬ Forwards payload headSpans bodySpans received) ∧
      ∀ (payload' more' : Bytes) (sizes' : List Nat) (last : BinaryMessage T),
        ¬ Receives payload' more' sizes' received.unpack.2 last := by
  obtain ⟨headCount, headed, bodyCount, headFed, bodyFed, _, buffer⟩ := receives
  obtain ⟨_, atHead⟩ := feedHeader_finished headFed
  obtain ⟨_, sameHead, sameLength, atBody, size⟩ := feedBody_finished bodyFed
  rw [← sameHead] at atHead
  rw [buffer] at size
  refine ⟨fun zero => by omega, ?_, ?_⟩
  · rintro headSpans bodySpans ⟨header, headed', body, last, headDrained, bodyDrained, same⟩
    rw [drain_received ⟨sameLength.trans size.symm, buffer⟩ atHead (atBody.trans size.symm) headDrained
      bodyDrained] at same
    have length := congrArg List.length same
    rw [frame_length, List.length_nil] at length
    omega
  · intro payload' more' sizes' last
    exact unpack_receives atHead

theorem received_never_restored_blob : ∃ received : BinaryMessage Blob,
    Receives [0xc4, 1, 5] [9] [1, 4] (ofValue 77 ⟨[]⟩) received ∧
      ¬ (received.headIdx = 0 ∧ received.bodyIdx = 0) ∧
      (∀ headSpans bodySpans, ¬ Forwards [0xc4, 1, 5] headSpans bodySpans received) ∧
      ∀ (payload' more' : Bytes) (sizes' : List Nat) (last : BinaryMessage Blob),
        ¬ Receives payload' more' sizes' received.unpack.2 last := by
  have receives : Receives [0xc4, 1, 5] [9] [1, 4] (ofValue 77 ⟨[]⟩ : BinaryMessage Blob)
      ⟨3, 8, [0xc4, 1, 5], 3, ⟨[]⟩⟩ :=
    ⟨8, ⟨3, 8, [], 0, ⟨[]⟩⟩, 3, by decide, by decide, by decide, rfl⟩
  exact ⟨_, receives, received_never_restored _ _ _ _ _ receives⟩

/-- The frame has been received and nothing is sent for it; another one that comes
after the value has been unpacked is not received. -/
theorem received_sends_nothing : ∃ received headed last : BinaryMessage Blob,
    Receives [0xc4, 1, 5] [] [3] (ofValue 0 ⟨[]⟩) received ∧
      drain MessageLike.produceHeaderSome [List.replicate 8 0] received = some ([], headed) ∧
      drain MessageLike.produceBodySome [List.replicate 3 0] headed = some ([], last) ∧
      received.unpack.1 = none ∧
      ∀ after, ¬ Receives [0xc4, 1, 6] [] [3] received.unpack.2 after := by
  refine ⟨⟨3, 8, [0xc4, 1, 5], 3, ⟨[]⟩⟩, ⟨3, 0, [0xc4, 1, 5], 3, ⟨[]⟩⟩,
    ⟨3, 0, [0xc4, 1, 5], 0, ⟨[]⟩⟩,
    ⟨8, ⟨3, 8, [], 0, ⟨[]⟩⟩, 3, by decide, by decide, by decide, rfl⟩,
    by decide, by decide, by decide, ?_⟩
  intro after
  exact unpack_receives (by decide)

end BinaryMessage

end CoServer
