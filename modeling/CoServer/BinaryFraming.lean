import CoServer.Drain
import CoServer.Msgpack

/-!
The framing of `BinaryMessage`. The sender emits the length and the payload into
any spans. The receiver exchanges the byte order of its length in every header
call, so the bytes of the calls before the last one move around in it.
-/

namespace CoServer

namespace BinaryMessage

variable {T : Type}

/-- The length as the protocol has it, most significant byte first. -/
def lengthHeader (size : Nat) : Bytes := (LittleEndian.bytes 8 size).reverse

/-- A message that holds a packed payload, at the start of its header or beyond. -/
structure Packed (payload : Bytes) (msg : BinaryMessage T) : Prop where
  length : msg.length = payload.length
  buffer : msg.buffer = payload

def HeaderPending (payload content : Bytes) (msg : BinaryMessage T) : Prop :=
  Packed payload msg ∧ msg.headIdx < 8 ∧ msg.bodyIdx = 0 ∧
    content = (lengthHeader payload.length).drop msg.headIdx

def BodyPending (payload content : Bytes) (msg : BinaryMessage T) : Prop :=
  Packed payload msg ∧ msg.headIdx = 0 ∧ msg.bodyIdx ≤ payload.length ∧
    content = payload.drop msg.bodyIdx

/-- Sent, and ready to be sent once more. -/
def Rewound (payload : Bytes) (msg : BinaryMessage T) : Prop :=
  Packed payload msg ∧ msg.headIdx = 0 ∧ msg.bodyIdx = 0

theorem Rewound.bodyPending {payload : Bytes} {msg : BinaryMessage T} (rewound : Rewound payload msg) :
    BodyPending payload payload msg := by
  obtain ⟨packed, atHead, atBody⟩ := rewound
  exact ⟨packed, atHead, by omega, by rw [atBody, List.drop_zero]⟩

theorem Rewound.headerPending {payload : Bytes} {msg : BinaryMessage T}
    (rewound : Rewound payload msg) :
    HeaderPending payload (lengthHeader payload.length) msg := by
  obtain ⟨packed, atHead, atBody⟩ := rewound
  exact ⟨packed, by omega, atBody, by rw [atHead, List.drop_zero]⟩

@[simp] theorem lengthHeader_length (size : Nat) : (lengthHeader size).length = 8 := by
  simp [lengthHeader]

theorem pack_ready [Packable T] {value : T} {packed : Bytes} (sent : Nat)
    (packs : Packable.packer value = (packed, true)) :
    HeaderPending packed (lengthHeader packed.length) (ofValue sent value).pack.2 := by
  simp only [pack, ofValue, packs, HeaderPending, ↓reduceIte, List.drop_zero]
  exact ⟨⟨rfl, rfl⟩, by omega, trivial, trivial⟩

theorem emitsHeader (payload : Bytes) :
    Emits (M := BinaryMessage T) MessageLike.produceHeaderSome (HeaderPending payload)
      (Rewound payload) := by
  rintro content msg out ⟨packed, unsent, idle, rfl⟩
  have header : LittleEndian.bytes 8 (LittleEndian.swap 8 msg.length) =
      lengthHeader payload.length := by
    rw [LittleEndian.bytes_swap, packed.length, lengthHeader]
  have size : (lengthHeader payload.length).length = 8 := lengthHeader_length _
  have complete : msg.headIdx + min out.length (8 - msg.headIdx) ≥ 8 ↔
      8 - msg.headIdx ≤ out.length := by omega
  refine ⟨(msg.produceHeaderSome out).2.1, (msg.produceHeaderSome out).2.2, ?_, ?_, ?_⟩
  · simp only [MessageLike.produceHeaderSome, produceHeaderSome, List.length_drop, size, complete]
  · simp only [produceHeaderSome, header, List.length_drop, size]
    have stored := Splice.store_window_take out (lengthHeader payload.length) msg.headIdx
    rwa [size] at stored
  · simp only [produceHeaderSome, List.length_drop, size, complete]
    split
    · rename_i fits
      exact ⟨⟨packed.length, packed.buffer⟩, by simp [fits], idle⟩
    · rename_i short
      refine ⟨⟨packed.length, packed.buffer⟩, ?_, idle, ?_⟩
      · simp only [short, decide_false, Bool.false_eq_true, ↓reduceIte]
        omega
      · simp only [short, decide_false, Bool.false_eq_true, ↓reduceIte, List.drop_drop]
        congr 1
        omega

/-- What a body call finds in the buffer after its resize. -/
def bodyBuffer (msg : BinaryMessage T) : Bytes :=
  if msg.buffer.length ≠ msg.length then resizeTo msg.buffer msg.length else msg.buffer

theorem bodyBuffer_length (msg : BinaryMessage T) : (bodyBuffer msg).length = msg.length := by
  rw [bodyBuffer]
  split
  · exact resizeTo_length _ _
  · rename_i same
    exact not_not.mp same

theorem bodyBuffer_whole {msg : BinaryMessage T} (whole : msg.buffer.length = msg.length) :
    bodyBuffer msg = msg.buffer := by
  simp only [bodyBuffer, whole, ne_eq, not_true_eq_false, ↓reduceIte]

def Resizable (msg : BinaryMessage T) : Prop :=
  msg.buffer.length = msg.length ∨ msg.length ≤ maxSize

/-- A body call on the message is defined. -/
structure InBody (msg : BinaryMessage T) : Prop where
  inside : msg.bodyIdx ≤ msg.length
  resizable : Resizable msg

theorem sizedBuffer_some {msg : BinaryMessage T} (resizable : Resizable msg) :
    msg.sizedBuffer = some (bodyBuffer msg) := by
  rw [sizedBuffer, bodyBuffer]
  split
  · rename_i other
    exact if_pos (resizable.resolve_left other)
  · rfl

theorem sizedBuffer_none {msg : BinaryMessage T} (stuck : ¬ Resizable msg) :
    msg.sizedBuffer = none := by
  obtain ⟨other, long⟩ := not_or.mp stuck
  rw [sizedBuffer, if_pos other, resize, if_neg long]

theorem consumeBodySome_taken {msg : BinaryMessage T} (inBody : InBody msg) (data : Bytes)
    (count : Nat) (taken : count = min data.length (msg.length - msg.bodyIdx)) :
    MessageLike.consumeBodySome msg data =
      some ((none, decide (msg.length ≤ msg.bodyIdx + count), count),
        { msg with
          buffer := Splice.store (bodyBuffer msg) msg.bodyIdx (data.take count)
          bodyIdx := msg.bodyIdx + count }) := by
  subst taken
  simp only [MessageLike.consumeBodySome, if_pos inBody.inside, consumeBodySome,
    sizedBuffer_some inBody.resizable]
  rfl

theorem consumeBodySome_none {msg : BinaryMessage T} (undefined : ¬ InBody msg) (data : Bytes) :
    MessageLike.consumeBodySome msg data = none := by
  simp only [MessageLike.consumeBodySome, consumeBodySome]
  by_cases inside : msg.bodyIdx ≤ msg.length
  · rw [if_pos inside, sizedBuffer_none fun resizable => undefined ⟨inside, resizable⟩, Option.map_none]
  · rw [if_neg inside]

theorem consumeBodySome_inBody {msg : BinaryMessage T} {data : Bytes} {after}
    (reply : MessageLike.consumeBodySome msg data = some after) : InBody msg := by
  by_contra undefined
  rw [consumeBodySome_none undefined] at reply
  cases reply

theorem produceBodySome_taken {msg : BinaryMessage T} (inBody : InBody msg) (out : Bytes) (count : Nat)
    (taken : count = min out.length (msg.length - msg.bodyIdx)) :
    MessageLike.produceBodySome msg out =
      some ((none, decide (msg.length ≤ msg.bodyIdx + count), count),
        Splice.store out 0 (Splice.window (bodyBuffer msg) msg.bodyIdx count),
        { msg with
          buffer := bodyBuffer msg
          bodyIdx := if decide (msg.length ≤ msg.bodyIdx + count) then 0 else msg.bodyIdx + count }) := by
  subst taken
  simp only [MessageLike.produceBodySome, if_pos inBody.inside, produceBodySome,
    sizedBuffer_some inBody.resizable]
  rfl

theorem produceBodySome_none {msg : BinaryMessage T} (undefined : ¬ InBody msg) (out : Bytes) :
    MessageLike.produceBodySome msg out = none := by
  simp only [MessageLike.produceBodySome, produceBodySome]
  by_cases inside : msg.bodyIdx ≤ msg.length
  · rw [if_pos inside, sizedBuffer_none fun resizable => undefined ⟨inside, resizable⟩, Option.map_none]
  · rw [if_neg inside]

theorem emitsBody (payload : Bytes) :
    Emits (M := BinaryMessage T) MessageLike.produceBodySome (BodyPending payload)
      (Rewound payload) := by
  rintro content msg out ⟨packed, sent, inside, rfl⟩
  have same : msg.buffer.length = msg.length := by rw [packed.buffer, packed.length]
  have buffer : bodyBuffer msg = payload := (bodyBuffer_whole same).trans packed.buffer
  have reply := produceBodySome_taken ⟨packed.length ▸ inside, Or.inl same⟩ out _ rfl
  have complete : payload.length ≤ msg.bodyIdx + min out.length (payload.length - msg.bodyIdx) ↔
      payload.length - msg.bodyIdx ≤ out.length := by omega
  simp only [buffer, packed.length, complete] at reply
  refine ⟨_, _, by rw [reply, List.length_drop], ?_, ?_⟩
  · rw [List.length_drop]
    exact Splice.store_window_take out payload msg.bodyIdx
  · rw [List.length_drop]
    by_cases fits : payload.length - msg.bodyIdx ≤ out.length
    · rw [if_pos fits]
      exact ⟨⟨rfl, rfl⟩, sent, by simp only [fits, decide_true, ↓reduceIte]⟩
    · rw [if_neg fits]
      refine ⟨⟨rfl, rfl⟩, sent, ?_, ?_⟩
      · simp only [fits, decide_false, Bool.false_eq_true, ↓reduceIte]
        omega
      · simp only [fits, decide_false, Bool.false_eq_true, ↓reduceIte, List.drop_drop]
        congr 1
        omega

theorem feedBody_finished {sizes : List Nat} {input : Bytes} {msg last : BinaryMessage T} {count : Nat}
    (completed : feed MessageLike.consumeBodySome sizes input msg = some (count, last)) :
    count = msg.length - msg.bodyIdx ∧ last.headIdx = msg.headIdx ∧ last.length = msg.length ∧
      last.bodyIdx = msg.length ∧ last.buffer.length = msg.length := by
  induction sizes generalizing input msg count with
  | nil => cases completed
  | cons size rest ih =>
      by_cases inBody : InBody msg
      · have inside := inBody.inside
        have reply := consumeBodySome_taken inBody (input.take size) _ rfl
        by_cases fits : msg.length ≤
            msg.bodyIdx + min (input.take size).length (msg.length - msg.bodyIdx)
        · rw [decide_eq_true fits] at reply
          rw [feed_complete rest reply] at completed
          cases completed
          refine ⟨by omega, rfl, rfl, by simp only; omega, ?_⟩
          rw [Splice.store_length, bodyBuffer_length]
          rw [bodyBuffer_length, List.length_take]
          omega
        · rw [decide_eq_false fits] at reply
          rw [feed_more rest reply, Option.map_eq_some_iff] at completed
          obtain ⟨⟨more, last'⟩, remaining, sum⟩ := completed
          cases sum
          obtain ⟨counted, kept⟩ := ih remaining
          simp only at counted kept ⊢
          exact ⟨by omega, kept⟩
      · simp [feed, consumeBodySome_none inBody] at completed

theorem feedBody_receives (sizes : List Nat) (received input : Bytes) (msg : BinaryMessage T)
    (length : msg.length = received.length + input.length) (position : msg.bodyIdx = received.length)
    (resizable : Resizable msg) (kept : (bodyBuffer msg).take received.length = received)
    (some_ : sizes ≠ []) (enough : input.length ≤ sizes.sum) :
    ∃ last, feed MessageLike.consumeBodySome sizes input msg = some (input.length, last) ∧
      last.buffer = received ++ input := by
  induction sizes generalizing received input msg with
  | nil => exact (some_ rfl).elim
  | cons size rest ih =>
      simp only [List.sum_cons] at enough
      have buffer := bodyBuffer_length msg
      have inBody : InBody msg := ⟨by omega, resizable⟩
      have stored : ∀ block : Bytes, (Splice.store (bodyBuffer msg) msg.bodyIdx block).take
          (received ++ block).length = received ++ block := by
        intro block
        rw [List.length_append, ← position, Splice.store_take_end block (by omega), position, kept]
      by_cases fits : input.length ≤ size
      · have whole : input.take size = input := List.take_of_length_le fits
        have reply := consumeBodySome_taken inBody (input.take size) input.length
          (by rw [whole]; omega)
        rw [decide_eq_true (by omega)] at reply
        refine ⟨_, feed_complete rest reply, ?_⟩
        rw [whole, List.take_length, ← stored input, List.take_of_length_le]
        rw [Splice.store_length (by omega), buffer, List.length_append]
        omega
      · have block : (input.take size).length = size := by
          rw [List.length_take]
          omega
        have others : rest ≠ [] := by
          rintro rfl
          simp only [List.sum_nil] at enough
          omega
        have reply := consumeBodySome_taken inBody (input.take size) size (by omega)
        rw [decide_eq_false (by omega), List.take_of_length_le (Nat.le_of_eq block)] at reply
        let next : BinaryMessage T :=
          { msg with
            buffer := Splice.store (bodyBuffer msg) msg.bodyIdx (input.take size)
            bodyIdx := msg.bodyIdx + size }
        have sized : next.buffer.length = next.length := by
          simp only [next]
          rw [Splice.store_length (by omega), buffer]
        have whole : bodyBuffer next = next.buffer := bodyBuffer_whole sized
        obtain ⟨last, remaining, result⟩ := ih (received ++ input.take size) (input.drop size) next
          (by simp only [next, List.length_append, block, List.length_drop]; omega)
          (by simp only [next, List.length_append, block]; omega)
          (Or.inl sized) (by rw [whole]; exact stored _) others (by rw [List.length_drop]; omega)
        refine ⟨last, ?_, by rw [result, List.append_assoc, List.take_append_drop]⟩
        have sum : size + (input.length - size) = input.length := by omega
        rw [feed_more rest reply, remaining, List.length_drop, Option.map_some, sum]

end BinaryMessage

end CoServer
