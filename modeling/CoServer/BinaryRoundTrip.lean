import CoServer.BinaryFraming

/-!
When a `BinaryMessage` survives its framing. Every header call of the receiver
exchanges the byte order of the whole length, so each byte is at its place at the
end only if the calls after its own are even in number, or if it equals the byte
or the old memory that is there instead.
-/

namespace CoServer

namespace BinaryMessage

variable {T : Type}

/-- The header call that delivers a byte, for chunks of the given sizes. -/
def callOf : List Nat → Nat → Nat
  | [], _ => 0
  | size :: rest, byte => if byte < size then 0 else 1 + callOf rest (byte - size)

def Misplaced (sizes : List Nat) (byte : Nat) : Prop :=
  (callOf sizes byte + callOf sizes 7) % 2 = 1

instance (sizes : List Nat) (byte : Nat) : Decidable (Misplaced sizes byte) :=
  inferInstanceAs (Decidable (_ = _))

/-- What is at a byte's place in the end is that byte: a misplaced byte leaves the
old memory there, or the mirrored byte when that one is misplaced as well. -/
def LengthArrives (sizes : List Nat) (initial header : Bytes) : Prop :=
  ∀ byte < 8,
    (Misplaced sizes byte → ¬ Misplaced sizes (7 - byte) →
      header.getD byte 0 = initial.getD (if callOf sizes 7 % 2 = 0 then byte else 7 - byte) 0) ∧
    (Misplaced sizes (7 - byte) → Misplaced sizes byte ∨ byte < 7 - byte →
      header.getD byte 0 = header.getD (7 - byte) 0)

instance (sizes : List Nat) (initial header : Bytes) :
    Decidable (LengthArrives sizes initial header) :=
  inferInstanceAs (Decidable (∀ byte < 8, _ ∧ _))

/-- The memory of the length without the exchanges of the calls so far. -/
def unswapped (calls : Nat) (memory : Bytes) (place : Nat) : UInt8 :=
  memory.getD (if calls % 2 = 0 then place else 7 - place) 0

/-- What the first `count` header bytes leave there: a byte goes to its own place
in an even call and to the mirrored place in an odd one. -/
def placed (calls : Nat → Nat) (initial header : Bytes) (count place : Nat) : UInt8 :=
  if (place < count ∧ calls place % 2 = 0) ∧
      ¬ ((7 - place < count ∧ calls (7 - place) % 2 = 1) ∧ place < 7 - place) then
    header.getD place 0
  else if 7 - place < count ∧ calls (7 - place) % 2 = 1 then header.getD (7 - place) 0
  else initial.getD place 0

theorem unswapped_reverse {memory : Bytes} (length : memory.length = 8) (calls : Nat) {place : Nat}
    (bound : place < 8) : unswapped (calls + 1) memory.reverse place = unswapped calls memory place := by
  have mirrored : ∀ index, index < 8 → memory.reverse.getD index 0 = memory.getD (7 - index) 0 := by
    intro index inside
    rw [List.getD_eq_getElem?_getD, List.getD_eq_getElem?_getD, List.getElem?_reverse (by omega)]
    congr 3
    omega
  by_cases even : calls % 2 = 0
  · have odd : ¬ (calls + 1) % 2 = 0 := by omega
    rw [unswapped, unswapped, if_neg odd, if_pos even, mirrored _ (by omega)]
    congr 1
    omega
  · have next : (calls + 1) % 2 = 0 := by omega
    rw [unswapped, unswapped, if_pos next, if_neg even, mirrored _ bound]

theorem unswapped_store {memory header : Bytes} {count size : Nat} (length : memory.length = 8)
    (whole : header.length = 8) (inside : count + size ≤ 8) (calls place : Nat) :
    unswapped calls (Splice.store memory count (Splice.window header count size)) place =
      if count ≤ (if calls % 2 = 0 then place else 7 - place) ∧
          (if calls % 2 = 0 then place else 7 - place) < count + size then
        header.getD (if calls % 2 = 0 then place else 7 - place) 0
      else unswapped calls memory place := by
  have block : (Splice.window header count size).length = size :=
    Splice.window_length (by omega)
  rw [unswapped, unswapped, Splice.store_getD (by omega), block]
  generalize (if calls % 2 = 0 then place else 7 - place) = index
  split
  · rename_i within
    rw [List.getD_eq_getElem?_getD, List.getD_eq_getElem?_getD, Splice.window,
      List.getElem?_take_of_lt (by omega), List.getElem?_drop]
    congr 2
    omega
  · rfl

theorem placed_call {memory header initial : Bytes} {calls : Nat → Nat} {count size call : Nat}
    (length : memory.length = 8) (whole : header.length = 8) (inside : count + size ≤ 8)
    (mine : ∀ byte, count ≤ byte → byte < count + size → calls byte = call)
    (held : ∀ place < 8, unswapped call memory place = placed calls initial header count place) :
    ∀ place < 8, unswapped (call + 1)
      (Splice.store memory count (Splice.window header count size)).reverse place =
        placed calls initial header (count + size) place := by
  intro place bound
  have block : (Splice.window header count size).length = size := Splice.window_length (by omega)
  rw [unswapped_reverse (by rw [Splice.store_length (by omega), length]) call bound,
    unswapped_store length whole inside]
  have own := mine place
  have mirror := mine (7 - place)
  by_cases even : call % 2 = 0
  · rw [if_pos even]
    have mirrored : (7 - place < count + size ∧ calls (7 - place) % 2 = 1) ↔
        (7 - place < count ∧ calls (7 - place) % 2 = 1) := by omega
    by_cases now : count ≤ place ∧ place < count + size
    · rw [if_pos now]
      simp only [placed, mirrored]
      rw [if_pos (by omega)]
    · have before : (place < count + size ∧ calls place % 2 = 0) ↔
          (place < count ∧ calls place % 2 = 0) := by omega
      rw [if_neg now, held place bound]
      simp only [placed, mirrored, before]
  · rw [if_neg even]
    have direct : (place < count + size ∧ calls place % 2 = 0) ↔
        (place < count ∧ calls place % 2 = 0) := by omega
    by_cases now : count ≤ 7 - place ∧ 7 - place < count + size
    · rw [if_pos now]
      simp only [placed, direct]
      rw [if_neg (by omega), if_pos (by omega)]
    · have before : (7 - place < count + size ∧ calls (7 - place) % 2 = 1) ↔
          (7 - place < count ∧ calls (7 - place) % 2 = 1) := by omega
      rw [if_neg now, held place bound]
      simp only [placed, direct, before]

theorem consumeHeaderSome_taken (msg : BinaryMessage T) (data : Bytes) (count : Nat)
    (taken : count = min data.length (8 - msg.headIdx)) :
    MessageLike.consumeHeaderSome msg data =
      some ((none, decide (8 ≤ msg.headIdx + count), count),
        { msg with
          length := LittleEndian.swap 8 (LittleEndian.value
            (Splice.store (LittleEndian.bytes 8 msg.length) msg.headIdx (data.take count)))
          headIdx := msg.headIdx + count }) := by
  subst taken
  rfl

theorem feedHeader_receives {header initial : Bytes} {calls : Nat → Nat} (whole : header.length = 8)
    (payload : Bytes) (sizes : List Nat) (call count : Nat) (msg : BinaryMessage T)
    (started : count < 8) (enough : 8 - count ≤ sizes.sum) (position : msg.headIdx = count)
    (numbered : ∀ byte, count ≤ byte → byte < 8 → calls byte = call + callOf sizes (byte - count))
    (held : ∀ place < 8, unswapped call (LittleEndian.bytes 8 msg.length) place =
      placed calls initial header count place) :
    ∃ last, feed MessageLike.consumeHeaderSome sizes (header.drop count ++ payload) msg =
        some (8 - count, last) ∧
      last = { msg with length := last.length, headIdx := 8 } ∧ last.length < 256 ^ 8 ∧
      ∀ place < 8, unswapped (calls 7 + 1) (LittleEndian.bytes 8 last.length) place =
        placed calls initial header 8 place := by
  induction sizes generalizing call count msg with
  | nil =>
      simp only [List.sum_nil] at enough
      omega
  | cons size rest ih =>
      simp only [List.sum_cons] at enough
      have memory : (LittleEndian.bytes 8 msg.length).length = 8 := LittleEndian.bytes_length 8 _
      have left : (header.drop count).length = 8 - count := by rw [List.length_drop, whole]
      -- the chunk is cut at the end of the header or at its own end
      have stored : ∀ taken, taken ≤ size → taken ≤ 8 - count →
          ((header.drop count ++ payload).take size).take taken = Splice.window header count taken := by
        intro taken within inside
        rw [List.take_take, Nat.min_eq_left within, List.take_append_of_le_length (by omega),
          Splice.window]
      have exchanged : ∀ taken, taken ≤ 8 - count → LittleEndian.bytes 8 (LittleEndian.swap 8
          (LittleEndian.value (Splice.store (LittleEndian.bytes 8 msg.length) count
            (Splice.window header count taken)))) =
          (Splice.store (LittleEndian.bytes 8 msg.length) count
            (Splice.window header count taken)).reverse := by
        intro taken inside
        have block : (Splice.window header count taken).length = taken :=
          Splice.window_length (by omega)
        refine LittleEndian.bytes_swap_value ?_
        rw [Splice.store_length (by omega), memory]
      have data : ((header.drop count ++ payload).take size).length =
          min size (8 - count + payload.length) := by
        rw [List.length_take, List.length_append, left]
      by_cases fits : 8 - count ≤ size
      · have reply := consumeHeaderSome_taken msg ((header.drop count ++ payload).take size)
          (8 - count) (by omega)
        rw [decide_eq_true (by omega), stored _ fits (Nat.le_refl _), position] at reply
        refine ⟨_, feed_complete rest reply, ?_, LittleEndian.swap_lt 8 _, ?_⟩
        · have all : count + (8 - count) = 8 := by omega
          rw [all]
        · have mine : ∀ byte, count ≤ byte → byte < count + (8 - count) → calls byte = call := by
            intro byte low high
            rw [numbered byte low (by omega), callOf, if_pos (by omega), Nat.add_zero]
          have last := mine 7 (by omega) (by omega)
          have moved := placed_call memory whole (by omega) mine held
          rw [exchanged _ (Nat.le_refl _), last]
          intro place bound
          rw [moved place bound, Nat.add_sub_cancel' (Nat.le_of_lt started)]
      · have reply := consumeHeaderSome_taken msg ((header.drop count ++ payload).take size)
          size (by omega)
        rw [decide_eq_false (by omega), stored _ (Nat.le_refl _) (by omega), position] at reply
        have mine : ∀ byte, count ≤ byte → byte < count + size → calls byte = call := by
          intro byte low high
          rw [numbered byte low (by omega), callOf, if_pos (by omega), Nat.add_zero]
        have later : ∀ byte, count + size ≤ byte → byte < 8 →
            calls byte = call + 1 + callOf rest (byte - (count + size)) := by
          intro byte low high
          rw [numbered byte (by omega) high, callOf, if_neg (by omega), Nat.sub_sub, Nat.add_assoc]
        obtain ⟨last, remaining, shape, bounded, arrived⟩ := ih (call + 1) (count + size)
          { msg with
            length := LittleEndian.swap 8 (LittleEndian.value
              (Splice.store (LittleEndian.bytes 8 msg.length) count
                (Splice.window header count size)))
            headIdx := count + size }
          (by omega) (by omega) rfl later
          (by
            simp only [exchanged _ (Nat.le_of_not_le fits)]
            exact placed_call memory whole (by omega) mine held)
        refine ⟨last, ?_, shape, bounded, arrived⟩
        have dropped : (header.drop count ++ payload).drop size =
            header.drop (count + size) ++ payload := by
          rw [List.drop_append_of_le_length (by omega), List.drop_drop]
        have sum : size + (8 - (count + size)) = 8 - count := by omega
        rw [feed_more rest reply, dropped, remaining, Option.map_some, sum]

theorem placed_arrives {sizes : List Nat} {initial header : Bytes} {byte : Nat} (bound : byte < 8) :
    placed (callOf sizes) initial header 8
        (if callOf sizes 7 % 2 = 0 then byte else 7 - byte) = header.getD byte 0 ↔
      (Misplaced sizes byte → ¬ Misplaced sizes (7 - byte) →
        header.getD byte 0 = initial.getD (if callOf sizes 7 % 2 = 0 then byte else 7 - byte) 0) ∧
      (Misplaced sizes (7 - byte) → Misplaced sizes byte ∨ byte < 7 - byte →
        header.getD byte 0 = header.getD (7 - byte) 0) := by
  have mirror : 7 - (7 - byte) = byte := by omega
  have inside : 7 - byte < 8 := by omega
  by_cases last : callOf sizes 7 % 2 = 0
  · have odd : ∀ other, Misplaced sizes other ↔ callOf sizes other % 2 = 1 := by
      intro other
      rw [Misplaced]
      omega
    have even : callOf sizes byte % 2 = 0 ↔ ¬ callOf sizes byte % 2 = 1 := by omega
    simp only [last, ↓reduceIte, placed, odd, even, bound, inside, true_and]
    by_cases own : callOf sizes byte % 2 = 1 <;>
      by_cases mirrored : callOf sizes (7 - byte) % 2 = 1 <;>
      by_cases before : byte < 7 - byte <;> simp [own, mirrored, before, eq_comm]
  · have even : ∀ other, Misplaced sizes other ↔ ¬ callOf sizes other % 2 = 1 := by
      intro other
      rw [Misplaced]
      omega
    have mine : callOf sizes (7 - byte) % 2 = 0 ↔ ¬ callOf sizes (7 - byte) % 2 = 1 := by omega
    have after : 7 - byte < byte ↔ ¬ byte < 7 - byte := by omega
    simp only [last, ↓reduceIte, placed, even, mine, mirror, bound, inside, true_and, after]
    by_cases own : callOf sizes byte % 2 = 1 <;>
      by_cases mirrored : callOf sizes (7 - byte) % 2 = 1 <;>
      by_cases before : byte < 7 - byte <;> simp [own, mirrored, before, eq_comm]

theorem length_iff {length size : Nat} (bounded : length < 256 ^ 8) (fits : size < 256 ^ 8) :
    length = size ↔ ∀ byte < 8,
      (LittleEndian.bytes 8 length).getD (7 - byte) 0 = (lengthHeader size).getD byte 0 := by
  have mirrored : ∀ byte < 8, (lengthHeader size).getD byte 0 =
      (LittleEndian.bytes 8 size).getD (7 - byte) 0 := by
    intro byte bound
    rw [lengthHeader, List.getD_eq_getElem?_getD, List.getD_eq_getElem?_getD,
      List.getElem?_reverse (by rwa [LittleEndian.bytes_length]), LittleEndian.bytes_length]
  constructor
  · rintro rfl byte bound
    exact (mirrored byte bound).symm
  · intro agree
    have same : LittleEndian.bytes 8 length = LittleEndian.bytes 8 size := by
      refine List.ext_getElem (by simp) ?_
      intro place inside inside'
      rw [LittleEndian.bytes_length] at inside
      have there := agree (7 - place) (by omega)
      rw [mirrored (7 - place) (by omega)] at there
      have back : 7 - (7 - place) = place := by omega
      simpa [back, List.getD_eq_getElem?_getD, inside] using there
    rw [← LittleEndian.value_bytes bounded, same, LittleEndian.value_bytes fits]

/-- The receiver completes having consumed the whole stream, and unpacks the value. -/
def RoundTrips [Packable T] (receiver : BinaryMessage T) (headSizes bodySizes : List Nat)
    (stream : Bytes) (value : T) : Prop :=
  ∃ headCount headed bodyCount last,
    feed MessageLike.consumeHeaderSome headSizes stream receiver = some (headCount, headed) ∧
    feed MessageLike.consumeBodySome bodySizes (stream.drop headCount) headed =
      some (bodyCount, last) ∧
    headCount + bodyCount = stream.length ∧ last.unpack.1 = none ∧ last.unpack.2.value = value

theorem frame_round_trips_iff [Packable T] {value : T} (old : T) {packed : Bytes} {received : Nat}
    {headSizes bodySizes : List Nat}
    (unpacks : Packable.unpacker (Packable.empty : T) packed = (value, true))
    (storable : packed.length ≤ maxSize) (headEnough : 8 ≤ headSizes.sum)
    (bodySome : bodySizes ≠ []) (bodyEnough : packed.length ≤ bodySizes.sum) :
    RoundTrips (ofValue received old) headSizes bodySizes (lengthHeader packed.length ++ packed)
        value ↔
      LengthArrives headSizes (LittleEndian.bytes 8 received) (lengthHeader packed.length) := by
  have untouched : ∀ place < 8,
      unswapped 0 (LittleEndian.bytes 8 (ofValue received old).length) place =
        placed (callOf headSizes) (LittleEndian.bytes 8 received) (lengthHeader packed.length) 0
          place := by
    intro place _
    simp [unswapped, placed, ofValue]
  obtain ⟨headed, fed, shape, bounded, arrived⟩ := feedHeader_receives
    (lengthHeader_length packed.length) packed headSizes 0 0 (ofValue received old) (by omega)
    headEnough rfl (fun byte _ _ => by rw [Nat.zero_add, Nat.sub_zero]) untouched
  rw [List.drop_zero] at fed
  have front : (lengthHeader packed.length ++ packed).drop 8 = packed := by
    rw [List.drop_append_of_le_length (by simp), List.drop_of_length_le (by simp), List.nil_append]
  have start : headed.bodyIdx = 0 := by
    rw [shape]
    rfl
  have arrives : LengthArrives headSizes (LittleEndian.bytes 8 received)
      (lengthHeader packed.length) ↔ headed.length = packed.length := by
    rw [length_iff bounded (by rw [maxSize] at storable; omega)]
    refine forall₂_congr fun byte bound => ?_
    rw [← placed_arrives bound, ← arrived _ (by split <;> omega), unswapped]
    by_cases last : callOf headSizes 7 % 2 = 0
    · rw [if_neg (by omega), if_pos last]
    · rw [if_pos (by omega), if_neg last]
  rw [arrives]
  constructor
  · rintro ⟨headCount, headed', bodyCount, last, head, body, whole, _, _⟩
    rw [fed, Option.some.injEq, Prod.mk.injEq] at head
    obtain ⟨rfl, rfl⟩ := head
    have count := (feedBody_finished body).1
    rw [List.length_append, lengthHeader_length] at whole
    omega
  · intro same
    obtain ⟨last, body, buffer⟩ := feedBody_receives bodySizes [] packed headed
      (by simpa using same) start (Or.inr (same ▸ storable)) (by simp) bodySome bodyEnough
    refine ⟨8, headed, packed.length, last, fed, by rw [front]; exact body, by simp, ?_, ?_⟩
    · simp [unpack, buffer, unpacks]
    · simp [unpack, buffer, unpacks]

end BinaryMessage

open BinaryMessage

theorem framing_round_trips_iff {T : Type} [Packable T] (value old : T) (packed header body : Bytes)
    (sent received : Nat) (headSpans bodySpans : List Bytes) (headSizes bodySizes : List Nat)
    (headed drained : BinaryMessage T)
    (packs : Packable.packer value = (packed, true))
    (unpacks : Packable.unpacker (Packable.empty : T) packed = (value, true))
    (storable : packed.length ≤ maxSize)
    (headDrained : drain MessageLike.produceHeaderSome headSpans (ofValue sent value).pack.2 =
      some (header, headed))
    (bodyDrained : drain MessageLike.produceBodySome bodySpans headed = some (body, drained))
    (headEnough : 8 ≤ headSizes.sum) (bodySome : bodySizes ≠ [])
    (bodyEnough : packed.length ≤ bodySizes.sum) :
    RoundTrips (ofValue received old) headSizes bodySizes (header ++ body) value ↔
      LengthArrives headSizes (LittleEndian.bytes 8 received) (lengthHeader packed.length) := by
  have ready := pack_ready sent packs
  obtain ⟨rfl, framed, atHead, atBody⟩ := (emitsHeader packed).drained ready headDrained
  have rest : BodyPending packed packed headed := ⟨framed, atHead, by omega, by simp [atBody]⟩
  obtain ⟨rfl, _⟩ := (emitsBody packed).drained rest bodyDrained
  exact frame_round_trips_iff old unpacks storable headEnough bodySome bodyEnough

theorem framing_round_trips_whole : RoundTrips (ofValue 77 (⟨[]⟩ : Blob)) [8] [1, 0, 2]
    [0, 0, 0, 0, 0, 0, 0, 3, 0xc4, 1, 5] ⟨[5]⟩ := by
  have arrives : LengthArrives [8] (LittleEndian.bytes 8 77) (lengthHeader 3) := by decide
  exact (framing_round_trips_iff (⟨[5]⟩ : Blob) ⟨[]⟩ [0xc4, 1, 5] [0, 0, 0, 0, 0, 0, 0, 3] [0xc4, 1, 5]
    0 77 [[0, 0, 0], [0, 0, 0, 0, 0, 0]] [[1], [2, 3, 4]] [8] [1, 0, 2] _ _ rfl rfl (by decide) rfl rfl
    (by decide) (by decide) (by decide)).mpr arrives

/-- A length of 256 whose last header byte comes in a chunk of its own. -/
theorem framing_split_header : ∃ (packed header body : Bytes) (headed drained : BinaryMessage Blob)
    (headSpans bodySpans : List Bytes),
    Packable.packer (⟨List.replicate 254 0⟩ : Blob) = (packed, true) ∧
      Packable.unpacker (Packable.empty : Blob) packed = (⟨List.replicate 254 0⟩, true) ∧
      drain MessageLike.produceHeaderSome headSpans
        (ofValue 0 (⟨List.replicate 254 0⟩ : Blob)).pack.2 = some (header, headed) ∧
      drain MessageLike.produceBodySome bodySpans headed = some (body, drained) ∧
      ¬ RoundTrips (ofValue 0 (⟨[]⟩ : Blob)) [7, 1] [256] (header ++ body)
        ⟨List.replicate 254 0⟩ := by
  obtain ⟨value, same, packed, packs, unpacks, size⟩ :
      ∃ value : Blob, value = ⟨List.replicate 254 0⟩ ∧ ∃ packed,
        Packable.packer value = (packed, true) ∧
          Packable.unpacker (Packable.empty : Blob) packed = (value, true) ∧ packed.length = 256 :=
    ⟨_, rfl, 0xc4 :: 254 :: List.replicate 254 0, by decide +kernel, by decide +kernel,
      by decide +kernel⟩
  rw [← same]
  obtain ⟨headed, headDrained, framed, atHead, atBody⟩ := (emitsHeader packed).drains
    [List.replicate 8 0] (pack_ready 0 packs) (by simp) (by simp)
  have rest : BodyPending packed packed headed := ⟨framed, atHead, by omega, by simp [atBody]⟩
  obtain ⟨drained, bodyDrained, _⟩ := (emitsBody packed).drains
    [packed] rest (by simp) (by simp)
  refine ⟨packed, _, _, headed, drained, _, _, packs, unpacks, headDrained, bodyDrained, ?_⟩
  rw [frame_round_trips_iff ⟨[]⟩ unpacks (by rw [size]; decide) (by decide) (by decide)
    (by rw [size]; decide), size]
  decide

end CoServer
