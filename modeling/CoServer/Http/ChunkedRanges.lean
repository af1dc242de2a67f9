import CoServer.Http.ChunkedBody

/-!
The copies, the sizes and the difference of the chunked branch. A body that grows
by one doubling a call takes a span exactly when the span ends within twice its
size, and the difference stays above zero exactly when no more bytes follow the
encoding than were decoded from it in the same call.
-/

namespace CoServer.Http

/-- The decoder with another count of the bytes it has seen. -/
def ChunkedDecoder.reading (decoder : ChunkedDecoder) (total : Nat) : ChunkedDecoder :=
  { decoder with totalRead := total }

def ChunkedMove.reading (total : Nat) : ChunkedMove → ChunkedMove
  | .rejected decoder => .rejected (decoder.reading total)
  | .taken decoder decoded => .taken (decoder.reading total) decoded
  | .completed decoder => .completed (decoder.reading total)

namespace ChunkedDecoder

/-- The bytes take the decoder to the end of the encoding; the payload is what they decode to. -/
inductive Ends : ChunkedDecoder → Bytes → Bytes → Prop
  | last {decoder decoder' char} : decoder.move char = .completed decoder' → Ends decoder [char] []
  | step {decoder decoder' char decoded rest payload} : decoder.move char = .taken decoder' decoded →
      Ends decoder' rest payload → Ends decoder (char :: rest) (decoded ++ payload)

theorem move_taken {decoder decoder' : ChunkedDecoder} {char : UInt8} {decoded : Bytes}
    (taken : decoder.move char = .taken decoder' decoded) : decoded = [] ∨ decoded = [char] := by
  obtain ⟨left, trailer, hex, state, total, overhead⟩ := decoder
  cases state with
  | inChunkSize =>
      simp only [move, chunkSize] at taken
      split at taken
      · simp only [chunkExt] at taken
        grind
      · grind
  | _ =>
      simp only [move, chunkExt, chunkHeaderExpectLf, chunkData, chunkDataExpectCr, chunkDataExpectLf,
        trailersLineHead, trailersLineMiddle] at taken
      grind

theorem run_sizes (decoder : ChunkedDecoder) (decoded bytes : Bytes) :
    (decoder.run decoded bytes).2.2.1.length + (decoder.run decoded bytes).2.2.2.length ≤
      decoded.length + bytes.length := by
  induction bytes generalizing decoder decoded with
  | nil => exact Nat.le_refl _
  | cons char rest ih =>
      rw [run]
      cases moved : decoder.move char with
      | rejected decoder' => exact Nat.le_refl _
      | completed decoder' =>
          simp only [List.length_cons]
          omega
      | taken decoder' more =>
          have few : more.length ≤ 1 := by
            rcases move_taken moved with rfl | rfl <;> simp
          have later := ih decoder' (decoded ++ more)
          rw [List.length_append] at later
          simp only [List.length_cons]
          omega

theorem move_reading (decoder : ChunkedDecoder) (total : Nat) (char : UInt8) :
    (decoder.reading total).move char = (decoder.move char).reading total := by
  obtain ⟨left, trailer, hex, state, seen, overhead⟩ := decoder
  cases state with
  | inChunkSize =>
      simp only [move, ChunkedDecoder.reading, chunkSize, chunkExt]
      cases decodeHex char <;> grind [ChunkedMove.reading, ChunkedDecoder.reading]
  | _ =>
      simp only [move, ChunkedDecoder.reading, chunkExt, chunkHeaderExpectLf, chunkData,
        chunkDataExpectCr, chunkDataExpectLf, trailersLineHead, trailersLineMiddle]
      grind [ChunkedMove.reading, ChunkedDecoder.reading]

theorem Ends.reading {decoder : ChunkedDecoder} {bytes payload : Bytes} (total : Nat)
    (ends : Ends decoder bytes payload) : Ends (decoder.reading total) bytes payload := by
  induction ends with
  | last moved => exact .last (by rw [move_reading, moved]; rfl)
  | step moved _ ih => exact .step (by rw [move_reading, moved]; rfl) ih

theorem ends_reading {decoder : ChunkedDecoder} {total : Nat} {bytes payload : Bytes} :
    Ends (decoder.reading total) bytes payload ↔ Ends decoder bytes payload := by
  refine ⟨fun ends => ?_, Ends.reading total⟩
  have same : (decoder.reading total).reading decoder.totalRead = decoder := rfl
  rw [← same]
  exact ends.reading decoder.totalRead

theorem run_completed {decoder decoder' : ChunkedDecoder} {decoded bytes out rest : Bytes} {ret : Int}
    (ran : decoder.run decoded bytes = (ret, decoder', out, rest)) (done : 0 ≤ ret) :
    ret = rest.length ∧ ∃ front payload, bytes = front ++ rest ∧ Ends decoder front payload ∧
      out = decoded ++ payload := by
  induction bytes generalizing decoder decoded with
  | nil =>
      cases ran
      omega
  | cons char bytes ih =>
      rw [run] at ran
      cases moved : decoder.move char with
      | rejected decoder' =>
          simp only [moved, Prod.mk.injEq] at ran
          omega
      | completed decoder' =>
          simp only [moved] at ran
          cases ran
          exact ⟨rfl, [char], [], rfl, .last moved, (List.append_nil _).symm⟩
      | taken decoder' more =>
          simp only [moved] at ran
          obtain ⟨same, front, payload, rfl, ends, rfl⟩ := ih ran
          exact ⟨same, char :: front, more ++ payload, rfl, .step moved ends, List.append_assoc _ _ _⟩

theorem Ends.run {decoder : ChunkedDecoder} {front payload : Bytes} (ends : Ends decoder front payload)
    (decoded rest : Bytes) : ∃ decoder',
      decoder.run decoded (front ++ rest) = ((rest.length : Int), decoder', decoded ++ payload, rest) := by
  induction ends generalizing decoded with
  | @last _ decoder' _ moved =>
      refine ⟨decoder', ?_⟩
      simp only [List.cons_append, List.nil_append, List.append_nil, ChunkedDecoder.run, moved]
  | step moved _ ih =>
      rename_i more _ _ _
      obtain ⟨decoder', ran⟩ := ih (decoded ++ more)
      refine ⟨decoder', ?_⟩
      simp only [List.cons_append, ChunkedDecoder.run, moved, ran, List.append_assoc]

end ChunkedDecoder

theorem phrDecodeChunked_size (decoder : ChunkedDecoder) (buf : Bytes) :
    (phrDecodeChunked decoder buf).2.2.2 ≤ buf.length := by
  have sizes := ChunkedDecoder.run_sizes (decoder.reading (decoder.totalRead + buf.length)) [] buf
  rw [List.length_nil, Nat.zero_add, ChunkedDecoder.reading] at sizes
  simp only [phrDecodeChunked]
  split
  · split <;> exact Nat.le_trans (Nat.le_add_right _ _) sizes
  · exact Nat.le_trans (Nat.le_add_right _ _) sizes

/-- The decoder leaves no more bytes than it has decoded and an offset, unless more
bytes follow the encoding. -/
theorem phrDecodeChunked_within (decoder : ChunkedDecoder) (buf : Bytes) (offset : Nat) :
    (phrDecodeChunked decoder buf).1 ≤ (offset + (phrDecodeChunked decoder buf).2.2.2 : Nat) ↔
      ∀ front rest payload, buf = front ++ rest → decoder.Ends front payload →
        rest.length ≤ offset + payload.length := by
  cases ran : (decoder.reading (decoder.totalRead + buf.length)).run [] buf with
  | mk ret after =>
      obtain ⟨decoder', decoded, left⟩ := after
      rw [ChunkedDecoder.reading] at ran
      constructor
      · intro fits front rest payload split ends
        obtain ⟨decoder'', same⟩ := (ends.reading (decoder.totalRead + buf.length)).run [] rest
        rw [← split, ChunkedDecoder.reading, ran] at same
        cases same
        have completed : ¬ ((left.length : Int) = -2) := by omega
        simp only [phrDecodeChunked, ran, completed, ↓reduceIte, List.nil_append] at fits
        omega
      · intro fits
        simp only [phrDecodeChunked, ran]
        by_cases partly : ret = -2
        · simp only [partly, ↓reduceIte]
          split <;> simp only <;> omega
        · simp only [partly, ↓reduceIte]
          by_cases done : 0 ≤ ret
          · obtain ⟨rfl, front, payload, split, ends, out⟩ := ChunkedDecoder.run_completed ran done
            have few := fits front left payload split (ChunkedDecoder.ends_reading.mp ends)
            rw [List.nil_append] at out
            rw [out]
            exact Int.ofNat_le.mpr few
          · omega

theorem phrDecodeChunked_fits (decoder : ChunkedDecoder) (buf : Bytes) :
    (phrDecodeChunked decoder buf).1 ≤ (phrDecodeChunked decoder buf).2.2.2 ↔
      ∀ front rest payload, buf = front ++ rest → decoder.Ends front payload →
        rest.length ≤ payload.length := by
  simpa only [Nat.zero_add] using phrDecodeChunked_within decoder buf 0

namespace Request

def chunkCopy (req : Request) (data : Bytes) : Nat :=
  min data.length (req.maxBodySize - req.bodyIdx)

def growSizes (req : Request) (numCopy : Nat) : List Nat :=
  (if req.body.length < 1024 then [1024] else []) ++
    if max 1024 req.body.length < req.bodyIdx + numCopy then
      [min req.maxBodySize (max 1024 req.body.length * 2)]
    else []

/-- The size passed to `resize` after the last chunk, in the arithmetic of a `size_t`. -/
def finalSizes (req : Request) (ret : Int) (size : Nat) : List Nat :=
  if ret = -1 ∨ ret = -2 then []
  else [(req.bodyIdx + (size + sizeModulus - ret.toNat)) % sizeModulus]

def resizes (req : Request) (data : Bytes) : List Nat :=
  req.growSizes (req.chunkCopy data) ++
    if req.maxBodySize - req.bodyIdx = 0 then []
    else
      let (ret, _, _, size) := phrDecodeChunked req.chunkedDecoder (data.take (req.chunkCopy data))
      req.finalSizes ret size

theorem growBody_sizes (req : Request) (numCopy : Nat) :
    (req.growBody numCopy).body = (req.growSizes numCopy).foldl resizeTo req.body := by
  by_cases small : req.body.length < 1024
  · have size : max 1024 req.body.length = 1024 := by omega
    simp only [growBody, growSizes, small, ↓reduceIte, size, resizeTo_length]
    split <;> rfl
  · have size : max 1024 req.body.length = req.body.length := by omega
    simp only [growBody, growSizes, small, ↓reduceIte, size]
    split <;> rfl

theorem growBody_length (req : Request) (numCopy : Nat) :
    (req.growBody numCopy).body.length =
      if max 1024 req.body.length < req.bodyIdx + numCopy then
        min req.maxBodySize (max 1024 req.body.length * 2)
      else max 1024 req.body.length := by
  by_cases small : req.body.length < 1024
  · have size : max 1024 req.body.length = 1024 := by omega
    simp only [growBody, small, ↓reduceIte, size, resizeTo_length]
    split <;> simp only [resizeTo_length]
  · have size : max 1024 req.body.length = req.body.length := by omega
    simp only [growBody, small, ↓reduceIte, size]
    split <;> simp only [resizeTo_length]

theorem chunkReply_sizes {req req' : Request} {ret : Int} {size : Nat} {reply : Reply}
    (small : req.bodyIdx + size < sizeModulus)
    (replied : req.chunkReply ret size = some (reply, req')) :
    req'.body = (req.finalSizes ret size).foldl resizeTo req.body := by
  rw [chunkReply] at replied
  by_cases failed : ret = -1
  · rw [if_pos failed] at replied
    cases replied
    simp [finalSizes, failed]
  · rw [if_neg failed] at replied
    by_cases incomplete : ret = -2
    · rw [if_pos incomplete] at replied
      cases replied
      simp [finalSizes, incomplete]
    · rw [if_neg incomplete] at replied
      by_cases below : req.bodyIdx + size < ret.toNat
      · rw [if_pos below] at replied
        cases replied
      · rw [if_neg below] at replied
        cases replied
        have wrapped : (req.bodyIdx + (size + sizeModulus - ret.toNat)) % sizeModulus =
            req.bodyIdx + size - ret.toNat := by
          have split : req.bodyIdx + (size + sizeModulus - ret.toNat) =
              req.bodyIdx + size - ret.toNat + sizeModulus := by omega
          rw [split, Nat.add_mod_right, Nat.mod_eq_of_lt (by omega)]
        simp [finalSizes, failed, incomplete, wrapped]

/-- The copy ends within the body, no size passed to `resize` is above the limit,
and what is subtracted from the decoded length is not above it. -/
structure ChunkInRange (req : Request) (data : Bytes) : Prop where
  copy : req.maxBodySize - req.bodyIdx ≠ 0 →
    req.bodyIdx + req.chunkCopy data ≤ (req.growBody (req.chunkCopy data)).body.length
  sizes : ∀ size ∈ req.resizes data, size ≤ req.maxBodySize
  difference :
    (phrDecodeChunked req.chunkedDecoder (data.take (req.chunkCopy data))).1 ≤
      (phrDecodeChunked req.chunkedDecoder (data.take (req.chunkCopy data))).2.2.2

/-- The span ends within twice the body, or the limit does; and where the encoding
ends in the part to be copied, no more bytes follow it than are decoded from it. -/
structure ChunkFits (req : Request) (data : Bytes) : Prop where
  room : req.bodyIdx = req.maxBodySize ∨
    req.bodyIdx + data.length ≤ 2 * max 1024 req.body.length ∨
    req.maxBodySize ≤ 2 * max 1024 req.body.length
  trailing : ∀ front rest payload, data.take (req.chunkCopy data) = front ++ rest →
    req.chunkedDecoder.Ends front payload → rest.length ≤ payload.length

/-- What the calls keep of a chunked request. -/
structure Chunked (req : Request) : Prop where
  chunked : req.chunked = true
  unsized : req.contentLength = none
  limit : req.maxBodySize = 1024 * 1024
  within : req.bodyIdx ≤ req.maxBodySize

def BodyCall (req req' : Request) : Prop :=
  ∃ data complete count, req.consumeBodySome data = some ((none, complete, count), req')

theorem consumeChunkedSome_ok {req req' : Request} {data : Bytes} {complete : Bool} {count : Nat}
    (reply : req.consumeChunkedSome data = some ((none, complete, count), req')) :
    ∃ ret decoder buffer size,
      phrDecodeChunked req.chunkedDecoder (data.take (req.chunkCopy data)) =
        (ret, decoder, buffer, size) ∧
      Request.chunkReply { req.growBody (req.chunkCopy data) with
        body := Splice.store (req.growBody (req.chunkCopy data)).body req.bodyIdx buffer
        chunkedDecoder := decoder } ret size = some ((none, complete, count), req') := by
  rw [consumeChunkedSome] at reply
  split at reply
  · cases reply
  · split at reply
    · cases reply
    · exact ⟨_, _, _, _, rfl, reply⟩

theorem Chunked.call {req req' : Request} (chunked : Chunked req) (call : BodyCall req req') :
    Chunked req' := by
  obtain ⟨data, complete, count, reply⟩ := call
  obtain ⟨asked, unsized, limit, within⟩ := chunked
  simp only [consumeBodySome, unsized, asked, ↓reduceIte] at reply
  obtain ⟨ret, decoder, buffer, size, decoded, replied⟩ := consumeChunkedSome_ok reply
  have bound := phrDecodeChunked_size req.chunkedDecoder (data.take (req.chunkCopy data))
  simp only [decoded, List.length_take] at bound
  have copied : req.chunkCopy data ≤ req.maxBodySize - req.bodyIdx := Nat.min_le_right _ _
  rw [chunkReply] at replied
  split at replied
  · cases replied
  · split at replied
    · cases replied
      refine ⟨asked, unsized, limit, ?_⟩
      simp only [growBody]
      omega
    · split at replied
      · cases replied
      · cases replied
        exact ⟨asked, unsized, limit, within⟩

theorem ChunkedHead.reaches {first req : Request} (head : ChunkedHead first)
    (reached : Relation.ReflTransGen BodyCall first req) : Chunked req := by
  induction reached with
  | refl =>
      refine ⟨head.chunked, head.unsized, head.limit, ?_⟩
      rw [head.start]
      exact Nat.zero_le _
  | tail _ call ih => exact ih.call call

theorem Chunked.copy_iff {req : Request} (chunked : Chunked req) (data : Bytes) :
    (req.maxBodySize - req.bodyIdx ≠ 0 →
      req.bodyIdx + req.chunkCopy data ≤ (req.growBody (req.chunkCopy data)).body.length) ↔
    (req.bodyIdx = req.maxBodySize ∨ req.bodyIdx + data.length ≤ 2 * max 1024 req.body.length ∨
      req.maxBodySize ≤ 2 * max 1024 req.body.length) := by
  have within := chunked.within
  rw [growBody_length, chunkCopy]
  constructor
  · intro copy
    split at copy <;> omega
  · intro room some_
    split <;> omega

theorem Chunked.sizes {req : Request} (chunked : Chunked req) {data : Bytes}
    (difference : (phrDecodeChunked req.chunkedDecoder (data.take (req.chunkCopy data))).1 ≤
      (phrDecodeChunked req.chunkedDecoder (data.take (req.chunkCopy data))).2.2.2) :
    ∀ size ∈ req.resizes data, size ≤ req.maxBodySize := by
  have limit := chunked.limit
  have within := chunked.within
  have grown : ∀ size ∈ req.growSizes (req.chunkCopy data), size ≤ req.maxBodySize := by
    intro size member
    simp only [growSizes, List.mem_append] at member
    rcases member with first | second
    · split at first
      · rw [List.mem_singleton] at first
        omega
      · cases first
    · split at second
      · rw [List.mem_singleton] at second
        omega
      · cases second
  intro size member
  rw [resizes, List.mem_append] at member
  rcases member with growing | final
  · exact grown size growing
  · split at final
    · cases final
    · have bound := phrDecodeChunked_size req.chunkedDecoder (data.take (req.chunkCopy data))
      rw [List.length_take] at bound
      have copied : req.chunkCopy data ≤ req.maxBodySize - req.bodyIdx := Nat.min_le_right _ _
      generalize phrDecodeChunked req.chunkedDecoder (data.take (req.chunkCopy data)) = decoded
        at bound difference final
      obtain ⟨ret, decoder, buffer, length⟩ := decoded
      simp only [finalSizes] at final difference bound
      split at final
      · cases final
      · rw [List.mem_singleton] at final
        have split : req.bodyIdx + (length + sizeModulus - ret.toNat) =
            req.bodyIdx + (length - ret.toNat) + sizeModulus := by omega
        have modulus : sizeModulus = 2 ^ 64 := rfl
        rw [split, Nat.add_mod_right, Nat.mod_eq_of_lt (by omega)] at final
        omega

end Request

theorem chunked_in_range_iff (first req : Request) (data : Bytes) (head : ChunkedHead first)
    (reached : Relation.ReflTransGen Request.BodyCall first req) :
    req.ChunkInRange data ↔ req.ChunkFits data := by
  have chunked := Request.ChunkedHead.reaches head reached
  constructor
  · rintro ⟨copy, _, difference⟩
    exact ⟨(chunked.copy_iff data).mp copy, (phrDecodeChunked_fits _ _).mp difference⟩
  · rintro ⟨room, trailing⟩
    have difference := (phrDecodeChunked_fits _ _).mpr trailing
    exact ⟨(chunked.copy_iff data).mpr room, chunked.sizes difference, difference⟩

def Request.chunkedOfSize (maxHeaderSize : Nat) : Request :=
  { Request.ofSize maxHeaderSize with chunked := true }

theorem chunkedHead_ofSize (maxHeaderSize : Nat) :
    ChunkedHead (Request.chunkedOfSize maxHeaderSize) :=
  ⟨rfl, rfl, rfl, rfl, rfl, rfl⟩

theorem chunked_in_range_iff_fresh :
    (Request.chunkedOfSize 4096).ChunkInRange (ascii "5\r\nhello\r\n0\r\n\r\n") ↔
      (Request.chunkedOfSize 4096).ChunkFits (ascii "5\r\nhello\r\n0\r\n\r\n") :=
  chunked_in_range_iff _ _ _ (chunkedHead_ofSize 4096) .refl

/-- A whole read of the connection: the first chunk is as large as the span, and the
body has grown to half of it. The end of a body with bytes of another request behind
it: nothing is decoded, and four bytes are left. -/
theorem chunked_out_of_range :
    ChunkedHead (Request.chunkedOfSize 4096) ∧
      (ascii "1000\r\n" ++ List.replicate 4090 0x61).length = 4096 ∧
      ¬ (Request.chunkedOfSize 4096).ChunkInRange
        (ascii "1000\r\n" ++ List.replicate 4090 0x61) ∧
      ¬ (Request.chunkedOfSize 4096).ChunkInRange (ascii "0\r\n\r\nGET ") := by
  refine ⟨chunkedHead_ofSize 4096, by decide +kernel, ?_, ?_⟩
  · intro inRange
    have copy := inRange.copy (by decide)
    rw [Request.growBody_length, Request.chunkCopy] at copy
    revert copy
    decide +kernel
  · intro inRange
    have difference := inRange.difference
    revert difference
    decide +kernel

end CoServer.Http
