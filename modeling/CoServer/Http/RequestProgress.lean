import CoServer.Http.ChunkedRanges
import CoServer.Http.HeadAccesses
import CoServer.Http.HeaderIsolation
import CoServer.Http.SizedBody
import CoServer.ReadProgress

/-!
Where the calls of a request advance. A head does, unless the path of its target is
empty; a body of a declared length does; a chunked body does, unless the decoder
takes all of a span as framing, or the call runs out of the body.
-/

namespace CoServer.Http

namespace ChunkedDecoder

/-- The bytes are framing: the decoder takes them all, and decodes none. -/
inductive Absorbs : ChunkedDecoder → Bytes → Prop
  | nil {decoder} : Absorbs decoder []
  | cons {decoder decoder' char rest} : decoder.move char = .taken decoder' [] →
      Absorbs decoder' rest → Absorbs decoder (char :: rest)

/-- With so many bytes of framing more, the decoder gives up. -/
def Exceeds (decoder : ChunkedDecoder) (count : Nat) : Prop :=
  decoder.totalOverhead + count ≥ 100 * 1024 ∧
    decoder.totalRead + count - (decoder.totalOverhead + count) < (decoder.totalRead + count) / 4

theorem move_keeps {decoder decoder' : ChunkedDecoder} {char : UInt8} {decoded : Bytes}
    (taken : decoder.move char = .taken decoder' decoded) :
    decoder'.totalRead = decoder.totalRead ∧ decoder'.totalOverhead = decoder.totalOverhead := by
  obtain ⟨left, trailer, hex, state, total, overhead⟩ := decoder
  cases state with
  | inChunkSize =>
      simp only [move, chunkSize] at taken
      split at taken
      · simp only [chunkExt] at taken
        grind
      · grind
  | _ =>
      simp only [move, chunkExt, chunkHeaderExpectLf, chunkData, chunkDataExpectCr, chunkDataExpectLf,
        trailersLineHead, trailersLineMiddle] at taken
      grind

theorem Absorbs.run {decoder : ChunkedDecoder} {bytes : Bytes} (absorbs : Absorbs decoder bytes)
    (decoded : Bytes) : ∃ decoder', decoder.run decoded bytes = (-2, decoder', decoded, []) ∧
      decoder'.totalRead = decoder.totalRead ∧ decoder'.totalOverhead = decoder.totalOverhead := by
  induction absorbs generalizing decoded with
  | @nil decoder => exact ⟨decoder, rfl, rfl, rfl⟩
  | cons moved _ ih =>
      obtain ⟨decoder', ran, total, overhead⟩ := ih decoded
      obtain ⟨total', overhead'⟩ := move_keeps moved
      refine ⟨decoder', ?_, total.trans total', overhead.trans overhead'⟩
      rw [ChunkedDecoder.run]
      simp only [moved, List.append_nil]
      exact ran

theorem run_longer (decoder : ChunkedDecoder) (decoded bytes : Bytes) :
    decoded.length ≤ (decoder.run decoded bytes).2.2.1.length := by
  induction bytes generalizing decoder decoded with
  | nil => exact Nat.le_refl _
  | cons char rest ih =>
      rw [run]
      cases moved : decoder.move char with
      | rejected decoder' | completed decoder' => exact Nat.le_refl _
      | taken decoder' more =>
          have later := ih decoder' (decoded ++ more)
          rw [List.length_append] at later
          exact Nat.le_trans (Nat.le_add_right _ _) later

theorem absorbs_of_run {decoder decoder' : ChunkedDecoder} {decoded bytes out rest : Bytes}
    (ran : decoder.run decoded bytes = (-2, decoder', out, rest)) (none_ : out.length = decoded.length) :
    Absorbs decoder bytes := by
  induction bytes generalizing decoder decoded with
  | nil => exact .nil
  | cons char bytes ih =>
      rw [ChunkedDecoder.run] at ran
      cases moved : decoder.move char with
      | rejected decoder' | completed decoder' =>
          simp only [moved, Prod.mk.injEq] at ran
          omega
      | taken decoder' more =>
          simp only [moved] at ran
          have longer := run_longer decoder' (decoded ++ more) bytes
          rw [ran, List.length_append] at longer
          obtain rfl : more = [] := List.length_eq_zero_iff.mp (by simp only at longer; omega)
          rw [List.append_nil] at ran
          exact .cons moved (ih ran none_)

theorem Absorbs.reading {decoder : ChunkedDecoder} {bytes : Bytes} (total : Nat)
    (absorbs : Absorbs decoder bytes) : Absorbs (decoder.reading total) bytes := by
  induction absorbs with
  | nil => exact .nil
  | cons moved _ ih => exact .cons (by rw [move_reading, moved]; rfl) ih

theorem absorbs_reading {decoder : ChunkedDecoder} {total : Nat} {bytes : Bytes} :
    Absorbs (decoder.reading total) bytes ↔ Absorbs decoder bytes := by
  refine ⟨fun absorbs => ?_, Absorbs.reading total⟩
  have same : (decoder.reading total).reading decoder.totalRead = decoder := rfl
  rw [← same]
  exact absorbs.reading decoder.totalRead

end ChunkedDecoder

theorem phrDecodeChunked_stalls (decoder : ChunkedDecoder) (buf : Bytes) :
    ((phrDecodeChunked decoder buf).1 = -2 ∧ (phrDecodeChunked decoder buf).2.2.2 = 0) ↔
      decoder.Absorbs buf ∧ ¬ decoder.Exceeds buf.length := by
  constructor
  · intro stalls
    cases ran : (decoder.reading (decoder.totalRead + buf.length)).run [] buf with
    | mk ret after =>
        obtain ⟨decoder', decoded, left⟩ := after
        have ran' := ran
        rw [ChunkedDecoder.reading] at ran'
        simp only [phrDecodeChunked, ran'] at stalls
        have partly : ret = -2 := by
          by_contra other
          simp only [other, ↓reduceIte] at stalls
          exact stalls.1
        subst partly
        have none_ : decoded = [] := by
          refine List.length_eq_zero_iff.mp ?_
          simp only [↓reduceIte] at stalls
          split at stalls <;> exact stalls.2
        subst none_
        have absorbs := ChunkedDecoder.absorbs_of_run ran rfl
        obtain ⟨decoder'', same, total, overhead⟩ := absorbs.run []
        rw [ran] at same
        cases same
        refine ⟨ChunkedDecoder.absorbs_reading.mp absorbs, ?_⟩
        rintro ⟨most, dense⟩
        simp only [ChunkedDecoder.reading] at total overhead
        simp only [↓reduceIte, total, overhead, List.length_nil, Nat.sub_zero, most, dense, and_self] at stalls
        omega
  · rintro ⟨absorbs, allowed⟩
    obtain ⟨decoder', ran, total, overhead⟩ :=
      (absorbs.reading (decoder.totalRead + buf.length)).run []
    simp only [ChunkedDecoder.reading] at ran total overhead
    rw [ChunkedDecoder.Exceeds] at allowed
    simp only [phrDecodeChunked, ran, ↓reduceIte, total, overhead, List.length_nil, Nat.sub_zero, allowed,
      and_self]

namespace Request

/-- The span ends within the body as it is resized, the decoder does not take all of it
as framing, and no more bytes follow the encoding than the body has. -/
structure ChunkAdvances (req : Request) (data : Bytes) : Prop where
  room : req.bodyIdx = req.maxBodySize ∨
    req.bodyIdx + data.length ≤ 2 * max 1024 req.body.length ∨
    req.maxBodySize ≤ 2 * max 1024 req.body.length
  moves : req.bodyIdx < req.maxBodySize →
    req.chunkedDecoder.Absorbs (data.take (req.chunkCopy data)) →
      req.chunkedDecoder.Exceeds (req.chunkCopy data)
  trailing : ∀ front rest payload, data.take (req.chunkCopy data) = front ++ rest →
    req.chunkedDecoder.Ends front payload → rest.length ≤ req.bodyIdx + payload.length

theorem chunkReply_advances (req : Request) (ret : Int) (size : Nat) :
    Advances (req.chunkReply ret size) ↔
      ¬ (ret = -2 ∧ size = 0) ∧ ret ≤ (req.bodyIdx + size : Nat) := by
  rw [chunkReply]
  by_cases failed : ret = -1
  · rw [if_pos failed]
    exact ⟨fun _ => ⟨by omega, by omega⟩, fun _ => ⟨_, _, _, _, rfl, Or.inl (by simp)⟩⟩
  · rw [if_neg failed]
    by_cases partly : ret = -2
    · rw [if_pos partly]
      constructor
      · rintro ⟨err, complete, count, next, same, progress⟩
        cases same
        refine ⟨fun none_ => ?_, by omega⟩
        simp [none_.2] at progress
      · rintro ⟨some_, _⟩
        exact ⟨_, _, _, _, rfl, Or.inr (Or.inr (Nat.pos_of_ne_zero fun none_ => some_ ⟨partly, none_⟩))⟩
    · rw [if_neg partly]
      by_cases below : req.bodyIdx + size < ret.toNat
      · rw [if_pos below]
        constructor
        · rintro ⟨err, complete, count, next, no, _⟩
          cases no
        · rintro ⟨_, within⟩
          omega
      · rw [if_neg below]
        exact ⟨fun _ => ⟨fun no => partly no.1, by omega⟩,
          fun _ => ⟨_, _, _, _, rfl, Or.inr (Or.inl rfl)⟩⟩

theorem Chunked.advances_iff {req : Request} (chunked : Chunked req) (data : Bytes) :
    Advances (req.consumeChunkedSome data) ↔ req.ChunkAdvances data := by
  have within := chunked.within
  have copied : (data.take (req.chunkCopy data)).length = req.chunkCopy data := by
    rw [List.length_take, chunkCopy]
    omega
  by_cases full : req.maxBodySize - req.bodyIdx = 0
  · have none_ : req.chunkCopy data = 0 := by
      rw [chunkCopy, full, Nat.min_zero]
    constructor
    · intro _
      refine ⟨Or.inl (by omega), fun room => by omega, ?_⟩
      intro front rest payload split ends
      rw [none_, List.take_zero] at split
      rw [(List.append_eq_nil_iff.mp split.symm).1] at ends
      cases ends
    · intro _
      simp only [consumeChunkedSome, full, ↓reduceIte]
      exact ⟨_, _, _, _, rfl, Or.inl (by simp)⟩
  · have copy := chunked.copy_iff data
    by_cases fits : req.bodyIdx + req.chunkCopy data ≤ (req.growBody (req.chunkCopy data)).body.length
    · have outcome : req.consumeChunkedSome data = Request.chunkReply
          { req.growBody (req.chunkCopy data) with
            body := Splice.store (req.growBody (req.chunkCopy data)).body req.bodyIdx
              (phrDecodeChunked req.chunkedDecoder (data.take (req.chunkCopy data))).2.2.1
            chunkedDecoder := (phrDecodeChunked req.chunkedDecoder (data.take (req.chunkCopy data))).2.1 }
          (phrDecodeChunked req.chunkedDecoder (data.take (req.chunkCopy data))).1
          (phrDecodeChunked req.chunkedDecoder (data.take (req.chunkCopy data))).2.2.2 := by
        rw [consumeChunkedSome]
        exact (if_neg full).trans (if_neg (Nat.not_lt.mpr fits))
      rw [outcome, chunkReply_advances, phrDecodeChunked_stalls, copied]
      have trailing := phrDecodeChunked_within req.chunkedDecoder (data.take (req.chunkCopy data)) req.bodyIdx
      constructor
      · rintro ⟨moves, left⟩
        refine ⟨copy.mp fun _ => fits, ?_, trailing.mp left⟩
        intro _ absorbs
        by_contra allowed
        exact moves ⟨absorbs, allowed⟩
      · rintro ⟨_, moves, rest⟩
        exact ⟨fun both => both.2 (moves (by omega) both.1), trailing.mpr rest⟩
    · have outcome : req.consumeChunkedSome data = none := by
        rw [consumeChunkedSome]
        exact (if_neg full).trans (if_pos (Nat.not_le.mp fits))
      rw [outcome]
      constructor
      · rintro ⟨err, complete, count, next, no, _⟩
        cases no
      · rintro ⟨room, _, _⟩
        exact (fits (copy.mpr room full)).elim

/-- The header buffer holds a head that would be accepted, but for the path of its
target, which is empty. -/
def EmptyPath (req : Request) : Prop :=
  ∃ ret numHeaders parsed,
    phrParseRequest req.headerBuffer maxNumHeaders = (ret, numHeaders, some parsed) ∧ 0 < ret ∧
      (¬ ∃ value ∈ (valuesOf .contentLength parsed.headers).head?, NoLeadingNumber value) ∧
      pathPart parsed.path = []

theorem deserialize_none_iff (req : Request) : req.deserialize = none ↔ req.EmptyPath := by
  constructor
  · intro undefined
    by_cases accepted : ∃ (head : RequestHead) (rest : Bytes), head.lines.length ≤ maxNumHeaders ∧
        req.headerBuffer = head.text ++ rest
    · obtain ⟨head, rest, few, split⟩ := accepted
      have accepts := phrParseRequest_head few split
      by_cases rejected : toInt head.text.length ≤ 0
      · rw [deserialize_rejects accepts rejected] at undefined
        cases undefined
      · have positive : 0 < toInt head.text.length := Int.not_le.mp rejected
        cases framing : lengthOf req.contentLength (valuesOf .contentLength head.request.headers) with
        | none =>
            rw [(deserialize_framing accepts positive).1 framing] at undefined
            cases undefined
        | some length =>
            refine ⟨_, _, _, accepts, positive, ?_, ?_⟩
            · rw [← @lengthOf_none req.contentLength, framing]
              exact Option.some_ne_none length
            · by_contra some_
              rw [(deserialize_target accepts positive framing).2 some_] at undefined
              cases undefined
    · obtain ⟨ret, numHeaders, outcome, rejected⟩ := phrParseRequest_none accepted
      rw [deserialize_rejects outcome rejected] at undefined
      cases undefined
  · rintro ⟨ret, numHeaders, parsed, accepts, positive, number, none_⟩
    rw [← @lengthOf_none req.contentLength, ← Ne, Option.ne_none_iff_exists'] at number
    obtain ⟨length, framing⟩ := number
    exact (deserialize_target accepts positive framing).1 none_

/-- The call does not end a head with an empty path. -/
def HeadAdvances (req : Request) (data : Bytes) : Prop :=
  ¬ ((req.scanData data).1.numFound = 4 ∧ (req.fill data).EmptyPath)

theorem consumeHeaderSome_none_iff (req : Request) (data : Bytes) :
    req.consumeHeaderSome data = none ↔ ¬ req.HeadAdvances data := by
  rw [HeadAdvances, not_not, ← deserialize_none_iff]
  by_cases finished : (req.scanData data).1.numFound = 4
  · rw [consumeHeaderSome_finished finished, acceptHeader]
    cases (req.fill data).deserialize with
    | none => exact ⟨fun _ => ⟨finished, rfl⟩, fun _ => rfl⟩
    | some after =>
        obtain ⟨success, next⟩ := after
        cases success <;> simp
  · by_cases refused : req.Refused data
    · rw [consumeHeaderSome_refused refused]
      simp [finished]
    · rw [consumeHeaderSome_open refused finished]
      simp [finished]

/-- A request whose head is being read. Without any room left, none is finished. -/
structure Heading (req : Request) : Prop where
  bodiless : Bodiless req
  quiet : req.chunked = false
  full : req.maxHeaderSize ≤ req.headerBufferIdx → req.numFound ≠ 4

theorem heading_start (headerBuffer : Bytes) : Heading (ofBuffer headerBuffer) :=
  ⟨⟨rfl, rfl, rfl, fun _ => rfl⟩, rfl, fun _ => by simp [ofBuffer]⟩

theorem Heading.refused {req : Request} (heading : Heading req)
    (full : req.maxHeaderSize ≤ req.headerBufferIdx) (data : Bytes) : req.Refused data := by
  rw [Refused, scanData_full full]
  exact ⟨(Nat.sub_eq_zero_of_le full).symm, heading.full full⟩

theorem Heading.advances {req : Request} (heading : Heading req) {data : Bytes} (some_ : data ≠ []) :
    Advances (req.consumeHeaderSome data) ↔ req.HeadAdvances data := by
  constructor
  · rintro ⟨err, complete, count, next, reply, _⟩
    by_contra undefined
    rw [(consumeHeaderSome_none_iff req data).mpr undefined] at reply
    cases reply
  · intro permitted
    by_cases room : req.headerBufferIdx < req.maxHeaderSize
    · cases outcome : req.consumeHeaderSome data with
      | none => exact ((consumeHeaderSome_none_iff req data).mp outcome permitted).elim
      | some after =>
          obtain ⟨⟨err, complete, count⟩, next⟩ := after
          refine ⟨err, complete, count, next, rfl, ?_⟩
          cases err with
          | some code => exact Or.inl (Option.some_ne_none code)
          | none => exact Or.inr (Or.inr ((consumeHeaderSome_count outcome).2.1 some_ room))
    · rw [consumeHeaderSome_refused (heading.refused (Nat.not_lt.mp room) data)]
      exact ⟨_, _, _, _, rfl, Or.inl (Option.some_ne_none _)⟩

/-- A request whose body is being read. -/
def Bodying (req : Request) : Prop := req.chunked = true → Chunked req

theorem Bodiless.bodying {req : Request} (bodiless : Bodiless req) : Bodying req := by
  intro chunked
  have unsized : req.contentLength = none := by
    by_contra declared
    rw [bodiless.chunked declared] at chunked
    cases chunked
  refine ⟨chunked, unsized, bodiless.limit, ?_⟩
  rw [bodiless.index]
  exact Nat.zero_le _

theorem Heading.next {req next : Request} {data : Bytes} {complete : Bool} {count : Nat}
    (heading : Heading req) (some_ : data ≠ [])
    (reply : req.consumeHeaderSome data = some ((none, complete, count), next)) :
    0 < count ∧ count ≤ data.length ∧ if complete then Bodying next else Heading next := by
  have room : req.headerBufferIdx < req.maxHeaderSize := by
    by_contra full
    rw [consumeHeaderSome_refused (heading.refused (Nat.not_lt.mp full) data)] at reply
    cases reply
  obtain ⟨within, positive, left⟩ := consumeHeaderSome_count reply
  obtain ⟨bodiless, quiet⟩ := consumeHeaderSome_bodiless reply heading.bodiless heading.quiet
  refine ⟨positive some_ room, within, ?_⟩
  cases complete with
  | true => exact bodiless.bodying
  | false =>
      obtain ⟨_, _, below⟩ := left rfl
      exact ⟨bodiless, quiet rfl, fun full => (Nat.not_lt.mpr full (below room)).elim⟩

theorem consumeSizedSome_advances (req : Request) (length : Nat) {data : Bytes} (some_ : data ≠ []) :
    Advances (req.consumeSizedSome length data) := by
  rw [consumeSizedSome]
  by_cases large : length > req.maxBodySize
  · rw [if_pos large]
    exact ⟨_, _, _, _, rfl, Or.inl (Option.some_ne_none _)⟩
  · rw [if_neg large]
    have positive := List.length_pos_iff.mpr some_
    by_cases left : req.bodyIdx < length
    · exact ⟨_, _, _, _, rfl, Or.inr (Or.inr (by omega))⟩
    · exact ⟨_, _, _, _, rfl, Or.inr (Or.inl (by simp only [decide_eq_true_eq]; omega))⟩

theorem Bodying.advances {req : Request} (bodying : Bodying req) {data : Bytes} (some_ : data ≠ []) :
    Advances (req.consumeBodySome data) ↔ (req.chunked = true → req.ChunkAdvances data) := by
  rw [consumeBodySome]
  split
  · rename_i length declared
    refine ⟨fun _ chunked => ?_, fun _ => consumeSizedSome_advances req _ some_⟩
    have unsized := (bodying chunked).unsized
    rw [declared] at unsized
    cases unsized
  · by_cases asked : req.chunked = true
    · rw [if_pos asked, (bodying asked).advances_iff data]
      exact ⟨fun advances _ => advances, fun advances => advances asked⟩
    · rw [if_neg asked]
      exact ⟨fun _ chunked => (asked chunked).elim, fun _ => ⟨_, _, _, _, rfl, Or.inr (Or.inl rfl)⟩⟩

theorem Bodying.next {req next : Request} {data : Bytes} {count : Nat} (bodying : Bodying req)
    (reply : req.consumeBodySome data = some ((none, false, count), next)) :
    count ≤ data.length ∧ Bodying next := by
  have call : BodyCall req next := ⟨data, false, count, reply⟩
  rw [consumeBodySome] at reply
  split at reply
  · rename_i length declared
    have off : req.chunked ≠ true := by
      intro chunked
      have unsized := (bodying chunked).unsized
      rw [declared] at unsized
      cases unsized
    rw [consumeSizedSome] at reply
    split at reply
    · cases reply
    · simp only [Option.some.injEq, Prod.mk.injEq] at reply
      obtain ⟨⟨_, _, rfl⟩, rfl⟩ := reply
      exact ⟨Nat.min_le_left _ _, fun chunked => (off chunked).elim⟩
  · by_cases asked : req.chunked = true
    · rw [if_pos asked] at reply
      refine ⟨?_, fun _ => (bodying asked).call call⟩
      obtain ⟨ret, decoder, buffer, size, decoded, replied⟩ := consumeChunkedSome_ok reply
      have bound := phrDecodeChunked_size req.chunkedDecoder (data.take (req.chunkCopy data))
      simp only [decoded, List.length_take] at bound
      rw [chunkReply] at replied
      split at replied
      · cases replied
      · split at replied
        · cases replied
          omega
        · split at replied
          · cases replied
          · cases replied
    · rw [if_neg asked] at reply
      cases reply

end Request

end CoServer.Http
