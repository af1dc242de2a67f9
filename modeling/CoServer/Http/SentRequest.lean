import CoServer.Http.HeadScan
import CoServer.Http.RequestRouting

/-!
A request as it is sent, and the message it is read into. The module says what a
call does to that message: a part of the head is copied, the end of the head is
recognised where the call ends there, and the body is collected.
-/

namespace CoServer.Http

def PhrHeader.lowerName (header : PhrHeader) : Bytes := lower (header.name.getD [])

/-- The head has no field for a body and there is none, or the only field for the
length has the length of the body. -/
inductive Framed (headers : List PhrHeader) (body : Bytes) : Prop
  | unframed : (∀ header ∈ headers, header.lowerName ≠ ascii "content-length" ∧
        header.lowerName ≠ ascii "transfer-encoding") → body = [] → Framed headers body
  | sized {value} :
      headers.filter (fun header => header.lowerName == ascii "content-length") =
        [⟨some (ascii "Content-Length"), value⟩] →
      value ≠ [] → (∀ char ∈ value, Decimal.isDigit char = true) →
      Decimal.value value = body.length → body.length ≤ 1024 * 1024 → Framed headers body

structure SentRequest where
  headerBuffer : Bytes
  head : Bytes
  body : Bytes
  parsed : PhrRequest
  used : Int
  accepted : phrParseRequest head maxNumHeaders = (used, parsed.headers.length, some parsed)
  positive : 0 < used
  pairs : paired head = true
  ended : crlf ++ crlf <:+ head
  once : ∀ front back, head = front ++ (crlf ++ crlf) ++ back → back = []
  fits : head.length ≤ headerBuffer.length
  framed : Framed parsed.headers body

namespace SentRequest

open Request

def bytes (sent : SentRequest) : Bytes := sent.head ++ sent.body

def scanned (sent : SentRequest) (front : Bytes) : Request :=
  { Request.ofBuffer sent.headerBuffer with
    headerBuffer := front ++ sent.headerBuffer.drop front.length
    headerBufferIdx := front.length
    last := (scanState front).1
    numFound := (scanState front).2 }

def fresh (sent : SentRequest) : Request := Request.ofBuffer sent.headerBuffer

theorem scanned_nil (sent : SentRequest) : sent.scanned [] = sent.fresh := rfl

theorem counted (sent : SentRequest) {front back : Bytes} (split : sent.head = front ++ back) :
    (scanState front).2 = 4 ↔ back = [] :=
  scan_head (remaining_start sent.pairs sent.ended sent.once) split

/-- The message before a copy, when the loop has gone on over some text. -/
def ahead (sent : SentRequest) (front text : Bytes) : Request :=
  { sent.scanned front with
    last := (scanState text).1
    numFound := (scanState text).2 }

theorem ahead_numFound (sent : SentRequest) (front text : Bytes) :
    (sent.ahead front text).numFound = (scanState text).2 := rfl

theorem ahead_copied (sent : SentRequest) (front data : Bytes) :
    (sent.ahead front (front ++ data)).copyHeader data data.length = sent.scanned (front ++ data) := by
  have stored : Splice.store (front ++ sent.headerBuffer.drop front.length) front.length data =
      front ++ data ++ sent.headerBuffer.drop (front.length + data.length) := by
    rw [Splice.store, List.take_left, List.drop_append, List.drop_drop]
    simp
  simp only [ahead, copyHeader, scanned, List.take_length, stored, List.length_append]

/-- What the loop reads of the bytes it is offered. -/
def part (sent : SentRequest) (front data : Bytes) : Bytes :=
  data.take (min data.length (sent.headerBuffer.length - front.length))

theorem scanData_scanned (sent : SentRequest) (front data : Bytes) :
    (sent.scanned front).scanData data =
      (sent.ahead front (front ++ sent.part front data),
        (scan (sent.part front data) 0 (scanState front)
          (min data.length (sent.headerBuffer.length - front.length))).2) := by
  simp only [ahead, part, scanData, scanned, ofBuffer, ge_iff_le, Nat.min_def, scan_state, scanState,
    List.foldl_append]

theorem scanState_append (front back : Bytes) :
    scanState (front ++ back) = back.foldl scanStep (scanState front) := List.foldl_append

theorem consumeHeaderSome_scanned (sent : SentRequest) {front data : Bytes} {numRead : Nat}
    (read : (scan (sent.part front data) 0 (scanState front)
      (min data.length (sent.headerBuffer.length - front.length))).2 = numRead) :
    (sent.scanned front).consumeHeaderSome data =
      if (scanState (front ++ sent.part front data)).2 = 4 then
        ((sent.ahead front (front ++ sent.part front data)).copyHeader data numRead).acceptHeader
          numRead
      else if numRead = sent.headerBuffer.length - front.length then
        some ((some .invalidMessage, true, 0), sent.ahead front (front ++ sent.part front data))
      else
        some ((none, false, numRead),
          (sent.ahead front (front ++ sent.part front data)).copyHeader data numRead) := by
  have limit : (sent.scanned front).maxHeaderSize - (sent.scanned front).headerBufferIdx =
      sent.headerBuffer.length - front.length := rfl
  simp only [consumeHeaderSome, scanData_scanned, read, ahead_numFound, limit]
  by_cases found : (scanState (front ++ sent.part front data)).2 = 4
  · simp only [found, decide_true, Bool.true_eq_false, and_false, ↓reduceIte]
  · simp only [found, decide_false, and_true, Bool.false_eq_true, ↓reduceIte]

theorem header_part (sent : SentRequest) {front data back : Bytes}
    (split : sent.head = front ++ data ++ back) (more : back ≠ []) :
    (sent.scanned front).consumeHeaderSome data =
      some ((none, false, data.length), sent.scanned (front ++ data)) := by
  have size := congrArg List.length split
  have fits := sent.fits
  have some_ := List.length_pos_iff.mpr more
  simp only [List.length_append] at size
  have whole : min data.length (sent.headerBuffer.length - front.length) = data.length := by omega
  have part : sent.part front data = data := by rw [SentRequest.part, whole, List.take_length]
  have quiet : (scan (sent.part front data) 0 (scanState front)
      (min data.length (sent.headerBuffer.length - front.length))).2 = data.length := by
    rw [part, whole]
    refine scan_quiet ?_ 0 _
    rintro first rest rfl _
    have counted := sent.counted
      (by simp only [split, List.append_assoc] : sent.head = (front ++ first) ++ (rest ++ back))
    rw [← scanState_append, Ne, counted, List.append_eq_nil_iff]
    exact fun nothing => more nothing.2
  have open_ : ¬ (scanState (front ++ data)).2 = 4 := by
    rw [sent.counted split]
    exact more
  rw [consumeHeaderSome_scanned sent quiet, part, if_neg open_, if_neg (by omega), ahead_copied]

theorem header_whole (sent : SentRequest) {front last extra : Bytes}
    (split : sent.head = front ++ last) (some_ : last ≠ [])
    (clear : extra = [] ∨ sent.head.length = sent.headerBuffer.length) :
    (sent.scanned front).consumeHeaderSome (last ++ extra) =
      (sent.scanned sent.head).acceptHeader last.length := by
  have size := congrArg List.length split
  have fits := sent.fits
  rw [List.length_append] at size
  have ends : sent.part front (last ++ extra) = last := by
    rw [part, List.length_append]
    rcases clear with rfl | full
    · rw [List.append_nil, List.take_of_length_le]
      simp only [List.length_nil]
      omega
    · rw [show min (last.length + extra.length) (sent.headerBuffer.length - front.length) =
        last.length by omega, List.take_left]
  have found : (scanState sent.head).2 = 4 := (sent.counted (List.append_nil _).symm).mpr rfl
  rw [split] at found
  have read : (scan (sent.part front (last ++ extra)) 0 (scanState front)
      (min (last ++ extra).length (sent.headerBuffer.length - front.length))).2 = last.length := by
    rw [ends, scan_found some_ (scanState_append front last ▸ found), Nat.zero_add]
  have copy : (sent.ahead front (front ++ last)).copyHeader (last ++ extra) last.length =
      sent.scanned (front ++ last) := by
    rw [← ahead_copied, copyHeader, copyHeader, List.take_left, List.take_length]
  rw [consumeHeaderSome_scanned sent read, ends, if_pos found, copy, split]

theorem header_overrun (sent : SentRequest) {front last extra : Bytes}
    (split : sent.head = front ++ last) (some_ : last ≠ []) (more : extra ≠ [])
    (room : sent.head.length < sent.headerBuffer.length) :
    last.length ≤ ((sent.scanned front).scanData (last ++ extra)).2 ∧
      (((sent.scanned front).scanData (last ++ extra)).1.numFound = 4 →
        last.length < ((sent.scanned front).scanData (last ++ extra)).2) := by
  have size := congrArg List.length split
  rw [List.length_append] at size
  have positive := List.length_pos_iff.mpr more
  obtain ⟨beyond, part, longer⟩ : ∃ beyond, sent.part front (last ++ extra) = last ++ beyond ∧
      beyond ≠ [] := by
    refine ⟨extra.take (min (last ++ extra).length (sent.headerBuffer.length - front.length) -
      last.length), ?_, ?_⟩
    · rw [SentRequest.part, List.take_append, List.take_of_length_le]
      rw [List.length_append]
      omega
    · rw [← List.length_pos_iff, List.length_take, List.length_append]
      omega
  have found : (scanState sent.head).2 = 4 := (sent.counted (List.append_nil _).symm).mpr rfl
  rw [split, scanState_append] at found
  have first : (scan (last ++ beyond) 0 (scanState front)
      (min (last ++ extra).length (sent.headerBuffer.length - front.length))) =
      scan beyond last.length (scanState (front ++ last)) last.length := by
    rw [scan_append, scan_state, scan_found some_ found, Nat.zero_add, ← scanState_append]
  rw [scanData_scanned, part, first]
  simp only [ahead_numFound]
  refine ⟨?_, ?_⟩
  · rcases scan_bounds beyond last.length (scanState (front ++ last)) last.length with same | ⟨above, _⟩
    · rw [same]
    · omega
  · intro again
    rw [← List.append_assoc, scanState_append] at again
    rw [scan_found longer again]
    have := List.length_pos_iff.mpr longer
    omega

/-- The message shows the request that was sent; the version is as it reports it. -/
structure Shows (sent : SentRequest) (msg : Request) : Prop where
  method : msg.method = sent.parsed.method
  target : msg.target = sent.parsed.path
  version : msg.version = versionText sent.parsed.minorVersion
  fields : msg.fields.take msg.numHeaders = fieldsOf sent.parsed.headers

/-- The message has accepted the head and received a part of the body. -/
structure Receiving (sent : SentRequest) (got : Bytes) (msg : Request) : Prop where
  shows_ : Shows sent msg
  length : (msg.contentLength = none ∧ sent.body = []) ∨
    (msg.contentLength = some sent.body.length ∧ sent.body.length ≤ msg.maxBodySize)
  unchunked : msg.chunked = false
  index : msg.bodyIdx = got.length
  empty : sent.body = [] → msg.body = []
  kept : (if msg.body.length ≠ sent.body.length then resizeTo msg.body sent.body.length
    else msg.body).take got.length = got

theorem framed_read {headers : List PhrHeader} {body : Bytes} (framed : Framed headers body)
    {req : Request} (fields : req.fields.take req.numHeaders = fieldsOf headers) :
    (req.get .contentLength = none ∧ req.getList .transferEncoding = [] ∧ body = []) ∨
      (∃ value, req.get .contentLength = some value ∧ fromChars value = some body.length ∧
        body.length ≤ 1024 * 1024) := by
  cases framed with
  | unframed absent empty =>
      have unnamed : ∀ field, field = .contentLength ∨ field = .transferEncoding →
          ∀ entry ∈ fieldsOf headers, ¬ Field.named field entry.1 = true := by
        rintro field which entry member named
        obtain ⟨header, present, rfl⟩ := List.mem_map.mp member
        have lowered := lower_named named
        rcases which with rfl | rfl
        · exact (absent header present).1 lowered
        · exact (absent header present).2 lowered
      refine Or.inl ⟨?_, ?_, empty⟩
      · rw [Request.get, fields, Option.map_eq_none_iff, List.find?_eq_none]
        exact unnamed _ (Or.inl rfl)
      · rw [getList, fields, List.map_eq_nil_iff, List.filter_eq_nil_iff]
        exact unnamed _ (Or.inr rfl)
  | @sized value only some_ digits length small =>
      refine Or.inr ⟨value, ?_, ?_, small⟩
      · have chosen : headers.find? (fun header =>
            Field.named .contentLength (header.name.getD [])) =
              some ⟨some (ascii "Content-Length"), value⟩ := by
          have same : headers.filter (fun header =>
              Field.named .contentLength (header.name.getD [])) =
                [⟨some (ascii "Content-Length"), value⟩].filter (fun header =>
                  Field.named .contentLength (header.name.getD [])) := by
            rw [← only, List.filter_filter]
            refine List.filter_congr fun header _ => ?_
            cases named : Field.named .contentLength (header.name.getD []) with
            | false => rfl
            | true =>
                have lowered := lower_named named
                simp [PhrHeader.lowerName, lowered, fieldStrArrLower]
          rw [← List.head?_filter, same]
          rfl
        rw [Request.get, fields, fieldsOf, List.find?_map, Function.comp_def, chosen]
        rfl
      · have whole : value.takeWhile Decimal.isDigit = value := List.takeWhile_eq_self_iff.mpr digits
        have modulus : sizeModulus = 2 ^ 64 := rfl
        simp only [fromChars, whole, some_, ↓reduceIte, length]
        rw [if_pos (by omega)]

/-- The message with the parsed head, before the fields are read. -/
def parsedInto (sent : SentRequest) : Request :=
  { sent.scanned sent.head with
    numHeaders := sent.parsed.headers.length
    method := sent.parsed.method
    target := sent.parsed.path
    version := versionText sent.parsed.minorVersion
    fields := Splice.store (List.replicate maxNumHeaders ([], [])) 0 (fieldsOf sent.parsed.headers) }

theorem parsedInto_fields (sent : SentRequest) :
    sent.parsedInto.fields.take sent.parsedInto.numHeaders = fieldsOf sent.parsed.headers :=
  withHead_fields (sent.scanned sent.head) sent.parsed

theorem parsedInto_length (sent : SentRequest) : ∃ length,
    sent.parsedInto.readContentLength = some { sent.parsedInto with contentLength := length } ∧
      ({ sent.parsedInto with contentLength := length } : Request).readChunked =
        { sent.parsedInto with contentLength := length } ∧
      ((length = none ∧ sent.body = []) ∨
        (length = some sent.body.length ∧ sent.body.length ≤ 1024 * 1024)) := by
  rcases framed_read sent.framed sent.parsedInto_fields with
    ⟨unsized, unchunked, empty⟩ | ⟨value, found, number, small⟩
  · refine ⟨none, ?_, ?_, Or.inl ⟨rfl, empty⟩⟩
    · simp only [readContentLength, unsized]
      rfl
    · have none_ : ({ sent.parsedInto with contentLength := none } : Request).getList
          .transferEncoding = [] := unchunked
      rw [readChunked, none_]
      rfl
  · refine ⟨some sent.body.length, ?_, ?_, Or.inr ⟨rfl, small⟩⟩
    · simp only [readContentLength, found, number]
    · rw [readChunked]
      rfl

theorem deserialize_head (sent : SentRequest) :
    (pathPart sent.parsed.path = [] → (sent.scanned sent.head).deserialize = none) ∧
      (pathPart sent.parsed.path ≠ [] → ∃ msg,
        (sent.scanned sent.head).deserialize = some (true, msg) ∧ Receiving sent [] msg) := by
  obtain ⟨length, sized, unchunked, framed⟩ := sent.parsedInto_length
  have parsed := phrParseRequest_append (sent.headerBuffer.drop sent.head.length) sent.accepted
  have opened : (sent.scanned sent.head).deserialize =
      ({ sent.parsedInto with contentLength := length } : Request).readTarget.map
        fun req => (true, req) := by
    rw [(deserialize_accepts parsed sent.positive).2 _ sized, unchunked]
  refine ⟨?_, ?_⟩
  · intro noPath
    have nowhere := readTarget_isSome ({ sent.parsedInto with contentLength := length } : Request)
    rw [show ({ sent.parsedInto with contentLength := length } : Request).target =
      sent.parsed.path from rfl, noPath] at nowhere
    rw [opened, Option.map_eq_none_iff]
    simpa using nowhere
  · intro somePath
    obtain ⟨msg, read⟩ := Option.isSome_iff_exists.mp
      ((readTarget_isSome { sent.parsedInto with contentLength := length }).mpr somePath)
    obtain rfl := readTarget_shape read
    refine ⟨_, by rw [opened, read]; rfl, ?_⟩
    exact ⟨⟨rfl, rfl, rfl, sent.parsedInto_fields⟩, framed, rfl, rfl, fun _ => rfl, rfl⟩

theorem Receiving.reply {sent : SentRequest} {got left data : Bytes} {msg : Request}
    (receiving : Receiving sent got msg) (split : sent.body = got ++ left)
    (offered : data.take left.length = left.take data.length) :
    ∃ msg', msg.consumeBodySome data =
        some ((none, decide (left.length ≤ data.length), min data.length left.length), msg') ∧
      if left.length ≤ data.length then Shows sent msg' ∧ msg'.body = sent.body
      else Receiving sent (got ++ data) msg' := by
  have size : sent.body.length = got.length + left.length := by rw [split, List.length_append]
  have bodiless : sent.body = [] → (msg.contentLength = none ∨ msg.contentLength = some 0) →
      ∃ msg', msg.consumeBodySome data =
          some ((none, decide (left.length ≤ data.length), min data.length left.length), msg') ∧
        if left.length ≤ data.length then Shows sent msg' ∧ msg'.body = sent.body
        else Receiving sent (got ++ data) msg' := by
    intro empty length
    have none_ : left = [] := by
      rw [empty] at split
      exact (List.append_eq_nil_iff.mp split.symm).2
    refine ⟨msg, ?_, ?_⟩
    · rw [none_]
      rcases length with length | length <;>
        simp [consumeBodySome, length, receiving.unchunked]
    · rw [if_pos (by rw [none_]; exact Nat.zero_le _)]
      exact ⟨receiving.shows_, (receiving.empty empty).trans empty.symm⟩
  rcases receiving.length with ⟨unsized, empty⟩ | ⟨sized, small⟩
  · exact bodiless empty (Or.inl unsized)
  · cases length : sent.body.length with
    | zero =>
        rw [length] at sized
        exact bodiless (List.length_eq_zero_iff.mp length) (Or.inr sized)
    | succ count =>
        obtain ⟨buffer, whole, shape, kept⟩ : ∃ buffer : Bytes, buffer.length = sent.body.length ∧
            (if msg.body.length ≠ sent.body.length then resizeTo msg.body sent.body.length
              else msg.body) = buffer ∧ buffer.take got.length = got := by
          refine ⟨_, ?_, rfl, receiving.kept⟩
          split
          · exact resizeTo_length _ _
          · rename_i same
            exact not_not.mp same
        have reply : msg.consumeBodySome data =
            some ((none, decide (left.length ≤ data.length), min data.length left.length),
              { msg with
                body := Splice.store buffer got.length (data.take (min data.length left.length))
                bodyIdx := got.length + min data.length left.length }) := by
          have rest : sent.body.length - got.length = left.length := by omega
          have complete : got.length + min data.length left.length ≥ sent.body.length ↔
              left.length ≤ data.length := by omega
          have entered : msg.consumeBodySome data = msg.consumeSizedSome sent.body.length data := by
            have known : msg.contentLength = some (count + 1) := by rw [sized, length]
            simp only [consumeBodySome, known, length]
          rw [entered, consumeSizedSome, if_neg (by omega)]
          simp only [receiving.index, shape, rest, complete]
        obtain ⟨method, target, version, fields⟩ := receiving.shows_
        refine ⟨_, reply, ?_⟩
        by_cases fits : left.length ≤ data.length
        · rw [if_pos fits]
          refine ⟨⟨method, target, version, fields⟩, ?_⟩
          have all : data.take (min data.length left.length) = left := by
            rw [Nat.min_eq_right fits, offered, List.take_of_length_le fits]
          have stored := Splice.store_take_end left (by omega : got.length ≤ buffer.length)
          simp only [all]
          rw [kept, ← split] at stored
          rw [← stored, List.take_of_length_le]
          rw [Splice.store_length (by omega)]
          omega
        · rw [if_neg fits]
          have all : data.take (min data.length left.length) = data := by
            rw [Nat.min_eq_left (by omega), List.take_length]
          have stored := Splice.store_take_end data (by omega : got.length ≤ buffer.length)
          have filled : (Splice.store buffer got.length data).length = sent.body.length := by
            rw [Splice.store_length (by omega), whole]
          refine ⟨⟨method, target, version, fields⟩, Or.inr ⟨sized, small⟩, receiving.unchunked, ?_, ?_, ?_⟩
          · simp only [List.length_append]
            omega
          · intro empty
            simp [empty] at length
          · simp only [all, filled, ne_eq, not_true_eq_false, ↓reduceIte, List.length_append]
            rw [stored, kept]

end SentRequest

end CoServer.Http
