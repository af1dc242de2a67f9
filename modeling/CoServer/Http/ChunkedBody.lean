import CoServer.Http.HeadScan
import CoServer.ReadClient
import Mathlib.Algebra.GroupWithZero.Nat

/-!
Reading a chunked body. Every call reports decoded bytes, and at the end the body
is cut to what has been reported: a body that is the payload means that fewer
bytes were reported than the encoding has.
-/

namespace CoServer.Http

open Transition

def hexValue (digits : Bytes) : Option Nat :=
  digits.foldlM (fun value char => (decodeHex char).map (value * 16 + ·)) 0

/-- The line before a chunk: its size, and an extension. -/
def SizeLine (size : Nat) (line : Bytes) : Prop :=
  ∃ digits extension, line = digits ++ extension ++ crlf ∧
    1 ≤ digits.length ∧ digits.length ≤ 16 ∧ hexValue digits = some size ∧
    (∀ char ∈ extension.head?, char = space ∨ char = tab ∨ char = 0x3b) ∧
    ∀ char ∈ extension, char ≠ cr ∧ char ≠ lf

inductive ChunkedEncoding : Bytes → Bytes → Prop
  | last {line} : SizeLine 0 line → ChunkedEncoding [] (line ++ crlf)
  | chunk {line data payload rest} : SizeLine data.length line → data ≠ [] →
      ChunkedEncoding payload rest →
      ChunkedEncoding (data ++ payload) (line ++ data ++ crlf ++ rest)

/-- The framing stays below the limit of the decoder. -/
def OverheadAllowed (payload encoding : Bytes) : Prop :=
  encoding.length - payload.length < 100 * 1024 ∨ encoding.length / 4 ≤ payload.length

structure ChunkedHead (req : Request) : Prop where
  chunked : req.chunked = true
  unsized : req.contentLength = none
  start : req.bodyIdx = 0
  empty : req.body = []
  decoder : req.chunkedDecoder = .init
  limit : req.maxBodySize = 1024 * 1024

def bodyStart (conn : Connection) (req : Request) (segments : List Bytes) : ReadClient Request where
  conn := { conn with readState := .readBody }
  queue := []
  current := some ⟨req, false, .body⟩
  header := []
  body := []
  segments := segments
  outcomes := []

def reported (events : List ReadEvent) : Nat :=
  (events.map fun
    | .consumed .body _ numBytes => numBytes
    | _ => 0).sum

/-- The call returns without error, with the payload as the body, and has reported
the bytes of the encoding. -/
def Decodes (payload encoding : Bytes) (conn : Connection) (req : Request) (segments : List Bytes) :
    Prop :=
  ∃ events client outcome, Run ReadClient.Step (bodyStart conn req segments) events client ∧
    client.outcomes = [outcome] ∧ outcome.err = none ∧ outcome.msg.body = payload ∧
    reported events = encoding.length

theorem ChunkedEncoding.longer {payload encoding : Bytes}
    (encoded : ChunkedEncoding payload encoding) : payload.length + 5 ≤ encoding.length := by
  have framed : ∀ {size line}, SizeLine size line → 3 ≤ line.length := by
    rintro size line ⟨digits, extension, rfl, some_, _⟩
    simp only [List.length_append, crlf, List.length_cons, List.length_nil]
    omega
  induction encoded with
  | last sized =>
      have := framed sized
      simp only [List.length_append, crlf, List.length_cons, List.length_nil]
      omega
  | chunk sized _ _ ih =>
      have := framed sized
      simp only [List.length_append, crlf, List.length_cons, List.length_nil]
      omega

theorem OverheadAllowed.bounded {payload encoding : Bytes}
    (allowed : OverheadAllowed payload encoding) :
    encoding.length < payload.length + 100 * 1024 ∨ encoding.length < 4 * (payload.length + 1) := by
  rcases allowed with small | dense
  · omega
  · omega

@[simp] theorem reported_append (before after : List ReadEvent) :
    reported (before ++ after) = reported before + reported after := by
  simp [reported]

namespace Request

/-- The sum of the counts of a body, unless the last one has wrapped. -/
def Totals (count : Nat) (body : Bytes) : Prop :=
  count = body.length ∨ count = body.length + sizeModulus

theorem chunkReply_ok {req req' : Request} {ret : Int} {size count : Nat} {complete : Bool}
    (reply : req.chunkReply ret size = some ((none, complete, count), req'))
    (small : req.bodyIdx < sizeModulus) :
    (complete = false ∧ req' = { req with bodyIdx := req.bodyIdx + count }) ∨
      (complete = true ∧ Totals (req.bodyIdx + count) req'.body) := by
  rw [chunkReply] at reply
  by_cases failed : ret = -1
  · rw [if_pos failed] at reply
    cases reply
  · rw [if_neg failed] at reply
    by_cases incomplete : ret = -2
    · rw [if_pos incomplete] at reply
      cases reply
      exact Or.inl ⟨rfl, rfl⟩
    · rw [if_neg incomplete] at reply
      by_cases below : req.bodyIdx + size < ret.toNat
      · rw [if_pos below] at reply
        cases reply
      · rw [if_neg below] at reply
        cases reply
        refine Or.inr ⟨rfl, ?_⟩
        simp only [Totals, resizeTo_length]
        split <;> omega

structure Chunking (count : Nat) (req : Request) : Prop where
  chunked : req.chunked = true
  unsized : req.contentLength = none
  limit : req.maxBodySize = 1024 * 1024
  reported : req.bodyIdx = count

theorem Chunking.reply {req req' : Request} {data : Bytes} {complete : Bool} {before count : Nat}
    (chunking : Chunking before req)
    (reply : req.consumeBodySome data = some ((none, complete, count), req')) :
    (complete = false ∧ Chunking (before + count) req') ∨
      (complete = true ∧ Totals (before + count) req'.body) := by
  obtain ⟨chunked, unsized, limit, rfl⟩ := chunking
  simp only [consumeBodySome, unsized, chunked, ↓reduceIte, consumeChunkedSome] at reply
  by_cases full : req.maxBodySize - req.bodyIdx = 0
  · rw [if_pos full] at reply
    cases reply
  · rw [if_neg full] at reply
    split at reply
    · cases reply
    · have small : req.bodyIdx < sizeModulus := by
        have modulus : sizeModulus = 2 ^ 64 := rfl
        omega
      rcases chunkReply_ok reply small with ⟨part, rfl⟩ | ⟨done, totals⟩
      · exact Or.inl ⟨part, chunked, unsized, limit, rfl⟩
      · exact Or.inr ⟨done, totals⟩

end Request

/-- What the reported counts have to do with the request of a call. -/
inductive CountedCall (count : Nat) (readState : ReadState) (call : ReadCall Request) : Prop
  | failed {code} : call.point = .returned (some code) → CountedCall count readState call
  | reading : readState = .readBody → call.doneRead = false → call.point ≠ .returned none →
      Request.Chunking count call.msg → CountedCall count readState call
  | read : call.doneRead = true → call.point = .loop ∨ call.point = .returned none →
      Request.Totals count call.msg.body → CountedCall count readState call

def Counted (count : Nat) (client : ReadClient Request) : Prop :=
  client.queue = [] ∧
    ((∃ call, client.current = some call ∧ client.outcomes = [] ∧
      CountedCall count client.conn.readState call) ∨
    (client.current = none ∧ ∃ outcome, client.outcomes = [outcome] ∧
      (outcome.err = none → Request.Totals count outcome.msg.body)))

theorem counted_start (conn : Connection) {req : Request} (head : ChunkedHead req)
    (segments : List Bytes) : Counted 0 (bodyStart conn req segments) :=
  ⟨rfl, Or.inl ⟨_, rfl, rfl, .reading rfl rfl (by simp)
    ⟨head.chunked, head.unsized, head.limit, head.start⟩⟩⟩

theorem CountedCall.move {count : Nat} {conn conn' : Connection} {call call' : ReadCall Request}
    {events : List ReadEvent} (counted : CountedCall count conn.readState call)
    (move : ReadMove conn call conn' call' events) :
    CountedCall (count + reported events) conn'.readState call' := by
  cases counted with
  | failed returned => exact (move.opened _ returned).elim
  | reading state unread running chunking =>
      cases move with
      | finish _ read => rw [unread] at read; cases read
      | headerRefused _ _ heading => rw [state] at heading; cases heading
      | headerConsumed _ _ heading => rw [state] at heading; cases heading
      | bodySkipped _ other => exact (other state).elim
      | request | enter | leave | headerSkipped | received =>
          exact .reading state unread (by simp) chunking
      | ended | bodyRefused => exact .failed rfl
      | bodyPart _ _ reply =>
          rcases chunking.reply reply with ⟨_, chunking'⟩ | ⟨done, _⟩
          · exact .reading state unread (by simp) chunking'
          · cases done
      | bodyComplete _ _ reply =>
          rcases chunking.reply reply with ⟨part, _⟩ | ⟨_, totals⟩
          · cases part
          · exact .read rfl (Or.inl rfl) totals
  | read read point totals =>
      rcases point with point | point
      · cases move with
        | finish => exact .read read (Or.inr rfl) totals
        | request _ unread | enter _ unread => rw [read] at unread; cases unread
        | leave other | headerRefused other | headerConsumed other | headerSkipped other
        | bodyRefused other | bodyPart other | bodyComplete other | bodySkipped other | ended other
        | received other => rw [point] at other; cases other
      · exact (move.opened _ point).elim

theorem Counted.step {count : Nat} {client next : ReadClient Request} {events : List ReadEvent}
    (counted : Counted count client) (taken : ReadClient.Step client events next) :
    Counted (count + reported events) next := by
  obtain ⟨queue, ⟨call, current, none_, phase⟩ | ⟨idle, outcome, recorded, totals⟩⟩ := counted
  · rcases ReadClient.step_cases taken with ⟨other, _⟩ | ⟨call', err, current', point, rfl, rfl⟩ |
      ⟨call', conn, call'', segments, current', move, rfl⟩
    · rw [current] at other
      cases other
    · rw [current, Option.some.injEq] at current'
      subst current'
      refine ⟨queue, Or.inr ⟨rfl, _, by rw [none_]; rfl, ?_⟩⟩
      rintro rfl
      cases phase with
      | failed returned => rw [returned] at point; cases point
      | reading _ _ running => exact (running point).elim
      | read _ _ totals => exact totals
    · rw [current, Option.some.injEq] at current'
      subst current'
      exact ⟨queue, Or.inl ⟨call'', rfl, none_, phase.move move⟩⟩
  · rcases ReadClient.step_cases taken with ⟨_, msg, rest, some_, _⟩ | ⟨call, err, current, _⟩ |
      ⟨call, conn, call', segments, current, _⟩
    · rw [queue] at some_
      cases some_
    · rw [idle] at current
      cases current
    · rw [idle] at current
      cases current

theorem counted_run {conn : Connection} {req : Request} {segments : List Bytes}
    {events : List ReadEvent} {client : ReadClient Request} (head : ChunkedHead req)
    (run : Run ReadClient.Step (bodyStart conn req segments) events client) :
    Counted (reported events) client := by
  refine Run.invariant (fun events client => Counted (reported events) client)
    (counted_start conn head segments) ?_ run
  intro before state after next counted taken
  rw [reported_append]
  exact counted.step taken

theorem not_decodes {payload encoding : Bytes} {req : Request}
    (encoded : ChunkedEncoding payload encoding) (allowed : OverheadAllowed payload encoding)
    (within : payload.length ≤ req.maxBodySize) (head : ChunkedHead req) (conn : Connection)
    (segments : List Bytes) : ¬ Decodes payload encoding conn req segments := by
  rintro ⟨events, client, outcome, run, outcomes, success, body, total⟩
  have longer := encoded.longer
  have bounded := allowed.bounded
  have modulus : sizeModulus = 2 ^ 64 := rfl
  rw [head.limit] at within
  obtain ⟨_, ⟨_, _, none_, _⟩ | ⟨_, outcome', outcomes', totals⟩⟩ := counted_run head run
  · rw [outcomes] at none_
    cases none_
  · rw [outcomes] at outcomes'
    cases outcomes'
    have sum := totals success
    rw [body, total, Request.Totals] at sum
    omega

theorem chunked_body_never_decodes (payload encoding following : Bytes) (req : Request)
    (conn : Connection) (segments : List Bytes) (encoded : ChunkedEncoding payload encoding)
    (allowed : OverheadAllowed payload encoding) (within : payload.length ≤ req.maxBodySize)
    (head : ChunkedHead req)
    (_stream : conn.readBuffer.contents ++ segments.flatten = encoding ++ following) :
    ¬ Decodes payload encoding conn req segments :=
  not_decodes encoded allowed within head conn segments

theorem sizeLine_digits {size : Nat} {digits : Bytes} (some_ : 1 ≤ digits.length)
    (few : digits.length ≤ 16) (value : hexValue digits = some size) :
    SizeLine size (digits ++ crlf) :=
  ⟨digits, [], by simp, some_, few, value, by simp, by simp⟩

theorem chunkedEncoding_hello :
    ChunkedEncoding (ascii "hello") (ascii "5\r\nhello\r\n0\r\n\r\n") := by
  have zero : SizeLine 0 (ascii "0" ++ crlf) := sizeLine_digits (by decide) (by decide) (by decide)
  have five : SizeLine (ascii "hello").length (ascii "5" ++ crlf) :=
    sizeLine_digits (by decide) (by decide) (by decide)
  have encoded := ChunkedEncoding.chunk five (by decide) (.last zero)
  rwa [List.append_nil] at encoded

theorem chunked_body_never_decodes_hello : ¬ Decodes (ascii "hello")
    (ascii "5\r\nhello\r\n0\r\n\r\n") Connection.init
    { Request.ofSize 4096 with chunked := true }
    [ascii "5\r\nhel", ascii "lo\r\n0\r\n\r\nGET"] :=
  chunked_body_never_decodes (ascii "hello") _ (ascii "GET") _ _ _ chunkedEncoding_hello
    (Or.inl (by decide)) (by decide) ⟨rfl, rfl, rfl, rfl, rfl, rfl⟩ (by decide)

/-- All fifteen bytes are offered in one span; the call completes with the payload
as the body, and reports five of them. -/
theorem chunked_body_reports_payload :
    ChunkedEncoding (ascii "hello") (ascii "5\r\nhello\r\n0\r\n\r\n") ∧
      OverheadAllowed (ascii "hello") (ascii "5\r\nhello\r\n0\r\n\r\n") ∧
      ChunkedHead { Request.ofSize 4096 with chunked := true } ∧
      (Request.consumeBodySome { Request.ofSize 4096 with chunked := true }
        (ascii "5\r\nhello\r\n0\r\n\r\n")).map (fun after => (after.1, after.2.body)) =
          some ((none, true, 5), ascii "hello") ∧
      ¬ Decodes (ascii "hello") (ascii "5\r\nhello\r\n0\r\n\r\n") Connection.init
        { Request.ofSize 4096 with chunked := true } [ascii "5\r\nhello\r\n0\r\n\r\n"] := by
  have head : ChunkedHead { Request.ofSize 4096 with chunked := true } :=
    ⟨rfl, rfl, rfl, rfl, rfl, rfl⟩
  have allowed : OverheadAllowed (ascii "hello") (ascii "5\r\nhello\r\n0\r\n\r\n") :=
    Or.inl (by decide)
  refine ⟨chunkedEncoding_hello, allowed, head, by decide +kernel, ?_⟩
  exact not_decodes chunkedEncoding_hello allowed (by decide) head _ _

end CoServer.Http
