import CoServer.Http.SentRequest
import CoServer.ReadClient

/-!
Reading one request from a connection: up to the call that sees the end of the
head, from there to the body where that call ends with the head, and to the end
of the body.
-/

namespace CoServer.Http

open Transition ReadClient Request

variable {conn : Connection} {queue : List Request} {all segments : List Bytes}
  {outcomes : List (ReadOutcome Request)} {sent : SentRequest}

theorem begins (idle : conn.readState = .start) (header body : Bytes) :
    Leads ReadClient.Step ⟨conn, sent.fresh :: queue, none, header, body, segments, outcomes⟩
      ⟨{ conn with readState := .readHeader }, queue, some ⟨sent.scanned [], false, .loop⟩, [], [],
        segments, outcomes⟩ := by
  refine leads_step [] ?_ (Leads.refl _)
  simp only [ReadClient.step, resume, Connection.read, idle, ne_eq, not_true_eq_false, ↓reduceIte,
    List.flatMap_nil, List.append_nil, SentRequest.scanned_nil]

theorem crosses (conn : Connection) (taken front left rest : Bytes) (point : ReadPoint)
    (here : point = .loop ∨ point = .drain)
    (heading : conn.readState = .readHeader) (split : sent.head = front ++ left) (some_ : left ≠ [])
    (located : Located all taken conn.readBuffer segments)
    (stream : conn.readBuffer.contents ++ segments.flatten = left ++ rest) :
    ∃ front' last extra taken' buffer segments', sent.head = front' ++ last ∧ last ≠ [] ∧
      taken' ++ last = taken ++ left ∧ Located all taken' buffer segments' ∧
      buffer.contents = last ++ extra ∧
      Leads ReadClient.Step
        ⟨conn, queue, some ⟨sent.scanned front, false, point⟩, front, [], segments, outcomes⟩
        ⟨{ conn with readBuffer := buffer }, queue, some ⟨sent.scanned front', false, .drain⟩, front',
          [], segments', outcomes⟩ := by
  generalize size : left.length = length
  induction length using Nat.strongRecOn generalizing conn taken front left point segments with
  | _ length ih =>
      obtain ⟨buffer, segments', busy, located', leads⟩ :=
        leads_drain conn queue front [] outcomes (sent.scanned front) here located (by
            rw [stream]
            exact fun nothing => some_ (List.append_eq_nil_iff.mp nothing).1)
      have same := (located.same_stream located').trans stream
      rcases List.append_eq_append_iff.mp same with ⟨left', rfl, stream'⟩ | ⟨extra, contents, _⟩
      · by_cases ends : left' = []
        · subst ends
          rw [List.append_nil] at split some_ ⊢
          exact ⟨front, buffer.contents, [], taken, buffer, segments', split, some_, rfl, located',
            (List.append_nil _).symm, leads⟩
        · have reply := sent.header_part (by rw [split, List.append_assoc]) ends
          have consumed := located'.consume (Nat.le_refl buffer.contents.length)
          rw [List.take_length] at consumed
          have drained : (buffer.consume buffer.contents.length).contents = [] :=
            StaticBuffer.consume_whole (by decide) buffer
          have offered : buffer.empty = false := (StaticBuffer.empty_eq_false_iff _).mpr busy
          obtain ⟨front', last, extra, taken', buffer', segments'', split', some', total, located'',
            contents, later⟩ := ih left'.length
              (by
                have := List.length_pos_iff.mpr busy
                rw [← size, List.length_append]
                omega)
              { conn with readBuffer := buffer.consume buffer.contents.length }
              (taken ++ buffer.contents) (front ++ buffer.contents) left' .drain (Or.inr rfl) heading
              (by rw [split, List.append_assoc]) ends consumed (by rw [drained, stream', List.nil_append]) rfl
          refine ⟨front', last, extra, taken', buffer', segments'', split', some',
            by rw [total, List.append_assoc], located'', contents, leads.trans ?_⟩
          have taken_ : ({ conn with readBuffer := buffer } : Connection).readStep
              (⟨sent.scanned front, false, .drain⟩ : ReadCall Request) =
              some ({ conn with readBuffer := buffer.consume buffer.contents.length },
                ⟨sent.scanned (front ++ buffer.contents), false, .body⟩,
                [.consumed .header buffer.contents buffer.contents.length]) := by
            simp [Connection.readStep, offered, heading, MessageLike.consumeHeaderSome, reply]
          have skipped : ({ conn with readBuffer := buffer.consume buffer.contents.length } :
              Connection).readStep
                (⟨sent.scanned (front ++ buffer.contents), false, .body⟩ : ReadCall Request) =
              some ({ conn with readBuffer := buffer.consume buffer.contents.length },
                ⟨sent.scanned (front ++ buffer.contents), false, .drain⟩, []) := by
            simp [Connection.readStep, heading]
          refine leads_run taken_ (leads_run skipped ?_)
          simpa [ReadEvent.takenBy] using later
      · exact ⟨front, left, extra, taken, buffer, segments', split, some_, rfl, located', contents,
          leads⟩

/-- The call that is offered the end of the head takes the head, unless it reads beyond it. -/
theorem enters (queue : List Request) (segments : List Bytes)
    (outcomes : List (ReadOutcome Request)) (front last extra : Bytes)
    (split : sent.head = front ++ last) (some_ : last ≠ [])
    (heading : conn.readState = .readHeader) (contents : conn.readBuffer.contents = last ++ extra)
    (clear : extra = [] ∨ sent.head.length = sent.headerBuffer.length)
    (somePath : pathPart sent.parsed.path ≠ []) :
    ∃ msg, sent.Receiving [] msg ∧ Leads ReadClient.Step
      ⟨conn, queue, some ⟨sent.scanned front, false, .drain⟩, front, [], segments, outcomes⟩
      ⟨{ conn with readBuffer := conn.readBuffer.consume last.length, readState := .readBody }, queue,
        some ⟨msg, false, .body⟩, sent.head, [], segments, outcomes⟩ := by
  have offered : conn.readBuffer.empty = false := by
    rw [StaticBuffer.empty_eq_false_iff, contents]
    simp [some_]
  obtain ⟨msg, accepted, receiving⟩ := sent.deserialize_head.2 somePath
  have accepts : conn.readStep (⟨sent.scanned front, false, .drain⟩ : ReadCall Request) =
      some ({ conn with
          readBuffer := conn.readBuffer.consume last.length
          readState := .readBody },
        ⟨msg, false, .body⟩, [.consumed .header conn.readBuffer.contents last.length]) := by
    simp [Connection.readStep, offered, heading, MessageLike.consumeHeaderSome, contents,
      sent.header_whole split some_ clear, acceptHeader, accepted]
  refine ⟨msg, receiving, leads_run accepts ?_⟩
  rw [split]
  simpa [ReadEvent.takenBy, contents] using Leads.refl _

theorem take_agree {first second more more' : Bytes} (same : first ++ more = second ++ more') :
    first.take second.length = second.take first.length := by
  rcases List.append_eq_append_iff.mp same with ⟨between, rfl, _⟩ | ⟨between, rfl, _⟩
  · rw [List.take_left, List.take_of_length_le (by simp)]
  · rw [List.take_left, List.take_of_length_le (by simp)]

theorem collects (conn : Connection) (taken got left rest : Bytes) (msg : Request)
    (reading : conn.readState = .readBody) (split : sent.body = got ++ left)
    (receiving : sent.Receiving got msg) (located : Located all taken conn.readBuffer segments)
    (stream : conn.readBuffer.contents ++ segments.flatten = left ++ rest) :
    ∃ buffer segments' msg', sent.Shows msg' ∧ msg'.body = sent.body ∧
      Located all (taken ++ left) buffer segments' ∧
      Leads ReadClient.Step
        ⟨conn, queue, some ⟨msg, false, .body⟩, sent.head, got, segments, outcomes⟩
        ⟨{ conn with readBuffer := buffer, readState := .start }, queue, some ⟨msg', true, .loop⟩,
          sent.head, sent.body, segments', outcomes⟩ := by
  generalize size : 2 * left.length + (if conn.readBuffer.contents = [] then 1 else 0) = measure
  induction measure using Nat.strongRecOn generalizing conn taken got left msg segments with
  | _ measure ih =>
      have offered := take_agree stream
      obtain ⟨msg', reply, after⟩ := receiving.reply split offered
      by_cases fits : left.length ≤ conn.readBuffer.contents.length
      · rw [if_pos fits] at after
        rw [List.take_of_length_le fits] at offered
        have completes : conn.readStep (⟨msg, false, .body⟩ : ReadCall Request) =
            some ({ conn with
                readBuffer := conn.readBuffer.consume left.length
                readState := .start },
              ⟨msg', true, .loop⟩, [.consumed .body conn.readBuffer.contents left.length]) := by
          simp [Connection.readStep, reading, MessageLike.consumeBodySome, reply, fits]
        refine ⟨_, segments, msg', after.1, after.2, offered ▸ located.consume fits,
          leads_run completes ?_⟩
        rw [split]
        simpa [ReadEvent.takenBy, offered] using Leads.refl _
      · rw [if_neg fits] at after
        rw [decide_eq_false fits] at reply
        have within : conn.readBuffer.contents.length ≤ left.length := by omega
        obtain ⟨left', rfl⟩ : ∃ left', left = conn.readBuffer.contents ++ left' := by
          rw [List.take_of_length_le within] at offered
          exact ⟨_, (offered ▸ List.take_append_drop _ left).symm⟩
        rw [List.append_assoc, List.append_cancel_left_eq] at stream
        have more : left' ≠ [] := by
          rintro rfl
          rw [List.append_nil] at fits
          exact fits (Nat.le_refl _)
        rw [Nat.min_eq_left within] at reply
        have drained : (conn.readBuffer.consume conn.readBuffer.contents.length).contents = [] :=
          StaticBuffer.consume_whole (by decide) conn.readBuffer
        have consumed := located.consume (Nat.le_refl conn.readBuffer.contents.length)
        rw [List.take_length] at consumed
        have takes : conn.readStep (⟨msg, false, .body⟩ : ReadCall Request) =
            some ({ conn with
                readBuffer := conn.readBuffer.consume conn.readBuffer.contents.length },
              ⟨msg', false, .drain⟩,
              [.consumed .body conn.readBuffer.contents conn.readBuffer.contents.length]) := by
          simp [Connection.readStep, reading, MessageLike.consumeBodySome, reply]
        obtain ⟨buffer, segments', busy, located', drains⟩ :=
          leads_drain
            { conn with readBuffer := conn.readBuffer.consume conn.readBuffer.contents.length }
            queue sent.head (got ++ conn.readBuffer.contents) outcomes msg' (Or.inr rfl) consumed (by
              rw [drained, List.nil_append, stream]
              simp [more])
        have skips : ({ conn with readBuffer := buffer } : Connection).readStep
              (⟨msg', false, .drain⟩ : ReadCall Request) =
            some ({ conn with readBuffer := buffer }, ⟨msg', false, .body⟩, []) := by
          simp [Connection.readStep, (StaticBuffer.empty_eq_false_iff _).mpr busy, reading]
        have rest_ := located'.stream
        rw [consumed.stream, List.append_cancel_left_eq, drained, List.nil_append, stream] at rest_
        obtain ⟨buffer', segments'', msg'', shows_, body, located'', later⟩ :=
          ih (2 * left'.length) (by
              rw [← size, List.length_append]
              split
              · omega
              · rename_i some_
                have := List.length_pos_iff.mpr some_
                omega)
            { conn with readBuffer := buffer } (taken ++ conn.readBuffer.contents)
            (got ++ conn.readBuffer.contents) left' msg' reading
            (by rw [split, List.append_assoc]) after located' rest_.symm (by simp [busy])
        refine ⟨buffer', segments'', msg'', shows_, body, by rwa [← List.append_assoc],
          leads_run takes ?_⟩
        simpa [ReadEvent.takenBy] using drains.trans (leads_run skips (by simpa using later))

theorem SentRequest.head_some (sent : SentRequest) : sent.head ≠ [] := by
  intro none_
  have ended := sent.ended
  rw [none_] at ended
  cases List.suffix_nil.mp ended

theorem approaches (queue : List Request) (outcomes : List (ReadOutcome Request))
    (idle : conn.readState = .start) (header body rest taken : Bytes)
    (located : Located all taken conn.readBuffer segments)
    (stream : conn.readBuffer.contents ++ segments.flatten = sent.bytes ++ rest) :
    ∃ front last extra taken' buffer segments', sent.head = front ++ last ∧ last ≠ [] ∧
      taken' ++ last = taken ++ sent.head ∧ Located all taken' buffer segments' ∧
      buffer.contents = last ++ extra ∧
      Leads ReadClient.Step ⟨conn, sent.fresh :: queue, none, header, body, segments, outcomes⟩
        ⟨{ conn with readBuffer := buffer, readState := .readHeader }, queue,
          some ⟨sent.scanned front, false, .drain⟩, front, [], segments', outcomes⟩ := by
  rw [SentRequest.bytes, List.append_assoc] at stream
  obtain ⟨front, last, extra, taken', buffer, segments', split, some_, total, located', contents,
    later⟩ := crosses { conn with readState := .readHeader } taken [] sent.head (sent.body ++ rest)
      .loop (Or.inl rfl) rfl rfl sent.head_some located stream
  exact ⟨front, last, extra, taken', buffer, segments', split, some_, total, located', contents,
    (begins idle header body).trans later⟩

theorem finishes (conn : Connection) (front last extra taken taken' rest : Bytes)
    (split : sent.head = front ++ last)
    (some_ : last ≠ []) (total : taken' ++ last = taken ++ sent.head)
    (heading : conn.readState = .readHeader) (located : Located all taken' conn.readBuffer segments)
    (contents : conn.readBuffer.contents = last ++ extra)
    (stream : all.flatten = taken ++ (sent.bytes ++ rest))
    (clear : extra = [] ∨ sent.head.length = sent.headerBuffer.length)
    (somePath : pathPart sent.parsed.path ≠ []) :
    ∃ buffer segments' msg, sent.Shows msg ∧ msg.body = sent.body ∧
      Located all (taken ++ sent.bytes) buffer segments' ∧
      Leads ReadClient.Step
        ⟨conn, queue, some ⟨sent.scanned front, false, .drain⟩, front, [], segments, outcomes⟩
        ⟨{ conn with readBuffer := buffer, readState := .start }, queue, none, sent.head, sent.body,
          segments', outcomes ++ [⟨none, msg, sent.head, sent.body⟩]⟩ := by
  obtain ⟨msg, receiving, accepts⟩ :=
    enters queue segments outcomes front last extra split some_ heading contents clear somePath
  have within : last.length ≤ conn.readBuffer.contents.length := by simp [contents]
  have consumed := located.consume within
  rw [contents, List.take_left, total] at consumed
  have left := consumed.stream
  rw [stream, SentRequest.bytes, List.append_assoc, List.append_assoc, List.append_cancel_left_eq,
    List.append_cancel_left_eq] at left
  obtain ⟨buffer, segments', msg', shows_, body, located', collected⟩ :=
    collects { conn with
        readBuffer := conn.readBuffer.consume last.length
        readState := .readBody }
      (taken ++ sent.head) [] sent.body rest msg rfl rfl receiving consumed left.symm
  have done : ({ conn with
        readBuffer := buffer
        readState := .start } : Connection).readStep (⟨msg', true, .loop⟩ : ReadCall Request) =
      some ({ conn with
        readBuffer := buffer
        readState := .start }, ⟨msg', true, .returned none⟩, [.returned none]) := by
    simp [Connection.readStep]
  refine ⟨buffer, segments', msg', shows_, body, by rwa [SentRequest.bytes, ← List.append_assoc],
    accepts.trans (collected.trans (leads_run done (leads_step [] ?_ (Leads.refl _))))⟩
  simp [ReadClient.step, ReadEvent.takenBy]

end CoServer.Http
