import CoServer.WriteClient
import CoServer.WriteMoves

/-!
What an open write still has to send, at each of its moves and whatever the socket
does with it.
-/

namespace CoServer

open WriteClient

variable {M : Type} [MessageLike M]

/-- The message is ready to emit the bytes. -/
def Frames (frame : Bytes) (msg : M) : Prop :=
  ∃ header body, frame = header ++ body ∧ Sendable header body msg

/-- An open call of a message with a header and a body: what the message has not
emitted yet, besides what is buffered. -/
structure Outgoing (body : Bytes) (headerPending bodyPending : Bytes → M → Prop) (content : Bytes)
    (conn : Connection) (call : WriteCall M) : Prop where
  pending : call.doneWrite = false →
    Pending body headerPending bodyPending content conn.writeState call.msg
  finished : call.doneWrite = true →
    content = [] ∧ conn.writeState = .start ∧ call.point ≠ .fill ∧ call.point ≠ .fillBody
  drained : call.point = .loop → conn.writeBuffer.contents = []
  waiting : ∀ span, call.point = .suspended span → span = conn.writeBuffer.readableSpan
  settled : conn.writeBuffer.Settled

/-- What a call still has to send; nothing when it has returned without an error. -/
def Outstanding (body : Bytes) (headerPending bodyPending : Bytes → M → Prop) (rest : Bytes)
    (conn : Connection) (call : WriteCall M) : Prop :=
  (call.open → ∃ content, rest = conn.writeBuffer.contents ++ content ∧
      Outgoing body headerPending bodyPending content conn call) ∧
    (call.point = .returned none → rest = [] ∧ conn.writeState = .start ∧
      conn.writeBuffer.contents = [] ∧ conn.writeBuffer.Settled)

variable {body rest : Bytes} {headerPending bodyPending : Bytes → M → Prop} {done : M → Prop}

omit [MessageLike M] in
theorem Outgoing.outstanding {content : Bytes} {conn : Connection} {call : WriteCall M}
    (outgoing : Outgoing body headerPending bodyPending content conn call) (open_ : call.open)
    (whole : rest = conn.writeBuffer.contents ++ content) :
    Outstanding body headerPending bodyPending rest conn call :=
  ⟨fun _ => ⟨content, whole, outgoing⟩, fun returned => (open_ none returned).elim⟩

omit [MessageLike M] in
theorem outstanding_failed {conn : Connection} {call : WriteCall M} {code : ErrorCode}
    (failed : call.point = .returned (some code)) :
    Outstanding body headerPending bodyPending rest conn call := by
  refine ⟨fun open_ => (open_ _ failed).elim, fun returned => ?_⟩
  rw [failed] at returned
  cases returned

omit [MessageLike M] in
theorem outstanding_start {conn : Connection} {msg : M} {header : Bytes}
    (pending : headerPending header msg) (idle : conn.writeState = .start)
    (drained : conn.writeBuffer.contents = []) (settled : conn.writeBuffer.Settled) :
    Outstanding body headerPending bodyPending (header ++ body) (conn.write msg).1
      (conn.write msg).2.1 := by
  have opened : conn.write msg = ({ conn with writeState := .writeHeader }, ⟨msg, false, .loop⟩, []) := by
    simp [Connection.write, idle]
  rw [opened]
  have outgoing : Outgoing body headerPending bodyPending (header ++ body)
      { conn with writeState := .writeHeader } ⟨msg, false, .loop⟩ :=
    ⟨fun _ => Or.inl ⟨rfl, header, rfl, pending⟩, by simp, fun _ => drained, by simp, settled⟩
  exact outgoing.outstanding (by rintro err ⟨⟩) (by simp [drained])

omit [MessageLike M] in
theorem Outgoing.undone {content : Bytes} {conn : Connection} {call : WriteCall M}
    (outgoing : Outgoing body headerPending bodyPending content conn call)
    (filling : call.point = .fill ∨ call.point = .fillBody) : call.doneWrite = false := by
  by_contra set
  have flushing := (outgoing.finished (by simpa using set)).2.2
  rcases filling with point | point
  · exact flushing.1 point
  · exact flushing.2 point

omit [MessageLike M] in
theorem Outgoing.moved {content : Bytes} {conn : Connection} {call : WriteCall M} {point : WritePoint}
    (outgoing : Outgoing body headerPending bodyPending content conn call)
    (open_ : ∀ err, point ≠ .returned err)
    (filling : point = .fill ∨ point = .fillBody → call.doneWrite = false)
    (drained : point = .loop → conn.writeBuffer.contents = [])
    (waiting : ∀ span, point = .suspended span → span = conn.writeBuffer.readableSpan) :
    Outstanding body headerPending bodyPending (conn.writeBuffer.contents ++ content) conn
      { call with point := point } := by
  refine Outgoing.outstanding ⟨outgoing.pending, ?_, drained, waiting, outgoing.settled⟩ open_ rfl
  intro set
  dsimp only at set
  have finished := outgoing.finished set
  refine ⟨finished.1, finished.2.1, ?_, ?_⟩
  · rintro rfl
    simp [set] at filling
  · rintro rfl
    simp [set] at filling

theorem Outgoing.producedHeader (transmits : Transmits body headerPending bodyPending done)
    {content out : Bytes} {conn : Connection} {call : WriteCall M} {msg : M} {err : Error}
    {complete : Bool} {numBytes : Nat}
    (outgoing : Outgoing body headerPending bodyPending content conn call)
    (point : call.point = .fill) (state : conn.writeState = .writeHeader)
    (reply : MessageLike.produceHeaderSome call.msg
        (conn.writeBuffer.load conn.writeBuffer.writableSpan) =
      some ((err, complete, numBytes), out, msg)) :
    err = none ∧ Outstanding body headerPending bodyPending (conn.writeBuffer.contents ++ content)
      { conn with
        writeBuffer := (conn.writeBuffer.fill conn.writeBuffer.writableSpan out).commit numBytes
        writeState := if complete then .writeBody else conn.writeState }
      ⟨msg, call.doneWrite, .fillBody⟩ := by
  have undone := outgoing.undone (Or.inl point)
  rcases outgoing.pending undone with ⟨_, header, rfl, pending⟩ | ⟨other, _⟩
  · obtain ⟨out', msg', reply', stored, after⟩ := transmits.header header call.msg
      (conn.writeBuffer.load conn.writeBuffer.writableSpan) pending
    rw [load_length] at reply' stored after
    rw [reply] at reply'
    cases reply'
    obtain ⟨contents, settled, _⟩ := produced_buffer outgoing.settled stored
    have left : Pending body headerPending bodyPending
        (header.drop (4096 - conn.writeBuffer.write) ++ body)
        (if decide (header.length ≤ 4096 - conn.writeBuffer.write) then WriteState.writeBody
          else conn.writeState) msg := by
      by_cases fits : header.length ≤ 4096 - conn.writeBuffer.write
      · rw [if_pos fits] at after
        rw [List.drop_eq_nil_of_le fits, List.nil_append]
        exact Or.inr ⟨by simp [fits], after⟩
      · rw [if_neg fits] at after
        exact Or.inl ⟨by simp [fits, state], _, rfl, after⟩
    refine ⟨rfl, Outgoing.outstanding ⟨fun _ => left, by simp [undone], by simp, by simp, settled⟩
      (by rintro err ⟨⟩) ?_⟩
    dsimp only
    rw [contents, List.append_assoc, ← List.append_assoc (header.take _), List.take_append_drop]
  · rw [state] at other
    cases other

theorem Outgoing.producedBody (transmits : Transmits body headerPending bodyPending done)
    {content out : Bytes} {conn : Connection} {call : WriteCall M} {msg : M} {err : Error}
    {complete : Bool} {numBytes : Nat}
    (outgoing : Outgoing body headerPending bodyPending content conn call)
    (point : call.point = .fillBody) (state : conn.writeState = .writeBody)
    (reply : MessageLike.produceBodySome call.msg
        (conn.writeBuffer.load conn.writeBuffer.writableSpan) =
      some ((err, complete, numBytes), out, msg)) :
    err = none ∧ Outstanding body headerPending bodyPending (conn.writeBuffer.contents ++ content)
      { conn with
        writeBuffer := (conn.writeBuffer.fill conn.writeBuffer.writableSpan out).commit numBytes
        writeState := if complete then .start else conn.writeState }
      ⟨msg, if complete then true else call.doneWrite, if complete then .flush else .fill⟩ := by
  have undone := outgoing.undone (Or.inr point)
  rcases outgoing.pending undone with ⟨other, _⟩ | ⟨_, pending⟩
  · rw [state] at other
    cases other
  · obtain ⟨out', msg', reply', stored, after⟩ := transmits.body content call.msg
      (conn.writeBuffer.load conn.writeBuffer.writableSpan) pending
    rw [load_length] at reply' stored after
    rw [reply] at reply'
    cases reply'
    obtain ⟨contents, settled, _⟩ := produced_buffer outgoing.settled stored
    refine ⟨rfl, ?_⟩
    by_cases fits : content.length ≤ 4096 - conn.writeBuffer.write
    · simp only [fits, decide_true, ↓reduceIte] at settled ⊢
      refine @Outgoing.outstanding _ _ _ _ _ [] _ _ ⟨by simp, by simp, by simp, by simp, settled⟩
        (by rintro err ⟨⟩) ?_
      rw [contents, List.take_of_length_le fits, List.append_nil]
    · rw [if_neg fits] at after
      simp only [fits, decide_false, Bool.false_eq_true, ↓reduceIte, undone] at settled ⊢
      refine Outgoing.outstanding ⟨fun _ => Or.inr ⟨state, after⟩, by simp, by simp, by simp, settled⟩
        (by rintro err ⟨⟩) ?_
      dsimp only
      rw [contents, List.append_assoc, List.take_append_drop]

omit [MessageLike M] in
theorem Outgoing.part {content : Bytes} {conn : Connection} {call : WriteCall M} {span : Span}
    {count : Nat} (outgoing : Outgoing body headerPending bodyPending content conn call)
    (point : call.point = .suspended span) (within : count ≤ span.length) :
    conn.writeBuffer.load ⟨span.position, count⟩ = conn.writeBuffer.contents.take count ∧
      count ≤ conn.writeBuffer.size := by
  have same := outgoing.waiting span point
  subst same
  refine ⟨?_, within⟩
  rw [StaticBuffer.contents, StaticBuffer.load, StaticBuffer.load, Splice.window_take,
    Nat.min_eq_left within]

theorem WriteMove.outstanding (transmits : Transmits body headerPending bodyPending done)
    {conn conn' : Connection} {call call' : WriteCall M} {events : List WriteEvent}
    (move : WriteMove conn call conn' call' events)
    (before : Outstanding body headerPending bodyPending rest conn call) :
    ∃ rest', rest = events.flatMap WriteEvent.sentBytes ++ rest' ∧
      Outstanding body headerPending bodyPending rest' conn' call' := by
  obtain ⟨content, rfl, outgoing⟩ := before.1 move.opened
  cases move with
  | finish point flag =>
      obtain ⟨rfl, state, -⟩ := outgoing.finished flag
      have drained := outgoing.drained point
      refine ⟨[], by simp [drained, WriteEvent.sentBytes], by simp [WriteCall.open], fun _ => ?_⟩
      exact ⟨rfl, state, drained, outgoing.settled⟩
  | again point unset => exact ⟨_, rfl, outgoing.moved (by simp) (by simp [unset]) (by simp) (by simp)⟩
  | headerRefused point _ state reply => cases (outgoing.producedHeader transmits point state reply).1
  | headerProduced point _ state reply =>
      exact ⟨_, rfl, (outgoing.producedHeader transmits point state reply).2⟩
  | headerSkipped point _ _ =>
      have unset := outgoing.undone (Or.inl point)
      exact ⟨_, rfl, outgoing.moved (by simp) (by simp [unset]) (by simp) (by simp)⟩
  | full point _ => exact ⟨_, rfl, outgoing.moved (by simp) (by simp) (by simp) (by simp)⟩
  | bodyRefused point state reply => cases (outgoing.producedBody transmits point state reply).1
  | bodyPart point state reply =>
      exact ⟨_, rfl, by simpa using (outgoing.producedBody transmits point state reply).2⟩
  | bodyComplete point state reply =>
      exact ⟨_, rfl, by simpa using (outgoing.producedBody transmits point state reply).2⟩
  | bodySkipped point _ =>
      have unset := outgoing.undone (Or.inr point)
      exact ⟨_, rfl, outgoing.moved (by simp) (by simp [unset]) (by simp) (by simp)⟩
  | flushed point nothing =>
      exact ⟨_, rfl, outgoing.moved (by simp) (by simp) (fun _ => nothing) (by simp)⟩
  | hand point _ => exact ⟨_, rfl, outgoing.moved (by simp) (by simp) (by simp) (by simp)⟩
  | @failed _ _ result point within _ _ =>
      obtain ⟨part, _⟩ := outgoing.part point within
      refine ⟨conn.writeBuffer.contents.drop result.count ++ content, ?_, outstanding_failed rfl⟩
      simp only [List.flatMap_cons, List.flatMap_nil, WriteEvent.sentBytes, List.append_nil, part]
      rw [← List.append_assoc, List.take_append_drop]
  | @sent _ result point within _ _ =>
      obtain ⟨part, fits⟩ := outgoing.part point within
      have left := StaticBuffer.consume_contents (by decide) conn.writeBuffer fits
      refine ⟨(conn.writeBuffer.consume result.count).contents ++ content, ?_,
        Outgoing.outstanding ?_ (by rintro err ⟨⟩) rfl⟩
      · simp only [List.flatMap_cons, List.flatMap_nil, WriteEvent.sentBytes, List.append_nil, part,
          left]
        rw [← List.append_assoc, List.take_append_drop]
      · exact ⟨outgoing.pending, fun set => ⟨(outgoing.finished set).1, (outgoing.finished set).2.1,
          by simp, by simp⟩, by simp, by simp, StaticBuffer.consume_settled _ _⟩

end CoServer
