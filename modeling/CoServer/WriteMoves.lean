import CoServer.System

/-!
What one move of a writing call can do, branch by branch, and what an open call
knows about the state of its connection.
-/

namespace CoServer

variable {M : Type} [MessageLike M]

/-- Every move of a write: one constructor for each branch of `writeStep` and of
`completeWrite`, with the guards of the branch. -/
inductive WriteMove : Connection → WriteCall M → Connection → WriteCall M → List WriteEvent → Prop
  | finish {conn call} : call.point = .loop → call.doneWrite = true →
      WriteMove conn call conn { call with point := .returned none } [.returned none]
  | again {conn call} : call.point = .loop → call.doneWrite = false →
      WriteMove conn call conn { call with point := .fill } []
  | headerRefused {conn call code complete numBytes out msg} : call.point = .fill →
      conn.writeBuffer.write < 4096 → conn.writeState = .writeHeader →
      MessageLike.produceHeaderSome call.msg
          (conn.writeBuffer.load conn.writeBuffer.writableSpan) =
        some ((some code, complete, numBytes), out, msg) →
      WriteMove conn call
        { conn with writeBuffer := conn.writeBuffer.fill conn.writeBuffer.writableSpan out }
        ⟨msg, call.doneWrite, .returned (some code)⟩ [.refused .header, .returned (some code)]
  | headerProduced {conn call complete numBytes out msg} : call.point = .fill →
      conn.writeBuffer.write < 4096 → conn.writeState = .writeHeader →
      MessageLike.produceHeaderSome call.msg
          (conn.writeBuffer.load conn.writeBuffer.writableSpan) =
        some ((none, complete, numBytes), out, msg) →
      WriteMove conn call
        { conn with
          writeBuffer := (conn.writeBuffer.fill conn.writeBuffer.writableSpan out).commit numBytes
          writeState := if complete then .writeBody else conn.writeState }
        ⟨msg, call.doneWrite, .fillBody⟩
        [.produced .header
          ((conn.writeBuffer.fill conn.writeBuffer.writableSpan out).committed numBytes)]
  | headerSkipped {conn call} : call.point = .fill → conn.writeBuffer.write < 4096 →
      conn.writeState ≠ .writeHeader →
      WriteMove conn call conn { call with point := .fillBody } []
  | full {conn call} : call.point = .fill → conn.writeBuffer.write = 4096 →
      WriteMove conn call conn { call with point := .flush } []
  | bodyRefused {conn call code complete numBytes out msg} : call.point = .fillBody →
      conn.writeState = .writeBody →
      MessageLike.produceBodySome call.msg
          (conn.writeBuffer.load conn.writeBuffer.writableSpan) =
        some ((some code, complete, numBytes), out, msg) →
      WriteMove conn call
        { conn with writeBuffer := conn.writeBuffer.fill conn.writeBuffer.writableSpan out }
        ⟨msg, call.doneWrite, .returned (some code)⟩ [.refused .body, .returned (some code)]
  | bodyPart {conn call numBytes out msg} : call.point = .fillBody →
      conn.writeState = .writeBody →
      MessageLike.produceBodySome call.msg
          (conn.writeBuffer.load conn.writeBuffer.writableSpan) =
        some ((none, false, numBytes), out, msg) →
      WriteMove conn call
        { conn with
          writeBuffer := (conn.writeBuffer.fill conn.writeBuffer.writableSpan out).commit numBytes }
        ⟨msg, call.doneWrite, .fill⟩
        [.produced .body
          ((conn.writeBuffer.fill conn.writeBuffer.writableSpan out).committed numBytes)]
  | bodyComplete {conn call numBytes out msg} : call.point = .fillBody →
      conn.writeState = .writeBody →
      MessageLike.produceBodySome call.msg
          (conn.writeBuffer.load conn.writeBuffer.writableSpan) =
        some ((none, true, numBytes), out, msg) →
      WriteMove conn call
        { conn with
          writeBuffer := (conn.writeBuffer.fill conn.writeBuffer.writableSpan out).commit numBytes
          writeState := .start }
        ⟨msg, true, .flush⟩
        [.produced .body
          ((conn.writeBuffer.fill conn.writeBuffer.writableSpan out).committed numBytes)]
  | bodySkipped {conn call} : call.point = .fillBody → conn.writeState ≠ .writeBody →
      WriteMove conn call conn { call with point := .fill } []
  | flushed {conn call} : call.point = .flush → conn.writeBuffer.contents = [] →
      WriteMove conn call conn { call with point := .loop } []
  | hand {conn call} : call.point = .flush → conn.writeBuffer.contents ≠ [] →
      WriteMove conn call conn { call with point := .suspended conn.writeBuffer.readableSpan }
        [.handed conn.writeBuffer.readableSpan]
  | failed {conn call span err} {result : SocketWrite} : call.point = .suspended span →
      result.count ≤ span.length → (result.failed || result.count == 0) = true →
      err ≠ .invalidState →
      WriteMove conn call conn { call with point := .returned (some err) }
        [.sent (conn.writeBuffer.load ⟨span.position, result.count⟩), .returned (some err)]
  | sent {conn call span} {result : SocketWrite} : call.point = .suspended span →
      result.count ≤ span.length → result.failed = false → result.count ≠ 0 →
      WriteMove conn call
        { conn with writeBuffer := conn.writeBuffer.consume result.count }
        { call with point := .flush }
        [.sent (conn.writeBuffer.load ⟨span.position, result.count⟩)]

theorem writeStep_move {conn : Connection} {call : WriteCall M} {after}
    (taken : conn.writeStep call = some after) :
    WriteMove conn call after.1 after.2.1 after.2.2 := by
  have room : conn.writeBuffer.writableSpan.length > 0 ↔ conn.writeBuffer.write < 4096 := by
    simp only [StaticBuffer.writableSpan]
    omega
  cases point : call.point with
  | loop =>
      simp only [Connection.writeStep, point] at taken
      split at taken
      · cases taken
        exact WriteMove.finish point (by assumption)
      · rename_i notDone
        cases taken
        exact WriteMove.again point (by simpa using notDone)
  | fill =>
      simp only [Connection.writeStep, point] at taken
      split at taken
      · rename_i space
        split at taken
        · split at taken
          · simp at taken
          · cases taken
            exact WriteMove.headerRefused point (room.mp space) (by assumption) (by assumption)
          · cases taken
            exact WriteMove.headerProduced point (room.mp space) (by assumption) (by assumption)
        · cases taken
          exact WriteMove.headerSkipped point (room.mp space) (by assumption)
      · rename_i space
        have bounded := conn.writeBuffer.bounded
        rw [room] at space
        cases taken
        exact WriteMove.full point (by omega)
  | fillBody =>
      simp only [Connection.writeStep, point] at taken
      split at taken
      · split at taken
        · simp at taken
        · cases taken
          exact WriteMove.bodyRefused point (by assumption) (by assumption)
        · rename_i state _ complete numBytes out msg reply
          cases taken
          cases complete with
          | false => simpa using WriteMove.bodyPart point state reply
          | true => simpa using WriteMove.bodyComplete point state reply
      · cases taken
        exact WriteMove.bodySkipped point (by assumption)
  | flush =>
      simp only [Connection.writeStep, point] at taken
      split at taken
      · cases taken
        exact WriteMove.flushed point ((StaticBuffer.empty_iff _).mp (by assumption))
      · cases taken
        refine WriteMove.hand point ?_
        rw [Ne, ← StaticBuffer.empty_iff]
        assumption
  | suspended span => simp [Connection.writeStep, point] at taken
  | returned err => simp [Connection.writeStep, point] at taken

theorem completeWrite_move {conn : Connection} {call : WriteCall M} {result after}
    (taken : conn.completeWrite call result = some after) :
    WriteMove conn call after.1 after.2.1 after.2.2 := by
  cases point : call.point with
  | suspended span =>
      simp only [Connection.completeWrite, point] at taken
      split at taken
      · rename_i within
        split at taken
        · rename_i failed
          cases taken
          exact WriteMove.failed point within failed (by split <;> simp)
        · rename_i succeeded
          simp only [Bool.or_eq_true, beq_iff_eq, not_or, Bool.not_eq_true] at succeeded
          cases taken
          exact WriteMove.sent point within succeeded.1 succeeded.2
      · simp at taken
  | loop | fill | fillBody | flush | returned err => simp [Connection.completeWrite, point] at taken

/-- Until its flag is set an open write keeps the connection busy; from then on it
only flushes. -/
structure WriteOwner (conn : Connection) (call : WriteCall M) : Prop where
  busy : call.doneWrite = false → conn.writeState ≠ .start
  done : call.doneWrite = true → call.point ≠ .fill ∧ call.point ≠ .fillBody

omit [MessageLike M] in
theorem WriteOwner.filling {conn : Connection} {call : WriteCall M} (owner : WriteOwner conn call)
    (point : call.point = .fill ∨ call.point = .fillBody) : call.doneWrite = false := by
  by_contra set
  have flushing := owner.done (by simpa using set)
  rcases point with point | point
  · exact flushing.1 point
  · exact flushing.2 point

theorem WriteMove.opened {conn conn' : Connection} {call call' : WriteCall M} {events}
    (move : WriteMove conn call conn' call' events) : call.open := by
  intro err returned
  cases move <;> simp_all

theorem WriteMove.owner {conn conn' : Connection} {call call' : WriteCall M} {events}
    (move : WriteMove conn call conn' call' events) (owner : WriteOwner conn call)
    (remains : call'.open) : WriteOwner conn' call' := by
  cases move with
  | finish | headerRefused | bodyRefused | failed => exact (remains _ rfl).elim
  | again _ notDone => exact ⟨owner.busy, by simp [notDone]⟩
  | headerProduced point _ state _ =>
      have notDone := owner.filling (Or.inl point)
      refine ⟨fun _ => ?_, by simp [notDone]⟩
      simp only
      split <;> simp [state]
  | headerSkipped point => exact ⟨owner.busy, by simp [owner.filling (Or.inl point)]⟩
  | bodySkipped point => exact ⟨owner.busy, by simp [owner.filling (Or.inr point)]⟩
  | bodyPart point => exact ⟨owner.busy, by simp [owner.filling (Or.inr point)]⟩
  | bodyComplete => exact ⟨by simp, by simp⟩
  | full | flushed | hand | sent => exact ⟨owner.busy, by simp⟩

theorem WriteMove.keeps_done {conn conn' : Connection} {call call' : WriteCall M} {events}
    (move : WriteMove conn call conn' call' events) (done : call.doneWrite = true) :
    call'.doneWrite = true := by
  cases move <;> simp_all

theorem WriteMove.keeps_busy {conn conn' : Connection} {call call' : WriteCall M} {events}
    (move : WriteMove conn call conn' call' events) (flushing : call.doneWrite ≠ false)
    (busy : conn.writeState ≠ .start) (owner : WriteOwner conn call) :
    conn'.writeState ≠ .start := by
  cases move with
  | headerProduced point | bodyComplete point =>
      exact (flushing (owner.filling (by simp [point]))).elim
  | finish | again | headerRefused | headerSkipped | full | bodyRefused | bodyPart | bodySkipped
  | flushed | hand | failed | sent => exact busy

theorem WriteMove.reads {conn conn' : Connection} {call call' : WriteCall M} {events}
    (move : WriteMove conn call conn' call' events) :
    conn'.readBuffer = conn.readBuffer ∧ conn'.readState = conn.readState := by
  cases move <;> exact ⟨rfl, rfl⟩

end CoServer
