import CoServer.System

/-!
What one move of a reading call can do, branch by branch, and the invariant that
ties an open call to the state of its connection.
-/

namespace CoServer

variable {M : Type} [MessageLike M]

/-- Every move of a read: one constructor for each branch of `readStep` and of
`completeRead`, with the guards of the branch. -/
inductive ReadMove : Connection → ReadCall M → Connection → ReadCall M → List ReadEvent → Prop
  | finish {conn call} : call.point = .loop → call.doneRead = true →
      ReadMove conn call conn { call with point := .returned none } [.returned none]
  | request {conn call} : call.point = .loop → call.doneRead = false →
      conn.readBuffer.contents = [] →
      ReadMove conn call conn { call with point := .suspended conn.readBuffer.writableSpan }
        [.requested conn.readBuffer.writableSpan]
  | enter {conn call} : call.point = .loop → call.doneRead = false →
      conn.readBuffer.contents ≠ [] →
      ReadMove conn call conn { call with point := .drain } []
  | leave {conn call} : call.point = .drain → conn.readBuffer.contents = [] →
      ReadMove conn call conn { call with point := .loop } []
  | headerRefused {conn call code complete numBytes msg} : call.point = .drain →
      conn.readBuffer.contents ≠ [] → conn.readState = .readHeader →
      MessageLike.consumeHeaderSome call.msg conn.readBuffer.contents =
        some ((some code, complete, numBytes), msg) →
      ReadMove conn call conn ⟨msg, call.doneRead, .returned (some code)⟩
        [.refused .header conn.readBuffer.contents, .returned (some code)]
  | headerConsumed {conn call complete numBytes msg} : call.point = .drain →
      conn.readBuffer.contents ≠ [] → conn.readState = .readHeader →
      MessageLike.consumeHeaderSome call.msg conn.readBuffer.contents =
        some ((none, complete, numBytes), msg) →
      ReadMove conn call
        { conn with
          readBuffer := conn.readBuffer.consume numBytes
          readState := if complete then .readBody else conn.readState }
        ⟨msg, call.doneRead, .body⟩ [.consumed .header conn.readBuffer.contents numBytes]
  | headerSkipped {conn call} : call.point = .drain → conn.readBuffer.contents ≠ [] →
      conn.readState ≠ .readHeader →
      ReadMove conn call conn { call with point := .body } []
  | bodyRefused {conn call code complete numBytes msg} : call.point = .body →
      conn.readState = .readBody →
      MessageLike.consumeBodySome call.msg conn.readBuffer.contents =
        some ((some code, complete, numBytes), msg) →
      ReadMove conn call conn ⟨msg, call.doneRead, .returned (some code)⟩
        [.refused .body conn.readBuffer.contents, .returned (some code)]
  | bodyPart {conn call numBytes msg} : call.point = .body → conn.readState = .readBody →
      MessageLike.consumeBodySome call.msg conn.readBuffer.contents =
        some ((none, false, numBytes), msg) →
      ReadMove conn call { conn with readBuffer := conn.readBuffer.consume numBytes }
        ⟨msg, call.doneRead, .drain⟩ [.consumed .body conn.readBuffer.contents numBytes]
  | bodyComplete {conn call numBytes msg} : call.point = .body → conn.readState = .readBody →
      MessageLike.consumeBodySome call.msg conn.readBuffer.contents =
        some ((none, true, numBytes), msg) →
      ReadMove conn call
        { conn with readBuffer := conn.readBuffer.consume numBytes, readState := .start }
        ⟨msg, true, .loop⟩ [.consumed .body conn.readBuffer.contents numBytes]
  | bodySkipped {conn call} : call.point = .body → conn.readState ≠ .readBody →
      ReadMove conn call conn { call with point := .drain } []
  | ended {conn call span err} {result : SocketRead} : call.point = .suspended span →
      result.bytes.length ≤ span.length → (result.failed || result.bytes.length == 0) = true →
      err ≠ .invalidState →
      ReadMove conn call { conn with readBuffer := conn.readBuffer.fill span result.bytes }
        { call with point := .returned (some err) } [.returned (some err)]
  | received {conn call span} {result : SocketRead} : call.point = .suspended span →
      result.bytes.length ≤ span.length → result.failed = false → result.bytes ≠ [] →
      ReadMove conn call
        { conn with
          readBuffer := (conn.readBuffer.fill span result.bytes).commit result.bytes.length }
        { call with point := .drain } [.received result.bytes]

theorem readStep_move {conn : Connection} {call : ReadCall M} {after}
    (taken : conn.readStep call = some after) :
    ReadMove conn call after.1 after.2.1 after.2.2 := by
  cases point : call.point with
  | loop =>
      simp only [Connection.readStep, point] at taken
      split at taken
      · cases taken
        exact ReadMove.finish point (by assumption)
      · have running : call.doneRead = false := by simpa using (by assumption : ¬ call.doneRead = true)
        split at taken
        · cases taken
          exact ReadMove.request point running ((StaticBuffer.empty_iff _).mp (by assumption))
        · cases taken
          refine ReadMove.enter point running ?_
          rw [Ne, ← StaticBuffer.empty_iff]
          assumption
  | drain =>
      simp only [Connection.readStep, point] at taken
      split at taken
      · cases taken
        exact ReadMove.leave point ((StaticBuffer.empty_iff _).mp (by assumption))
      · have offered : conn.readBuffer.contents ≠ [] := by
          rw [Ne, ← StaticBuffer.empty_iff]
          assumption
        split at taken
        · split at taken
          · simp at taken
          · cases taken
            exact ReadMove.headerRefused point offered (by assumption) (by assumption)
          · cases taken
            exact ReadMove.headerConsumed point offered (by assumption) (by assumption)
        · cases taken
          exact ReadMove.headerSkipped point offered (by assumption)
  | body =>
      simp only [Connection.readStep, point] at taken
      split at taken
      · split at taken
        · simp at taken
        · cases taken
          exact ReadMove.bodyRefused point (by assumption) (by assumption)
        · rename_i state _ complete numBytes msg reply
          cases taken
          cases complete with
          | false => simpa using ReadMove.bodyPart point state reply
          | true => simpa using ReadMove.bodyComplete point state reply
      · cases taken
        exact ReadMove.bodySkipped point (by assumption)
  | suspended span => simp [Connection.readStep, point] at taken
  | returned err => simp [Connection.readStep, point] at taken

theorem completeRead_move {conn : Connection} {call : ReadCall M} {result after}
    (taken : conn.completeRead call result = some after) :
    ReadMove conn call after.1 after.2.1 after.2.2 := by
  cases point : call.point with
  | suspended span =>
      simp only [Connection.completeRead, point] at taken
      split at taken
      · rename_i within
        split at taken
        · rename_i failed
          cases taken
          exact ReadMove.ended point within failed (by split <;> simp)
        · rename_i succeeded
          simp only [Bool.or_eq_true, beq_iff_eq, List.length_eq_zero_iff, not_or,
            Bool.not_eq_true] at succeeded
          cases taken
          exact ReadMove.received point within succeeded.1 succeeded.2
      · simp at taken
  | loop | drain | body | returned err => simp [Connection.completeRead, point] at taken

/-- The state an open read keeps at each of its points. Its flag is set exactly
from the end of the body on, and while it is suspended the buffer is empty. -/
structure ReadOwner (conn : Connection) (call : ReadCall M) : Prop where
  flag : call.doneRead = true ↔ conn.readState = .start
  done : call.doneRead = true → call.point = .loop
  waiting : ∀ span, call.point = .suspended span →
    conn.readBuffer.contents = [] ∧ span = conn.readBuffer.writableSpan

omit [MessageLike M] in
theorem ReadOwner.busy {conn : Connection} {call : ReadCall M} (owner : ReadOwner conn call)
    {point : ReadPoint} (at_ : call.point = point) (notLoop : point ≠ .loop) :
    call.doneRead = false ∧ conn.readState ≠ .start := by
  have unset : call.doneRead ≠ true := fun set => notLoop (at_ ▸ owner.done set)
  exact ⟨by simpa using unset, fun started => unset (owner.flag.mpr started)⟩

theorem ReadMove.opened {conn conn' : Connection} {call call' : ReadCall M} {events}
    (move : ReadMove conn call conn' call' events) : call.open := by
  intro err returned
  cases move <;> simp_all

theorem ReadMove.owner {conn conn' : Connection} {call call' : ReadCall M} {events}
    (move : ReadMove conn call conn' call' events) (owner : ReadOwner conn call)
    (remains : call'.open) : ReadOwner conn' call' := by
  cases move with
  | finish | headerRefused | bodyRefused | ended => exact (remains _ rfl).elim
  | request point running nothing =>
      exact ⟨owner.flag, fun set => by simp [running] at set, by
        rintro span waiting
        cases waiting
        exact ⟨nothing, rfl⟩⟩
  | enter point running =>
      exact ⟨owner.flag, fun set => by simp [running] at set, by simp⟩
  | leave => exact ⟨owner.flag, fun _ => rfl, by simp⟩
  | headerConsumed point _ state _ =>
      have busy := owner.busy point (by simp)
      refine ⟨?_, ?_, by simp⟩
      · simp only [busy.1, Bool.false_eq_true, false_iff]
        split <;> simp [state]
      · simp [busy.1]
  | headerSkipped point | bodySkipped point =>
      have busy := owner.busy point (by simp)
      exact ⟨owner.flag, fun set => by simp [busy.1] at set, by simp⟩
  | bodyPart point | received point =>
      have busy := owner.busy point (by simp)
      exact ⟨owner.flag, fun set => by simp [busy.1] at set, by simp⟩
  | bodyComplete => exact ⟨by simp, by simp, by simp⟩

theorem ReadMove.returned_state {conn conn' : Connection} {call call' : ReadCall M} {events err}
    (move : ReadMove conn call conn' call' events) (owner : ReadOwner conn call)
    (returned : call'.point = .returned err) : err = none ↔ conn'.readState = .start := by
  cases move with
  | finish point done =>
      cases returned
      simpa using owner.flag.mp done
  | headerRefused point | bodyRefused point | ended point =>
      cases returned
      have busy := owner.busy point (by simp)
      simpa using busy.2
  | request | enter | leave | headerConsumed | headerSkipped | bodyPart | bodyComplete
  | bodySkipped | received => simp at returned

theorem ReadMove.settled {conn conn' : Connection} {call call' : ReadCall M} {events}
    (move : ReadMove conn call conn' call' events) (owner : ReadOwner conn call)
    (settled : conn.readBuffer.Settled) : conn'.readBuffer.Settled := by
  cases move with
  | finish | request | enter | leave | headerRefused | headerSkipped | bodyRefused | bodySkipped =>
      exact settled
  | headerConsumed | bodyPart | bodyComplete => exact StaticBuffer.consume_settled _ _
  | ended point =>
      rw [(owner.waiting _ point).2]
      exact settled.fill _
  | received point =>
      rw [(owner.waiting _ point).2]
      exact (settled.fill _).commit _

theorem ReadMove.writes {conn conn' : Connection} {call call' : ReadCall M} {events}
    (move : ReadMove conn call conn' call' events) :
    conn'.writeBuffer = conn.writeBuffer ∧ conn'.writeState = conn.writeState := by
  cases move <;> exact ⟨rfl, rfl⟩

end CoServer
