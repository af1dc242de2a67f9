import CoServer.Http.SentRequest
import CoServer.ReadClient

/-!
A call that reads beyond the end of the head. It takes more for the header than
the head has, whatever follows, unless it returns an error.
-/

namespace CoServer.Http

open Transition ReadClient Request

/-- The call has returned an error, or has taken a head of the given size and is
not done with the header, or has taken more than that for the header. -/
inductive Overrun (size : Nat) (header : Bytes) (conn : Connection) (call : ReadCall Request) : Prop
  | refused {code} : call.point = .returned (some code) → Overrun size header conn call
  | heading : conn.readState = .readHeader → call.doneRead = false →
      call.msg.headerBufferIdx = header.length → header.length < call.msg.maxHeaderSize →
      size ≤ header.length → call.open → Overrun size header conn call
  | beyond : conn.readState ≠ .readHeader → size < header.length → Overrun size header conn call

theorem overrun_consumed {size count : Nat} {header : Bytes} {conn : Connection}
    {msg msg' : Request} {complete : Bool} (heading : conn.readState = .readHeader)
    (index : msg.headerBufferIdx = header.length) (room : header.length < msg.maxHeaderSize)
    (reply : msg.consumeHeaderSome conn.readBuffer.contents = some ((none, complete, count), msg'))
    (above : size ≤ header.length + count)
    (beyond : complete = true → size < header.length + count) :
    Overrun size (header ++ conn.readBuffer.contents.take count)
      { conn with
        readBuffer := conn.readBuffer.consume count
        readState := if complete then .readBody else conn.readState }
      ⟨msg', false, .body⟩ := by
  obtain ⟨within, _, left⟩ := consumeHeaderSome_count reply
  have longer : (header ++ conn.readBuffer.contents.take count).length = header.length + count := by
    rw [List.length_append, List.length_take, Nat.min_eq_left within]
  cases complete with
  | true => exact .beyond (by simp) (longer ▸ beyond rfl)
  | false =>
      obtain ⟨moved, limit, below⟩ := left rfl
      rw [index, ← longer] at moved
      refine .heading (by simpa using heading) rfl moved ?_ (longer ▸ above) (by simp [ReadCall.open])
      rw [← moved]
      exact below (index ▸ room)

theorem Overrun.move {size : Nat} {header : Bytes} {conn conn' : Connection}
    {call call' : ReadCall Request} {events : List ReadEvent}
    (overrun : Overrun size header conn call) (move : ReadMove conn call conn' call' events) :
    Overrun size (header ++ events.flatMap (ReadEvent.takenBy .header)) conn' call' := by
  cases overrun with
  | refused returned => exact (move.opened _ returned).elim
  | heading state running index room above open_ =>
      have stays : ∀ conn'' point, conn''.readState = .readHeader → (∀ err, point ≠ .returned err) →
          Overrun size (header ++ []) conn'' { call with point := point } := by
        intro conn'' point state' other
        rw [List.append_nil]
        exact .heading state' running index room above other
      cases move with
      | finish _ done => simp [running] at done
      | headerRefused | bodyRefused | ended => exact .refused rfl
      | headerConsumed _ offered _ reply =>
          obtain ⟨_, some_, _⟩ := consumeHeaderSome_count reply
          have := some_ offered (index ▸ room)
          rw [running, List.flatMap_singleton]
          exact overrun_consumed state index room reply (by omega) (fun _ => by omega)
      | headerSkipped _ _ other => exact (other state).elim
      | bodyPart _ reading | bodyComplete _ reading => simp [state] at reading
      | request | enter | leave | bodySkipped | received => exact stays _ _ state (by simp)
  | beyond state above =>
      have stays : ∀ conn'' call'', conn''.readState ≠ .readHeader →
          Overrun size (header ++ []) conn'' call'' := by
        intro conn'' call'' state'
        rw [List.append_nil]
        exact .beyond state' above
      cases move with
      | headerRefused _ _ heading | headerConsumed _ _ heading => exact (state heading).elim
      | bodyComplete => exact stays _ _ (by simp)
      | _ => exact stays _ _ state

theorem overrun_start {sent : SentRequest} {front last extra : Bytes} {conn conn' : Connection}
    {call' : ReadCall Request} {events : List ReadEvent} (split : sent.head = front ++ last)
    (some_ : last ≠ []) (more : extra ≠ []) (room : sent.head.length < sent.headerBuffer.length)
    (heading : conn.readState = .readHeader) (contents : conn.readBuffer.contents = last ++ extra)
    (move : ReadMove conn ⟨sent.scanned front, false, .drain⟩ conn' call' events) :
    Overrun sent.head.length (front ++ events.flatMap (ReadEvent.takenBy .header)) conn' call' := by
  have size := congrArg List.length split
  rw [List.length_append] at size
  cases move with
  | headerRefused => exact .refused rfl
  | @headerConsumed complete count _ _ _ _ reply =>
      obtain ⟨reaches, beyond⟩ := sent.header_overrun split some_ more room
      obtain ⟨same, outcome⟩ := consumeHeaderSome_ok reply
      rw [contents] at same outcome
      replace same : count = ((sent.scanned front).scanData (last ++ extra)).2 := same
      rw [List.flatMap_singleton]
      refine overrun_consumed heading rfl ?_ reply ?_ ?_
      · show front.length < sent.headerBuffer.length
        have := List.length_pos_iff.mpr some_
        omega
      · omega
      · rintro rfl
        obtain ⟨_, found, _⟩ | ⟨incomplete, _⟩ := outcome
        · have := beyond found
          omega
        · cases incomplete
  | leave _ drained => simp [contents, some_] at drained
  | headerSkipped _ _ other => exact (other heading).elim
  | finish point | request point | enter point | bodyRefused point | bodyPart point
  | bodyComplete point | bodySkipped point | ended point | received point => cases point

end CoServer.Http
