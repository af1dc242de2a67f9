import CoServer.Drain
import CoServer.Foundation.Pieces
import CoServer.ReadClient
import Mathlib.Data.List.Forall2

/-!
What a call of `Connection::read` does with its message: it feeds it the pieces in
which the stream comes, first as the header and then as the body.
-/

namespace CoServer

open Transition

/-- A consumer that takes all it is offered until it is complete. -/
def Greedy {M : Type} (consume : M → Bytes → Option (Reply × M)) : Prop :=
  ∀ msg data complete numBytes next, consume msg data = some ((none, complete, numBytes), next) →
    numBytes ≤ data.length ∧ (complete = false → numBytes = data.length)

theorem feed_cases {M : Type} {consume : M → Bytes → Option (Reply × M)} {size count : Nat}
    {sizes : List Nat} {input : Bytes} {msg last : M}
    (fed : feed consume (size :: sizes) input msg = some (count, last)) :
    consume msg (input.take size) = some ((none, true, count), last) ∨
      ∃ numBytes next rest, consume msg (input.take size) = some ((none, false, numBytes), next) ∧
        feed consume sizes (input.drop numBytes) next = some (rest, last) ∧ count = numBytes + rest := by
  rw [feed] at fed
  split at fed
  · rename_i reply
    cases fed
    exact Or.inl reply
  · rename_i numBytes next reply
    obtain ⟨⟨rest, last'⟩, remaining, same⟩ := Option.map_eq_some_iff.mp fed
    cases same
    exact Or.inr ⟨numBytes, next, rest, reply, remaining, rfl⟩
  · cases fed

/-- The pieces that a connection has yet to offer. -/
def ahead (contents : Bytes) (segments : List Bytes) : List Bytes :=
  if contents = [] then segments else contents :: segments

theorem ahead_flatten (contents : Bytes) (segments : List Bytes) :
    (ahead contents segments).flatten = contents ++ segments.flatten := by
  rw [ahead]
  split
  · rename_i drained
    rw [drained, List.nil_append]
  · rw [List.flatten_cons]

namespace ReadClient

theorem Located.ahead {all segments : List Bytes} {taken : Bytes} {buffer : StaticBuffer 4096}
    (located : Located all taken buffer segments) :
    CoServer.ahead buffer.contents segments = Pieces.behind all taken.length := by
  obtain ⟨used, rfl, flat, recent⟩ := located.used
  have some_ : ∀ segment ∈ segments, segment ≠ [] := fun segment member =>
    List.length_pos_iff.mp (located.sized segment member).1
  have total := congrArg List.length flat
  rw [List.length_append] at total
  by_cases drained : buffer.contents = []
  · have whole := Pieces.behind_append used segments 0
    rw [Pieces.behind_zero some_, total, drained, List.length_nil] at whole
    rw [CoServer.ahead, if_pos drained]
    exact whole.symm
  · rw [CoServer.ahead, if_neg drained]
    have positive := List.length_pos_iff.mpr drained
    obtain rfl | ⟨before, last, rfl⟩ := List.eq_nil_or_concat used
    · simp only [List.flatten_nil, List.length_nil] at total
      omega
    · rw [List.concat_eq_append] at *
      rw [List.dropLast_concat] at recent
      obtain ⟨count, size⟩ := Nat.exists_eq_add_of_le recent
      rw [List.flatten_concat] at flat
      rw [List.flatten_concat, List.length_append] at total
      rw [List.append_assoc, size, Pieces.behind_append, List.singleton_append, Pieces.behind,
        if_pos (by omega)]
      have front := congrArg (List.drop taken.length) flat
      rw [List.drop_left, size, List.drop_append, List.drop_eq_nil_of_le (by omega), List.nil_append,
        Nat.add_sub_cancel_left] at front
      rw [front]

variable {M : Type} [MessageLike M] {all segments : List Bytes} {taken : Bytes} {queue : List M}
  {outcomes : List (ReadOutcome M)}

theorem Located.some_ahead {buffer : StaticBuffer 4096} (located : Located all taken buffer segments) :
    ∀ piece ∈ CoServer.ahead buffer.contents segments, piece ≠ [] := by
  intro piece member
  rw [CoServer.ahead] at member
  split at member
  · exact List.length_pos_iff.mp (located.sized piece member).1
  · rename_i busy
    rcases List.mem_cons.mp member with rfl | later
    · exact busy
    · exact List.length_pos_iff.mp (located.sized piece later).1

theorem leads_piece {pieces : List Bytes} {piece : Bytes} (conn : Connection) (queue : List M)
    (header body : Bytes) (outcomes : List (ReadOutcome M)) {point : ReadPoint}
    (here : point = .loop ∨ point = .drain) (msg : M)
    (located : Located all taken conn.readBuffer segments)
    (offers : ahead conn.readBuffer.contents segments = piece :: pieces) :
    ∃ buffer : StaticBuffer 4096, buffer.contents = piece ∧ piece ≠ [] ∧
      Located all taken buffer pieces ∧
      Leads Step ⟨conn, queue, some ⟨msg, false, point⟩, header, body, segments, outcomes⟩
        ⟨{ conn with readBuffer := buffer }, queue, some ⟨msg, false, .drain⟩, header, body, pieces,
          outcomes⟩ := by
  have some_ : piece ≠ [] := located.some_ahead piece (by rw [offers]; simp)
  obtain ⟨buffer, segments', busy, located', leads⟩ :=
    leads_drain conn queue header body outcomes msg here located (by
      rw [← ahead_flatten, offers]
      simp [some_])
  have same := located'.ahead
  rw [← located.ahead, offers, ahead, if_neg busy] at same
  cases same
  exact ⟨buffer, rfl, some_, located', leads⟩

theorem leads_header {pieces : List Bytes} (greedy : Greedy (M := M) MessageLike.consumeHeaderSome)
    (conn : Connection) (header body : Bytes) {point : ReadPoint}
    (here : point = .loop ∨ point = .drain) (msg last : M) (count : Nat)
    (heading : conn.readState = .readHeader)
    (located : Located all taken conn.readBuffer segments)
    (offers : ahead conn.readBuffer.contents segments = pieces)
    (fed : feed MessageLike.consumeHeaderSome (pieces.map List.length) pieces.flatten msg =
      some (count, last)) :
    ∃ buffer segments', Located all (taken ++ pieces.flatten.take count) buffer segments' ∧
      Leads Step ⟨conn, queue, some ⟨msg, false, point⟩, header, body, segments, outcomes⟩
        ⟨{ conn with readBuffer := buffer, readState := .readBody }, queue,
          some ⟨last, false, .body⟩, header ++ pieces.flatten.take count, body, segments',
          outcomes⟩ := by
  induction pieces generalizing conn point segments taken header msg count with
  | nil => cases fed
  | cons piece rest ih =>
      obtain ⟨buffer, contents, some_, located', leads⟩ :=
        leads_piece conn queue header body outcomes here msg located offers
      have offered : buffer.empty = false :=
        (StaticBuffer.empty_eq_false_iff _).mpr (contents ▸ some_)
      have whole : (piece :: rest).flatten.take piece.length = piece := by simp
      rw [List.map_cons] at fed
      rcases feed_cases fed with reply | ⟨numBytes, next, later, reply, remaining, rfl⟩
      · rw [whole] at reply
        have within := (greedy _ _ _ _ _ reply).1
        have consumed := located'.consume (contents ▸ within)
        have takes : ({ conn with readBuffer := buffer } : Connection).readStep
            (⟨msg, false, .drain⟩ : ReadCall M) =
            some ({ conn with readBuffer := buffer.consume count, readState := .readBody },
              ⟨last, false, .body⟩, [.consumed .header piece count]) := by
          simp [Connection.readStep, offered, heading, contents, reply]
        rw [List.flatten_cons, List.take_append_of_le_length within]
        rw [contents] at consumed
        refine ⟨_, _, consumed, leads.trans (leads_run takes ?_)⟩
        simpa [ReadEvent.takenBy] using Leads.refl _
      · rw [whole] at reply
        obtain rfl := (greedy _ _ _ _ _ reply).2 rfl
        have consumed := located'.consume (Nat.le_refl buffer.contents.length)
        rw [List.take_length, contents] at consumed
        have drained : (buffer.consume piece.length).contents = [] := by
          rw [← contents]
          exact StaticBuffer.consume_whole (by decide) buffer
        have takes : ({ conn with readBuffer := buffer } : Connection).readStep
            (⟨msg, false, .drain⟩ : ReadCall M) =
            some ({ conn with readBuffer := buffer.consume piece.length },
              ⟨next, false, .body⟩, [.consumed .header piece piece.length]) := by
          simp [Connection.readStep, offered, heading, contents, reply]
        have skips : ({ conn with readBuffer := buffer.consume piece.length } :
            Connection).readStep (⟨next, false, .body⟩ : ReadCall M) =
            some ({ conn with readBuffer := buffer.consume piece.length },
              ⟨next, false, .drain⟩, []) := by
          simp [Connection.readStep, heading]
        rw [List.flatten_cons, List.drop_left] at remaining
        obtain ⟨buffer', segments', located'', onward⟩ :=
          ih { conn with readBuffer := buffer.consume piece.length } (header ++ piece) (Or.inr rfl) next
            later heading consumed (by rw [ahead, if_pos drained]) remaining
        rw [List.flatten_cons, List.take_length_add_append, ← List.append_assoc, ← List.append_assoc]
        refine ⟨buffer', segments', located'', leads.trans (leads_run takes (leads_run skips ?_))⟩
        simpa [ReadEvent.takenBy] using onward

theorem leads_return (conn : Connection) (header body : Bytes) (msg last : M) {count : Nat}
    (reading : conn.readState = .readBody) (located : Located all taken conn.readBuffer segments)
    (within : count ≤ conn.readBuffer.contents.length)
    (reply : MessageLike.consumeBodySome msg conn.readBuffer.contents = some ((none, true, count), last)) :
    ∃ buffer segments',
      Located all (taken ++ conn.readBuffer.contents.take count) buffer segments' ∧
      Leads Step ⟨conn, queue, some ⟨msg, false, .body⟩, header, body, segments, outcomes⟩
        ⟨{ conn with readBuffer := buffer, readState := .start }, queue, none, header,
          body ++ conn.readBuffer.contents.take count, segments',
          outcomes ++ [⟨none, last, header, body ++ conn.readBuffer.contents.take count⟩]⟩ := by
  have takes : conn.readStep (⟨msg, false, .body⟩ : ReadCall M) =
      some ({ conn with
          readBuffer := conn.readBuffer.consume count
          readState := .start },
        ⟨last, true, .loop⟩, [.consumed .body conn.readBuffer.contents count]) := by
    simp [Connection.readStep, reading, reply]
  have returns : ({ conn with
        readBuffer := conn.readBuffer.consume count
        readState := .start } : Connection).readStep (⟨last, true, .loop⟩ : ReadCall M) =
      some ({ conn with
        readBuffer := conn.readBuffer.consume count
        readState := .start }, ⟨last, true, .returned none⟩, [.returned none]) := by
    simp [Connection.readStep]
  refine ⟨_, segments, located.consume within,
    leads_run takes (leads_run returns (leads_step [] ?_ (Leads.refl _)))⟩
  simp [step, ReadEvent.takenBy]

theorem leads_body (greedy : Greedy (M := M) MessageLike.consumeBodySome) (conn : Connection)
    (header body : Bytes) (msg last : M) (count : Nat) (reading : conn.readState = .readBody)
    (located : Located all taken conn.readBuffer segments)
    (fed : feed MessageLike.consumeBodySome
      (conn.readBuffer.contents.length :: segments.map List.length)
      (conn.readBuffer.contents ++ segments.flatten) msg = some (count, last)) :
    ∃ buffer segments',
      Located all (taken ++ (conn.readBuffer.contents ++ segments.flatten).take count) buffer
        segments' ∧
      Leads Step ⟨conn, queue, some ⟨msg, false, .body⟩, header, body, segments, outcomes⟩
        ⟨{ conn with readBuffer := buffer, readState := .start }, queue, none, header,
          body ++ (conn.readBuffer.contents ++ segments.flatten).take count, segments',
          outcomes ++
            [⟨none, last, header, body ++ (conn.readBuffer.contents ++ segments.flatten).take count⟩]⟩ := by
  induction segments generalizing conn taken body msg count with
  | nil =>
      rcases feed_cases fed with reply | ⟨_, _, _, _, remaining, _⟩
      · rw [List.take_left] at reply
        have within := (greedy _ _ _ _ _ reply).1
        rw [List.take_append_of_le_length within]
        exact leads_return conn header body msg last reading located within reply
      · cases remaining
  | cons piece rest ih =>
      rcases feed_cases fed with reply | ⟨numBytes, next, later, reply, remaining, rfl⟩
      · rw [List.take_left] at reply
        have within := (greedy _ _ _ _ _ reply).1
        rw [List.take_append_of_le_length within]
        exact leads_return conn header body msg last reading located within reply
      · rw [List.take_left] at reply
        obtain rfl := (greedy _ _ _ _ _ reply).2 rfl
        have consumed := located.consume (Nat.le_refl conn.readBuffer.contents.length)
        rw [List.take_length] at consumed
        have drained : (conn.readBuffer.consume conn.readBuffer.contents.length).contents = [] :=
          StaticBuffer.consume_whole (by decide) conn.readBuffer
        have takes : conn.readStep (⟨msg, false, .body⟩ : ReadCall M) =
            some ({ conn with
                readBuffer := conn.readBuffer.consume conn.readBuffer.contents.length },
              ⟨next, false, .drain⟩,
              [.consumed .body conn.readBuffer.contents conn.readBuffer.contents.length]) := by
          simp [Connection.readStep, reading, reply]
        obtain ⟨buffer, rfl, some_, located', leads⟩ := leads_piece
          { conn with readBuffer := conn.readBuffer.consume conn.readBuffer.contents.length } queue header
          (body ++ conn.readBuffer.contents) outcomes (Or.inr rfl) next consumed
          (by rw [ahead, if_pos drained])
        have skips : ({ conn with readBuffer := buffer } : Connection).readStep
              (⟨next, false, .drain⟩ : ReadCall M) =
            some ({ conn with readBuffer := buffer }, ⟨next, false, .body⟩, []) := by
          simp [Connection.readStep, (StaticBuffer.empty_eq_false_iff _).mpr some_, reading]
        rw [List.drop_left, List.flatten_cons, List.map_cons] at remaining
        obtain ⟨buffer', segments', located'', onward⟩ :=
          ih { conn with readBuffer := buffer } (body ++ conn.readBuffer.contents) next later reading
            located' remaining
        rw [List.take_length_add_append, List.flatten_cons, ← List.append_assoc, ← List.append_assoc]
        refine ⟨buffer', segments', located'', leads_run takes ?_⟩
        simpa [ReadEvent.takenBy] using leads.trans (leads_run skips (by simpa using onward))

end ReadClient

/-- All calls have returned, each with what is wanted of it, and no byte is left. -/
structure Collected {α M : Type} (yields : α → ReadOutcome M → Prop) (items : List α)
    (client : ReadClient M) : Prop where
  asked : client.queue = []
  idle : client.current = none
  yields : List.Forall₂ yields items client.outcomes
  drained : client.conn.readBuffer.contents = []
  heard : client.segments = []

def Missed {α M : Type} (yields : α → ReadOutcome M → Prop) (item : α) (index : Nat)
    (client : ReadClient M) : Prop :=
  ∃ outcome, client.outcomes[index]? = some outcome ∧ ¬ yields item outcome

section

variable {α M : Type} {yields : α → ReadOutcome M → Prop} {item : α} {done rest items : List α}
  {client next : ReadClient M} {events : List ReadEvent}

theorem Missed.uncollected (missed : Missed yields item done.length client) :
    ¬ Collected yields (done ++ item :: rest) client := by
  intro collected
  obtain ⟨outcome, recorded, wrong⟩ := missed
  obtain ⟨inside, rfl⟩ := List.getElem?_eq_some_iff.mp recorded
  have yields := (List.forall₂_iff_get.mp collected.yields).2 done.length (by simp) inside
  simp at yields
  exact wrong yields

variable [MessageLike M]

theorem Collected.stopped (collected : Collected yields items client) :
    ¬ ReadClient.Step client events next := by
  intro taken
  rcases ReadClient.step_cases taken with ⟨_, _, _, queue, _⟩ | ⟨_, _, current, _⟩ |
    ⟨_, _, _, _, current, _⟩
  · cases collected.asked.symm.trans queue
  · cases collected.idle.symm.trans current
  · cases collected.idle.symm.trans current

theorem Missed.step {index : Nat} (missed : Missed yields item index client)
    (taken : ReadClient.Step client events next) : Missed yields item index next := by
  obtain ⟨outcome, recorded, wrong⟩ := missed
  refine ⟨outcome, ?_, wrong⟩
  rcases ReadClient.step_cases taken with ⟨_, _, _, _, same⟩ | ⟨_, _, _, _, _, rfl⟩ |
    ⟨_, _, _, _, _, _, rfl⟩
  · obtain rfl : next = _ := congrArg Prod.fst same
    exact recorded
  · rw [← recorded]
    exact List.getElem?_append_left (List.getElem?_eq_some_iff.mp recorded).1
  · exact recorded

theorem Missed.never (missed : Missed yields item done.length client) :
    ¬ Inevitably ReadClient.Step (Collected yields (done ++ item :: rest)) client :=
  not_inevitably (Missed yields item done.length) missed (fun _ _ _ => Missed.step)
    fun _ => Missed.uncollected

/-- A state of the call for an item that the call cannot leave with what is wanted. -/
theorem never_collected {spoils : Bytes → Bytes → Connection → ReadCall M → Prop}
    (keep : ∀ header body conn call conn' call' events, spoils header body conn call →
      ReadMove conn call conn' call' events →
        spoils (header ++ events.flatMap (ReadEvent.takenBy .header))
          (body ++ events.flatMap (ReadEvent.takenBy .body)) conn' call')
    (wrong : ∀ header body conn call err, spoils header body conn call → call.point = .returned err →
      ¬ yields item ⟨err, call.msg, header, body⟩)
    {call : ReadCall M} (count : client.outcomes.length = done.length)
    (current : client.current = some call)
    (spoilt : spoils client.header client.body client.conn call) :
    ¬ Inevitably ReadClient.Step (Collected yields (done ++ item :: rest)) client := by
  refine not_inevitably (fun client => (client.outcomes.length = done.length ∧ ∃ call,
      client.current = some call ∧ spoils client.header client.body client.conn call) ∨
      Missed yields item done.length client) (Or.inl ⟨count, call, current, spoilt⟩) ?_ ?_
  · rintro client events next (⟨count, call, current, spoilt⟩ | missed) taken
    · rcases ReadClient.step_cases taken with ⟨idle, _⟩ | ⟨call', err, current', returned, _, rfl⟩ |
        ⟨call', conn', call'', segments', current', move, rfl⟩
      · cases idle.symm.trans current
      · cases current.symm.trans current'
        exact Or.inr ⟨_, by rw [← count, List.getElem?_concat_length], wrong _ _ _ _ _ spoilt returned⟩
      · cases current.symm.trans current'
        exact Or.inl ⟨count, call'', rfl, keep _ _ _ _ _ _ _ spoilt move⟩
    · exact Or.inr (missed.step taken)
  · rintro client (⟨_, _, current, _⟩ | missed)
    · intro collected
      cases collected.idle.symm.trans current
    · exact missed.uncollected

end

end CoServer
