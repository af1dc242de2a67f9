import CoServer.BinaryRoundTrip
import CoServer.BinarySending
import CoServer.ReadFeeding
import CoServer.WriteClient

/-!
Values that are packed, written one after another on a connection and read from
another one. They arrive exactly where the pieces of the stream leave the lengths
in order and the packed forms give the values back.
-/

namespace CoServer

open Transition BinaryMessage

/-- A value on its way: its packed form, and what the memory of the length of its sender
and of its receiver held. -/
structure Parcel (T : Type) [Packable T] where
  value : T
  payload : Bytes
  packs : Packable.packer value = (payload, true)
  storable : payload.length ≤ maxSize
  sent : Nat
  received : Nat
  old : T

namespace Parcel

variable {T : Type} [Packable T]

def sender (parcel : Parcel T) : BinaryMessage T := (ofValue parcel.sent parcel.value).pack.2

def receiver (parcel : Parcel T) : BinaryMessage T := ofValue parcel.received parcel.old

def streamOf (parcels : List (Parcel T)) : Bytes :=
  parcels.flatMap fun parcel => lengthHeader parcel.payload.length ++ parcel.payload

/-- A call that returns the value, having taken its frame. -/
structure Delivers (parcel : Parcel T) (outcome : ReadOutcome (BinaryMessage T)) : Prop where
  success : outcome.err = none
  header : outcome.header = lengthHeader parcel.payload.length
  body : outcome.body = parcel.payload
  unpacks : outcome.msg.unpack.1 = none
  value : outcome.msg.unpack.2.value = parcel.value

/-- The length is in order when the pieces behind what comes before have filled it. -/
def LengthInOrder (segments : List Bytes) (before : Bytes) (parcel : Parcel T) : Prop :=
  LengthArrives ((Pieces.behind segments before.length).map List.length)
    (LittleEndian.bytes 8 parcel.received) (lengthHeader parcel.payload.length)

instance (segments : List Bytes) (before : Bytes) (parcel : Parcel T) :
    Decidable (LengthInOrder segments before parcel) := inferInstanceAs (Decidable (LengthArrives _ _ _))

end Parcel

namespace BinaryMessage

variable {T : Type}

theorem greedy_header : Greedy (M := BinaryMessage T) MessageLike.consumeHeaderSome := by
  intro msg data complete numBytes next reply
  rw [consumeHeaderSome_taken msg data _ rfl] at reply
  cases reply
  refine ⟨Nat.min_le_left _ _, fun short => ?_⟩
  have := of_decide_eq_false short
  omega

theorem greedy_body : Greedy (M := BinaryMessage T) MessageLike.consumeBodySome := by
  intro msg data complete numBytes next reply
  rw [consumeBodySome_taken (consumeBodySome_inBody reply) data _ rfl] at reply
  cases reply
  refine ⟨Nat.min_le_left _ _, fun short => ?_⟩
  have := of_decide_eq_false short
  omega

theorem feedHeader_arrives {payload : Bytes} {sizes : List Nat} (more : Bytes) (received : Nat)
    (old : T) (storable : payload.length ≤ maxSize) (enough : 8 ≤ sizes.sum) :
    ∃ headed, feed MessageLike.consumeHeaderSome sizes (lengthHeader payload.length ++ more)
        (ofValue received old) = some (8, headed) ∧
      headed = { ofValue received old with length := headed.length, headIdx := 8 } ∧
      (LengthArrives sizes (LittleEndian.bytes 8 received) (lengthHeader payload.length) ↔
        headed.length = payload.length) := by
  have untouched : ∀ place < 8,
      unswapped 0 (LittleEndian.bytes 8 (ofValue received old).length) place =
        placed (callOf sizes) (LittleEndian.bytes 8 received) (lengthHeader payload.length) 0
          place := by
    intro place _
    simp [unswapped, placed, ofValue]
  obtain ⟨headed, fed, shape, bounded, arrived⟩ := feedHeader_receives
    (lengthHeader_length payload.length) more sizes 0 0 (ofValue received old) (by omega)
    enough rfl (fun byte _ _ => by rw [Nat.zero_add, Nat.sub_zero]) untouched
  rw [List.drop_zero] at fed
  refine ⟨headed, fed, shape, ?_⟩
  rw [length_iff bounded (by rw [maxSize] at storable; omega)]
  refine forall₂_congr fun byte bound => ?_
  rw [← placed_arrives bound, ← arrived _ (by split <;> omega), unswapped]
  by_cases last : callOf sizes 7 % 2 = 0
  · rw [if_neg (by omega), if_pos last]
  · rw [if_pos (by omega), if_neg last]

theorem feedBody_more {sizes : List Nat} {input : Bytes} {msg last : BinaryMessage T} {count : Nat}
    (fed : feed MessageLike.consumeBodySome sizes input msg = some (count, last))
    (exact_ : msg.length - msg.bodyIdx = input.length) (more : Bytes) :
    feed MessageLike.consumeBodySome sizes (input ++ more) msg = some (count, last) := by
  induction sizes generalizing input msg count with
  | nil => cases fed
  | cons size rest ih =>
      have same : MessageLike.consumeBodySome msg ((input ++ more).take size) =
          MessageLike.consumeBodySome msg (input.take size) := by
        by_cases inBody : InBody msg
        · have inside := inBody.inside
          have front : min size input.length ≤ input.length := Nat.min_le_right _ _
          rw [consumeBodySome_taken inBody _ (min size input.length) (by
              rw [List.length_take, List.length_append]; omega),
            consumeBodySome_taken inBody _ (min size input.length) (by
              rw [List.length_take]; omega),
            List.take_take, List.take_take, Nat.min_eq_left (Nat.min_le_left _ _),
            List.take_append_of_le_length front]
        · rw [consumeBodySome_none inBody, consumeBodySome_none inBody]
      rcases feed_cases fed with reply | ⟨numBytes, next, later, reply, remaining, rfl⟩
      · exact feed_complete rest (same.trans reply)
      · have kept : numBytes ≤ input.length ∧ next.length - next.bodyIdx = (input.drop numBytes).length := by
          have inBody := consumeBodySome_inBody reply
          have inside := inBody.inside
          rw [consumeBodySome_taken inBody _ _ rfl, Option.some.injEq, Prod.mk.injEq] at reply
          obtain ⟨counted, rfl⟩ := reply
          obtain rfl : _ = numBytes := congrArg (fun reply : Reply => reply.2.2) counted
          rw [List.length_take, List.length_drop]
          simp only
          omega
        rw [feed_more rest (same.trans reply), List.drop_append_of_le_length kept.1,
          ih remaining kept.2, Option.map_some]

/-- The call is in the body, or past it, with a length that is not the one sent. -/
inductive Misread (size : Nat) (header body : Bytes) (conn : Connection) (call : ReadCall (BinaryMessage T)) :
    Prop
  | refused {code} : call.point = .returned (some code) → Misread size header body conn call
  | reading : conn.readState = .readBody → call.doneRead = false → call.open →
      call.msg.bodyIdx = body.length → body.length ≤ call.msg.length → call.msg.length ≠ size →
      Misread size header body conn call
  | complete : call.doneRead = true → call.point = .loop ∨ call.point = .returned none →
      body.length ≠ size → Misread size header body conn call

theorem Misread.move {size : Nat} {header body : Bytes} {conn conn' : Connection}
    {call call' : ReadCall (BinaryMessage T)} {events : List ReadEvent}
    (misread : Misread size header body conn call) (move : ReadMove conn call conn' call' events) :
    Misread size (header ++ events.flatMap (ReadEvent.takenBy .header))
      (body ++ events.flatMap (ReadEvent.takenBy .body)) conn' call' := by
  cases misread with
  | refused returned => exact (move.opened _ returned).elim
  | reading state running open_ index inside other =>
      have stays : ∀ conn'' point, conn''.readState = .readBody → (∀ err, point ≠ .returned err) →
          Misread size (header ++ []) (body ++ []) conn'' { call with point := point } := by
        intro conn'' point state' open_'
        rw [List.append_nil, List.append_nil]
        exact .reading state' running open_' index inside other
      cases move with
      | finish _ done => simp [running] at done
      | headerRefused _ _ heading | headerConsumed _ _ heading => simp [state] at heading
      | bodyRefused | ended => exact .refused rfl
      | bodySkipped _ skipped => exact (skipped state).elim
      | bodyPart _ _ reply =>
          rw [consumeBodySome_taken (consumeBodySome_inBody reply) _ _ rfl, Option.some.injEq,
            Prod.mk.injEq] at reply
          obtain ⟨counted, rfl⟩ := reply
          obtain ⟨short, rfl⟩ := Prod.mk.inj (Prod.mk.inj counted).2
          have short := of_decide_eq_false short
          refine .reading state running (by simp [ReadCall.open]) ?_ ?_ other
          · simp [ReadEvent.takenBy, index]
          · simp [ReadEvent.takenBy]
            omega
      | bodyComplete _ _ reply =>
          rw [consumeBodySome_taken (consumeBodySome_inBody reply) _ _ rfl, Option.some.injEq,
            Prod.mk.injEq] at reply
          obtain ⟨counted, rfl⟩ := reply
          obtain ⟨long, rfl⟩ := Prod.mk.inj (Prod.mk.inj counted).2
          have long := of_decide_eq_true long
          refine .complete rfl (Or.inl rfl) ?_
          simp [ReadEvent.takenBy]
          omega
      | request | enter | leave | headerSkipped | received => exact stays _ _ state (by simp)
  | complete done here other =>
      cases move with
      | finish =>
          refine .complete done (Or.inr rfl) ?_
          simpa [ReadEvent.takenBy] using other
      | request _ running | enter _ running => simp [done] at running
      | _ => simp_all

theorem Misread.spoils [Packable T] {parcel : Parcel T} {header body : Bytes} {conn : Connection}
    {call : ReadCall (BinaryMessage T)} {err : Error}
    (misread : Misread parcel.payload.length header body conn call)
    (returned : call.point = .returned err) : ¬ parcel.Delivers ⟨err, call.msg, header, body⟩ := by
  intro delivers
  cases misread with
  | refused failed =>
      rw [returned, show err = none from delivers.success] at failed
      cases failed
  | reading _ _ open_ => exact open_ err returned
  | complete _ _ other => exact other (congrArg List.length delivers.body)

end BinaryMessage

namespace Parcel

open ReadClient

variable {T : Type} [Packable T]

theorem streamOf_cons (parcel : Parcel T) (parcels : List (Parcel T)) :
    streamOf (parcel :: parcels) =
      lengthHeader parcel.payload.length ++ (parcel.payload ++ streamOf parcels) := by
  simp [streamOf]

theorem heads {all segments : List Bytes} {taken rest : Bytes} {conn : Connection}
    (queue : List (BinaryMessage T)) (header body : Bytes)
    (outcomes : List (ReadOutcome (BinaryMessage T))) (parcel : Parcel T)
    (idle : conn.readState = .start) (located : Located all taken conn.readBuffer segments)
    (stream : conn.readBuffer.contents ++ segments.flatten =
      lengthHeader parcel.payload.length ++ rest) :
    ∃ buffer segments' headed, Located all (taken ++ lengthHeader parcel.payload.length) buffer segments' ∧
      headed = { parcel.receiver with length := headed.length, headIdx := 8 } ∧
      (LengthInOrder all taken parcel ↔ headed.length = parcel.payload.length) ∧
      Leads ReadClient.Step
        ⟨conn, parcel.receiver :: queue, none, header, body, segments, outcomes⟩
        ⟨{ conn with readBuffer := buffer, readState := .readBody }, queue,
          some ⟨headed, false, .body⟩, lengthHeader parcel.payload.length, [], segments',
          outcomes⟩ := by
  have flat : (Pieces.behind all taken.length).flatten = lengthHeader parcel.payload.length ++ rest := by
    rw [← located.ahead, ahead_flatten, stream]
  have enough : 8 ≤ ((Pieces.behind all taken.length).map List.length).sum := by
    rw [← List.length_flatten, flat, List.length_append, lengthHeader_length]
    omega
  obtain ⟨headed, fed, shape, arrives⟩ :=
    feedHeader_arrives rest parcel.received parcel.old parcel.storable enough
  have begins : Leads ReadClient.Step
      ⟨conn, parcel.receiver :: queue, none, header, body, segments, outcomes⟩
      ⟨{ conn with readState := .readHeader }, queue, some ⟨parcel.receiver, false, .loop⟩, [], [],
        segments, outcomes⟩ := by
    refine leads_step [] ?_ (Leads.refl _)
    simp [ReadClient.step, resume, Connection.read, idle]
  rw [← flat] at fed
  obtain ⟨buffer, segments', located', leads⟩ := leads_header greedy_header
    { conn with readState := .readHeader } [] [] (Or.inl rfl) parcel.receiver headed 8 rfl located
    located.ahead fed
  have front : (Pieces.behind all taken.length).flatten.take 8 = lengthHeader parcel.payload.length := by
    rw [flat, List.take_append_of_le_length (by simp), List.take_of_length_le (by simp)]
  rw [front] at located' leads
  exact ⟨buffer, segments', headed, located', shape, arrives, begins.trans leads⟩

theorem bodies {all segments : List Bytes} {taken rest : Bytes} {conn : Connection}
    (queue : List (BinaryMessage T)) (outcomes : List (ReadOutcome (BinaryMessage T)))
    {parcel : Parcel T} {headed : BinaryMessage T} (reading : conn.readState = .readBody)
    (shape : headed = { parcel.receiver with length := headed.length, headIdx := 8 })
    (arrived : headed.length = parcel.payload.length)
    (located : Located all taken conn.readBuffer segments)
    (stream : conn.readBuffer.contents ++ segments.flatten = parcel.payload ++ rest) :
    ∃ buffer segments' last, Located all (taken ++ parcel.payload) buffer segments' ∧
      last.buffer = parcel.payload ∧
      Leads ReadClient.Step
        ⟨conn, queue, some ⟨headed, false, .body⟩, lengthHeader parcel.payload.length, [], segments,
          outcomes⟩
        ⟨{ conn with readBuffer := buffer, readState := .start }, queue, none,
          lengthHeader parcel.payload.length, parcel.payload, segments',
          outcomes ++ [⟨none, last, lengthHeader parcel.payload.length, parcel.payload⟩]⟩ := by
  have start : headed.bodyIdx = 0 := by
    rw [shape]
    rfl
  have enough : parcel.payload.length ≤
      (conn.readBuffer.contents.length :: segments.map List.length).sum := by
    have total := congrArg List.length stream
    rw [List.length_append, List.length_append, List.length_flatten] at total
    rw [List.sum_cons]
    omega
  obtain ⟨last, fed, buffer⟩ := feedBody_receives
    (conn.readBuffer.contents.length :: segments.map List.length) [] parcel.payload headed
    (by simpa using arrived) start (Or.inr (arrived ▸ parcel.storable)) (by simp) (by simp) enough
  have fed := feedBody_more fed (by rw [start, arrived, Nat.sub_zero]) rest
  rw [← stream] at fed
  obtain ⟨buffer', segments', located', leads⟩ :=
    leads_body greedy_body conn (lengthHeader parcel.payload.length) [] headed last
      parcel.payload.length reading located fed
  rw [stream, List.take_left] at located' leads
  exact ⟨buffer', segments', last, located', by simpa using buffer, leads⟩

theorem delivers_iff {parcel : Parcel T} {last : BinaryMessage T} (buffer : last.buffer = parcel.payload) :
    parcel.Delivers ⟨none, last, lengthHeader parcel.payload.length, parcel.payload⟩ ↔
      Packable.unpacker (Packable.empty : T) parcel.payload = (parcel.value, true) := by
  have whole : (last.unpack.1 = none ∧ last.unpack.2.value = parcel.value) ↔
      Packable.unpacker (Packable.empty : T) parcel.payload = (parcel.value, true) := by
    rw [unpack, buffer]
    cases Packable.unpacker (Packable.empty : T) parcel.payload with
    | mk value completed => cases completed <;> simp
  rw [← whole]
  exact ⟨fun delivers => ⟨delivers.unpacks, delivers.value⟩, fun both => ⟨rfl, rfl, rfl, both.1, both.2⟩⟩

theorem collected_iff {all segments : List Bytes} (done parcels : List (Parcel T)) (conn : Connection)
    {outcomes : List (ReadOutcome (BinaryMessage T))} (header body : Bytes)
    (idle : conn.readState = .start) (located : Located all (streamOf done) conn.readBuffer segments)
    (delivered : List.Forall₂ Delivers done outcomes)
    (stream : conn.readBuffer.contents ++ segments.flatten = streamOf parcels) :
    Inevitably ReadClient.Step (Collected Delivers (done ++ parcels))
        ⟨conn, parcels.map receiver, none, header, body, segments, outcomes⟩ ↔
      ∀ before parcel after, parcels = before ++ parcel :: after →
        LengthInOrder all (streamOf (done ++ before)) parcel ∧
          Packable.unpacker (Packable.empty : T) parcel.payload = (parcel.value, true) := by
  induction parcels generalizing done conn segments outcomes header body with
  | nil =>
      obtain ⟨drained, nothing⟩ := List.append_eq_nil_iff.mp stream
      have heard : segments = [] := by
        cases segments with
        | nil => rfl
        | cons segment rest =>
            have := (located.sized segment (by simp)).1
            simp [(List.append_eq_nil_iff.mp nothing).1] at this
      rw [List.append_nil]
      refine ⟨fun _ before parcel after split => by simp at split, fun _ => .here ?_⟩
      exact ⟨rfl, rfl, delivered, drained, heard⟩
  | cons parcel rest ih =>
      rw [streamOf_cons] at stream
      obtain ⟨buffer, segments', headed, located', shape, arrives, leads⟩ :=
        heads (rest.map receiver) header body outcomes parcel idle located stream
      have count := delivered.length_eq.symm
      rw [List.map_cons, leads.inevitably_iff step_deterministic fun _ _ _ => Collected.stopped,
        forall_split_cons, List.append_nil]
      by_cases arrived : headed.length = parcel.payload.length
      · have behind : buffer.contents ++ segments'.flatten = parcel.payload ++ streamOf rest := by
          have streamed := located'.stream
          rw [located.stream, stream, List.append_assoc, List.append_cancel_left_eq,
            List.append_cancel_left_eq] at streamed
          exact streamed.symm
        obtain ⟨buffer', segments'', last, located'', whole, leads'⟩ :=
          @bodies _ _ _ _ _ _ { conn with readBuffer := buffer, readState := .readBody }
            (rest.map receiver) outcomes _ _ rfl shape arrived located' behind
        rw [leads'.inevitably_iff step_deterministic fun _ _ _ => Collected.stopped]
        by_cases gives : Packable.unpacker (Packable.empty : T) parcel.payload = (parcel.value, true)
        · rw [and_iff_right ⟨arrives.mpr arrived, gives⟩]
          have split_ : done ++ parcel :: rest = (done ++ [parcel]) ++ rest := by simp
          have total : streamOf (done ++ [parcel]) =
              streamOf done ++ lengthHeader parcel.payload.length ++ parcel.payload := by
            simp [streamOf]
          have delivered' := List.rel_append delivered
            (List.Forall₂.cons ((delivers_iff whole).mpr gives) List.Forall₂.nil)
          have left : buffer'.contents ++ segments''.flatten = streamOf rest := by
            have streamed := located''.stream
            rw [located'.stream, behind] at streamed
            simpa using streamed.symm
          rw [split_]
          have later := ih (done ++ [parcel]) { conn with readBuffer := buffer', readState := .start }
            (lengthHeader parcel.payload.length) parcel.payload rfl (total ▸ located'') delivered' left
          simpa using later
        · refine iff_of_false (Missed.never ⟨_, ?_, fun delivers => gives ((delivers_iff whole).mp delivers)⟩)
            fun both => gives both.1.2
          rw [← count, List.getElem?_concat_length]
      · refine iff_of_false (never_collected (fun _ _ _ _ _ _ _ => Misread.move)
          (fun _ _ _ _ _ => Misread.spoils) count rfl ?_) fun both => arrived (arrives.mp both.1.1)
        refine .reading rfl rfl (by simp [ReadCall.open]) ?_ (Nat.zero_le _) arrived
        rw [shape]
        rfl

/-- A header that comes in one piece is in order, whatever the memory of the length held. -/
theorem lengthInOrder_whole {segments : List Bytes} {before : Bytes} {parcel : Parcel T} {piece : Bytes}
    {pieces : List Bytes} (next : Pieces.behind segments before.length = piece :: pieces)
    (whole : 8 ≤ piece.length) : parcel.LengthInOrder segments before := by
  rw [LengthInOrder, next, List.map_cons]
  have first : ∀ byte < 8, callOf (piece.length :: pieces.map List.length) byte = 0 := by
    intro byte bound
    rw [callOf, if_pos (by omega)]
  have placed : ∀ byte < 8, ¬ Misplaced (piece.length :: pieces.map List.length) byte := by
    intro byte bound
    rw [Misplaced, first byte bound, first 7 (by omega)]
    decide
  intro byte bound
  exact ⟨fun misplaced => (placed byte bound misplaced).elim,
    fun misplaced => (placed (7 - byte) (by omega) misplaced).elim⟩

theorem sendable (parcel : Parcel T) :
    WriteClient.Sendable (lengthHeader parcel.payload.length) parcel.payload parcel.sender :=
  ⟨_, _, _, ⟨(emitsHeader parcel.payload).weaken fun _ => Rewound.bodyPending,
    emitsBody parcel.payload⟩, pack_ready parcel.sent parcel.packs⟩

/-- The sender puts all frames on the wire, and a receiver at its end collects the values
exactly where each length comes in order and each packed form gives its value back. -/
theorem transmits (parcels : List (Parcel T)) :
    Inevitably WriteClient.Step
      (fun client => client.queue = [] ∧ client.current = none ∧ client.sent = streamOf parcels ∧
        client.reports = List.replicate parcels.length ⟨none, .start, true, 4096⟩ ∧
        ∀ segments : List Bytes,
          (∀ segment ∈ segments, 1 ≤ segment.length ∧ segment.length ≤ 4096) →
          segments.flatten = client.sent →
          (Inevitably ReadClient.Step (Collected Delivers parcels)
              (ReadClient.start (parcels.map receiver) segments) ↔
            ∀ before parcel after, parcels = before ++ parcel :: after →
              LengthInOrder segments (streamOf before) parcel ∧
                Packable.unpacker (Packable.empty : T) parcel.payload = (parcel.value, true)))
      (WriteClient.start Connection.init (parcels.map sender)) := by
  have sendable : List.Forall₂ (fun content msg => WriteClient.Sendable content.1 content.2 msg)
      (parcels.map fun parcel => (lengthHeader parcel.payload.length, parcel.payload))
      (parcels.map sender) := by
    rw [List.forall₂_map_left_iff, List.forall₂_map_right_iff]
    exact List.forall₂_same.mpr fun parcel _ => parcel.sendable
  have written := WriteClient.writesAll sendable Connection.init rfl
    (StaticBuffer.init_settled 4096) (StaticBuffer.init_contents 4096) [] []
  refine written.bind ?_
  rintro client ⟨asked, idle, sent, reports⟩
  rw [List.nil_append, List.flatMap_map] at sent
  rw [List.nil_append, List.length_map] at reports
  refine .here ⟨asked, idle, sent, reports, ?_⟩
  intro segments sized same
  have whole : segments.flatten = streamOf parcels := same.trans sent
  exact collected_iff [] parcels Connection.init [] [] rfl (located_start sized) List.Forall₂.nil
    (by simpa [Connection.init] using whole)

end Parcel

end CoServer
