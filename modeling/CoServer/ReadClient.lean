import CoServer.ReadMoves

/-!
A client that reads messages one after another from a connection whose socket
delivers given segments. It records what each call returned, with the bytes that
the call took for the header and for the body.
-/

namespace CoServer

open Transition

structure ReadOutcome (M : Type) where
  err : Error
  msg : M
  header : Bytes
  body : Bytes

structure ReadClient (M : Type) where
  conn : Connection
  queue : List M
  current : Option (ReadCall M)
  header : Bytes
  body : Bytes
  segments : List Bytes
  outcomes : List (ReadOutcome M)

def ReadEvent.takenBy (phase : Phase) : ReadEvent → Bytes
  | .consumed phase' offered numBytes => if phase' = phase then offered.take numBytes else []
  | _ => []

namespace ReadClient

variable {M : Type} [MessageLike M]

def resume (client : ReadClient M) (after : Connection × ReadCall M × List ReadEvent) :
    ReadClient M × List ReadEvent :=
  ({ client with
    conn := after.1
    current := some after.2.1
    header := client.header ++ after.2.2.flatMap (ReadEvent.takenBy .header)
    body := client.body ++ after.2.2.flatMap (ReadEvent.takenBy .body) }, after.2.2)

def step (client : ReadClient M) : Option (ReadClient M × List ReadEvent) :=
  match client.current with
  | none =>
      match client.queue with
      | [] => none
      | msg :: rest =>
          some ({ client with queue := rest, header := [], body := [] }.resume (client.conn.read msg))
  | some call =>
      match call.point with
      | .returned err =>
          some ({ client with
            current := none
            outcomes := client.outcomes ++ [⟨err, call.msg, client.header, client.body⟩] }, [])
      | .suspended _ =>
          match client.segments with
          | [] => none
          | segment :: rest =>
              (client.conn.completeRead call ⟨false, segment⟩).map
                { client with segments := rest }.resume
      | _ => (client.conn.readStep call).map client.resume

def Step (client : ReadClient M) (events : List ReadEvent) (next : ReadClient M) : Prop :=
  client.step = some (next, events)

def start (messages : List M) (segments : List Bytes) : ReadClient M where
  conn := Connection.init
  queue := messages
  current := none
  header := []
  body := []
  segments := segments
  outcomes := []

theorem step_deterministic (state : ReadClient M) (after after' : List ReadEvent)
    (next next' : ReadClient M) (taken : Step state after next) (taken' : Step state after' next') :
    next = next' := by
  rw [Step] at taken taken'
  rw [taken, Option.some.injEq, Prod.mk.injEq] at taken'
  exact taken'.1

theorem step_cases {client next : ReadClient M} {events : List ReadEvent}
    (taken : Step client events next) :
    (client.current = none ∧ ∃ msg rest, client.queue = msg :: rest ∧
      (next, events) = { client with queue := rest, header := [], body := [] }.resume
        (client.conn.read msg)) ∨
    (∃ call err, client.current = some call ∧ call.point = .returned err ∧ events = [] ∧
      next = { client with
        current := none
        outcomes := client.outcomes ++ [⟨err, call.msg, client.header, client.body⟩] }) ∨
    ∃ call conn call' segments, client.current = some call ∧
      ReadMove client.conn call conn call' events ∧
      next = ({ client with segments := segments }.resume (conn, call', events)).1 := by
  rw [Step, step] at taken
  cases current : client.current with
  | none =>
      cases queue : client.queue with
      | nil => simp [current, queue] at taken
      | cons msg rest =>
          simp only [current, queue, Option.some.injEq] at taken
          exact Or.inl ⟨rfl, msg, rest, rfl, taken.symm⟩
  | some call =>
      have moves : ∀ segments after, ReadMove client.conn call after.1 after.2.1 after.2.2 →
          { client with segments := segments }.resume after = (next, events) →
          ∃ call' conn call'' segments, some call = some call' ∧
            ReadMove client.conn call' conn call'' events ∧
            next = ({ client with segments := segments }.resume (conn, call'', events)).1 := by
        rintro segments ⟨conn, call', events'⟩ move same
        obtain rfl : events' = events := congrArg Prod.snd same
        exact ⟨call, conn, call', segments, rfl, move, (congrArg Prod.fst same).symm⟩
      cases point : call.point with
      | returned err =>
          simp only [current, point, Option.some.injEq, Prod.mk.injEq] at taken
          exact Or.inr (Or.inl ⟨call, err, rfl, point, taken.2.symm, taken.1.symm⟩)
      | suspended span =>
          simp only [current, point] at taken
          split at taken
          · cases taken
          · rename_i segment rest _
            obtain ⟨after, completed, same⟩ := Option.map_eq_some_iff.mp taken
            exact Or.inr (Or.inr (moves rest after (completeRead_move completed) same))
      | loop | drain | body =>
          simp only [current, point] at taken
          obtain ⟨after, stepped, same⟩ := Option.map_eq_some_iff.mp taken
          exact Or.inr (Or.inr (moves client.segments after (readStep_move stepped) same))

theorem leads_step {client next last : ReadClient M} (events : List ReadEvent)
    (taken : client.step = some (next, events)) (later : Leads Step next last) :
    Leads Step client last := Leads.cons taken later

theorem leads_run {conn conn' : Connection} {queue : List M} {call call' : ReadCall M}
    {header body : Bytes} {segments : List Bytes} {outcomes : List (ReadOutcome M)}
    {last : ReadClient M} {events : List ReadEvent}
    (taken : conn.readStep call = some (conn', call', events))
    (later : Leads Step ⟨conn', queue, some call',
      header ++ events.flatMap (ReadEvent.takenBy .header),
      body ++ events.flatMap (ReadEvent.takenBy .body), segments, outcomes⟩ last) :
    Leads Step ⟨conn, queue, some call, header, body, segments, outcomes⟩ last := by
  refine leads_step events ?_ later
  rw [step]
  cases point : call.point with
  | suspended span => simp [Connection.readStep, point] at taken
  | returned err => simp [Connection.readStep, point] at taken
  | loop | drain | body => simp only [point, taken, Option.map_some, resume]

/-- The part of the stream that has been taken, what is buffered, and the segments
to come. What is buffered comes from one segment. -/
structure Located (all : List Bytes) (taken : Bytes) (buffer : StaticBuffer 4096)
    (segments : List Bytes) : Prop where
  settled : buffer.Settled
  sized : ∀ segment ∈ segments, 1 ≤ segment.length ∧ segment.length ≤ 4096
  used : ∃ used, all = used ++ segments ∧ used.flatten = taken ++ buffer.contents ∧
    used.dropLast.flatten.length ≤ taken.length

theorem Located.stream {all segments : List Bytes} {taken : Bytes} {buffer : StaticBuffer 4096}
    (located : Located all taken buffer segments) :
    all.flatten = taken ++ (buffer.contents ++ segments.flatten) := by
  obtain ⟨used, rfl, flat, _⟩ := located.used
  rw [List.flatten_append, flat, List.append_assoc]

theorem located_start {segments : List Bytes}
    (sized : ∀ segment ∈ segments, 1 ≤ segment.length ∧ segment.length ≤ 4096) :
    Located segments [] (StaticBuffer.init 4096) segments :=
  ⟨StaticBuffer.init_settled 4096, sized, [], rfl, by simp, by simp⟩

theorem Located.consume {all segments : List Bytes} {taken : Bytes} {buffer : StaticBuffer 4096}
    (located : Located all taken buffer segments) {count : Nat}
    (within : count ≤ buffer.contents.length) :
    Located all (taken ++ buffer.contents.take count) (buffer.consume count) segments := by
  obtain ⟨used, split, flat, last⟩ := located.used
  refine ⟨StaticBuffer.consume_settled _ _, located.sized, used, split, ?_, ?_⟩
  · rw [StaticBuffer.consume_offered (by decide) buffer within, flat, List.append_assoc,
      List.take_append_drop]
  · rw [List.length_append]
    omega

theorem Located.receive {all rest : List Bytes} {taken segment : Bytes} {buffer : StaticBuffer 4096}
    (located : Located all taken buffer (segment :: rest)) (drained : buffer.contents = []) :
    Located all taken ((buffer.fill buffer.writableSpan segment).commit segment.length) rest ∧
      ((buffer.fill buffer.writableSpan segment).commit segment.length).contents = segment := by
  obtain ⟨used, split, flat, _⟩ := located.used
  obtain ⟨_, fits⟩ := located.sized segment (by simp)
  have contents : ((buffer.fill buffer.writableSpan segment).commit segment.length).contents =
      segment := by
    rw [StaticBuffer.commit_readable (by rw [located.settled drained]; exact fits), drained,
      List.nil_append]
  refine ⟨⟨(located.settled.fill segment).commit _, ?_, used ++ [segment], ?_, ?_, ?_⟩, contents⟩
  · exact fun other member => located.sized other (List.mem_cons_of_mem segment member)
  · rw [split, List.append_assoc, List.singleton_append]
  · rw [List.flatten_append, flat, drained, contents]
    simp
  · exact Nat.le_of_eq (by rw [List.dropLast_concat, flat, drained, List.append_nil])

theorem Located.same_stream {all segments segments' : List Bytes} {taken : Bytes}
    {buffer buffer' : StaticBuffer 4096} (located : Located all taken buffer segments)
    (located' : Located all taken buffer' segments') :
    buffer'.contents ++ segments'.flatten = buffer.contents ++ segments.flatten :=
  List.append_cancel_left (located'.stream.symm.trans located.stream)

/-- What is buffered ends with a part of it exactly when a segment ends there. -/
theorem Located.boundary_iff {all segments : List Bytes} {taken last extra : Bytes}
    {buffer : StaticBuffer 4096} (located : Located all taken buffer segments)
    (contents : buffer.contents = last ++ extra) (some_ : last ≠ []) :
    extra = [] ↔ ∃ front back, all = front ++ back ∧ front.flatten = taken ++ last := by
  obtain ⟨used, split, flat, recent⟩ := located.used
  rw [contents] at flat
  constructor
  · rintro rfl
    exact ⟨used, segments, split, by rw [flat, List.append_nil]⟩
  · rintro ⟨front, back, split', ends⟩
    rw [split] at split'
    rcases List.append_eq_append_iff.mp split' with ⟨beyond, rfl, _⟩ | ⟨beyond, rfl, _⟩
    · rw [List.flatten_append, flat] at ends
      have size := congrArg List.length ends
      simp only [List.length_append] at size
      exact List.length_eq_zero_iff.mp (by omega)
    · by_cases none_ : beyond = []
      · rw [none_, List.append_nil, ends, ← List.append_assoc] at flat
        exact List.append_right_eq_self.mp flat.symm
      · -- the end of the part would lie before the segment that is buffered
        rw [List.dropLast_append_of_ne_nil none_, List.flatten_append, ends] at recent
        simp only [List.length_append] at recent
        have := List.length_pos_iff.mpr some_
        omega

theorem leads_drain {all segments : List Bytes} {taken : Bytes} (conn : Connection)
    (queue : List M) (header body : Bytes) (outcomes : List (ReadOutcome M)) (msg : M)
    {point : ReadPoint} (here : point = .loop ∨ point = .drain)
    (located : Located all taken conn.readBuffer segments)
    (more : conn.readBuffer.contents ++ segments.flatten ≠ []) :
    ∃ buffer segments', buffer.contents ≠ [] ∧ Located all taken buffer segments' ∧
      Leads Step ⟨conn, queue, some ⟨msg, false, point⟩, header, body, segments, outcomes⟩
        ⟨{ conn with readBuffer := buffer }, queue, some ⟨msg, false, .drain⟩, header, body, segments',
          outcomes⟩ := by
  by_cases drained : conn.readBuffer.contents = []
  · have empty : conn.readBuffer.empty = true := (StaticBuffer.empty_iff _).mpr drained
    cases segments with
    | nil => simp [drained] at more
    | cons segment rest =>
        obtain ⟨located', contents⟩ := located.receive drained
        obtain ⟨some_, fits⟩ := located.sized segment (by simp)
        have requests : conn.readStep (⟨msg, false, .loop⟩ : ReadCall M) =
            some (conn, ⟨msg, false, .suspended conn.readBuffer.writableSpan⟩,
              [.requested conn.readBuffer.writableSpan]) := by
          simp only [Connection.readStep, Bool.false_eq_true, ↓reduceIte, empty]
        have within : segment.length ≤ conn.readBuffer.writableSpan.length := by
          simp only [StaticBuffer.writableSpan, located.settled drained]
          exact fits
        have positive : (segment.length == 0) = false := by
          rw [beq_eq_false_iff_ne]
          omega
        have waits : Leads Step
            (⟨conn, queue, some ⟨msg, false, .loop⟩, header, body, segment :: rest, outcomes⟩ :
              ReadClient M)
            ⟨{ conn with readBuffer :=
                (conn.readBuffer.fill conn.readBuffer.writableSpan segment).commit segment.length },
              queue, some ⟨msg, false, .drain⟩, header, body, rest, outcomes⟩ := by
          refine leads_run requests (leads_step [.received segment] ?_ (Leads.refl _))
          simp [step, Connection.completeRead, within, positive, resume, ReadEvent.takenBy]
        refine ⟨_, rest, ?_, located', ?_⟩
        · rw [contents]
          exact List.length_pos_iff.mp some_
        rcases here with rfl | rfl
        · exact waits
        · have returns : conn.readStep (⟨msg, false, .drain⟩ : ReadCall M) =
              some (conn, ⟨msg, false, .loop⟩, []) := by
            simp only [Connection.readStep, empty, ↓reduceIte]
          refine leads_run returns ?_
          simpa using waits
  · have busy : conn.readBuffer.empty = false := (StaticBuffer.empty_eq_false_iff _).mpr drained
    refine ⟨conn.readBuffer, segments, drained, located, ?_⟩
    rcases here with rfl | rfl
    · have drains : conn.readStep (⟨msg, false, .loop⟩ : ReadCall M) =
          some (conn, ⟨msg, false, .drain⟩, []) := by
        simp only [Connection.readStep, busy, Bool.false_eq_true, ↓reduceIte]
      refine leads_run drains ?_
      simpa using Leads.refl _
    · exact Leads.refl _

end ReadClient

theorem forall_split_cons {α : Type} {holds : List α → α → Prop} {first : α} {rest : List α} :
    (∀ before item after, first :: rest = before ++ item :: after → holds before item) ↔
      holds [] first ∧
        ∀ before item after, rest = before ++ item :: after → holds (first :: before) item := by
  constructor
  · intro every
    refine ⟨every [] first rest rfl, ?_⟩
    rintro before item after rfl
    exact every (first :: before) item after rfl
  · rintro ⟨now, later⟩ before item after split
    cases before with
    | nil =>
        cases split
        exact now
    | cons head before =>
        cases split
        exact later before item after rfl

end CoServer
