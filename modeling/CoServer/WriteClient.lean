import CoServer.Drain
import CoServer.Foundation.Transition

/-!
A client that writes messages one after another on a connection, over a socket
that accepts a non-empty part of every span. When a write returns, the client
reports its outcome and the state it left the connection in.
-/

namespace CoServer

open Transition

structure WriteReport where
  err : Error
  writeState : WriteState
  empty : Bool
  writable : Nat
  deriving DecidableEq, Repr

structure WriteClient (M : Type) where
  conn : Connection
  queue : List M
  current : Option (WriteCall M)
  sent : Bytes
  reports : List WriteReport

namespace WriteClient

variable {M : Type} [MessageLike M]

def resume (client : WriteClient M) (after : Connection × WriteCall M × List WriteEvent) :
    WriteClient M :=
  { client with
    conn := after.1
    current := some after.2.1
    sent := client.sent ++ after.2.2.flatMap WriteEvent.sentBytes }

/-- `count` is what the socket accepts, should the write be suspended. -/
def step (client : WriteClient M) (count : Nat) : Option (WriteClient M) :=
  match client.current with
  | none =>
      match client.queue with
      | [] => none
      | msg :: rest => some ({ client with queue := rest }.resume (client.conn.write msg))
  | some call =>
      match call.point with
      | .returned err =>
          some { client with
            current := none
            reports := client.reports ++ [⟨err, client.conn.writeState,
              client.conn.writeBuffer.empty, client.conn.writeBuffer.writableSpan.length⟩] }
      | .suspended span =>
          if 1 ≤ count ∧ count ≤ span.length then
            (client.conn.completeWrite call ⟨false, count⟩).map client.resume
          else none
      | _ => (client.conn.writeStep call).map client.resume

def Step (client : WriteClient M) (events : List Nat) (next : WriteClient M) : Prop :=
  ∃ count, events = [count] ∧ client.step count = some next

/-- A message with a header and a body to emit: each half emits what is pending of
it, and the body follows the header. -/
structure Transmits (body : Bytes) (headerPending bodyPending : Bytes → M → Prop)
    (done : M → Prop) : Prop where
  header : Emits MessageLike.produceHeaderSome headerPending (bodyPending body)
  body : Emits MessageLike.produceBodySome bodyPending done

/-- What the message still has to emit in a write state. -/
def Pending (body : Bytes) (headerPending bodyPending : Bytes → M → Prop) (content : Bytes)
    (state : WriteState) (msg : M) : Prop :=
  (state = .writeHeader ∧ ∃ header, content = header ++ body ∧ headerPending header msg) ∨
    (state = .writeBody ∧ bodyPending content msg)

variable {goal : WriteClient M → Prop} {queue : List M} {sent : Bytes} {reports : List WriteReport}

theorem inevitably_step {client next : WriteClient M} (taken : ∀ count, client.step count = some next)
    (later : Inevitably Step goal next) : Inevitably Step goal client := by
  refine Inevitably.only ⟨0, rfl, taken 0⟩ ?_ later
  rintro events' next' ⟨count, _, taken'⟩
  rw [taken] at taken'
  exact (Option.some.inj taken').symm

theorem inevitably_run {conn conn' : Connection} {call call' : WriteCall M} {events : List WriteEvent}
    (taken : conn.writeStep call = some (conn', call', events))
    (later : Inevitably Step goal
      ⟨conn', queue, some call', sent ++ events.flatMap WriteEvent.sentBytes, reports⟩) :
    Inevitably Step goal ⟨conn, queue, some call, sent, reports⟩ := by
  refine inevitably_step ?_ later
  intro count
  cases point : call.point with
  | suspended span => simp [Connection.writeStep, point] at taken
  | returned err => simp [Connection.writeStep, point] at taken
  | loop | fill | fillBody | flush => simp only [step, point, taken, Option.map_some, resume]

theorem flushes (conn : Connection) (call : WriteCall M) (sent : Bytes) (point : call.point = .flush)
    (settled : conn.writeBuffer.Settled)
    (later : ∀ buffer : StaticBuffer 4096, buffer.contents = [] → buffer.Settled →
      Inevitably Step goal ⟨{ conn with writeBuffer := buffer }, queue,
        some { call with point := .loop }, sent ++ conn.writeBuffer.contents, reports⟩) :
    Inevitably Step goal ⟨conn, queue, some call, sent, reports⟩ := by
  generalize size : conn.writeBuffer.contents.length = length
  induction length using Nat.strongRecOn generalizing conn call sent with
  | _ length ih =>
      by_cases nothing : conn.writeBuffer.contents = []
      · have taken : conn.writeStep call = some (conn, { call with point := .loop }, []) := by
          simp [Connection.writeStep, point, (StaticBuffer.empty_iff _).mpr nothing]
        refine inevitably_run taken ?_
        have ended := later conn.writeBuffer nothing settled
        rwa [nothing] at ended
      · have busy : conn.writeBuffer.empty = false := by
          rw [StaticBuffer.empty_eq_false_iff]
          exact nothing
        have taken : conn.writeStep call =
            some (conn, { call with point := .suspended conn.writeBuffer.readableSpan },
              [.handed conn.writeBuffer.readableSpan]) := by
          simp [Connection.writeStep, point, busy]
        refine inevitably_run taken ?_
        simp only [List.flatMap_cons, List.flatMap_nil, WriteEvent.sentBytes, List.append_nil]
        have span : conn.writeBuffer.readableSpan.length = conn.writeBuffer.size := rfl
        have filled : 0 < conn.writeBuffer.size := by
          rw [← StaticBuffer.contents_length]
          exact List.length_pos_iff.mpr nothing
        -- the socket accepts any part of the span
        have accepts : ∀ count, 1 ≤ count → count ≤ conn.writeBuffer.size →
            step ⟨conn, queue, some { call with point := .suspended conn.writeBuffer.readableSpan },
              sent, reports⟩ count =
            some ⟨{ conn with writeBuffer := conn.writeBuffer.consume count }, queue,
              some { call with point := .flush }, sent ++ conn.writeBuffer.contents.take count,
              reports⟩ := by
          intro count positive within
          have part : conn.writeBuffer.load ⟨conn.writeBuffer.readableSpan.position, count⟩ =
              conn.writeBuffer.contents.take count := by
            rw [StaticBuffer.contents, StaticBuffer.load, StaticBuffer.load, Splice.window_take]
            rw [Nat.min_eq_left (by rw [span]; exact within)]
          have some_ : (count == 0) = false := by
            rw [beq_eq_false_iff_ne]
            omega
          simp only [step, Connection.completeWrite, span, positive, within, and_self, ↓reduceIte,
            some_, Bool.or_false, Bool.false_eq_true, Option.map_some, resume, part,
            List.flatMap_cons, List.flatMap_nil, List.append_nil, WriteEvent.sentBytes]
        refine Inevitably.next ⟨[1], _, 1, rfl, accepts 1 (Nat.le_refl 1) filled⟩ ?_
        rintro events next ⟨count, _, taken'⟩
        by_cases allowed : 1 ≤ count ∧ count ≤ conn.writeBuffer.size
        · rw [accepts count allowed.1 allowed.2, Option.some.injEq] at taken'
          subst taken'
          have left : (conn.writeBuffer.consume count).contents =
              conn.writeBuffer.contents.drop count :=
            StaticBuffer.consume_contents (by decide) _ allowed.2
          refine ih (conn.writeBuffer.consume count).contents.length ?_
            { conn with writeBuffer := conn.writeBuffer.consume count }
            { call with point := .flush } _ rfl (StaticBuffer.consume_settled _ _) ?_ rfl
          · have measured := StaticBuffer.contents_length conn.writeBuffer
            rw [left, List.length_drop]
            omega
          · intro buffer empty settled'
            rw [List.append_assoc, left, List.take_append_drop]
            exact later buffer empty settled'
        · simp only [step, span, allowed, ↓reduceIte, reduceCtorEq] at taken'

section Fill

variable {body : Bytes} {headerPending bodyPending : Bytes → M → Prop} {done : M → Prop}

/-- The state in which a round of filling leaves the connection and the call. -/
structure Filled (body : Bytes) (headerPending bodyPending : Bytes → M → Prop) (done : M → Prop)
    (before content : Bytes) (room : Nat) (buffer : StaticBuffer 4096) (state : WriteState)
    (call : WriteCall M) : Prop where
  point : call.point = .flush
  settled : buffer.Settled
  contents : buffer.contents = before ++ content.take room
  complete : content.length ≤ room → call.doneWrite = true ∧ state = .start ∧ done call.msg
  partial_ : room < content.length → call.doneWrite = false ∧
    Pending body headerPending bodyPending (content.drop room) state call.msg

theorem produced_buffer {buffer : StaticBuffer 4096} {content out : Bytes}
    (settled : buffer.Settled)
    (stored : out.take (min (4096 - buffer.write) content.length) =
      content.take (4096 - buffer.write)) :
    (((buffer.fill buffer.writableSpan out).commit
        (min (4096 - buffer.write) content.length)).contents =
      buffer.contents ++ content.take (4096 - buffer.write)) ∧
    ((buffer.fill buffer.writableSpan out).commit
        (min (4096 - buffer.write) content.length)).Settled ∧
    ((buffer.fill buffer.writableSpan out).commit
        (min (4096 - buffer.write) content.length)).write =
      buffer.write + min (4096 - buffer.write) content.length := by
  have enough : min (4096 - buffer.write) content.length ≤ out.length := by
    have lengths := congrArg List.length stored
    rw [List.length_take, List.length_take] at lengths
    omega
  refine ⟨?_, (settled.fill out).commit _, ?_⟩
  · rw [StaticBuffer.commit_contents, StaticBuffer.fill_contents,
      StaticBuffer.committed_fill enough (Nat.min_le_left _ _), stored]
  · rw [StaticBuffer.commit_write, StaticBuffer.fill_write]
    omega

theorem load_length (buffer : StaticBuffer 4096) :
    (buffer.load buffer.writableSpan).length = 4096 - buffer.write := by
  have bounded := buffer.bounded
  refine Splice.window_length ?_
  simp only [StaticBuffer.writableSpan, buffer.sized]
  omega

theorem writeStep_full (conn : Connection) (msg : M) (full : conn.writeBuffer.write = 4096) :
    conn.writeStep (⟨msg, false, .fill⟩ : WriteCall M) = some (conn, ⟨msg, false, .flush⟩, []) := by
  have none_ : ¬ conn.writeBuffer.writableSpan.length > 0 := by
    simp [StaticBuffer.writableSpan, full]
  simp only [Connection.writeStep, none_, ↓reduceIte]

theorem bodyFills (transmits : Transmits body headerPending bodyPending done) (conn : Connection)
    (call : WriteCall M) {content : Bytes} (point : call.point = .fillBody)
    (undone : call.doneWrite = false) (settled : conn.writeBuffer.Settled)
    (state : conn.writeState = .writeBody) (pending : bodyPending content call.msg)
    (later : ∀ buffer state' call', Filled body headerPending bodyPending done
        conn.writeBuffer.contents content (4096 - conn.writeBuffer.write) buffer state' call' →
      Inevitably Step goal ⟨{ conn with writeBuffer := buffer, writeState := state' }, queue,
        some call', sent, reports⟩) :
    Inevitably Step goal ⟨conn, queue, some call, sent, reports⟩ := by
  obtain ⟨out, msg, reply, stored, after⟩ := transmits.body content call.msg
    (conn.writeBuffer.load conn.writeBuffer.writableSpan) pending
  rw [load_length] at reply stored after
  obtain ⟨contents, settled', written⟩ := produced_buffer settled stored
  generalize produced : (conn.writeBuffer.fill conn.writeBuffer.writableSpan out).commit
    (min (4096 - conn.writeBuffer.write) content.length) = buffer at *
  by_cases fits : content.length ≤ 4096 - conn.writeBuffer.write
  · rw [if_pos fits] at after
    have taken : conn.writeStep call =
        some ({ conn with writeBuffer := buffer, writeState := .start }, ⟨msg, true, .flush⟩,
          [.produced .body ((conn.writeBuffer.fill conn.writeBuffer.writableSpan out).committed
            (min (4096 - conn.writeBuffer.write) content.length))]) := by
      simp only [Connection.writeStep, point, state, ↓reduceIte, reply, fits, decide_true, produced]
    refine inevitably_run taken ?_
    simp only [List.flatMap_cons, List.flatMap_nil, WriteEvent.sentBytes, List.append_nil]
    refine later buffer .start ⟨msg, true, .flush⟩ ⟨rfl, settled', contents, ?_, ?_⟩
    · exact fun _ => ⟨rfl, rfl, after⟩
    · intro long
      omega
  · rw [if_neg fits] at after
    have taken : conn.writeStep call =
        some ({ conn with writeBuffer := buffer }, ⟨msg, false, .fill⟩,
          [.produced .body ((conn.writeBuffer.fill conn.writeBuffer.writableSpan out).committed
            (min (4096 - conn.writeBuffer.write) content.length))]) := by
      simp only [Connection.writeStep, point, state, undone, ↓reduceIte, reply, fits, decide_false,
        Bool.false_eq_true, produced]
    refine inevitably_run taken ?_
    simp only [List.flatMap_cons, List.flatMap_nil, WriteEvent.sentBytes, List.append_nil]
    have bounded := conn.writeBuffer.bounded
    have full : buffer.write = 4096 := by omega
    refine inevitably_run (writeStep_full _ msg full) ?_
    simp only [List.flatMap_nil, List.append_nil]
    refine later buffer conn.writeState ⟨msg, false, .flush⟩ ⟨rfl, settled', contents, ?_, ?_⟩
    · intro short
      exact (fits short).elim
    · exact fun _ => ⟨rfl, Or.inr ⟨state, after⟩⟩

theorem headerFills (transmits : Transmits body headerPending bodyPending done) (conn : Connection)
    (call : WriteCall M) {header : Bytes} (point : call.point = .fill)
    (undone : call.doneWrite = false) (settled : conn.writeBuffer.Settled)
    (room : conn.writeBuffer.writableSpan.length > 0) (state : conn.writeState = .writeHeader)
    (pending : headerPending header call.msg)
    (later : ∀ buffer state' call', Filled body headerPending bodyPending done
        conn.writeBuffer.contents (header ++ body) (4096 - conn.writeBuffer.write) buffer state' call' →
      Inevitably Step goal ⟨{ conn with writeBuffer := buffer, writeState := state' }, queue,
        some call', sent, reports⟩) :
    Inevitably Step goal ⟨conn, queue, some call, sent, reports⟩ := by
  obtain ⟨out, msg, reply, stored, after⟩ := transmits.header header call.msg
    (conn.writeBuffer.load conn.writeBuffer.writableSpan) pending
  rw [load_length] at reply stored after
  obtain ⟨contents, settled', written⟩ := produced_buffer settled stored
  generalize produced : (conn.writeBuffer.fill conn.writeBuffer.writableSpan out).commit
    (min (4096 - conn.writeBuffer.write) header.length) = buffer at *
  by_cases fits : header.length ≤ 4096 - conn.writeBuffer.write
  · -- the body is asked for the rest of the buffer, which may be empty
    rw [if_pos fits] at after
    have taken : conn.writeStep call =
        some ({ conn with writeBuffer := buffer, writeState := .writeBody },
          ⟨msg, false, .fillBody⟩,
          [.produced .header ((conn.writeBuffer.fill conn.writeBuffer.writableSpan out).committed
            (min (4096 - conn.writeBuffer.write) header.length))]) := by
      simp only [Connection.writeStep, point, room, state, undone, ↓reduceIte, reply, fits,
        decide_true, produced]
    refine inevitably_run taken ?_
    simp only [List.flatMap_cons, List.flatMap_nil, WriteEvent.sentBytes, List.append_nil]
    refine bodyFills transmits _ _ rfl rfl settled' rfl after ?_
    intro buffer' state' call' filled
    have whole : (header ++ body).take (4096 - conn.writeBuffer.write) =
        header ++ body.take (4096 - buffer.write) := by
      rw [List.take_append, List.take_of_length_le fits]
      congr 2
      omega
    have left : (header ++ body).drop (4096 - conn.writeBuffer.write) =
        body.drop (4096 - buffer.write) := by
      rw [List.drop_append, List.drop_eq_nil_of_le fits, List.nil_append]
      congr 1
      omega
    refine later buffer' state' call' ⟨filled.point, filled.settled, ?_, ?_, ?_⟩
    · rw [whole, filled.contents, contents, List.take_of_length_le fits, List.append_assoc]
    · intro short
      rw [List.length_append] at short
      exact filled.complete (by simp only; omega)
    · intro long
      rw [List.length_append] at long
      rw [left]
      exact filled.partial_ (by simp only; omega)
  · -- the header goes on in the next round
    rw [if_neg fits] at after
    have taken : conn.writeStep call =
        some ({ conn with writeBuffer := buffer }, ⟨msg, false, .fillBody⟩,
          [.produced .header ((conn.writeBuffer.fill conn.writeBuffer.writableSpan out).committed
            (min (4096 - conn.writeBuffer.write) header.length))]) := by
      simp only [Connection.writeStep, point, room, state, undone, ↓reduceIte, reply, fits,
        decide_false, Bool.false_eq_true, produced]
    refine inevitably_run taken ?_
    simp only [List.flatMap_cons, List.flatMap_nil, WriteEvent.sentBytes, List.append_nil]
    have skipped : ({ conn with writeBuffer := buffer } : Connection).writeStep
        (⟨msg, false, .fillBody⟩ : WriteCall M) =
        some ({ conn with writeBuffer := buffer }, ⟨msg, false, .fill⟩, []) := by
      simp only [Connection.writeStep, state, reduceCtorEq, ↓reduceIte]
    refine inevitably_run skipped ?_
    have bounded := conn.writeBuffer.bounded
    have full : buffer.write = 4096 := by omega
    refine inevitably_run (writeStep_full _ msg full) ?_
    simp only [List.flatMap_nil, List.append_nil]
    have short : 4096 - conn.writeBuffer.write ≤ header.length := Nat.le_of_not_le fits
    refine later buffer conn.writeState ⟨msg, false, .flush⟩ ⟨rfl, settled', ?_, ?_, ?_⟩
    · rw [List.take_append_of_le_length short, contents]
    · intro whole
      rw [List.length_append] at whole
      omega
    · intro _
      refine ⟨rfl, Or.inl ⟨state, header.drop (4096 - conn.writeBuffer.write), ?_, after⟩⟩
      rw [List.drop_append_of_le_length short]

theorem fills (transmits : Transmits body headerPending bodyPending done) (conn : Connection)
    (call : WriteCall M) {content : Bytes} (point : call.point = .fill)
    (undone : call.doneWrite = false) (settled : conn.writeBuffer.Settled)
    (room : conn.writeBuffer.writableSpan.length > 0)
    (pending : Pending body headerPending bodyPending content conn.writeState call.msg)
    (later : ∀ buffer state' call', Filled body headerPending bodyPending done
        conn.writeBuffer.contents content (4096 - conn.writeBuffer.write) buffer state' call' →
      Inevitably Step goal ⟨{ conn with writeBuffer := buffer, writeState := state' }, queue,
        some call', sent, reports⟩) :
    Inevitably Step goal ⟨conn, queue, some call, sent, reports⟩ := by
  rcases pending with ⟨state, header, rfl, pending⟩ | ⟨state, pending⟩
  · exact headerFills transmits conn call point undone settled room state pending later
  · have moved : conn.writeStep call = some (conn, { call with point := .fillBody }, []) := by
      simp only [Connection.writeStep, point, room, state, reduceCtorEq, ↓reduceIte]
    refine inevitably_run moved ?_
    simp only [List.flatMap_nil, List.append_nil]
    exact bodyFills transmits conn { call with point := .fillBody } rfl undone settled state pending
      later

/-- A call with a pending content sends it and returns without error, round by round. -/
theorem writes (transmits : Transmits body headerPending bodyPending done) (conn : Connection)
    (call : WriteCall M) (sent : Bytes) {content : Bytes} (point : call.point = .loop)
    (undone : call.doneWrite = false) (settled : conn.writeBuffer.Settled)
    (drained : conn.writeBuffer.contents = [])
    (pending : Pending body headerPending bodyPending content conn.writeState call.msg)
    (later : ∀ buffer : StaticBuffer 4096, ∀ call' : WriteCall M, buffer.contents = [] →
      buffer.Settled → call'.point = .returned none →
      Inevitably Step goal ⟨{ conn with writeBuffer := buffer, writeState := .start }, queue,
        some call', sent ++ content, reports⟩) :
    Inevitably Step goal ⟨conn, queue, some call, sent, reports⟩ := by
  generalize size : content.length = length
  induction length using Nat.strongRecOn generalizing conn call sent content with
  | _ length ih =>
      have start := settled drained
      have entered : conn.writeStep call = some (conn, { call with point := .fill }, []) := by
        simp only [Connection.writeStep, point, undone, Bool.false_eq_true, ↓reduceIte]
      refine inevitably_run entered ?_
      simp only [List.flatMap_nil, List.append_nil]
      refine fills transmits conn { call with point := .fill } rfl undone settled ?_ pending ?_
      · simp only [StaticBuffer.writableSpan]
        omega
      intro buffer state' call' filled
      refine flushes _ call' sent filled.point filled.settled ?_
      intro emptied empty settled'
      have stored : buffer.contents = content.take 4096 := by
        rw [filled.contents, drained, start, List.nil_append]
      simp only [stored]
      by_cases fits : content.length ≤ 4096
      · obtain ⟨finished, rfl, _⟩ := filled.complete (by omega)
        have returns : ({ conn with writeBuffer := emptied, writeState := .start } : Connection).writeStep
            { call' with point := .loop } =
            some ({ conn with writeBuffer := emptied, writeState := .start },
              { call' with point := .returned none }, [.returned none]) := by
          simp only [Connection.writeStep, finished, ↓reduceIte]
        refine inevitably_run returns ?_
        simp only [List.flatMap_cons, List.flatMap_nil, WriteEvent.sentBytes, List.append_nil]
        rw [List.take_of_length_le fits]
        exact later emptied _ empty settled' rfl
      · obtain ⟨unfinished, rest⟩ := filled.partial_ (by omega)
        rw [start] at rest
        refine ih (content.drop 4096).length (by rw [List.length_drop]; omega) _
          { call' with point := .loop } _ rfl unfinished settled' empty rest ?_ rfl
        intro last call'' lastEmpty lastSettled returned
        rw [List.append_assoc, List.take_append_drop]
        exact later last call'' lastEmpty lastSettled returned

end Fill

/-- A message that stands for a header and a body, and is ready to emit them. -/
def Sendable (header body : Bytes) (msg : M) : Prop :=
  ∃ headerPending bodyPending done, Transmits body headerPending bodyPending done ∧
    headerPending header msg

def start (conn : Connection) (messages : List M) : WriteClient M where
  conn := conn
  queue := messages
  current := none
  sent := []
  reports := []

/-- What the client reports of a write that leaves nothing behind. -/
def clean : WriteReport := ⟨none, .start, true, 4096⟩

theorem writesOne {conn : Connection} {msg : M} {header body : Bytes}
    (sendable : Sendable header body msg) (idle : conn.writeState = .start)
    (settled : conn.writeBuffer.Settled) (drained : conn.writeBuffer.contents = [])
    (later : ∀ buffer : StaticBuffer 4096, buffer.contents = [] → buffer.Settled →
      Inevitably Step goal ⟨{ conn with writeBuffer := buffer, writeState := .start }, queue,
        none, sent ++ (header ++ body), reports ++ [clean]⟩) :
    Inevitably Step goal ⟨conn, msg :: queue, none, sent, reports⟩ := by
  obtain ⟨headerPending, bodyPending, done, transmits, pending⟩ := sendable
  have taken : ∀ count, step ⟨conn, msg :: queue, none, sent, reports⟩ count =
      some ⟨{ conn with writeState := .writeHeader }, queue, some ⟨msg, false, .loop⟩, sent,
        reports⟩ := by
    intro count
    simp only [step, resume, Connection.write, idle, ne_eq, not_true_eq_false, ↓reduceIte,
      List.flatMap_nil, List.append_nil]
  refine inevitably_step taken ?_
  refine writes transmits { conn with writeState := .writeHeader } ⟨msg, false, .loop⟩ sent rfl rfl
    settled drained (Or.inl ⟨rfl, header, rfl, pending⟩) ?_
  intro buffer call empty settled' returned
  have reported : (⟨none, .start, buffer.empty, buffer.writableSpan.length⟩ : WriteReport) =
      clean := by
    rw [(StaticBuffer.empty_iff buffer).mpr empty]
    simp only [StaticBuffer.writableSpan, settled' empty, Nat.sub_zero, clean]
  refine inevitably_step (fun _ => ?_) (later buffer empty settled')
  simp only [step, returned, reported]

theorem writesAll {messages : List M} {contents : List (Bytes × Bytes)}
    (sendable : List.Forall₂ (fun content msg => Sendable content.1 content.2 msg) contents messages)
    (conn : Connection) (idle : conn.writeState = .start) (settled : conn.writeBuffer.Settled)
    (drained : conn.writeBuffer.contents = []) (sent : Bytes) (reports : List WriteReport) :
    Inevitably Step (fun client => client.queue = [] ∧ client.current = none ∧
        client.sent = sent ++ contents.flatMap (fun content => content.1 ++ content.2) ∧
        client.reports = reports ++ List.replicate messages.length clean)
      ⟨conn, messages, none, sent, reports⟩ := by
  induction sendable generalizing conn sent reports with
  | nil => exact Inevitably.here ⟨rfl, rfl, by simp, by simp⟩
  | @cons content msg _ _ first _ ih =>
      refine writesOne first idle settled drained ?_
      intro buffer empty settled'
      have rest := ih { conn with writeBuffer := buffer, writeState := .start } rfl settled' empty
        (sent ++ (content.1 ++ content.2)) (reports ++ [clean])
      simpa only [List.flatMap_cons, List.length_cons, List.replicate_succ, List.append_assoc,
        List.singleton_append] using rest

end WriteClient

end CoServer
