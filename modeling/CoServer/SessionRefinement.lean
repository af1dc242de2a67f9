import CoServer.ReadMoves
import CoServer.TestServer

/-!
What a session is for: requests come in one at a time, and the bytes of the answer
to each go out before the next one is read. The coroutine refines this exchange
whatever the peer and the socket do.
-/

namespace CoServer

open Http Transition

inductive ExchangeState
  | listening
  | asked (req : Request)
  | answering (rest : Bytes)
  | closed

inductive ExchangeEvent
  | requested (req : Request)
  | answered (res : Response)
  | sent (bytes : Bytes)
  | closed (err : Error)

namespace ExchangeEvent

def request : ExchangeEvent → Option Request
  | .requested req => some req
  | _ => none

def response : ExchangeEvent → Option Response
  | .answered res => some res
  | _ => none

def bytes : ExchangeEvent → Bytes
  | .sent bytes => bytes
  | _ => []

end ExchangeEvent

/-- The frame of an answer is what goes out for it. -/
inductive ExchangeStep (handlers : Handlers) (frame : Request → Response → Bytes) :
    ExchangeState → List ExchangeEvent → ExchangeState → Prop
  | ask {req} : ExchangeStep handlers frame .listening [.requested req] (.asked req)
  | answer {req res} : Answers handlers req (some res) →
      ExchangeStep handlers frame (.asked req) [.answered res] (.answering (frame req res))
  | send {bytes rest} : bytes ≠ [] →
      ExchangeStep handlers frame (.answering (bytes ++ rest)) [.sent bytes] (.answering rest)
  | finish : ExchangeStep handlers frame (.answering []) [] .listening
  | unread {code} : ExchangeStep handlers frame .listening [.closed (some code)] .closed
  | unanswered {req} : Answers handlers req none →
      ExchangeStep handlers frame (.asked req) [.closed none] .closed
  | unsent {code rest} : ExchangeStep handlers frame (.answering rest) [.closed (some code)] .closed

/-- What the peer and the handlers see of an event. -/
def SessionEvent.see : SessionEvent → List ExchangeEvent
  | .read _ => []
  | .requested req => [.requested req]
  | .answered res => [.answered res]
  | .write event => if event.sentBytes = [] then [] else [.sent event.sentBytes]
  | .ended err => [.closed err]

def Connection.Idle (conn : Connection) : Prop :=
  conn.writeState = .start ∧ conn.writeBuffer.contents = [] ∧ conn.writeBuffer.Settled

/-- Where the exchange is while the coroutine is at a point. -/
inductive Session.Follows : Session → ExchangeState → Prop
  | loop {conn headBuff} : conn.readState = .start → conn.Idle →
      Session.Follows ⟨conn, headBuff, .loop⟩ .listening
  | reading {conn headBuff call} : (call.open → ReadOwner conn call) →
      (call.point = .returned none → conn.readState = .start) → conn.Idle →
      Session.Follows ⟨conn, headBuff, .reading call⟩ .listening
  | handling {conn headBuff req} : conn.readState = .start → conn.Idle →
      Session.Follows ⟨conn, headBuff, .handling req⟩ (.asked req)
  | writing {conn headBuff call body headerPending bodyPending done rest} :
      conn.readState = .start →
      WriteClient.Transmits body headerPending bodyPending done →
      Outstanding body headerPending bodyPending rest conn call →
      Session.Follows ⟨conn, headBuff, .writing call⟩ (.answering rest)
  | ended {conn headBuff err} : Session.Follows ⟨conn, headBuff, .ended err⟩ .closed

section

variable {handlers : Handlers} {frame : Request → Response → Bytes}

theorem sends (events : List WriteEvent) (rest : Bytes) :
    Run (ExchangeStep handlers frame) (.answering (events.flatMap WriteEvent.sentBytes ++ rest))
      ((events.map SessionEvent.write).flatMap SessionEvent.see) (.answering rest) := by
  induction events with
  | nil => exact Run.refl
  | cons event events ih =>
      simp only [List.flatMap_cons, List.map_cons, SessionEvent.see, List.append_assoc]
      by_cases nothing : event.sentBytes = []
      · simpa [nothing] using ih
      · rw [if_neg nothing]
        exact (Run.single (ExchangeStep.send nothing)).trans ih

theorem unseen (events : List ReadEvent) :
    (events.map SessionEvent.read).flatMap SessionEvent.see = [] := by
  induction events with
  | nil => rfl
  | cons event events ih => simp [SessionEvent.see, ih]

namespace Session

theorem readMoved {conn conn' : Connection} {headBuff : Bytes} {call call' : ReadCall Request}
    {events : List ReadEvent} (move : ReadMove conn call conn' call' events)
    (owner : ReadOwner conn call) (idle : conn.Idle) :
    Follows ⟨conn', headBuff, .reading call'⟩ .listening := by
  obtain ⟨buffer, state⟩ := move.writes
  refine Follows.reading (move.owner owner) ?_ ?_
  · exact fun returned => (move.returned_state owner returned).mp rfl
  · rw [Connection.Idle, buffer, state]
    exact idle

theorem writeMoved {conn conn' : Connection} {headBuff rest body : Bytes}
    {call call' : WriteCall Response} {events : List WriteEvent}
    {headerPending bodyPending : Bytes → Response → Prop} {done : Response → Prop}
    (move : WriteMove conn call conn' call' events) (started : conn.readState = .start)
    (transmits : WriteClient.Transmits body headerPending bodyPending done)
    (outstanding : Outstanding body headerPending bodyPending rest conn call) :
    ∃ rest', Run (ExchangeStep handlers frame) (.answering rest)
        ((events.map SessionEvent.write).flatMap SessionEvent.see) (.answering rest') ∧
      Follows ⟨conn', headBuff, .writing call'⟩ (.answering rest') := by
  obtain ⟨rest', rfl, later⟩ := move.outstanding transmits outstanding
  exact ⟨rest', sends events rest', Follows.writing (move.reads.2.trans started) transmits later⟩

theorem follows_init (headBuff : Bytes) : (Session.init headBuff).Follows .listening :=
  Follows.loop rfl ⟨rfl, StaticBuffer.init_contents 4096, StaticBuffer.init_settled 4096⟩

theorem step_matched
    (framed : ∀ req res, Answers handlers req (some res) → Frames (frame req res) res)
    {session next : Session} {events : List SessionEvent} {state : ExchangeState}
    (follows : session.Follows state) (taken : Session.Step handlers session events next) :
    ∃ state', Run (ExchangeStep handlers frame) state (events.flatMap SessionEvent.see) state' ∧
      next.Follows state' := by
  obtain ⟨choice, taken⟩ := taken
  cases follows with
  | @loop conn headBuff started idle =>
      cases choice with
      | run =>
          have opened : conn.read (Request.ofBuffer headBuff) =
              ({ conn with readState := .readHeader }, ⟨Request.ofBuffer headBuff, false, .loop⟩, []) := by
            simp [Connection.read, started]
          simp only [step, opened, resumeRead, Option.some.injEq, Prod.mk.injEq] at taken
          obtain ⟨rfl, rfl⟩ := taken
          exact ⟨.listening, Run.refl, Follows.reading
            (fun _ => ⟨by simp, by simp, by simp⟩) (by simp) idle⟩
      | handle | reuse | receive | accept => simp [step] at taken
  | @reading conn headBuff call owner finished idle =>
      cases choice with
      | run =>
          simp only [step, afterRead] at taken
          split at taken
          · rename_i returned
            cases taken
            exact ⟨.asked call.msg, Run.single .ask, Follows.handling (finished returned) idle⟩
          · cases taken
            exact ⟨.closed, Run.single .unread, Follows.ended⟩
          · obtain ⟨after, moved, same⟩ := Option.map_eq_some_iff.mp taken
            cases same
            have move := readStep_move moved
            refine ⟨.listening, ?_, readMoved move (owner move.opened) idle⟩
            rw [unseen]
            exact Run.refl
      | receive result =>
          obtain ⟨after, moved, same⟩ := Option.map_eq_some_iff.mp taken
          cases same
          have move := completeRead_move moved
          refine ⟨.listening, ?_, readMoved move (owner move.opened) idle⟩
          rw [unseen]
          exact Run.refl
      | handle | reuse | accept => simp [step] at taken
  | @handling conn headBuff req started idle =>
      cases choice with
      | handle uninitialized =>
          obtain ⟨reply, chosen, replied⟩ := Option.map_eq_some_iff.mp taken
          have answers : Answers handlers req (reply.run uninitialized) := ⟨_, _, _, chosen, rfl⟩
          dsimp only at replied
          split at replied
          · rename_i silent
            cases replied
            exact ⟨.closed, Run.single (.unanswered (silent ▸ answers)), Follows.ended⟩
          · rename_i res answered
            rw [answered] at answers
            have answer : ExchangeStep handlers frame _ _ _ := ExchangeStep.answer answers
            obtain ⟨header, body, whole, headerPending, bodyPending, done, transmits, pending⟩ :=
              framed req res answers
            cases replied
            refine ⟨.answering (frame req res), ?_, Follows.writing ?_ transmits
              (whole ▸ outstanding_start pending idle.1 idle.2.1 idle.2.2)⟩
            · have opened : (conn.write res).2.2 = [] := by simp [Connection.write, idle.1]
              simpa [resumeWrite, opened, SessionEvent.see] using Run.single answer
            · simpa [Connection.write, idle.1] using started
      | run | reuse | receive | accept => simp [step] at taken
  | @writing conn headBuff call body headerPending bodyPending done rest started transmits outstanding =>
      cases choice with
      | run =>
          simp only [step, afterWrite] at taken
          split at taken
          · cases taken
          · cases taken
            exact ⟨.closed, Run.single .unsent, Follows.ended⟩
          · obtain ⟨after, moved, same⟩ := Option.map_eq_some_iff.mp taken
            cases same
            obtain ⟨rest', sent, later⟩ :=
              writeMoved (writeStep_move moved) started transmits outstanding
            exact ⟨.answering rest', sent, later⟩
      | accept result =>
          obtain ⟨after, moved, same⟩ := Option.map_eq_some_iff.mp taken
          cases same
          obtain ⟨rest', sent, later⟩ :=
            writeMoved (completeWrite_move moved) started transmits outstanding
          exact ⟨.answering rest', sent, later⟩
      | reuse headBuff' =>
          simp only [step] at taken
          split at taken
          · rename_i returned
            cases taken
            obtain ⟨rfl, idle⟩ := outstanding.2 returned.1
            exact ⟨.listening, Run.single .finish, Follows.loop started idle⟩
          · cases taken
      | handle | receive => simp [step] at taken
  | ended => simp [step] at taken

/-- Whatever the peer and the socket do, what a session shows is a run of the exchange. -/
theorem refines_exchange
    (framed : ∀ req res, Answers handlers req (some res) → Frames (frame req res) res)
    {headBuff : Bytes} {events : List SessionEvent} {last : Session}
    (run : Run (Session.Step handlers) (Session.init headBuff) events last) :
    ∃ state, Run (ExchangeStep handlers frame) .listening (events.flatMap SessionEvent.see) state ∧
      last.Follows state :=
  run.simulated Follows (fun _ _ _ _ => step_matched framed) (follows_init headBuff)

def cutShort : List SessionChoice :=
  [.run, .run, .receive ⟨false, ascii "GET /q HTTP/1.1\r\n\r\n"⟩, .run, .run, .run, .run,
    .handle true, .run, .run, .run, .run, .accept ⟨false, 24⟩, .run, .accept ⟨true, 10⟩, .run]

theorem cutShort_run : ∃ events last,
    Run (Session.Step TestServer.handlers) (Session.init (List.replicate 24 0)) events last ∧
      (events.flatMap SessionEvent.see).flatMap ExchangeEvent.bytes =
        ascii "HTTP/1.1 404 Not Found\r\nConnection" := by
  have checked : (exec (Session.step TestServer.handlers) (Session.init (List.replicate 24 0))
      cutShort).any (fun outcome => (outcome.2.flatMap SessionEvent.see).flatMap ExchangeEvent.bytes ==
        ascii "HTTP/1.1 404 Not Found\r\nConnection") = true := by decide +kernel
  rw [Option.any_eq_true] at checked
  obtain ⟨⟨last, events⟩, done, sent⟩ := checked
  exact ⟨events, last, exec_run done, by simpa using sent⟩

theorem refines_exchange_cut : ∃ events : List SessionEvent, ∃ last state,
    (events.flatMap SessionEvent.see).flatMap ExchangeEvent.bytes =
        ascii "HTTP/1.1 404 Not Found\r\nConnection" ∧
      Run (ExchangeStep TestServer.handlers fun req _ => TestServer.frame req) .listening
        (events.flatMap SessionEvent.see) state ∧ Follows last state := by
  obtain ⟨events, last, run, sent⟩ := cutShort_run
  obtain ⟨state, exchanged, follows⟩ := refines_exchange TestServer.answers_framed run
  exact ⟨events, last, state, sent, exchanged, follows⟩

end Session

end

/-- What has passed, exchange by exchange: a request that is not answered, and the
bytes of the last answer that are not sent. -/
structure Transcript (handlers : Handlers) (frame : Request → Response → Bytes)
    (events : List ExchangeEvent) (served : List (Request × Response)) (unanswered : Option Request)
    (unsent : Bytes) : Prop where
  requests : events.filterMap ExchangeEvent.request = served.map Prod.fst ++ unanswered.toList
  responses : events.filterMap ExchangeEvent.response = served.map Prod.snd
  answers : ∀ exchange ∈ served, Answers handlers exchange.1 (some exchange.2)
  sent : events.flatMap ExchangeEvent.bytes ++ unsent =
    served.flatMap fun exchange => frame exchange.1 exchange.2
  latest : unsent <:+ ((served.map fun exchange => frame exchange.1 exchange.2).getLast?).getD []
  waits : unanswered.isSome → unsent = []
  ended : ∀ front err back, events = front ++ .closed err :: back →
    back = [] ∧ (err = none ↔ unanswered.isSome)

/-- What a transcript leaves open in a state of the exchange. -/
def ExchangeState.Leaves : ExchangeState → List ExchangeEvent → Option Request → Bytes → Prop
  | .listening, events, request, bytes => request = none ∧ bytes = [] ∧ ∀ err, .closed err ∉ events
  | .asked req, events, request, bytes =>
      request = some req ∧ bytes = [] ∧ ∀ err, .closed err ∉ events
  | .answering rest, events, request, bytes =>
      request = none ∧ bytes = rest ∧ ∀ err, .closed err ∉ events
  | .closed, _, _, _ => True

section

variable {handlers : Handlers} {frame : Request → Response → Bytes} {events : List ExchangeEvent}
  {served : List (Request × Response)} {unanswered : Option Request} {unsent : Bytes}

theorem closed_last {front back : List ExchangeEvent} {event : ExchangeEvent} {err : Error}
    (open_ : ∀ err, .closed err ∉ events) (split : events ++ [event] = front ++ .closed err :: back) :
    back = [] ∧ event = .closed err := by
  obtain rfl | ⟨back, other, rfl⟩ := List.eq_nil_or_concat back
  · obtain ⟨_, same⟩ := List.append_inj' split rfl
    exact ⟨rfl, by simpa using same⟩
  · have longer : events ++ [event] = (front ++ .closed err :: back) ++ [other] := by simpa using split
    obtain ⟨rfl, _⟩ := List.append_inj' longer rfl
    exact (open_ err (by simp)).elim

theorem Transcript.close {err : Error} (transcript : Transcript handlers frame events served unanswered unsent)
    (open_ : ∀ err, .closed err ∉ events) (reason : err = none ↔ unanswered.isSome) :
    Transcript handlers frame (events ++ [.closed err]) served unanswered unsent where
  requests := by simpa [List.filterMap_cons, ExchangeEvent.request] using transcript.requests
  responses := by simpa [List.filterMap_cons, ExchangeEvent.response] using transcript.responses
  answers := transcript.answers
  sent := by simpa [ExchangeEvent.bytes] using transcript.sent
  latest := transcript.latest
  waits := transcript.waits
  ended := by
    intro front err back split
    obtain ⟨last, same⟩ := closed_last open_ split
    cases same
    exact ⟨last, reason⟩

theorem ExchangeStep.transcript {state next : ExchangeState} {new : List ExchangeEvent}
    (step : ExchangeStep handlers frame state new next)
    (transcript : Transcript handlers frame events served unanswered unsent)
    (leaves : state.Leaves events unanswered unsent) :
    ∃ served unanswered unsent, Transcript handlers frame (events ++ new) served unanswered unsent ∧
      next.Leaves (events ++ new) unanswered unsent := by
  cases step with
  | @ask req =>
      obtain ⟨rfl, rfl, open_⟩ := leaves
      refine ⟨served, some req, [], ⟨?_, ?_, transcript.answers, ?_, List.nil_suffix, by simp, ?_⟩,
        rfl, rfl, by simpa using open_⟩
      · simp [transcript.requests, ExchangeEvent.request]
      · simp [transcript.responses, ExchangeEvent.response]
      · simpa [ExchangeEvent.bytes] using transcript.sent
      · intro front err back split
        cases (closed_last open_ split).2
  | @answer req res answers =>
      obtain ⟨rfl, rfl, open_⟩ := leaves
      refine ⟨served ++ [⟨req, res⟩], none, frame req res, ⟨?_, ?_, ?_, ?_, by simp, by simp, ?_⟩,
        rfl, rfl, by simpa using open_⟩
      · simpa [List.filterMap_cons, ExchangeEvent.request] using transcript.requests
      · simp [transcript.responses, ExchangeEvent.response]
      · intro exchange member
        rcases List.mem_append.mp member with earlier | now
        · exact transcript.answers exchange earlier
        · obtain rfl := List.mem_singleton.mp now
          exact answers
      · have sent := transcript.sent
        rw [List.append_nil] at sent
        simp [sent, ExchangeEvent.bytes]
      · intro front err back split
        cases (closed_last open_ split).2
  | @send bytes rest some_ =>
      obtain ⟨rfl, rfl, open_⟩ := leaves
      refine ⟨served, none, rest, ⟨?_, ?_, transcript.answers, ?_, ?_, by simp, ?_⟩,
        rfl, rfl, by simpa using open_⟩
      · simpa [List.filterMap_cons, ExchangeEvent.request] using transcript.requests
      · simpa [List.filterMap_cons, ExchangeEvent.response] using transcript.responses
      · simpa [ExchangeEvent.bytes] using transcript.sent
      · exact (List.suffix_append bytes rest).trans transcript.latest
      · intro front err back split
        cases (closed_last open_ split).2
  | finish =>
      rw [List.append_nil]
      exact ⟨served, unanswered, unsent, transcript, leaves⟩
  | unread | unanswered | unsent =>
      obtain ⟨rfl, rfl, open_⟩ := leaves
      exact ⟨_, _, _, transcript.close open_ (by simp), trivial⟩

theorem exchange_transcript {state : ExchangeState} {events : List ExchangeEvent}
    (run : Run (ExchangeStep handlers frame) .listening events state) :
    ∃ served unanswered unsent, Transcript handlers frame events served unanswered unsent ∧
      state.Leaves events unanswered unsent := by
  refine run.invariant (fun events (state : ExchangeState) => ∃ served unanswered unsent,
    Transcript handlers frame events served unanswered unsent ∧
      state.Leaves events unanswered unsent) ?_ ?_
  · exact ⟨[], none, [], ⟨rfl, rfl, by simp, rfl, List.nil_suffix, by simp, by simp⟩, rfl, rfl,
      by simp⟩
  · rintro before state after next ⟨served, unanswered, unsent, transcript, leaves⟩ taken
    exact taken.transcript transcript leaves

end

/-- The requests are answered in their order and one at a time: what has been sent is
the answers in full, save a part of the last one. -/
theorem Session.transcribed {handlers : Handlers} {frame : Request → Response → Bytes}
    (framed : ∀ req res, Answers handlers req (some res) → Frames (frame req res) res)
    {headBuff : Bytes} {events : List SessionEvent} {last : Session}
    (run : Run (Session.Step handlers) (Session.init headBuff) events last) :
    ∃ served unanswered unsent,
      Transcript handlers frame (events.flatMap SessionEvent.see) served unanswered unsent := by
  obtain ⟨state, exchanged, _⟩ :=
    run.simulated Follows (fun _ _ _ _ => step_matched framed) (follows_init headBuff)
  obtain ⟨served, unanswered, unsent, transcript, _⟩ := exchange_transcript exchanged
  exact ⟨served, unanswered, unsent, transcript⟩

theorem Session.transcribed_cut : ∃ events : List SessionEvent, ∃ served unanswered unsent,
    (events.flatMap SessionEvent.see).flatMap ExchangeEvent.bytes =
        ascii "HTTP/1.1 404 Not Found\r\nConnection" ∧
      Transcript TestServer.handlers (fun req _ => TestServer.frame req)
        (events.flatMap SessionEvent.see) served unanswered unsent := by
  obtain ⟨events, last, run, sent⟩ := cutShort_run
  obtain ⟨served, unanswered, unsent, transcript⟩ := transcribed TestServer.answers_framed run
  exact ⟨events, served, unanswered, unsent, sent, transcript⟩

namespace TestServer

theorem never_silent {events : List ExchangeEvent} {state : ExchangeState}
    {frame : Request → Response → Bytes}
    (run : Run (ExchangeStep handlers frame) .listening events state) : .closed none ∉ events := by
  refine run.invariant (fun events _ => .closed none ∉ events) (by simp) ?_
  intro before state after next open_ taken
  cases taken with
  | unanswered silent => exact (answers_always _ silent).elim
  | ask | answer | send | finish | unread | unsent => simpa using open_

/-- What a session shows when it sends the pages of its requests, in their order: of the
last answer perhaps a part, and nothing for a request that is being handled. -/
def Paged (events : List ExchangeEvent) : Prop :=
  ∃ answered waiting,
    events.filterMap ExchangeEvent.request = answered ++ waiting ∧ waiting.length ≤ 1 ∧
      events.flatMap ExchangeEvent.bytes <+: answered.flatMap frame ∧
      (waiting ≠ [] → events.flatMap ExchangeEvent.bytes = answered.flatMap frame) ∧
      .closed none ∉ events

theorem exchange_paged {events : List ExchangeEvent} {state : ExchangeState}
    (run : Run (ExchangeStep handlers fun req _ => frame req) .listening events state) :
    Paged events := by
  obtain ⟨served, unanswered, unsent, transcript, _⟩ := exchange_transcript run
  have sent : events.flatMap ExchangeEvent.bytes ++ unsent = (served.map Prod.fst).flatMap frame := by
    rw [transcript.sent, List.flatMap_map]
  refine ⟨served.map Prod.fst, unanswered.toList, transcript.requests, ?_, ⟨unsent, sent⟩, ?_,
    never_silent run⟩
  · cases unanswered <;> simp
  · intro waiting
    rw [← sent, transcript.waits (by cases unanswered <;> simp_all), List.append_nil]

end TestServer

end CoServer
