import CoServer.Http.HeadAccumulation
import CoServer.Http.StreamFidelity
import CoServer.SessionRefinement

/-!
A session with a peer at its other end: the peer's stream comes in given segments
and then ends, and what the session sends is accepted in any parts. Where every
head of the stream is clear, the session answers all its requests and ends.
-/

namespace CoServer

open Http Transition

/-- Every request is answered, with what emits its frame. -/
def Serves (handlers : Handlers) (frame : Request → Bytes) : Prop :=
  ∀ req headBuff uninitialized, ∃ reply res,
    handlers.handle req.path (req, headBuff) = some reply ∧
      reply.run uninitialized = some res ∧ Frames (M := Response) (frame req) res

structure Visit where
  session : Session
  segments : List Bytes
  sent : Bytes

def SessionEvent.sentBytes : SessionEvent → Bytes
  | .write event => event.sentBytes
  | _ => []

/-- What the environment offers, with the segments that it keeps. -/
inductive Visit.Offers : List Bytes → SessionChoice → List Bytes → Prop
  | run {segments} : Visit.Offers segments .run segments
  | handle {segments uninitialized} : Visit.Offers segments (.handle uninitialized) segments
  | reuse {segments headBuff} : Visit.Offers segments (.reuse headBuff) segments
  | deliver {segment segments} :
      Visit.Offers (segment :: segments) (.receive ⟨false, segment⟩) segments
  | shut : Visit.Offers [] (.receive ⟨false, []⟩) []
  | accept {segments count} : 1 ≤ count → Visit.Offers segments (.accept ⟨false, count⟩) segments

def Visit.Step (handlers : Handlers) (visit : Visit) (events : List SessionEvent) (next : Visit) :
    Prop :=
  ∃ choice segments session, Visit.Offers visit.segments choice segments ∧
    visit.session.step handlers choice = some (session, events) ∧
    next = ⟨session, segments, visit.sent ++ events.flatMap SessionEvent.sentBytes⟩

namespace Http

open Request

theorem Request.chunkReply_sameHead {req next : Request} {ret : Int} {size : Nat} {complete : Bool}
    {count : Nat} (reply : req.chunkReply ret size = some ((none, complete, count), next)) :
    next.headerBuffer = req.headerBuffer ∧ next.path = req.path ∧ next.target = req.target := by
  rw [chunkReply] at reply
  split at reply
  · cases reply
  · split at reply
    · cases reply
      exact ⟨rfl, rfl, rfl⟩
    · split at reply
      · cases reply
      · cases reply
        exact ⟨rfl, rfl, rfl⟩

theorem Request.consumeBodySome_sameHead {req next : Request} {data : Bytes} {complete : Bool}
    {count : Nat} (reply : req.consumeBodySome data = some ((none, complete, count), next)) :
    next.headerBuffer = req.headerBuffer ∧ next.path = req.path ∧ next.target = req.target := by
  rw [consumeBodySome] at reply
  split at reply
  · rw [consumeSizedSome] at reply
    split at reply
    · cases reply
    · cases reply
      exact ⟨rfl, rfl, rfl⟩
  · split at reply
    · simp only [consumeChunkedSome] at reply
      split at reply
      · cases reply
      · split at reply
        · cases reply
        · have same := chunkReply_sameHead reply
          exact same
    · cases reply
      exact ⟨rfl, rfl, rfl⟩

def SentRequest.into (sent : SentRequest) (memory : Bytes)
    (same : sent.headerBuffer.length = memory.length) : SentRequest :=
  { sent with
    headerBuffer := memory
    fits := same ▸ sent.fits }

structure Received (sent : SentRequest) (msg : Request) : Prop where
  shows_ : sent.Shows msg
  body : msg.body = sent.body
  path : msg.path = pieces (pathPart sent.parsed.path)

/-- What an open read knows of the head of its message, and one that has returned it. -/
def Placed (headBuff : Bytes) (state : ReadState) (msg : Request) : Prop :=
  if state = .readHeader then msg.path = [] ∧ ∃ text, Kept headBuff text msg
  else msg.headerBuffer.length = headBuff.length ∧ msg.path = pieces (pathPart msg.target)

theorem placed_move {headBuff : Bytes} {conn conn' : Connection} {call call' : ReadCall Request}
    {events : List ReadEvent} (move : ReadMove conn call conn' call' events)
    (placed : Placed headBuff conn.readState call.msg)
    (fine : ∀ code, call'.point ≠ .returned (some code)) :
    Placed headBuff conn'.readState call'.msg := by
  cases move with
  | finish | request | enter | leave | headerSkipped | bodySkipped | received | ended =>
      exact placed
  | headerRefused | bodyRefused => exact (fine _ rfl).elim
  | @headerConsumed complete _ _ _ _ state reply =>
      rw [Placed, if_pos state] at placed
      obtain ⟨noPath, text, kept⟩ := placed
      obtain ⟨kept', _⟩ := kept.call reply
      obtain ⟨path, _⟩ := consumeHeaderSome_target reply
      cases complete with
      | false => simpa [Placed, state] using ⟨path.trans noPath, _, kept'⟩
      | true =>
          rw [noPath, if_pos rfl, List.nil_append] at path
          simpa [Placed] using ⟨kept'.taking.size.trans kept'.limit, path⟩
  | bodyPart _ state reply =>
      obtain ⟨buffer, path, target⟩ := Request.consumeBodySome_sameHead reply
      simpa [Placed, state, buffer, path, target] using placed
  | bodyComplete _ state reply =>
      obtain ⟨buffer, path, target⟩ := Request.consumeBodySome_sameHead reply
      simpa [Placed, state, buffer, path, target] using placed

end Http

section

variable {handlers : Handlers} {goal : Visit → Prop} {headBuff sent : Bytes} {segments : List Bytes}

theorem read_events (events : List ReadEvent) :
    (events.map SessionEvent.read).flatMap SessionEvent.sentBytes = [] := by
  induction events with
  | nil => rfl
  | cons event events ih => simp [SessionEvent.sentBytes, ih]

theorem write_events (events : List WriteEvent) :
    (events.map SessionEvent.write).flatMap SessionEvent.sentBytes =
      events.flatMap WriteEvent.sentBytes := by
  induction events with
  | nil => rfl
  | cons event events ih => simp [SessionEvent.sentBytes, ih]

theorem visit_runs {session next : Session} {events : List SessionEvent}
    (stepped : session.step handlers .run = some (next, events))
    (only : ∀ choice, choice ≠ .run → session.step handlers choice = none)
    (later : Inevitably (Visit.Step handlers) goal
      ⟨next, segments, sent ++ events.flatMap SessionEvent.sentBytes⟩) :
    Inevitably (Visit.Step handlers) goal ⟨session, segments, sent⟩ := by
  refine Inevitably.only ⟨.run, segments, next, .run, stepped, rfl⟩ ?_ later
  rintro events' _ ⟨choice, segments', session', offers, stepped', rfl⟩
  by_cases running : choice = .run
  · subst running
    cases offers
    rw [stepped] at stepped'
    cases stepped'
    rfl
  · rw [only choice running] at stepped'
    cases stepped'

theorem reading_runs {conn : Connection} {call : ReadCall Request}
    {after : Connection × ReadCall Request × List ReadEvent}
    (stepped : conn.readStep call = some after)
    (later : Inevitably (Visit.Step handlers) goal
      ⟨⟨after.1, headBuff, .reading after.2.1⟩, segments, sent⟩) :
    Inevitably (Visit.Step handlers) goal ⟨⟨conn, headBuff, .reading call⟩, segments, sent⟩ := by
  have runs : (⟨conn, headBuff, .reading call⟩ : Session).step handlers .run =
      some (⟨after.1, headBuff, .reading after.2.1⟩, after.2.2.map SessionEvent.read) := by
    simp only [Session.step, Session.afterRead]
    split
    · rename_i returned
      simp [Connection.readStep, returned] at stepped
    · rename_i returned
      simp [Connection.readStep, returned] at stepped
    · rw [stepped]
      rfl
  refine visit_runs runs ?_ (by rwa [read_events, List.append_nil])
  intro choice other
  cases choice with
  | run => exact (other rfl).elim
  | receive result =>
      cases point : call.point with
      | suspended span => simp [Connection.readStep, point] at stepped
      | loop | drain | body | returned => simp [Session.step, Connection.completeRead, point]
  | handle | reuse | accept => rfl

theorem reading_receives {conn : Connection} {call : ReadCall Request} {span : Span}
    {segments' : List Bytes} {bytes : Bytes}
    {after : Connection × ReadCall Request × List ReadEvent}
    (point : call.point = .suspended span)
    (offered : Visit.Offers segments (.receive ⟨false, bytes⟩) segments')
    (stepped : conn.completeRead call ⟨false, bytes⟩ = some after)
    (later : Inevitably (Visit.Step handlers) goal
      ⟨⟨after.1, headBuff, .reading after.2.1⟩, segments', sent⟩) :
    Inevitably (Visit.Step handlers) goal ⟨⟨conn, headBuff, .reading call⟩, segments, sent⟩ := by
  have received : (⟨conn, headBuff, .reading call⟩ : Session).step handlers (.receive ⟨false, bytes⟩) =
      some (⟨after.1, headBuff, .reading after.2.1⟩, after.2.2.map SessionEvent.read) := by
    simp only [Session.step, stepped, Option.map_some]
    rfl
  refine Inevitably.only ⟨_, _, _, offered, received, rfl⟩ ?_
    (by rwa [read_events, List.append_nil])
  rintro events' _ ⟨choice, _, session', offers, stepped', rfl⟩
  cases choice with
  | receive result =>
      cases offered <;> cases offers <;> (rw [received] at stepped'; cases stepped'; rfl)
  | run => simp [Session.step, Session.afterRead, point, Connection.readStep] at stepped'
  | handle | reuse | accept => cases stepped'

/-- The client of a single read and the session that makes the same read, until it
fails. -/
inductive Reads (sent headBuff : Bytes) : ReadClient Request → Visit → Prop
  | loop {conn header body segments} : conn.readState = .start →
      Reads sent headBuff ⟨conn, [Request.ofBuffer headBuff], none, header, body, segments, []⟩
        ⟨⟨conn, headBuff, .loop⟩, segments, sent⟩
  | reading {conn call header body segments} : (∀ code, call.point ≠ .returned (some code)) →
      Placed headBuff conn.readState call.msg →
      Reads sent headBuff ⟨conn, [], some call, header, body, segments, []⟩
        ⟨⟨conn, headBuff, .reading call⟩, segments, sent⟩
  | returned {conn call header body header' body' segments} : call.point = .returned none →
      Placed headBuff conn.readState call.msg →
      Reads sent headBuff
        ⟨conn, [], none, header, body, segments, [⟨none, call.msg, header', body'⟩]⟩
        ⟨⟨conn, headBuff, .reading call⟩, segments, sent⟩
  | refused {conn call code header body segments visit} : call.point = .returned (some code) →
      Reads sent headBuff ⟨conn, [], some call, header, body, segments, []⟩ visit
  | failed {conn outcome header body segments visit} : outcome.err ≠ none →
      Reads sent headBuff ⟨conn, [], none, header, body, segments, [outcome]⟩ visit

theorem reads_moved {conn conn' : Connection} {call call' : ReadCall Request} {header body : Bytes}
    {events : List ReadEvent} (move : ReadMove conn call conn' call' events)
    (placed : Placed headBuff conn.readState call.msg) :
    Reads sent headBuff ⟨conn', [], some call', header, body, segments, []⟩
      ⟨⟨conn', headBuff, .reading call'⟩, segments, sent⟩ := by
  by_cases failed : ∃ code, call'.point = .returned (some code)
  · obtain ⟨code, point⟩ := failed
    exact Reads.refused point
  · have fine : ∀ code, call'.point ≠ .returned (some code) := fun code point => failed ⟨code, point⟩
    exact Reads.reading fine (placed_move move placed fine)

theorem reads_step {client next : ReadClient Request} {events : List ReadEvent}
    {visit : Visit} (reads : Reads sent headBuff client visit)
    (taken : ReadClient.Step client events next) :
    Inevitably (Visit.Step handlers) (Reads sent headBuff next) visit := by
  cases reads with
  | @loop conn header body segments started =>
      have opened : conn.read (Request.ofBuffer headBuff) =
          ({ conn with readState := .readHeader }, ⟨Request.ofBuffer headBuff, false, .loop⟩, []) := by
        simp [Connection.read, started]
      simp only [ReadClient.Step, ReadClient.step, opened, ReadClient.resume, Option.some.injEq,
        Prod.mk.injEq] at taken
      obtain ⟨rfl, rfl⟩ := taken
      have begins : (⟨conn, headBuff, .loop⟩ : Session).step handlers .run =
          some (⟨{ conn with readState := .readHeader }, headBuff,
            .reading ⟨Request.ofBuffer headBuff, false, .loop⟩⟩, []) := by
        simp [Session.step, opened, Session.resumeRead]
      refine visit_runs begins ?_ ?_
      · intro choice other
        cases choice <;> first | rfl | exact (other rfl).elim
      · simp only [List.flatMap_nil, List.append_nil]
        refine Inevitably.here (Reads.reading ?_ ?_)
        · simp
        · simpa [Placed] using ⟨rfl, [], Request.kept_start headBuff⟩
  | @reading conn call header body segments fine placed =>
      cases point : call.point with
      | returned err =>
          cases err with
          | some code => exact (fine code point).elim
          | none =>
              simp only [ReadClient.Step, ReadClient.step, point, Option.some.injEq,
                Prod.mk.injEq] at taken
              obtain ⟨rfl, rfl⟩ := taken
              exact Inevitably.here (Reads.returned point placed)
      | suspended span =>
          cases segments with
          | nil => simp [ReadClient.Step, ReadClient.step, point] at taken
          | cons segment rest =>
              simp only [ReadClient.Step, ReadClient.step, point] at taken
              obtain ⟨after, completed, same⟩ := Option.map_eq_some_iff.mp taken
              cases same
              exact reading_receives point .deliver completed
                (Inevitably.here (reads_moved (completeRead_move completed) placed))
      | loop | drain | body =>
          simp only [ReadClient.Step, ReadClient.step, point] at taken
          obtain ⟨after, stepped, same⟩ := Option.map_eq_some_iff.mp taken
          cases same
          exact reading_runs stepped (Inevitably.here (reads_moved (readStep_move stepped) placed))
  | returned | failed => cases taken
  | @refused conn call code header body segments _ returned =>
      simp only [ReadClient.Step, ReadClient.step, returned, Option.some.injEq, Prod.mk.injEq] at taken
      obtain ⟨rfl, rfl⟩ := taken
      exact Inevitably.here (Reads.failed (by simp))

/-- The client of a single write and the session that makes the same write. -/
inductive Writes (headBuff : Bytes) (segments : List Bytes) : WriteClient Response → Visit → Prop
  | writing {conn call sent} : Writes headBuff segments ⟨conn, [], some call, sent, []⟩
      ⟨⟨conn, headBuff, .writing call⟩, segments, sent⟩

theorem writes_forward {conn : Connection} {call : WriteCall Response} (open_ : call.open)
    (possible : ∃ events next, WriteClient.Step ⟨conn, [], some call, sent, []⟩ events next) :
    ∃ events next, Visit.Step handlers ⟨⟨conn, headBuff, .writing call⟩, segments, sent⟩ events next := by
  obtain ⟨_, next, count, _, taken⟩ := possible
  cases point : call.point with
  | returned err => exact (open_ err point).elim
  | suspended span =>
      simp only [WriteClient.step, point] at taken
      split at taken
      · rename_i accepted
        obtain ⟨after, completed, _⟩ := Option.map_eq_some_iff.mp taken
        have accepts : (⟨conn, headBuff, .writing call⟩ : Session).step handlers
            (.accept ⟨false, count⟩) =
            some ((⟨conn, headBuff, .writing call⟩ : Session).resumeWrite after) := by
          simp only [Session.step, completed, Option.map_some]
        exact ⟨_, _, _, _, _, .accept accepted.1, accepts, rfl⟩
      · cases taken
  | loop | fill | fillBody | flush =>
      simp only [WriteClient.step, point] at taken
      obtain ⟨after, stepped, _⟩ := Option.map_eq_some_iff.mp taken
      have runs : (⟨conn, headBuff, .writing call⟩ : Session).step handlers .run =
          some ((⟨conn, headBuff, .writing call⟩ : Session).resumeWrite after) := by
        simp only [Session.step, Session.afterWrite, point, stepped, Option.map_some]
      exact ⟨_, _, _, _, _, .run, runs, rfl⟩

theorem writes_back {conn : Connection} {call : WriteCall Response} (open_ : call.open)
    {events : List SessionEvent} {next : Visit}
    (taken : Visit.Step handlers ⟨⟨conn, headBuff, .writing call⟩, segments, sent⟩ events next) :
    ∃ events' client, WriteClient.Step ⟨conn, [], some call, sent, []⟩ events' client ∧
      Writes headBuff segments client next := by
  obtain ⟨choice, segments', session, offers, stepped, rfl⟩ := taken
  have resumed : ∀ after : Connection × WriteCall Response × List WriteEvent,
      (⟨conn, headBuff, .writing call⟩ : Session).resumeWrite after = (session, events) →
        Writes headBuff segments
          ((⟨conn, [], some call, sent, []⟩ : WriteClient Response).resume after)
          ⟨session, segments, sent ++ events.flatMap SessionEvent.sentBytes⟩ := by
    rintro ⟨conn', call', events'⟩ same
    cases same
    rw [write_events]
    exact Writes.writing
  cases choice with
  | run =>
      cases offers
      cases point : call.point with
      | returned err => exact (open_ err point).elim
      | suspended span => simp [Session.step, Session.afterWrite, point, Connection.writeStep] at stepped
      | loop | fill | fillBody | flush =>
          simp only [Session.step, Session.afterWrite, point] at stepped
          obtain ⟨after, moved, same⟩ := Option.map_eq_some_iff.mp stepped
          refine ⟨_, _, ⟨0, rfl, ?_⟩, resumed after same⟩
          simp only [WriteClient.step, point, moved, Option.map_some]
  | accept result =>
      cases offers with
      | @accept _ count positive =>
          obtain ⟨after, moved, same⟩ := Option.map_eq_some_iff.mp stepped
          refine ⟨_, _, ⟨count, rfl, ?_⟩, resumed after same⟩
          cases point : call.point with
          | suspended span =>
              have within : count ≤ span.length := by
                simp only [Connection.completeWrite, point] at moved
                by_contra beyond
                simp [beyond] at moved
              simp only [WriteClient.step, point, positive, within, and_self, ↓reduceIte, moved,
                Option.map_some]
          | loop | fill | fillBody | flush | returned => simp [Connection.completeWrite, point] at moved
  | reuse memory =>
      simp only [Session.step] at stepped
      split at stepped
      · rename_i returned
        exact (open_ none returned.1).elim
      · cases stepped
  | handle | receive => cases stepped

theorem visit_writes {conn : Connection} {res : Response} {frame : Bytes} (frames : Frames frame res)
    (idle : conn.Idle)
    (later : ∀ buffer : StaticBuffer 4096, ∀ call : WriteCall Response, buffer.contents = [] →
      buffer.Settled → call.point = .returned none → Inevitably (Visit.Step handlers) goal
        ⟨⟨{ conn with writeBuffer := buffer, writeState := .start }, headBuff, .writing call⟩,
          segments, sent ++ frame⟩) :
    Inevitably (Visit.Step handlers) goal
      ⟨⟨{ conn with writeState := .writeHeader }, headBuff, .writing ⟨res, false, .loop⟩⟩, segments,
        sent⟩ := by
  obtain ⟨header, body, rfl, headerPending, bodyPending, done, transmits, pending⟩ := frames
  let finished (client : WriteClient Response) : Prop := ∃ buffer : StaticBuffer 4096,
    ∃ call : WriteCall Response, buffer.contents = [] ∧ buffer.Settled ∧ call.point = .returned none ∧
      client = ⟨{ conn with writeBuffer := buffer, writeState := .start }, [], some call,
        sent ++ (header ++ body), []⟩
  have written : Inevitably WriteClient.Step finished ⟨{ conn with writeState := .writeHeader }, [],
      some ⟨res, false, .loop⟩, sent, []⟩ := by
    refine WriteClient.writes transmits _ _ sent rfl rfl idle.2.2 idle.2.1
      (Or.inl ⟨rfl, header, rfl, pending⟩) ?_
    intro buffer call empty settled returned
    exact Inevitably.here ⟨buffer, call, empty, settled, returned, rfl⟩
  -- a call that has returned is at the goal, since the client stops at the next step
  have open_ : ∀ {conn : Connection} {call : WriteCall Response} {sent : Bytes},
      Inevitably WriteClient.Step finished ⟨conn, [], some call, sent, []⟩ →
        ¬ finished ⟨conn, [], some call, sent, []⟩ → call.open := by
    intro conn' call' sent' inevitable unmet err returned
    cases inevitable with
    | here met => exact unmet met
    | next _ later =>
        have reported := later [0] _ ⟨0, rfl, by simp only [WriteClient.step, returned]; rfl⟩
        cases reported with
        | here met =>
            obtain ⟨_, _, _, _, _, same⟩ := met
            cases same
        | next possible _ =>
            obtain ⟨_, _, count, _, taken⟩ := possible
            cases taken
  have start : Writes headBuff segments ⟨{ conn with writeState := .writeHeader }, [],
      some ⟨res, false, .loop⟩, sent, []⟩ _ := Writes.writing
  refine (written.simulated ?_ ?_ start).bind ?_
  · rintro client visit writes inevitable unmet
    cases writes
    cases inevitable with
    | here met => exact (unmet met).elim
    | next possible rest =>
        exact writes_forward (open_ (Inevitably.next possible rest) unmet) possible
  · rintro client visit events next writes inevitable unmet taken
    cases writes
    exact writes_back (open_ inevitable unmet) taken
  · rintro visit ⟨client, ⟨buffer, call, empty, settled, returned, rfl⟩, writes⟩
    cases writes
    exact later buffer call empty settled returned

theorem visit_answers {frame : Request → Bytes} (serves : Serves handlers frame) {conn : Connection}
    {call : ReadCall Request} (returned : call.point = .returned none) (idle : conn.Idle)
    (later : ∀ buffer : StaticBuffer 4096, ∀ memory : Bytes, buffer.contents = [] → buffer.Settled →
      memory.length = call.msg.headerBuffer.length → Inevitably (Visit.Step handlers) goal
        ⟨⟨{ conn with writeBuffer := buffer, writeState := .start }, memory, .loop⟩, segments,
          sent ++ frame call.msg⟩) :
    Inevitably (Visit.Step handlers) goal ⟨⟨conn, headBuff, .reading call⟩, segments, sent⟩ := by
  have runs : (⟨conn, headBuff, .reading call⟩ : Session).step handlers .run =
      some (⟨conn, call.msg.headerBuffer, .handling call.msg⟩, [.requested call.msg]) := by
    simp only [Session.step, Session.afterRead, returned]
  refine visit_runs runs ?_ ?_
  · intro choice other
    cases choice with
    | run => exact (other rfl).elim
    | receive result => simp [Session.step, Connection.completeRead, returned]
    | handle | reuse | accept => rfl
  simp only [List.flatMap_cons, List.flatMap_nil, SessionEvent.sentBytes, List.append_nil]
  have opened : ∀ res : Response, conn.write res =
      ({ conn with writeState := .writeHeader }, ⟨res, false, .loop⟩, []) := by
    simp [Connection.write, idle.1]
  have answers : ∀ uninitialized, ∃ res, Frames (M := Response) (frame call.msg) res ∧
      (⟨conn, call.msg.headerBuffer, .handling call.msg⟩ : Session).step handlers
        (.handle uninitialized) =
        some (⟨{ conn with writeState := .writeHeader }, call.msg.headerBuffer,
          .writing ⟨res, false, .loop⟩⟩, [.answered res]) := by
    intro uninitialized
    obtain ⟨reply, res, chosen, answered, frames⟩ := serves call.msg call.msg.headerBuffer uninitialized
    refine ⟨res, frames, ?_⟩
    simp only [Session.step, Session.afterHandle, chosen, Option.map_some, answered, opened,
      Session.resumeWrite, List.map_nil]
  obtain ⟨_, _, possible⟩ := answers true
  refine Inevitably.next ⟨_, _, _, _, _, .handle, possible, rfl⟩ ?_
  rintro events _ ⟨choice, segments', session, offers, stepped, rfl⟩
  cases choice with
  | handle uninitialized =>
      cases offers
      obtain ⟨res, frames, handled⟩ := answers uninitialized
      rw [handled] at stepped
      cases stepped
      simp only [List.flatMap_cons, List.flatMap_nil, SessionEvent.sentBytes, List.append_nil]
      refine visit_writes frames idle ?_
      intro buffer call' empty settled returned'
      have reuses : ∀ memory : Bytes, memory.length = call.msg.headerBuffer.length →
          (⟨{ conn with writeBuffer := buffer, writeState := .start }, call.msg.headerBuffer,
            .writing call'⟩ : Session).step handlers (.reuse memory) =
          some (⟨{ conn with writeBuffer := buffer, writeState := .start }, memory, .loop⟩, []) := by
        intro memory same
        simp only [Session.step, returned', same, and_self, ↓reduceIte]
      refine Inevitably.next ⟨_, _, _, _, _, .reuse, reuses call.msg.headerBuffer rfl, rfl⟩ ?_
      rintro events _ ⟨choice, segments', session, offers, stepped, rfl⟩
      cases choice with
      | reuse memory =>
          cases offers
          by_cases same : memory.length = call.msg.headerBuffer.length
          · rw [reuses memory same] at stepped
            cases stepped
            simpa using later buffer memory empty settled same
          · simp [Session.step, same] at stepped
      | run => simp [Session.step, Session.afterWrite, returned'] at stepped
      | accept result => simp [Session.step, Connection.completeWrite, returned'] at stepped
      | handle | receive => cases stepped
  | run | reuse | receive | accept => cases stepped

theorem visit_ends {conn : Connection} (started : conn.readState = .start)
    (drained : conn.readBuffer.contents = [])
    (later : ∀ conn, goal ⟨⟨conn, headBuff, .ended (some .connectionEnded)⟩, [], sent⟩) :
    Inevitably (Visit.Step handlers) goal ⟨⟨conn, headBuff, .loop⟩, [], sent⟩ := by
  have begins : (⟨conn, headBuff, .loop⟩ : Session).step handlers .run =
      some (⟨{ conn with readState := .readHeader }, headBuff,
        .reading ⟨Request.ofBuffer headBuff, false, .loop⟩⟩, []) := by
    simp [Session.step, Connection.read, started, Session.resumeRead]
  refine visit_runs begins ?_ ?_
  · intro choice other
    cases choice <;> first | rfl | exact (other rfl).elim
  have requests : ({ conn with readState := .readHeader } : Connection).readStep
      (⟨Request.ofBuffer headBuff, false, .loop⟩ : ReadCall Request) =
      some ({ conn with readState := .readHeader },
        ⟨Request.ofBuffer headBuff, false, .suspended conn.readBuffer.writableSpan⟩,
        [.requested conn.readBuffer.writableSpan]) := by
    simp [Connection.readStep, (StaticBuffer.empty_iff _).mpr drained]
  refine reading_runs requests ?_
  refine reading_receives rfl .shut rfl ?_
  refine visit_runs (show _ = some ((⟨_, headBuff, .ended (some .connectionEnded)⟩ : Session), _)
    from rfl) ?_ ?_
  · intro choice other
    cases choice with
    | run => exact (other rfl).elim
    | receive result => rfl
    | handle | reuse | accept => rfl
  · simp only [List.flatMap_cons, List.flatMap_nil, SessionEvent.sentBytes, List.append_nil]
    exact Inevitably.here (later _)

/-- All requests of the stream have been answered, and the session has seen its end. -/
def Attended (frame : Request → Bytes) (requests : List SentRequest) (sent : Bytes) (visit : Visit) :
    Prop :=
  ∃ msgs, List.Forall₂ Received requests msgs ∧ visit.sent = sent ++ msgs.flatMap frame ∧
    visit.session.point = .ended (some .connectionEnded)

theorem visit_stream {frame : Request → Bytes} (serves : Serves handlers frame) {all : List Bytes}
    (done requests : List SentRequest) (conn : Connection) (headBuff : Bytes) {segments : List Bytes}
    (sent : Bytes) (started : conn.readState = .start) (idle : conn.Idle)
    (located : ReadClient.Located all (streamOf done) conn.readBuffer segments)
    (stream : conn.readBuffer.contents ++ segments.flatten = streamOf requests)
    (sized : ∀ request ∈ requests, request.headerBuffer.length = headBuff.length)
    (clear : ∀ before request after, requests = before ++ request :: after →
      Clear all (streamOf (done ++ before)) request) :
    Inevitably (Visit.Step handlers) (Attended frame requests sent)
      ⟨⟨conn, headBuff, .loop⟩, segments, sent⟩ := by
  induction requests generalizing done conn headBuff segments sent with
  | nil =>
      obtain ⟨drained, nothing⟩ := List.append_eq_nil_iff.mp stream
      have heard : segments = [] := by
        cases segments with
        | nil => rfl
        | cons segment rest =>
            have := (located.sized segment (by simp)).1
            simp [(List.append_eq_nil_iff.mp nothing).1] at this
      subst heard
      exact visit_ends started drained fun _ => ⟨[], .nil, by simp, rfl⟩
  | cons request rest ih =>
      have same := sized request List.mem_cons_self
      have now := clear [] request rest rfl
      rw [List.append_nil] at now
      rw [streamOf, List.flatMap_cons] at stream
      obtain ⟨front, last, extra, taken', buffer, segments', split, some_, total, located', contents,
        leads⟩ := @approaches _ _ _ (request.into headBuff same) [] [] started [] [] (streamOf rest)
          (streamOf done) located stream
      have clear_ : extra = [] ∨ request.head.length = headBuff.length := by
        rcases now.cut with full | cut
        · exact Or.inr (full.trans same)
        · refine Or.inl ((located'.boundary_iff contents some_).mpr ?_)
          rw [total]
          exact cut
      obtain ⟨buffer', segments'', msg, shows_, body, located'', leads'⟩ :=
        finishes { conn with
            readBuffer := buffer
            readState := .readHeader }
          front last extra (streamOf done) taken' (streamOf rest) split some_ total rfl located' contents
          (located.stream.trans (congrArg _ stream)) clear_ now.path
      have read : Reads sent headBuff ⟨conn, [(request.into headBuff same).fresh], none, [], [],
          segments, []⟩ ⟨⟨conn, headBuff, .loop⟩, segments, sent⟩ := Reads.loop started
      refine ((leads.trans leads').followed (fun _ _ _ _ reads taken => reads_step reads taken)
        read).bind ?_
      rintro visit reads
      cases reads with
      | failed wrong => exact (wrong rfl).elim
      | @returned _ call _ _ _ _ _ returned placed =>
          rw [Placed, if_neg (by simp)] at placed
          refine visit_answers serves returned idle ?_
          intro buffer'' memory empty settled length
          have streamed := located''.stream
          rw [located.stream, stream] at streamed
          have whole : streamOf (done ++ [request]) = streamOf done ++ request.bytes := by
            simp [streamOf]
          have left : buffer'.contents ++ segments''.flatten = streamOf rest := by
            rw [List.append_assoc, List.append_cancel_left_eq] at streamed
            exact (List.append_cancel_left streamed).symm
          have later := ih (done ++ [request])
            { conn with
              readBuffer := buffer'
              writeBuffer := buffer''
              readState := .start
              writeState := .start }
            memory (sent ++ frame call.msg) rfl ⟨rfl, empty, settled⟩ (whole ▸ located'') left
            (fun other member =>
              (sized other (List.mem_cons_of_mem request member)).trans (length.trans placed.1).symm)
            (by
              rintro before other after rfl
              simpa using clear (request :: before) other after rfl)
          refine later.bind ?_
          rintro last ⟨msgs, received, answered, ended⟩
          refine Inevitably.here ⟨call.msg :: msgs, .cons ⟨?_, body, ?_⟩ received, ?_, ended⟩
          · exact ⟨shows_.method, shows_.target, shows_.version, shows_.fields⟩
          · rw [placed.2, shows_.target]
            rfl
          · rw [answered, List.flatMap_cons, List.append_assoc]

end

theorem TestServer.serves : Serves handlers frame := by
  intro req headBuff uninitialized
  exact ⟨_, _, handles _ _, rfl, handler_frames _ req headBuff uninitialized⟩

/-- However the stream is cut and its answers are accepted, a session answers every
request of a stream of clear heads, in order, and then ends with the stream. -/
theorem Session.attends {handlers : Handlers} {frame : Request → Bytes} (serves : Serves handlers frame)
    (requests : List SentRequest) (headBuff : Bytes) (segments : List Bytes)
    (sized : ∀ segment ∈ segments, 1 ≤ segment.length ∧ segment.length ≤ 4096)
    (stream : segments.flatten = streamOf requests)
    (memory : ∀ request ∈ requests, request.headerBuffer.length = headBuff.length)
    (clear : ∀ before request after, requests = before ++ request :: after →
      Clear segments (streamOf before) request) :
    Inevitably (Visit.Step handlers) (Attended frame requests [])
      ⟨Session.init headBuff, segments, []⟩ :=
  visit_stream serves [] requests Connection.init headBuff [] rfl
    ⟨rfl, StaticBuffer.init_contents 4096, StaticBuffer.init_settled 4096⟩
    (ReadClient.located_start sized) (by simpa [Connection.init] using stream) memory clear

theorem Session.attends_posted : Inevitably (Visit.Step TestServer.handlers)
    (Attended TestServer.frame [posted, posted] [])
    ⟨Session.init (List.replicate 64 0),
      [ascii "POST /a HTTP/1.1\r\nContent-Length: 5\r\n\r\n", ascii "helloPOST /a HT",
        ascii "TP/1.1\r\nContent-Length: 5\r\n\r\n", ascii "hel", ascii "lo"], []⟩ := by
  refine attends TestServer.serves [posted, posted] _ _ (by decide) (by decide +kernel) (by decide) ?_
  simp only [forall_split_cons]
  exact ⟨⟨Or.inr (by decide), by decide, by decide⟩, ⟨Or.inr (by decide), by decide, by decide⟩,
    by simp⟩

end CoServer
