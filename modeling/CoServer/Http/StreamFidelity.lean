import CoServer.Http.HeadOverrun
import CoServer.Http.RequestReading
import Mathlib.Data.List.Forall2

/-!
Reading a stream of requests. The calls read them all, each its own bytes, exactly
where every head is clear: a socket read ends with it or it fills the header
buffer, its target has a path, and its minor version is the one the message knows.
-/

namespace CoServer.Http

open Transition ReadClient Request

def streamOf (requests : List SentRequest) : Bytes := requests.flatMap SentRequest.bytes

/-- A call that returns the request, having taken its head and its body. -/
structure Yields (sent : SentRequest) (outcome : ReadOutcome Request) : Prop where
  success : outcome.err = none
  header : outcome.header = sent.head
  taken : outcome.body = sent.body
  method : outcome.msg.method = sent.parsed.method
  target : outcome.msg.target = sent.parsed.path
  version : outcome.msg.version = ascii "1." ++ Decimal.text sent.parsed.minorVersion
  fields : outcome.msg.fields.take outcome.msg.numHeaders = fieldsOf sent.parsed.headers
  body : outcome.msg.body = sent.body

/-- All calls have returned their requests, and no byte is left. -/
structure Faithful (requests : List SentRequest) (client : ReadClient Request) : Prop where
  asked : client.queue = []
  idle : client.current = none
  yields : List.Forall₂ Yields requests client.outcomes
  drained : client.conn.readBuffer.contents = []
  heard : client.segments = []

def Cut (segments : List Bytes) (bytes : Bytes) : Prop :=
  ∃ front back, segments = front ++ back ∧ front.flatten = bytes

theorem cut_iff_take {segments : List Bytes} {bytes : Bytes} :
    Cut segments bytes ↔ ∃ count < segments.length + 1, (segments.take count).flatten = bytes := by
  constructor
  · rintro ⟨front, back, rfl, ends⟩
    exact ⟨front.length, by rw [List.length_append]; omega, by rwa [List.take_left]⟩
  · rintro ⟨count, _, ends⟩
    exact ⟨segments.take count, segments.drop count, (List.take_append_drop _ _).symm, ends⟩

instance (segments : List Bytes) (bytes : Bytes) : Decidable (Cut segments bytes) :=
  decidable_of_iff _ cut_iff_take.symm

structure Clear (segments : List Bytes) (before : Bytes) (sent : SentRequest) : Prop where
  cut : sent.head.length = sent.headerBuffer.length ∨ Cut segments (before ++ sent.head)
  path : pathPart sent.parsed.path ≠ []
  version : sent.parsed.minorVersion ≤ 1

theorem versionText_iff (minorVersion : Nat) :
    versionText minorVersion = ascii "1." ++ Decimal.text minorVersion ↔ minorVersion ≤ 1 := by
  constructor
  · intro same
    by_cases known : minorVersion ≤ 1
    · exact known
    · rw [versionText, if_neg (by omega), ite_self] at same
      have one : Decimal.text 1 = Decimal.text minorVersion :=
        List.append_cancel_left ((rfl : ascii "1." ++ Decimal.text 1 = ascii "1.1").trans same)
      have value := congrArg Decimal.value one
      rw [Decimal.value_text, Decimal.value_text] at value
      omega
  · intro known
    obtain rfl | rfl : minorVersion = 0 ∨ minorVersion = 1 := by omega
    · rfl
    · rfl

theorem SentRequest.Shows.yields_iff {sent : SentRequest} {msg : Request}
    (shows_ : sent.Shows msg) (body : msg.body = sent.body) :
    Yields sent ⟨none, msg, sent.head, sent.body⟩ ↔ sent.parsed.minorVersion ≤ 1 := by
  rw [← versionText_iff, ← shows_.version]
  exact ⟨Yields.version, fun version =>
    ⟨rfl, rfl, rfl, shows_.method, shows_.target, version, shows_.fields, body⟩⟩

/-- The call for a request has recorded something else. -/
def Spoiled (sent : SentRequest) (index : Nat) (client : ReadClient Request) : Prop :=
  ∃ outcome, client.outcomes[index]? = some outcome ∧ ¬ Yields sent outcome

theorem Spoiled.step {sent : SentRequest} {index : Nat} {client next : ReadClient Request}
    {events : List ReadEvent} (spoiled : Spoiled sent index client)
    (taken : ReadClient.Step client events next) : Spoiled sent index next := by
  obtain ⟨outcome, recorded, wrong⟩ := spoiled
  refine ⟨outcome, ?_, wrong⟩
  rcases step_cases taken with ⟨_, _, _, _, same⟩ | ⟨_, _, _, _, _, rfl⟩ | ⟨_, _, _, _, _, _, rfl⟩
  · obtain rfl : next = _ := congrArg Prod.fst same
    exact recorded
  · rw [← recorded]
    exact List.getElem?_append_left (List.getElem?_eq_some_iff.mp recorded).1
  · exact recorded

theorem Spoiled.unfaithful {done rest : List SentRequest} {sent : SentRequest}
    {client : ReadClient Request} (spoiled : Spoiled sent done.length client) :
    ¬ Faithful (done ++ sent :: rest) client := by
  rintro ⟨_, _, yields, _, _⟩
  obtain ⟨outcome, recorded, wrong⟩ := spoiled
  obtain ⟨inside, rfl⟩ := List.getElem?_eq_some_iff.mp recorded
  have yields := (List.forall₂_iff_get.mp yields).2 done.length (by simp) inside
  simp at yields
  exact wrong yields

theorem Spoiled.never {done rest : List SentRequest} {sent : SentRequest}
    {client : ReadClient Request} (spoiled : Spoiled sent done.length client) :
    ¬ Inevitably ReadClient.Step (Faithful (done ++ sent :: rest)) client :=
  not_inevitably (Spoiled sent done.length) spoiled (fun _ _ _ => Spoiled.step)
    fun _ => Spoiled.unfaithful

theorem Overrun.never {done rest : List SentRequest} {sent : SentRequest}
    {client : ReadClient Request} {call : ReadCall Request}
    (count : client.outcomes.length = done.length) (current : client.current = some call)
    (overrun : Overrun sent.head.length client.header client.conn call) :
    ¬ Inevitably ReadClient.Step (Faithful (done ++ sent :: rest)) client := by
  refine not_inevitably (fun client => (client.outcomes.length = done.length ∧ ∃ call,
      client.current = some call ∧ Overrun sent.head.length client.header client.conn call) ∨
      Spoiled sent done.length client) (Or.inl ⟨count, call, current, overrun⟩) ?_ ?_
  · rintro client events next (⟨count, call, current, overrun⟩ | spoiled) taken
    · rcases step_cases taken with ⟨idle, _⟩ | ⟨call', err, current', returned, _, rfl⟩ |
        ⟨call', conn', call'', segments', current', move, rfl⟩
      · cases idle.symm.trans current
      · cases current.symm.trans current'
        refine Or.inr ⟨_, by rw [← count, List.getElem?_concat_length], ?_⟩
        rintro ⟨success, header, _⟩
        cases overrun with
        | refused failed => simp [returned, show err = none from success] at failed
        | heading _ _ _ _ _ open_ => exact open_ _ returned
        | beyond _ above =>
            rw [show client.header = sent.head from header] at above
            exact Nat.lt_irrefl _ above
      · cases current.symm.trans current'
        exact Or.inl ⟨count, call'', rfl, overrun.move move⟩
    · exact Or.inr (spoiled.step taken)
  · rintro client (⟨_, _, current, _⟩ | spoiled)
    · rintro ⟨_, idle, _⟩
      cases idle.symm.trans current
    · exact spoiled.unfaithful

theorem Faithful.stopped {requests : List SentRequest} {client next : ReadClient Request}
    {events : List ReadEvent} (faithful : Faithful requests client) :
    ¬ ReadClient.Step client events next := by
  intro taken
  rcases step_cases taken with ⟨_, _, _, queue, _⟩ | ⟨_, _, current, _⟩ | ⟨_, _, _, _, current, _⟩
  · cases faithful.asked.symm.trans queue
  · cases faithful.idle.symm.trans current
  · cases faithful.idle.symm.trans current

section

variable {all segments : List Bytes} {done rest : List SentRequest} {sent : SentRequest}
  {conn : Connection} {queue : List Request} {outcomes : List (ReadOutcome Request)}
  {front last extra : Bytes}

theorem undefined_never (split : sent.head = front ++ last) (some_ : last ≠ [])
    (heading : conn.readState = .readHeader) (contents : conn.readBuffer.contents = last ++ extra)
    (clear : extra = [] ∨ sent.head.length = sent.headerBuffer.length)
    (noPath : pathPart sent.parsed.path = []) :
    ¬ Inevitably ReadClient.Step (Faithful (done ++ sent :: rest))
      ⟨conn, queue, some ⟨sent.scanned front, false, .drain⟩, front, [], segments, outcomes⟩ := by
  refine not_inevitably_next (by rintro ⟨_, idle, _⟩; cases idle) ?_
  intro events next taken
  have offered : conn.readBuffer.empty = false := by
    rw [StaticBuffer.empty_eq_false_iff, contents]
    simp [some_]
  simp [ReadClient.Step, ReadClient.step, Connection.readStep, offered, heading,
    MessageLike.consumeHeaderSome, contents, sent.header_whole split some_ clear, acceptHeader,
    sent.deserialize_head.1 noPath] at taken

theorem overrun_never (split : sent.head = front ++ last) (some_ : last ≠ []) (more : extra ≠ [])
    (room : sent.head.length < sent.headerBuffer.length)
    (heading : conn.readState = .readHeader) (contents : conn.readBuffer.contents = last ++ extra)
    (count : outcomes.length = done.length) :
    ¬ Inevitably ReadClient.Step (Faithful (done ++ sent :: rest))
      ⟨conn, queue, some ⟨sent.scanned front, false, .drain⟩, front, [], segments, outcomes⟩ := by
  refine not_inevitably_next (by rintro ⟨_, idle, _⟩; cases idle) ?_
  intro events next taken
  rcases step_cases taken with ⟨idle, _⟩ | ⟨call, err, current, returned, _⟩ |
    ⟨call, conn', call', segments', current, move, rfl⟩
  · cases idle
  · cases current
    cases returned
  · cases current
    exact Overrun.never count rfl (overrun_start split some_ more room heading contents move)

end

theorem faithful_iff {all segments : List Bytes} (done requests : List SentRequest)
    (conn : Connection) {outcomes : List (ReadOutcome Request)} (header body : Bytes)
    (idle : conn.readState = .start)
    (located : Located all (streamOf done) conn.readBuffer segments)
    (yields : List.Forall₂ Yields done outcomes)
    (stream : conn.readBuffer.contents ++ segments.flatten = streamOf requests) :
    Inevitably ReadClient.Step (Faithful (done ++ requests))
        ⟨conn, requests.map SentRequest.fresh, none, header, body, segments, outcomes⟩ ↔
      ∀ before sent after, requests = before ++ sent :: after →
        Clear all (streamOf (done ++ before)) sent := by
  induction requests generalizing done conn segments outcomes header body with
  | nil =>
      obtain ⟨drained, nothing⟩ := List.append_eq_nil_iff.mp stream
      have heard : segments = [] := by
        cases segments with
        | nil => rfl
        | cons segment rest =>
            have := (located.sized segment (by simp)).1
            simp [(List.append_eq_nil_iff.mp nothing).1] at this
      rw [List.append_nil]
      refine ⟨fun _ before sent after split => by simp at split, fun _ => .here ?_⟩
      exact ⟨rfl, rfl, yields, drained, heard⟩
  | cons sent rest ih =>
      rw [streamOf, List.flatMap_cons] at stream
      obtain ⟨front, last, extra, taken', buffer, segments', split, some_, total, located', contents,
        leads⟩ := approaches (rest.map SentRequest.fresh) outcomes idle header body (streamOf rest)
          (streamOf done) located stream
      have ends : extra = [] ↔ Cut all (streamOf done ++ sent.head) := by
        rw [located'.boundary_iff contents some_, total]
        rfl
      have count := yields.length_eq.symm
      rw [forall_split_cons, List.append_nil, List.map_cons,
        leads.inevitably_iff step_deterministic fun _ _ _ => Faithful.stopped]
      by_cases clear : extra = [] ∨ sent.head.length = sent.headerBuffer.length
      · by_cases noPath : pathPart sent.parsed.path = []
        · refine iff_of_false (undefined_never split some_ rfl contents clear noPath) ?_
          exact fun both => both.1.path noPath
        · obtain ⟨buffer', segments'', msg, shows_, returned, located'', leads'⟩ :=
            finishes { conn with
                readBuffer := buffer
                readState := .readHeader }
              front last extra (streamOf done) taken' (streamOf rest) split some_ total rfl
              located' contents (located.stream.trans (congrArg _ stream)) clear noPath
          rw [leads'.inevitably_iff step_deterministic fun _ _ _ => Faithful.stopped]
          by_cases known : sent.parsed.minorVersion ≤ 1
          · have now : Clear all (streamOf done) sent := ⟨clear.symm.imp_right ends.mp, noPath, known⟩
            have split_ : done ++ sent :: rest = (done ++ [sent]) ++ rest := by simp
            have yields' := List.rel_append yields
              (List.Forall₂.cons ((shows_.yields_iff returned).mpr known) List.Forall₂.nil)
            have whole : streamOf (done ++ [sent]) = streamOf done ++ sent.bytes := by
              simp [streamOf]
            have left : buffer'.contents ++ segments''.flatten = streamOf rest := by
              have streamed := located''.stream
              rw [located.stream, stream, List.append_assoc, List.append_cancel_left_eq,
                List.append_cancel_left_eq] at streamed
              exact streamed.symm
            rw [split_, and_iff_right now]
            have later := ih (done ++ [sent])
              { conn with
                readBuffer := buffer'
                readState := .start }
              sent.head sent.body rfl (whole ▸ located'') yields' left
            simpa using later
          · refine iff_of_false (Spoiled.never ⟨⟨none, msg, sent.head, sent.body⟩, ?_, ?_⟩)
              fun both => known both.1.version
            · rw [← count, List.getElem?_concat_length]
            · exact fun right => known ((shows_.yields_iff returned).mp right)
      · rw [not_or] at clear
        refine iff_of_false (overrun_never split some_ clear.1
          (Nat.lt_of_le_of_ne sent.fits clear.2) rfl contents count) ?_
        rintro ⟨⟨cut, _, _⟩, _⟩
        rcases cut with full | cut
        · exact clear.2 full
        · exact clear.1 (ends.mpr cut)

theorem stream_faithful_iff (requests : List SentRequest) (segments : List Bytes)
    (sized : ∀ segment ∈ segments, 1 ≤ segment.length ∧ segment.length ≤ 4096)
    (stream : segments.flatten = streamOf requests) :
    Inevitably ReadClient.Step (Faithful requests)
        (ReadClient.start (requests.map SentRequest.fresh) segments) ↔
      ∀ before sent after, requests = before ++ sent :: after →
        Clear segments (streamOf before) sent :=
  faithful_iff [] requests Connection.init [] [] rfl (located_start sized) List.Forall₂.nil
    (by simpa [Connection.init] using stream)

def posted : SentRequest where
  headerBuffer := List.replicate 64 0x2e
  head := ascii "POST /a HTTP/1.1\r\nContent-Length: 5\r\n\r\n"
  body := ascii "hello"
  parsed := ⟨ascii "POST", ascii "/a", 1, [⟨some (ascii "Content-Length"), ascii "5"⟩]⟩
  used := 39
  accepted := by decide +kernel
  positive := by decide
  pairs := by decide
  ended := by decide
  once := once_of_drop (by decide +kernel)
  fits := by decide
  framed := @Framed.sized _ _ (ascii "5") (by decide) (by decide) (by decide +kernel) (by decide)
    (by decide)

def fetched : SentRequest where
  headerBuffer := List.replicate 21 0
  head := ascii "GET /b?x HTTP/1.0\r\n\r\n"
  body := []
  parsed := ⟨ascii "GET", ascii "/b?x", 0, []⟩
  used := 21
  accepted := by decide +kernel
  positive := by decide
  pairs := by decide
  ended := by decide
  once := once_of_drop (by decide +kernel)
  fits := by decide
  framed := .unframed (by decide) rfl

/-- A socket read ends with the first head; the second fills its header buffer. -/
theorem stream_faithful_iff_pipelined :
    Inevitably ReadClient.Step (Faithful [posted, fetched, fetched])
      (ReadClient.start [posted.fresh, fetched.fresh, fetched.fresh]
        [ascii "POST /a HTTP/1.1\r\nCont", ascii "ent-Length: 5\r\n\r\n", ascii "hel",
          ascii "loGET /b?x HTTP/1.0\r\n\r\nGET /b?x HTTP", ascii "/1.0\r\n\r\n"]) := by
  refine (stream_faithful_iff [posted, fetched, fetched] _ (by decide) (by decide)).mpr ?_
  simp only [forall_split_cons]
  exact ⟨⟨Or.inr (by decide), by decide, by decide⟩, ⟨Or.inl rfl, by decide, by decide⟩,
    ⟨Or.inl rfl, by decide, by decide⟩, by simp⟩

/-- The head and the body come in one segment: the call copies the head and does not
complete, so that the body is read as more of it. -/
theorem stream_unfaithful_joined :
    [ascii "POST /a HTTP/1.1\r\nContent-Length: 5\r\n\r\nhello"].flatten = streamOf [posted] ∧
      (posted.fresh.consumeHeaderSome (posted.head ++ posted.body)).map Prod.fst =
        some (none, false, 39) ∧
      ¬ Inevitably ReadClient.Step (Faithful [posted])
        (ReadClient.start [posted.fresh]
          [ascii "POST /a HTTP/1.1\r\nContent-Length: 5\r\n\r\nhello"]) := by
  refine ⟨by decide, by decide +kernel, ?_⟩
  intro inevitable
  have clear := (faithful_iff [] [posted] Connection.init [] [] rfl (located_start (by decide))
    List.Forall₂.nil (by decide)).mp inevitable [] posted [] rfl
  exact absurd clear.cut (by decide)

end CoServer.Http
