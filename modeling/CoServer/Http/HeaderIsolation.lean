import CoServer.Http.HeadViews

/-!
Two requests over header buffers that still hold what was in them before. As long as
no call follows one that was refused because the header buffer was full, the same
calls have the same replies, and nothing that was there before gets into a request.
-/

namespace CoServer.Http.Request

def calls : List Bytes → Request → Option (List Reply × Request)
  | [], req => some ([], req)
  | data :: rest, req =>
      (req.consumeHeaderSome data).bind fun after =>
        (calls rest after.2).map fun later => (after.1 :: later.1, later.2)

/-- The header buffer gets full before the head ends. -/
def Refused (req : Request) (data : Bytes) : Prop :=
  (req.scanData data).2 = req.maxHeaderSize - req.headerBufferIdx ∧ (req.scanData data).1.numFound ≠ 4

instance (req : Request) (data : Bytes) : Decidable (req.Refused data) :=
  inferInstanceAs (Decidable (_ ∧ _))

/-- No call follows one that is refused. -/
def Continues : List Bytes → Request → Prop
  | [], _ => True
  | data :: rest, req => (rest ≠ [] → ¬ req.Refused data) ∧
      ∀ reply next, req.consumeHeaderSome data = some (reply, next) → Continues rest next

theorem consumeHeaderSome_refused {req : Request} {data : Bytes} (refused : req.Refused data) :
    req.consumeHeaderSome data = some ((some .invalidMessage, true, 0), (req.scanData data).1) := by
  obtain ⟨full, open_⟩ := refused
  simp only [consumeHeaderSome, open_, decide_false, and_true, full, ↓reduceIte]

theorem consumeHeaderSome_open {req : Request} {data : Bytes} (goesOn : ¬ req.Refused data)
    (open_ : (req.scanData data).1.numFound ≠ 4) :
    req.consumeHeaderSome data = some ((none, false, (req.scanData data).2), req.fill data) := by
  have room : (req.scanData data).2 ≠ req.maxHeaderSize - req.headerBufferIdx :=
    fun full => goesOn ⟨full, open_⟩
  simp only [consumeHeaderSome, open_, decide_false, room, false_and, Bool.false_eq_true, ↓reduceIte, fill]

/-- Two requests that have taken the same text, and differ only in the rest of their
header buffers and in what a rejected head has left. -/
structure Alike (text : Bytes) (req req' : Request) : Prop where
  taking : Taking text req
  taking' : Taking text req'
  same : req' = { req with headerBuffer := req'.headerBuffer, numHeaders := req'.numHeaders }

variable {text : Bytes} {req req' : Request}

theorem Alike.symm (alike : Alike text req req') : Alike text req' req := by
  obtain ⟨taking, taking', same⟩ := alike
  refine ⟨taking', taking, ?_⟩
  rw [same]

theorem Alike.head (alike : Alike text req req') (empty_ : EmptyLine text) {head : RequestHead}
    {rest : Bytes} (split : req.headerBuffer = head.text ++ rest) :
    ∃ rest', req'.headerBuffer = head.text ++ rest' := by
  obtain ⟨more, shape, _⟩ := alike.taking.head empty_ split
  refine ⟨more ++ req'.headerBuffer.drop text.length, ?_⟩
  rw [← List.append_assoc, ← shape]
  conv_lhs => rw [← List.take_append_drop text.length req'.headerBuffer, alike.taking'.stored]

theorem Alike.deserialize (alike : Alike text req req') (empty_ : EmptyLine text) :
    (req.deserialize = none ∧ req'.deserialize = none) ∨
      ∃ success next next', req.deserialize = some (success, next) ∧
        req'.deserialize = some (success, next') ∧ Alike text next next' ∧
        (success = true → next'.numHeaders = next.numHeaders) := by
  have taking := alike.taking
  have taking' := alike.taking'
  obtain ⟨buffer', count', rfl⟩ : ∃ buffer count,
      req' = { req with headerBuffer := buffer, numHeaders := count } := ⟨_, _, alike.same⟩
  have ends : ∀ {success : Bool} {next next' : Request}, req.deserialize = some (success, next) →
      ({ req with headerBuffer := buffer', numHeaders := count' } : Request).deserialize =
        some (success, next') →
      next' = { next with headerBuffer := next'.headerBuffer, numHeaders := next'.numHeaders } →
      Alike text next next' := fun read read' same =>
    ⟨taking.deserialized read, taking'.deserialized read', same⟩
  by_cases accepted : ∃ (head : RequestHead) (rest : Bytes), head.lines.length ≤ maxNumHeaders ∧
      req.headerBuffer = head.text ++ rest
  · obtain ⟨head, rest, few, split⟩ := accepted
    obtain ⟨rest', split'⟩ := alike.head empty_ split
    have accepts := phrParseRequest_head few split
    have accepts' := phrParseRequest_head few split'
    by_cases rejected : toInt head.text.length ≤ 0
    · have read := deserialize_rejects accepts rejected
      have read' := deserialize_rejects accepts' rejected
      exact Or.inr ⟨false, _, _, read, read', ends read read' rfl, fun _ => rfl⟩
    · have positive : 0 < toInt head.text.length := Int.not_le.mp rejected
      cases framing : lengthOf req.contentLength (valuesOf .contentLength head.request.headers) with
      | none =>
          have read := (deserialize_framing accepts positive).1 framing
          have read' := (deserialize_framing accepts' positive).1 framing
          exact Or.inr ⟨false, _, _, read, read', ends read read' rfl, fun _ => rfl⟩
      | some length =>
          obtain ⟨undefined, final⟩ := deserialize_target accepts positive framing
          obtain ⟨undefined', final'⟩ := deserialize_target accepts' positive framing
          by_cases none_ : pathPart head.request.path = []
          · exact Or.inl ⟨undefined none_, undefined' none_⟩
          · have read := final none_
            have read' := final' none_
            exact Or.inr ⟨true, _, _, read, read', ends read read' rfl, fun _ => rfl⟩
  · have accepted' : ¬ ∃ (head : RequestHead) (rest : Bytes), head.lines.length ≤ maxNumHeaders ∧
        buffer' = head.text ++ rest := by
      rintro ⟨head, rest, few, split'⟩
      obtain ⟨rest', split⟩ := alike.symm.head empty_ split'
      exact accepted ⟨head, rest', few, split⟩
    obtain ⟨ret, count, outcome, rejected⟩ := phrParseRequest_none accepted
    obtain ⟨ret', count'', outcome', rejected'⟩ := phrParseRequest_none accepted'
    have read := deserialize_rejects outcome rejected
    have read' := @deserialize_rejects { req with headerBuffer := buffer', numHeaders := count' } _ _ _
      outcome' rejected'
    exact Or.inr ⟨false, _, _, read, read', ends read read' rfl, fun no => by cases no⟩

theorem Alike.call (alike : Alike text req req') {data : Bytes} (goesOn : ¬ req.Refused data) :
    (req.consumeHeaderSome data = none ∧ req'.consumeHeaderSome data = none) ∨
      ∃ reply next next' text', req.consumeHeaderSome data = some (reply, next) ∧
        req'.consumeHeaderSome data = some (reply, next') ∧ Alike text' next next' ∧
        ((reply.1 = none ∧ reply.2.1 = true) → next'.numHeaders = next.numHeaders) := by
  have filled := alike.taking.fill data
  have filled' := alike.taking'.fill data
  obtain ⟨buffer', count', rfl⟩ : ∃ buffer count,
      req' = { req with headerBuffer := buffer, numHeaders := count } := ⟨_, _, alike.same⟩
  have alike' : Alike (text ++ data.take (req.scanData data).2) (req.fill data)
      (fill { req with headerBuffer := buffer', numHeaders := count' } data) :=
    ⟨filled.1, filled'.1, rfl⟩
  by_cases finished : (req.scanData data).1.numFound = 4
  · rw [consumeHeaderSome_finished finished, @consumeHeaderSome_finished
      { req with headerBuffer := buffer', numHeaders := count' } data finished, acceptHeader, acceptHeader]
    rcases alike'.deserialize (filled.2 finished) with ⟨read, read'⟩ |
      ⟨success, next, next', read, read', alike'', count⟩
    · rw [read, read']
      exact Or.inl ⟨rfl, rfl⟩
    · rw [read, read']
      cases success with
      | false => exact Or.inr ⟨_, next, next', _, rfl, rfl, alike'', fun no => by cases no.1⟩
      | true => exact Or.inr ⟨_, next, next', _, rfl, rfl, alike'', fun _ => count rfl⟩
  · rw [consumeHeaderSome_open goesOn finished, @consumeHeaderSome_open
      { req with headerBuffer := buffer', numHeaders := count' } data goesOn finished]
    exact Or.inr ⟨_, _, _, _, rfl, rfl, alike', fun no => by cases no.2⟩

theorem Alike.refused (alike : Alike text req req') {data : Bytes} (refused : req.Refused data) :
    req.consumeHeaderSome data = some ((some .invalidMessage, true, 0), (req.scanData data).1) ∧
      req'.consumeHeaderSome data = some ((some .invalidMessage, true, 0), (req'.scanData data).1) := by
  refine ⟨consumeHeaderSome_refused refused, consumeHeaderSome_refused ?_⟩
  rw [alike.same]
  exact refused

def Succeeded (replies : List Reply) : Prop := ∃ count, replies.getLast? = some (none, true, count)

theorem succeeded_cons {reply : Reply} {replies : List Reply} (some_ : replies ≠ []) :
    Succeeded (reply :: replies) ↔ Succeeded replies := by
  obtain ⟨next, rest, rfl⟩ := List.exists_cons_of_ne_nil some_
  simp only [Succeeded, List.getLast?_cons_cons]

theorem calls_cons (data : Bytes) (rest : List Bytes) (req : Request) :
    calls (data :: rest) req = (req.consumeHeaderSome data).bind fun after =>
      (calls rest after.2).map fun later => (after.1 :: later.1, later.2) := rfl

theorem calls_length {chunks : List Bytes} {replies : List Reply} {last : Request}
    (run : calls chunks req = some (replies, last)) : replies.length = chunks.length := by
  induction chunks generalizing req replies with
  | nil =>
      cases run
      rfl
  | cons data rest ih =>
      rw [calls_cons, Option.bind_eq_some_iff] at run
      obtain ⟨⟨reply, next⟩, _, others⟩ := run
      obtain ⟨⟨later, last'⟩, run', same⟩ := Option.map_eq_some_iff.mp others
      cases same
      rw [List.length_cons, List.length_cons, ih run']

theorem Alike.calls {chunks : List Bytes} (alike : Alike text req req') (goesOn : Continues chunks req) :
    (Request.calls chunks req = none ∧ Request.calls chunks req' = none) ∨
      ∃ replies last last', Request.calls chunks req = some (replies, last) ∧
        Request.calls chunks req' = some (replies, last') ∧
        (Succeeded replies → last' = { last with headerBuffer := last'.headerBuffer }) := by
  induction chunks generalizing text req req' with
  | nil =>
      refine Or.inr ⟨[], req, req', rfl, rfl, ?_⟩
      rintro ⟨count, none_⟩
      cases none_
  | cons data rest ih =>
      obtain ⟨open_, later⟩ := goesOn
      rw [calls_cons, calls_cons]
      by_cases refused : req.Refused data
      · obtain rfl : rest = [] := by
          by_cases some_ : rest = []
          · exact some_
          · exact (open_ some_ refused).elim
        obtain ⟨reply, reply'⟩ := alike.refused refused
        rw [reply, reply']
        refine Or.inr ⟨_, _, _, rfl, rfl, ?_⟩
        rintro ⟨count, accepted⟩
        cases accepted
      · rcases alike.call refused with ⟨undefined, undefined'⟩ |
          ⟨reply, next, next', text', call, call', alike', count⟩
        · rw [undefined, undefined']
          exact Or.inl ⟨rfl, rfl⟩
        · rw [call, call', Option.bind_some, Option.bind_some]
          rcases ih alike' (later reply next call) with ⟨undefined, undefined'⟩ |
            ⟨replies, last, last', run, run', same⟩
          · rw [undefined, undefined']
            exact Or.inl ⟨rfl, rfl⟩
          · rw [run, run']
            refine Or.inr ⟨_, last, last', rfl, rfl, ?_⟩
            intro succeeded
            by_cases none_ : replies = []
            · subst none_
              obtain rfl : rest = [] := List.length_eq_zero_iff.mp (calls_length run).symm
              cases run
              cases run'
              obtain ⟨taken, accepted⟩ := succeeded
              cases accepted
              rw [← count ⟨rfl, rfl⟩]
              exact alike'.same
            · exact same ((succeeded_cons none_).mp succeeded)

theorem Alike.continues {chunks : List Bytes} (alike : Alike text req req')
    (goesOn : Continues chunks req) : Continues chunks req' := by
  induction chunks generalizing text req req' with
  | nil => trivial
  | cons data rest ih =>
      obtain ⟨open_, later⟩ := goesOn
      have refused : req'.Refused data ↔ req.Refused data := by
        rw [alike.same]
        rfl
      refine ⟨fun some_ => fun no => open_ some_ (refused.mp no), ?_⟩
      intro reply next' call'
      by_cases full : req.Refused data
      · obtain rfl : rest = [] := by
          by_cases some_ : rest = []
          · exact some_
          · exact (open_ some_ full).elim
        trivial
      · rcases alike.call full with ⟨_, undefined'⟩ | ⟨reply', next, _, text', call, same, alike', _⟩
        · rw [undefined'] at call'
          cases call'
        · rw [same] at call'
          cases call'
          exact ih alike' (later _ _ call)

theorem Taking.calls {chunks front back : List Bytes} {data : Bytes} {replies : List Reply}
    {before : Request} (taking : Taking text req) (goesOn : Continues chunks req)
    (split : chunks = front ++ data :: back) (run : Request.calls front req = some (replies, before)) :
    ∃ text', Taking text' before := by
  subst split
  induction front generalizing text req replies with
  | nil =>
      cases run
      exact ⟨text, taking⟩
  | cons first rest ih =>
      obtain ⟨open_, later⟩ := goesOn
      rw [calls_cons, Option.bind_eq_some_iff] at run
      obtain ⟨⟨reply, next⟩, call, others⟩ := run
      obtain ⟨⟨replies', last⟩, run', same⟩ := Option.map_eq_some_iff.mp others
      cases same
      rcases (Alike.mk taking taking rfl).call (open_ (by simp)) with ⟨undefined, _⟩ |
        ⟨reply', next', _, text', call', _, alike, _⟩
      · rw [undefined] at call
        cases call
      · rw [call'] at call
        cases call
        exact ih alike.taking run' (later _ _ call')

/-- Wherever a head is read, the views stored of it show what the request has as text,
and lie among the bytes consumed for the request. -/
def ViewsInside (chunks : List Bytes) (req : Request) : Prop :=
  ∀ front data back replies before, chunks = front ++ data :: back →
    calls front req = some (replies, before) → (before.scanData data).1.numFound = 4 →
    ∀ views, (before.fill data).views = some views →
      (∀ span ∈ views.all, span.position + span.length ≤ (before.fill data).headerBufferIdx) ∧
      ∀ req', (before.fill data).deserialize = some (true, req') → Shows (before.fill data) req' views

theorem views_inside {chunks : List Bytes} (taking : Taking text req) (goesOn : Continues chunks req) :
    ViewsInside chunks req := by
  intro front data back replies before split run finished views stored
  obtain ⟨text', taking'⟩ := taking.calls goesOn split run
  obtain ⟨filled, ended⟩ := taking'.fill data
  refine ⟨?_, ?_⟩
  · intro span member
    obtain ⟨tokens, rest, rfl, parsed, method, path, headers⟩ := views_stored stored
    obtain ⟨head, _, whole, _⟩ := done_parseRequest.mp parsed
    obtain ⟨more, shape, _⟩ := filled.head (ended finished) whole
    have inside := viewsOf_inside method path headers member
    have size := congrArg List.length shape
    rw [filled.index]
    simp only [whole, List.length_append] at inside size ⊢
    omega
  · intro req' accepted
    obtain ⟨views', stored', shows⟩ := shows_of_accepted accepted
    rw [stored, Option.some.injEq] at stored'
    exact stored' ▸ shows

/-- The calls have the same replies, a head they accept leaves the same request but for
the header buffer, and all the views lie in what has been consumed. -/
structure Isolated (chunks : List Bytes) (req req' : Request) : Prop where
  replies : (calls chunks req).map Prod.fst = (calls chunks req').map Prod.fst
  request : ∀ replies last last', calls chunks req = some (replies, last) →
    calls chunks req' = some (replies, last') → Succeeded replies →
    last' = { last with headerBuffer := last'.headerBuffer }
  views : ViewsInside chunks req
  views' : ViewsInside chunks req'

theorem header_isolated (headerBuffer headerBuffer' : Bytes) (chunks : List Bytes)
    (size : headerBuffer'.length = headerBuffer.length)
    (goesOn : Continues chunks (ofBuffer headerBuffer)) :
    Isolated chunks (ofBuffer headerBuffer) (ofBuffer headerBuffer') := by
  have taking := taking_start headerBuffer
  have taking' := taking_start headerBuffer'
  have alike : Alike [] (ofBuffer headerBuffer) (ofBuffer headerBuffer') := by
    refine ⟨taking, taking', ?_⟩
    simp only [ofBuffer, size]
  refine ⟨?_, ?_, views_inside taking goesOn, views_inside taking' (alike.continues goesOn)⟩
  · rcases alike.calls goesOn with ⟨undefined, undefined'⟩ | ⟨replies, last, last', run, run', _⟩
    · rw [undefined, undefined']
    · rw [run, run', Option.map_some, Option.map_some]
  · intro replies last last' run run' succeeded
    rcases alike.calls goesOn with ⟨undefined, _⟩ | ⟨_, _, _, first, first', same⟩
    · rw [undefined] at run
      cases run
    · rw [run] at first
      rw [run'] at first'
      cases first
      cases first'
      exact same succeeded

theorem header_isolated_reused : Isolated
    [ascii "GET /a/?b=c HT", ascii "TP/1.0\r\nHost: d\r\n\r\n"]
    (ofBuffer (ascii "POST /e HTTP/1.1\r\nHost: f\r\nContent-Length: 1\r\n\r\n"))
    (ofBuffer (List.replicate 48 0)) := by
  refine header_isolated _ _ _ (by decide) ⟨fun _ => by decide +kernel, ?_⟩
  intro reply next _
  exact ⟨fun no => (no rfl).elim, fun _ _ _ => trivial⟩

/-- A call that is refused counts what it does not store. The LF behind it ends no head
of its own, and the parser goes on in what the buffer held before. -/
theorem refused_head_leaks :
    (ascii "?GET / HTTP/1.1\r\n\r\n").length = (List.replicate 19 (0 : UInt8)).length ∧
    (calls [List.replicate 16 0x78 ++ ascii "\r\n\r", ascii "\n"]
      (ofBuffer (ascii "?GET / HTTP/1.1\r\n\r\n"))).map (fun run => (run.1, run.2.method)) =
        some ([(some .invalidMessage, true, 0), (none, true, 1)], ascii "GET") ∧
    (calls [List.replicate 16 0x78 ++ ascii "\r\n\r", ascii "\n"]
      (ofBuffer (List.replicate 19 0))).map (fun run => (run.1, run.2.method)) =
        some ([(some .invalidMessage, true, 0), (some .invalidMessage, true, 0)], []) := by
  refine ⟨by decide, by decide +kernel, by decide +kernel⟩

end CoServer.Http.Request
