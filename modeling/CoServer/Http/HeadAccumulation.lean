import CoServer.Http.HeaderIsolation

/-!
What a sequence of calls accumulates in the header buffer, as long as none of them
fails: the bytes acknowledged, and nothing behind them. A call is refused for the
size when it fills the header buffer and the head is not finished there. The counter
then tells the end of the head, but for an empty line behind a CR.
-/

namespace CoServer.Http.Request

def acknowledged (chunks : List Bytes) (replies : List Reply) : Bytes :=
  (List.zipWith (fun data reply => data.take reply.2.2) chunks replies).flatten

def textWith (req : Request) (data : Bytes) : Bytes :=
  req.headerBuffer.take req.headerBufferIdx ++ data.take (req.maxHeaderSize - req.headerBufferIdx)

/-- The chunk fills the header buffer, where the text ends with its first empty line
and that line is behind a CR. -/
def EndsBehindCr (req : Request) (data : Bytes) : Prop :=
  req.maxHeaderSize ≤ req.headerBufferIdx + data.length ∧ Terminated (req.textWith data) ∧
    cr :: (crlf ++ crlf) <:+ req.textWith data

theorem endedBefore_of_emptyLine {front back : Bytes} (empty_ : EmptyLine front) (some_ : back ≠ []) :
    EndedBefore (front ++ back) := by
  obtain ⟨before, after, rfl, ended⟩ := emptyLine_iff.mp empty_
  refine ⟨before, after ++ back, by rw [List.append_assoc], ?_, ended⟩
  exact List.append_ne_nil_of_right_ne_nil after some_

theorem Taking.scanData_terminated {text data : Bytes} {req : Request} (taking : Taking text req)
    (room : text.length < req.maxHeaderSize) (fills : req.maxHeaderSize ≤ text.length + data.length)
    (terminated : Terminated (text ++ data.take (req.maxHeaderSize - text.length))) :
    (req.scanData data).2 = req.maxHeaderSize - text.length ∧
      (req.scanData data).1.numFound =
        (scanState (text ++ data.take (req.maxHeaderSize - text.length))).2 := by
  have size : (data.take (req.maxHeaderSize - text.length)).length = req.maxHeaderSize - text.length := by
    rw [List.length_take]
    omega
  have none_ : ¬ EmptyLine text := by
    intro empty_
    refine terminated.2 (endedBefore_of_emptyLine empty_ ?_)
    rw [← List.length_pos_iff, size]
    omega
  have state := taking.scanned.resolve_left none_
  have least : min data.length (req.maxHeaderSize - text.length) = req.maxHeaderSize - text.length := by
    omega
  simp only [scanData, ge_iff_le, ← Nat.min_def, taking.index, least, state, scan_state]
  refine ⟨?_, by rw [scanState, scanState, List.foldl_append]⟩
  rcases scan_hit (data.take (req.maxHeaderSize - text.length)) 0 (scanState text)
      (req.maxHeaderSize - text.length) with all | ⟨front, back, split, at_, four⟩
  · exact all
  · rw [scanState, ← List.foldl_append] at four
    rw [split, ← List.append_assoc] at terminated
    have last : back = [] := by
      by_contra some_
      exact terminated.2 (endedBefore_of_emptyLine (emptyLine_of_four four) some_)
    rw [last, List.append_nil] at split
    rw [at_, ← split, size, Nat.zero_add]

theorem Taking.refused_iff {text data : Bytes} {req : Request} (taking : Taking text req)
    (room : text.length < req.maxHeaderSize) (fills : req.maxHeaderSize ≤ text.length + data.length)
    (terminated : Terminated (text ++ data.take (req.maxHeaderSize - text.length))) :
    req.Refused data ↔ cr :: (crlf ++ crlf) <:+ text ++ data.take (req.maxHeaderSize - text.length) := by
  obtain ⟨all, counter⟩ := taking.scanData_terminated room fills terminated
  rw [Refused, all, counter, taking.index, Ne, numFound_iff]
  constructor
  · rintro ⟨_, missed⟩
    by_contra clean
    exact missed (terminated.counted clean)
  · intro after
    exact ⟨rfl, terminated.not_counted after⟩

structure Kept (headerBuffer text : Bytes) (req : Request) : Prop where
  taking : Taking text req
  limit : req.maxHeaderSize = headerBuffer.length
  rest : req.headerBuffer.drop text.length = headerBuffer.drop text.length
  full : text.length = req.maxHeaderSize → text ≠ [] →
    req.numFound = 4 ∧ ¬ (Terminated text ∧ cr :: (crlf ++ crlf) <:+ text)

theorem kept_start (headerBuffer : Bytes) : Kept headerBuffer [] (ofBuffer headerBuffer) :=
  ⟨taking_start headerBuffer, rfl, rfl, fun _ some_ => (some_ rfl).elim⟩

variable {headerBuffer text data : Bytes} {req next : Request} {complete : Bool} {count : Nat}

theorem Kept.filled (kept : Kept headerBuffer text req)
    (reply : req.consumeHeaderSome data = some ((none, complete, count), next))
    (full : (text ++ data.take count).length = req.maxHeaderSize) (some_ : text ++ data.take count ≠ []) :
    (req.scanData data).1.numFound = 4 ∧
      ¬ (Terminated (text ++ data.take count) ∧ cr :: (crlf ++ crlf) <:+ text ++ data.take count) := by
  obtain ⟨taking, _, _, before⟩ := kept
  obtain ⟨within, below, _⟩ := scanData_bounds req data
  obtain ⟨same, outcome⟩ := consumeHeaderSome_ok reply
  rw [← same, taking.index] at below
  rw [← same] at within
  have size : (data.take count).length = count := by
    rw [List.length_take]
    omega
  have longest : count = req.maxHeaderSize - text.length := by
    rw [List.length_append, size] at full
    omega
  have found : (req.scanData data).1.numFound = 4 := by
    obtain ⟨_, found, _⟩ | ⟨_, _, more, _⟩ := outcome
    · exact found
    · rw [taking.index] at more
      exact (more longest).elim
  refine ⟨found, ?_⟩
  rintro ⟨terminated, after⟩
  by_cases room : text.length < req.maxHeaderSize
  · rw [longest] at terminated after
    exact ((taking.refused_iff room (by omega) terminated).mpr after).2 found
  · have none_ : count = 0 := by omega
    rw [none_, List.take_zero, List.append_nil] at terminated after some_
    exact (before (Nat.le_antisymm taking.within (Nat.not_lt.mp room)) some_).2 ⟨terminated, after⟩

theorem Kept.call (kept : Kept headerBuffer text req)
    (reply : req.consumeHeaderSome data = some ((none, complete, count), next)) :
    Kept headerBuffer (text ++ data.take count) next ∧ count ≤ data.length ∧
      (complete = true → EmptyLine (text ++ data.take count)) := by
  have full := kept.filled reply
  obtain ⟨taking, limit, rest, _⟩ := kept
  obtain ⟨taking', ended⟩ := taking.fill data
  obtain ⟨within, below, _⟩ := scanData_bounds req data
  obtain ⟨same, outcome⟩ := consumeHeaderSome_ok reply
  rw [← same] at taking' ended within below
  have size : (data.take count).length = count := by
    rw [List.length_take]
    omega
  have behind : (req.fill data).headerBuffer.drop (text ++ data.take count).length =
      headerBuffer.drop (text ++ data.take count).length := by
    show (Splice.store req.headerBuffer req.headerBufferIdx (data.take (req.scanData data).2)).drop _ = _
    have inside : text.length ≤ req.headerBuffer.length := taking.size ▸ taking.within
    rw [← same, taking.index, List.length_append, Splice.store_drop_end _ inside, ← List.drop_drop, rest,
      List.drop_drop]
  obtain ⟨rfl, found, accepted⟩ | ⟨rfl, _, _, rfl⟩ := outcome
  · have kept' : (req.fill data).deserialize = some (true, next) := by
      rw [fill, ← same]
      exact accepted
    obtain ⟨buffer, limit', _, _, numFound⟩ := deserialize_keeps kept'
    have limit_ : next.maxHeaderSize = req.maxHeaderSize := limit'
    refine ⟨⟨taking'.deserialized kept', limit_.trans limit, by rw [buffer, behind], ?_⟩, within,
      fun _ => ended found⟩
    intro full_ some_
    rw [limit_] at full_
    exact ⟨numFound.trans found, (full full_ some_).2⟩
  · have filled : (req.scanData data).1.copyHeader data count = req.fill data := by rw [fill, ← same]
    rw [filled]
    exact ⟨⟨taking', limit, behind, full⟩, within, fun no => by cases no⟩

theorem Kept.calls {chunks : List Bytes} {replies : List Reply} {last : Request}
    (kept : Kept headerBuffer text req) (run : Request.calls chunks req = some (replies, last))
    (fine : ∀ reply ∈ replies, reply.1 = none) :
    Kept headerBuffer (text ++ acknowledged chunks replies) last ∧
      (acknowledged chunks replies).length = (replies.map fun reply => reply.2.2).sum := by
  induction chunks generalizing text req replies with
  | nil =>
      cases run
      exact ⟨by simpa [acknowledged] using kept, rfl⟩
  | cons data rest ih =>
      rw [calls_cons, Option.bind_eq_some_iff] at run
      obtain ⟨⟨⟨error, complete, count⟩, next⟩, reply, others⟩ := run
      obtain ⟨⟨later, last'⟩, run', same⟩ := Option.map_eq_some_iff.mp others
      cases same
      obtain rfl : error = none := fine _ List.mem_cons_self
      obtain ⟨kept', within, _⟩ := kept.call reply
      obtain ⟨kept'', sum⟩ := ih kept' run' fun reply member => fine reply (List.mem_cons_of_mem _ member)
      have front : acknowledged (data :: rest) ((none, complete, count) :: later) =
          data.take count ++ acknowledged rest later := rfl
      refine ⟨by rw [front, ← List.append_assoc]; exact kept'', ?_⟩
      simp only [front, List.length_append, sum, List.length_take, Nat.min_eq_left within, List.map_cons,
        List.sum_cons]

structure Accumulated (headerBuffer : Bytes) (front : List Bytes) (replies : List Reply) (req : Request) :
    Prop where
  within : req.headerBufferIdx ≤ req.maxHeaderSize
  sum : req.headerBufferIdx = (replies.map fun reply => reply.2.2).sum
  stored : req.headerBuffer.take req.headerBufferIdx = acknowledged front replies
  untouched : req.headerBuffer.drop req.headerBufferIdx = headerBuffer.drop req.headerBufferIdx

structure Judged (req : Request) (data : Bytes) : Prop where
  finished : ∀ count next, req.consumeHeaderSome data = some ((none, true, count), next) →
    EmptyLine (next.headerBuffer.take next.headerBufferIdx)
  refused : (req.scanData data).1.numFound ≠ 4 →
    ((∃ next, req.consumeHeaderSome data = some ((some .invalidMessage, true, 0), next)) ↔
      req.headerBufferIdx + (req.scanData data).2 = req.maxHeaderSize)
  exact_ : req.maxHeaderSize ≤ req.headerBufferIdx + data.length → Terminated (req.textWith data) →
    ¬ req.Refused data

/-- Both, for all the calls that follow no error. -/
def HeadAccumulation (headerBuffer : Bytes) (chunks : List Bytes) : Prop :=
  ∀ front back replies req, chunks = front ++ back →
    calls front (ofBuffer headerBuffer) = some (replies, req) → (∀ reply ∈ replies, reply.1 = none) →
      Accumulated headerBuffer front replies req ∧ ∀ data rest, back = data :: rest → Judged req data

theorem Kept.accumulated {front : List Bytes} {replies : List Reply}
    (kept : Kept headerBuffer (acknowledged front replies) req)
    (sum : (acknowledged front replies).length = (replies.map fun reply => reply.2.2).sum) :
    Accumulated headerBuffer front replies req := by
  obtain ⟨⟨_, index, within, stored, _⟩, _, rest, _⟩ := kept
  rw [← index] at within stored rest
  exact ⟨within, index.trans sum, stored, rest⟩

theorem Kept.judged_iff (kept : Kept headerBuffer text req) (data : Bytes) :
    Judged req data ↔ ¬ req.EndsBehindCr data := by
  have taking := kept.taking
  have whole : req.textWith data = text ++ data.take (req.maxHeaderSize - text.length) := by
    rw [textWith, taking.index, taking.stored]
  have room := taking.within
  constructor
  · rintro ⟨_, _, exact_⟩ ⟨fills, terminated, after⟩
    refine exact_ fills terminated ?_
    rw [whole] at terminated after
    rw [taking.index] at fills
    by_cases below : text.length < req.maxHeaderSize
    · exact (taking.refused_iff below fills terminated).mpr after
    · have full := Nat.le_antisymm room (Nat.not_lt.mp below)
      rw [full, Nat.sub_self, List.take_zero, List.append_nil] at terminated after
      refine ((kept.full full ?_).2 ⟨terminated, after⟩).elim
      rintro rfl
      cases List.suffix_nil.mp after
  · intro clean
    refine ⟨?_, ?_, ?_⟩
    · intro count next reply
      obtain ⟨kept', _, ended⟩ := kept.call reply
      rw [kept'.taking.index, kept'.taking.stored]
      exact ended rfl
    · intro open_
      have bounds := (scanData_bounds req data).2.1
      rw [taking.index] at bounds ⊢
      by_cases refused : req.Refused data
      · have filled := refused.1
        rw [taking.index] at filled
        refine ⟨fun _ => by omega, fun _ => ⟨_, consumeHeaderSome_refused refused⟩⟩
      · have short : (req.scanData data).2 ≠ req.maxHeaderSize - text.length := by
          intro filled
          exact refused ⟨by rw [taking.index]; exact filled, open_⟩
        rw [consumeHeaderSome_open refused open_]
        constructor
        · rintro ⟨next, no⟩
          cases no
        · intro filled
          omega
    · intro fills terminated refused
      refine clean ⟨fills, terminated, ?_⟩
      rw [whole] at terminated ⊢
      rw [taking.index] at fills
      by_cases below : text.length < req.maxHeaderSize
      · exact (taking.refused_iff below fills terminated).mp refused
      · have full := Nat.le_antisymm room (Nat.not_lt.mp below)
        have some_ : text ≠ [] := by
          rintro rfl
          rw [full, Nat.sub_self, List.take_zero, List.append_nil] at terminated
          cases List.suffix_nil.mp terminated.1
        have open_ := refused.2
        rw [scanData_full (by rw [taking.index, full]) data] at open_
        exact (open_ (kept.full full some_).1).elim

theorem head_accumulation_iff (headerBuffer : Bytes) (chunks : List Bytes) :
    HeadAccumulation headerBuffer chunks ↔
      ∀ front data rest replies req, chunks = front ++ data :: rest →
        calls front (ofBuffer headerBuffer) = some (replies, req) → (∀ reply ∈ replies, reply.1 = none) →
          ¬ req.EndsBehindCr data := by
  constructor
  · intro accumulation front data rest replies req split run fine
    obtain ⟨kept, _⟩ := (kept_start headerBuffer).calls run fine
    obtain ⟨_, judged⟩ := accumulation front (data :: rest) replies req split run fine
    exact (kept.judged_iff data).mp (judged data rest rfl)
  · rintro clean front back replies req split run fine
    obtain ⟨kept, sum⟩ := (kept_start headerBuffer).calls run fine
    refine ⟨kept.accumulated sum, ?_⟩
    rintro data rest rfl
    exact (kept.judged_iff data).mpr (clean front data rest replies req split run fine)

theorem endedBefore_iff {text : Bytes} :
    EndedBefore text ↔ ∃ size < text.length, crlf ++ crlf <:+ text.take size := by
  constructor
  · rintro ⟨front, back, rfl, some_, ended⟩
    refine ⟨front.length, ?_, by rwa [List.take_left]⟩
    rw [List.length_append]
    have := List.length_pos_iff.mpr some_
    omega
  · rintro ⟨size, inside, ended⟩
    refine ⟨text.take size, text.drop size, (List.take_append_drop _ _).symm, ?_, ended⟩
    rw [← List.length_pos_iff, List.length_drop]
    omega

/-- A text as long as the header buffer, that ends with its first empty line. It is
refused, since the counter is three at its end. -/
theorem head_rejected_for_size :
    (ascii "GET / HTTP/1.1\r\nX: y\r\r\n\r\n").length = (ofSize 25).maxHeaderSize ∧
      Terminated (ascii "GET / HTTP/1.1\r\nX: y\r\r\n\r\n") ∧
      (ofSize 25).Refused (ascii "GET / HTTP/1.1\r\nX: y\r\r\n\r\n") ∧
      ((ofSize 25).consumeHeaderSome (ascii "GET / HTTP/1.1\r\nX: y\r\r\n\r\n")).map
        (fun after => (after.1, after.2.numFound, after.2.headerBufferIdx)) =
          some ((some .invalidMessage, true, 0), 3, 0) ∧
      ¬ HeadAccumulation (List.replicate 25 0) [ascii "GET / HTTP/1.1\r\nX: y\r\r\n\r\n"] := by
  have size : (ascii "GET / HTTP/1.1\r\nX: y\r\r\n\r\n").length = (ofSize 25).maxHeaderSize := by
    decide +kernel
  have ended : Terminated (ascii "GET / HTTP/1.1\r\nX: y\r\r\n\r\n") := by
    rw [Terminated, endedBefore_iff]
    decide +kernel
  have whole : (ofSize 25).textWith (ascii "GET / HTTP/1.1\r\nX: y\r\r\n\r\n") =
      ascii "GET / HTTP/1.1\r\nX: y\r\r\n\r\n" := by
    decide +kernel
  have refused : (ofSize 25).Refused (ascii "GET / HTTP/1.1\r\nX: y\r\r\n\r\n") := by
    decide +kernel
  refine ⟨size, ended, refused, by decide +kernel, ?_⟩
  intro accumulation
  obtain ⟨_, judged⟩ := accumulation [] _ [] _ rfl rfl (by simp)
  refine (judged _ _ rfl).exact_ ?_ ?_ refused
  · exact size.ge
  · rw [show ofBuffer (List.replicate 25 0) = ofSize 25 from rfl, whole]
    exact ended

end CoServer.Http.Request
