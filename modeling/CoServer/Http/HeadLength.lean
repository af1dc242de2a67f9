import CoServer.Http.HeadTaken

/-!
The two detectors of the end of a head: the scan, which counts the bytes of a
CRLFCRLF, and the parser, for which a LF is enough to end a line. They agree on a
head that has no empty line in the parser's sense before its end.
-/

namespace CoServer.Http

namespace Request

def parsedBytes (req : Request) : Option Nat :=
  match parseRequest maxNumHeaders req.headerBuffer with
  | .done _ rest => some (req.headerBuffer.length - rest.length)
  | .failed _ => none
  | .starved _ => none

theorem deserialize_parsed {req req' : Request} (accepted : req.deserialize = some (true, req')) :
    ∃ (head : RequestHead) (rest : Bytes), head.lines.length ≤ maxNumHeaders ∧
      req.headerBuffer = head.text ++ rest ∧
      parseRequest maxNumHeaders req.headerBuffer = .done head.request rest := by
  cases parsed : parseRequest maxNumHeaders req.headerBuffer with
  | done request rest =>
      obtain ⟨head, few, split, rfl⟩ := done_parseRequest.mp parsed
      exact ⟨head, rest, few, split, rfl⟩
  | failed note => simp [deserialize, phrParseRequest, parsed] at accepted
  | starved note => simp [deserialize, phrParseRequest, parsed] at accepted

theorem Taking.head {text : Bytes} {req : Request} (taking : Taking text req) (empty_ : EmptyLine text)
    {head : RequestHead} {rest : Bytes} (split : req.headerBuffer = head.text ++ rest) :
    ∃ more, text = head.text ++ more ∧ rest = more ++ req.headerBuffer.drop text.length := by
  obtain ⟨front, back, rfl, ended⟩ := emptyLine_iff.mp empty_
  have whole : head.text ++ rest =
      front ++ (back ++ req.headerBuffer.drop (front ++ back).length) := by
    rw [← List.append_assoc, ← split]
    conv_lhs => rw [← List.take_append_drop (front ++ back).length req.headerBuffer, taking.stored]
  obtain ⟨more, rfl, rfl⟩ := head.shortest whole (blank_of_crlfs ended)
  exact ⟨more ++ back, by simp, by simp⟩

theorem head_length_iff (headerBuffer input : Bytes) (sizes : List Nat) (count : Nat) (req : Request)
    (once : ∀ front back, input = front ++ (crlf ++ crlf) ++ back → back = [])
    (finished : feed MessageLike.consumeHeaderSome sizes input (ofBuffer headerBuffer) =
      some (count, req)) :
    req.parsedBytes = some req.headerBufferIdx ↔
      ∀ front back, input = front ++ back → Blank front → back = [] := by
  obtain ⟨within, taken, empty_, filled, filling, accepted⟩ := (taking_start headerBuffer).feed finished
  rw [List.nil_append] at taken empty_ filling
  -- nothing is offered beyond the first empty line, so all of it has been taken
  obtain ⟨front, back, shape⟩ := empty_
  have whole : input = front ++ (crlf ++ crlf) ++ (back ++ input.drop count) := by
    rw [← List.append_assoc, shape, List.take_append_drop]
  have all : input.take count = input := by
    have nothing := (List.append_eq_nil_iff.mp (once _ _ whole)).2
    rw [List.drop_eq_nil_iff] at nothing
    exact List.take_of_length_le nothing
  rw [all] at taken filling shape
  obtain ⟨head, rest, few, split, parsed⟩ := deserialize_parsed accepted
  obtain ⟨more, same, rest_⟩ := filling.head ⟨front, back, shape⟩ split
  have used : req.parsedBytes = some head.text.length := by
    rw [parsedBytes, (deserialize_keeps accepted).1, parsed]
    simp only [split, List.length_append, Nat.add_sub_cancel]
  rw [used, taken.index, Option.some.injEq]
  constructor
  · intro agrees front' back' split' blank
    have none_ : more = [] := by
      have size := congrArg List.length same
      rw [List.length_append] at size
      exact List.length_eq_zero_iff.mp (by omega)
    rw [none_, List.append_nil] at same
    exact (head.blank_iff (same.symm.trans split')).mp blank
  · intro quiet
    rw [quiet head.text more same head.blank_text, List.append_nil] at same
    rw [same]

theorem head_length_iff_folded : ∃ req,
    feed MessageLike.consumeHeaderSome (List.replicate 29 1)
        (ascii "GET / HTTP/1.1\nX: y\r\n\tz: \r\n\r\n") (ofBuffer (List.replicate 64 0)) =
      some (29, req) ∧
      (req.parsedBytes = some req.headerBufferIdx ↔ ∀ front back,
        ascii "GET / HTTP/1.1\nX: y\r\n\tz: \r\n\r\n" = front ++ back → Blank front → back = []) := by
  have fed : (feed MessageLike.consumeHeaderSome (List.replicate 29 1)
      (ascii "GET / HTTP/1.1\nX: y\r\n\tz: \r\n\r\n") (ofBuffer (List.replicate 64 0))).map
        Prod.fst = some 29 := by decide +kernel
  obtain ⟨⟨count, req⟩, finished, rfl⟩ := Option.map_eq_some_iff.mp fed
  exact ⟨req, finished, head_length_iff _ _ _ _ _ (once_of_drop (by decide +kernel)) finished⟩

/-- The parser ends the head at the LF behind the request line; the field that
follows has been consumed and is not there. -/
theorem head_length_dropped :
    (∀ front back, ascii "GET / HTTP/1.1\n\nX: y\r\n\r\n" = front ++ (crlf ++ crlf) ++ back →
      back = []) ∧
      (feed MessageLike.consumeHeaderSome (List.replicate 24 1)
        (ascii "GET / HTTP/1.1\n\nX: y\r\n\r\n") (ofBuffer (List.replicate 64 0))).map
          (fun after => (after.1, after.2.headerBufferIdx, after.2.parsedBytes,
            after.2.getNamed (ascii "X"))) = some (24, 24, some 16, none) :=
  ⟨once_of_drop (by decide +kernel), by decide +kernel⟩

end Request

end CoServer.Http
