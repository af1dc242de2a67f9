import CoServer.Http.BlankLine
import CoServer.Http.TerminatorScan

/-!
What a request has taken of the bytes it was offered: the text at the front of its
header buffer. The scan has gone over that text, or, after a call that read beyond
an empty line, over more; in either case a head is finished only behind an empty
line in the text.
-/

namespace CoServer.Http.Request

theorem scan_hit (text : Bytes) (index : Nat) (state : UInt8 × UInt8) (numRead : Nat) :
    (scan text index state numRead).2 = numRead ∨
      ∃ front back, text = front ++ back ∧ (scan text index state numRead).2 = index + front.length ∧
        (front.foldl scanStep state).2 = 4 := by
  induction text generalizing index state numRead with
  | nil => exact Or.inl rfl
  | cons char rest ih =>
      rw [scan]
      rcases ih (index + 1) (scanStep state char)
        (if (scanStep state char).2 = 4 then index + 1 else numRead) with same | ⟨front, back, rfl, at_, four⟩
      · rw [same]
        split
        · rename_i four
          exact Or.inr ⟨[char], rest, rfl, rfl, four⟩
        · exact Or.inl rfl
      · refine Or.inr ⟨char :: front, back, rfl, ?_, four⟩
        rw [at_, List.length_cons]
        omega

def EmptyLine (text : Bytes) : Prop := crlf ++ crlf <:+: text

theorem EmptyLine.append {text : Bytes} (empty_ : EmptyLine text) (more : Bytes) : EmptyLine (text ++ more) :=
  empty_.trans (List.infix_append' [] text more)

theorem emptyLine_of_four {text : Bytes} (four : (scanState text).2 = 4) : EmptyLine text := by
  rcases ((numFound_iff text).mp four).ended with ended | ⟨front, back, rfl, _, ended⟩
  · exact ended.isInfix
  · exact EmptyLine.append ended.isInfix back

theorem emptyLine_iff {text : Bytes} :
    EmptyLine text ↔ ∃ front back, text = front ++ back ∧ crlf ++ crlf <:+ front := by
  constructor
  · rintro ⟨front, back, rfl⟩
    exact ⟨front ++ (crlf ++ crlf), back, rfl, List.suffix_append _ _⟩
  · rintro ⟨front, back, rfl, ended⟩
    exact EmptyLine.append ended.isInfix back

/-- The text is at the front of the header buffer, and the scan stands behind it
unless the text contains an empty line. -/
structure Taking (text : Bytes) (req : Request) : Prop where
  size : req.headerBuffer.length = req.maxHeaderSize
  index : req.headerBufferIdx = text.length
  within : text.length ≤ req.maxHeaderSize
  stored : req.headerBuffer.take text.length = text
  scanned : EmptyLine text ∨ (req.last, req.numFound) = scanState text

theorem taking_start (headerBuffer : Bytes) : Taking [] (ofBuffer headerBuffer) :=
  ⟨rfl, rfl, Nat.zero_le _, rfl, Or.inr rfl⟩

def fill (req : Request) (data : Bytes) : Request :=
  (req.scanData data).1.copyHeader data (req.scanData data).2

theorem consumeHeaderSome_finished {req : Request} {data : Bytes}
    (finished : (req.scanData data).1.numFound = 4) :
    req.consumeHeaderSome data = (req.fill data).acceptHeader (req.scanData data).2 := by
  simp only [consumeHeaderSome, finished, decide_true, Bool.true_eq_false, and_false, ↓reduceIte, fill]

theorem Taking.fill {text : Bytes} {req : Request} (taking : Taking text req) (data : Bytes) :
    Taking (text ++ data.take (req.scanData data).2) (req.fill data) ∧
      ((req.scanData data).1.numFound = 4 → EmptyLine (text ++ data.take (req.scanData data).2)) := by
  obtain ⟨size, index, within, stored, scanned⟩ := taking
  have bounds := scanData_bounds req data
  have length : (data.take (req.scanData data).2).length = (req.scanData data).2 := by
    rw [List.length_take]
    exact Nat.min_eq_left bounds.1
  -- the scan goes over all that is offered, and the number read may be less
  have loop : (EmptyLine (text ++ data.take (req.scanData data).2) ∨
      ((req.scanData data).1.last, (req.scanData data).1.numFound) =
        scanState (text ++ data.take (req.scanData data).2)) := by
    rcases scanned with empty_ | state
    · exact Or.inl (empty_.append _)
    · simp only [scanData, ge_iff_le, ← Nat.min_def, state]
      generalize least : min data.length (req.maxHeaderSize - req.headerBufferIdx) = maxRead
      rcases scan_hit (data.take maxRead) 0 (scanState text) maxRead with all | ⟨front, back, split, at_, four⟩
      · rw [all, scan_state]
        refine Or.inr ?_
        rw [scanState, scanState, List.foldl_append]
      · rw [at_, Nat.zero_add]
        have front_ : data.take front.length = front := by
          have cut := congrArg (List.take front.length) split
          rw [List.take_left, List.take_take, Nat.min_eq_left] at cut
          · exact cut
          · have longer := congrArg List.length split
            rw [List.length_append, List.length_take] at longer
            omega
        rw [front_]
        refine Or.inl (emptyLine_of_four ?_)
        rw [scanState, List.foldl_append]
        exact four
  refine ⟨⟨?_, ?_, ?_, ?_, loop⟩, ?_⟩
  · show (Splice.store req.headerBuffer req.headerBufferIdx (data.take (req.scanData data).2)).length = _
    rw [Splice.store_length (by rw [length, size]; omega)]
    exact size
  · show req.headerBufferIdx + (req.scanData data).2 = _
    rw [List.length_append, length, index]
  · show _ ≤ req.maxHeaderSize
    rw [List.length_append, length]
    omega
  · show (Splice.store req.headerBuffer req.headerBufferIdx (data.take (req.scanData data).2)).take _ = _
    rw [List.length_append, index, Splice.store_take_end _ (by rw [size]; exact within), stored]
  · intro four
    rcases loop with empty_ | state
    · exact empty_
    · refine emptyLine_of_four ?_
      rw [← state]
      exact four

theorem Taking.deserialized {text : Bytes} {req req' : Request} {success : Bool}
    (taking : Taking text req) (read : req.deserialize = some (success, req')) : Taking text req' := by
  obtain ⟨buffer, limit, index, last, numFound⟩ := deserialize_keeps read
  obtain ⟨size, index', within, stored, scanned⟩ := taking
  exact ⟨by rw [buffer, limit, size], index.trans index', by rw [limit]; exact within,
    by rw [buffer]; exact stored, by rw [last, numFound]; exact scanned⟩

theorem Taking.feed {text input : Bytes} {sizes : List Nat} {count : Nat} {req last : Request}
    (taking : Taking text req)
    (completed : feed MessageLike.consumeHeaderSome sizes input req = some (count, last)) :
    count ≤ input.length ∧ Taking (text ++ input.take count) last ∧
      EmptyLine (text ++ input.take count) ∧
      ∃ filled, Taking (text ++ input.take count) filled ∧ filled.deserialize = some (true, last) := by
  induction sizes generalizing text input req count with
  | nil => cases completed
  | cons size rest ih =>
      have filled := taking.fill (input.take size)
      have bounds := (scanData_bounds req (input.take size)).1
      rw [List.length_take] at bounds
      simp only [CoServer.feed, MessageLike.consumeHeaderSome] at completed
      split at completed
      · rename_i numBytes msg' reply
        cases completed
        obtain ⟨same, ⟨_, four, accepted⟩ | ⟨incomplete, _⟩⟩ := consumeHeaderSome_ok reply
        · have cut : (input.take size).take count = input.take count := by
            rw [List.take_take, Nat.min_eq_left (by omega)]
          rw [same] at accepted
          rw [← same, cut] at filled
          exact ⟨by omega, filled.1.deserialized accepted, filled.2 four, _, filled.1, accepted⟩
        · cases incomplete
      · rename_i numBytes msg' reply
        rw [Option.map_eq_some_iff] at completed
        obtain ⟨⟨more, last'⟩, remaining, same⟩ := completed
        cases same
        obtain ⟨taken, ⟨complete, _⟩ | ⟨_, _, _, rfl⟩⟩ := consumeHeaderSome_ok reply
        · cases complete
        · have cut : (input.take size).take numBytes = input.take numBytes := by
            rw [List.take_take, Nat.min_eq_left (by omega)]
          rw [← taken, cut] at filled
          have next := filled.1
          rw [Request.fill, ← taken] at next
          obtain ⟨few, later⟩ := ih next remaining
          rw [List.length_drop] at few
          rw [List.append_assoc, ← List.take_add] at later
          exact ⟨by omega, later⟩
      · cases completed

end CoServer.Http.Request
