import CoServer.BinaryFraming
import CoServer.Http.RequestProgress

/-!
Reading requests and packed messages makes progress, but for chunked bodies whose
framing fills a span, and for calls that throw or are not defined.
-/

namespace CoServer

open Http Transition

theorem advances_map {M N : Type} (outcome : Option (Reply × M)) (wrap : M → N) :
    Advances (outcome.map fun after => (after.1, wrap after.2)) ↔ Advances outcome := by
  constructor
  · rintro ⟨err, complete, count, wrapped, same, progress⟩
    obtain ⟨⟨reply, msg⟩, replied, shape⟩ := Option.map_eq_some_iff.mp same
    cases shape
    exact ⟨err, complete, count, msg, replied, progress⟩
  · rintro ⟨err, complete, count, msg, replied, progress⟩
    exact ⟨err, complete, count, wrap msg, by rw [replied]; rfl, progress⟩

namespace BinaryMessage

variable {T : Type}

/-- A message whose header or whose body is being read. -/
def Receiving (msg : BinaryMessage T) : Phase → Prop
  | .header => msg.headIdx < 8 ∧ msg.bodyIdx = 0
  | .body => msg.bodyIdx ≤ msg.length

theorem Receiving.advances {msg : BinaryMessage T} (receiving : msg.Receiving .header)
    {data : Bytes} (some_ : data ≠ []) : Advances (consumeSome .header msg data) := by
  have positive := List.length_pos_iff.mpr some_
  have left : msg.headIdx < 8 := receiving.1
  exact ⟨_, _, _, _, rfl, Or.inr (Or.inr (by omega))⟩

theorem Receiving.advances_iff {msg : BinaryMessage T} (receiving : msg.Receiving .body)
    {data : Bytes} (some_ : data ≠ []) :
    Advances (consumeSome .body msg data) ↔ msg.Resizable := by
  have positive := List.length_pos_iff.mpr some_
  constructor
  · rintro ⟨_, _, _, _, reply, _⟩
    exact (consumeBodySome_inBody reply).resizable
  · intro resizable
    refine ⟨_, _, _, _, consumeBodySome_taken ⟨receiving, resizable⟩ data _ rfl, Or.inr ?_⟩
    rw [decide_eq_true_eq]
    omega

theorem Receiving.header {msg next : BinaryMessage T} {data : Bytes} {complete : Bool} {count : Nat}
    (receiving : msg.Receiving .header) (some_ : data ≠ [])
    (reply : MessageLike.consumeHeaderSome msg data = some ((none, complete, count), next)) :
    0 < count ∧ count ≤ data.length ∧ next.Receiving (if complete then .body else .header) := by
  have positive := List.length_pos_iff.mpr some_
  obtain ⟨left, start⟩ := receiving
  simp only [MessageLike.consumeHeaderSome, consumeHeaderSome, Option.some.injEq, Prod.mk.injEq,
    true_and] at reply
  obtain ⟨⟨rfl, rfl⟩, rfl⟩ := reply
  refine ⟨by omega, Nat.min_le_left _ _, ?_⟩
  by_cases whole : msg.headIdx + min data.length (8 - msg.headIdx) ≥ 8
  · simp only [whole, decide_true, ↓reduceIte, Receiving, start]
    exact Nat.zero_le _
  · simp only [whole, decide_false, Bool.false_eq_true, ↓reduceIte, Receiving, start]
    exact ⟨by omega, trivial⟩

theorem Receiving.body {msg next : BinaryMessage T} {data : Bytes} {count : Nat}
    (receiving : msg.Receiving .body)
    (reply : MessageLike.consumeBodySome msg data = some ((none, false, count), next)) :
    count ≤ data.length ∧ next.Receiving .body := by
  have inside : msg.bodyIdx ≤ msg.length := receiving
  rw [consumeBodySome_taken (consumeBodySome_inBody reply) data _ rfl] at reply
  simp only [Option.some.injEq, Prod.mk.injEq, true_and] at reply
  obtain ⟨⟨_, rfl⟩, rfl⟩ := reply
  refine ⟨Nat.min_le_left _ _, ?_⟩
  simp only [Receiving]
  omega

end BinaryMessage

/-- A message that can be read; the packed ones may have different value types. -/
inductive ReadMessage {Kind : Type} (T : Kind → Type) : Type
  | request (req : Request)
  | binary (kind : Kind) (msg : BinaryMessage (T kind))

namespace ReadMessage

variable {Kind : Type} {T : Kind → Type}

instance : MessageLike (ReadMessage T) where
  consumeHeaderSome
    | .request req, data =>
        (MessageLike.consumeHeaderSome req data).map fun after => (after.1, .request after.2)
    | .binary kind msg, data =>
        (MessageLike.consumeHeaderSome msg data).map fun after => (after.1, .binary kind after.2)
  consumeBodySome
    | .request req, data =>
        (MessageLike.consumeBodySome req data).map fun after => (after.1, .request after.2)
    | .binary kind msg, data =>
        (MessageLike.consumeBodySome msg data).map fun after => (after.1, .binary kind after.2)
  produceHeaderSome
    | .request req, out =>
        (MessageLike.produceHeaderSome req out).map fun after =>
          (after.1, after.2.1, .request after.2.2)
    | .binary kind msg, out =>
        (MessageLike.produceHeaderSome msg out).map fun after =>
          (after.1, after.2.1, .binary kind after.2.2)
  produceBodySome
    | .request req, out =>
        (MessageLike.produceBodySome req out).map fun after =>
          (after.1, after.2.1, .request after.2.2)
    | .binary kind msg, out =>
        (MessageLike.produceBodySome msg out).map fun after =>
          (after.1, after.2.1, .binary kind after.2.2)

inductive Fresh : ReadMessage T → Prop
  | request (headerBuffer : Bytes) : Fresh (.request (.ofBuffer headerBuffer))
  | binary (kind : Kind) (uninitialized : Nat) (value : T kind) :
      Fresh (.binary kind (.ofValue uninitialized value))

/-- Where a call advances. -/
def Permits : Phase → ReadMessage T → Bytes → Prop
  | .header, .request req, data => req.HeadAdvances data
  | .body, .request req, data => req.chunked = true → req.ChunkAdvances data
  | .header, .binary _ _, _ => True
  | .body, .binary _ msg, _ => msg.Resizable

def Reading : Phase → ReadMessage T → Prop
  | .header, .request req => req.Heading
  | .body, .request req => req.Bodying
  | phase, .binary _ msg => msg.Receiving phase

theorem advancing : Advancing (Fresh (T := T)) Reading Permits := by
  refine ⟨?_, ?_, ?_, ?_⟩
  · rintro _ (headerBuffer | ⟨kind, uninitialized, value⟩)
    · exact Request.heading_start headerBuffer
    · exact ⟨Nat.succ_pos 7, rfl⟩
  · intro phase msg data reading some_
    cases msg with
    | request req =>
        cases phase with
        | header => exact (advances_map _ _).trans (Request.Heading.advances reading some_)
        | body => exact (advances_map _ _).trans (Request.Bodying.advances reading some_)
    | binary kind msg =>
        cases phase with
        | header =>
            have advances := BinaryMessage.Receiving.advances reading some_
            exact ⟨fun _ => trivial, fun _ => (advances_map _ _).mpr advances⟩
        | body =>
            exact (advances_map _ _).trans (BinaryMessage.Receiving.advances_iff reading some_)
  · intro msg data complete count msg' reading some_ reply
    cases msg with
    | request req =>
        obtain ⟨⟨answer, next⟩, replied, shape⟩ := Option.map_eq_some_iff.mp reply
        cases shape
        obtain ⟨positive, within, after⟩ := Request.Heading.next reading some_ replied
        refine ⟨positive, within, ?_⟩
        cases complete <;> exact after
    | binary kind msg =>
        obtain ⟨⟨answer, next⟩, replied, shape⟩ := Option.map_eq_some_iff.mp reply
        cases shape
        obtain ⟨positive, within, after⟩ := BinaryMessage.Receiving.header reading some_ replied
        refine ⟨positive, within, ?_⟩
        cases complete <;> exact after
  · intro msg data count msg' reading reply
    cases msg with
    | request req =>
        obtain ⟨⟨answer, next⟩, replied, shape⟩ := Option.map_eq_some_iff.mp reply
        cases shape
        exact Request.Bodying.next reading replied
    | binary kind msg =>
        obtain ⟨⟨answer, next⟩, replied, shape⟩ := Option.map_eq_some_iff.mp reply
        cases shape
        exact BinaryMessage.Receiving.body reading replied

end ReadMessage

open ReadMessage

theorem reading_advances {Kind : Type} {T : Kind → Type} (marks : List Mark) (sys : System (ReadMessage T))
    (run : Run (MarkedStep (readsOf Fresh Permits)) System.init marks sys) :
    ReadsProgress (readsOf Fresh Permits) marks sys :=
  reads_progress advancing run

theorem reading_advances_head : ∃ marks, ∃ sys : System (ReadMessage fun _ : Unit => Blob),
    offers 0 marks = [(ascii "GET /", 5)] ∧ ReadsProgress (readsOf Fresh Permits) marks sys := by
  let choices : List (Choice (ReadMessage fun _ : Unit => Blob)) :=
    [.startRead (.request (.ofSize 64)), .stepRead 0, .completeRead 0 ⟨false, ascii "GET /"⟩, .stepRead 0]
  have met : System.Meets (readsOf Fresh Permits) System.init choices := by
    refine ⟨.request _, ?_⟩
    intro next events stepped
    cases stepped
    refine ⟨?_, ?_⟩
    · rintro call phase found pending
      cases found
      cases phase <;> cases pending.1
    · intro next events stepped
      cases stepped
      refine ⟨trivial, ?_⟩
      intro next events stepped
      cases stepped
      refine ⟨?_, fun _ _ _ => trivial⟩
      rintro call phase found pending _
      cases found
      cases phase with
      | header =>
          rintro ⟨finished, _⟩
          revert finished
          decide +kernel
      | body => cases pending.1
  obtain ⟨marks, sys, run, checked⟩ := System.exec_checked_marks
    (fun _ offers => offers == [(ascii "GET /", 5)]) met (by decide +kernel)
  exact ⟨marks, sys, beq_iff_eq.mp checked, reading_advances marks sys run⟩

/-- The framing before a chunk that has not come. None of it is taken, and it is
offered again, and about to be offered once more. -/
theorem reading_stalls : ∃ marks, ∃ sys : System (ReadMessage fun _ : Unit => Blob), ∃ call,
    Run (MarkedStep (readsOf Fresh fun _ _ _ => True)) System.init marks sys ∧
      starts 0 (offers 0 marks) = [0, 46, 46] ∧ sys.reads[0]? = some call ∧
      Pending sys.conn call .body ∧ sys.conn.readBuffer.contents = ascii "1;" ∧
      ¬ Advances (consumeSome .body call.msg (ascii "1;")) ∧
      ¬ ReadsProgress (readsOf Fresh fun _ _ _ => True) marks sys := by
  let choices : List (Choice (ReadMessage fun _ : Unit => Blob)) :=
    [.startRead (.request (.ofSize 64)), .stepRead 0,
      .completeRead 0 ⟨false, ascii "PUT / HTTP/1.1\r\nTransfer-Encoding: chunked\r\n\r\n"⟩, .stepRead 0,
      .stepRead 0, .stepRead 0, .stepRead 0, .completeRead 0 ⟨false, ascii "1;"⟩, .stepRead 0, .stepRead 0,
      .stepRead 0, .stepRead 0, .stepRead 0]
  have met : System.Meets (readsOf Fresh fun _ _ _ => True) System.init choices := by
    refine System.meets_of_always ?_ _
    intro choice member state
    simp only [choices, List.mem_cons, List.not_mem_nil, or_false] at member
    rcases member with rfl | rfl | rfl | rfl | rfl | rfl | rfl | rfl | rfl | rfl | rfl | rfl | rfl
    · exact .request _
    all_goals first | trivial | exact fun _ _ _ _ _ => trivial
  let check (last : System (ReadMessage fun _ : Unit => Blob)) (offers : List (Bytes × Nat)) : Bool :=
    decide (starts 0 offers = [0, 46, 46]) && last.reads[0]?.any fun call =>
      decide (call.point = .body ∧ last.conn.readState = .readBody ∧
        last.conn.readBuffer.contents = ascii "1;" ∧
        (consumeSome .body call.msg (ascii "1;")).map Prod.fst = some (none, false, 0))
  obtain ⟨marks, sys, run, checked⟩ := System.exec_checked_marks check met (by decide +kernel)
  simp only [check, Bool.and_eq_true, decide_eq_true_eq, Option.any_eq_true] at checked
  obtain ⟨same, call, found, point, reading, contents, reply⟩ := checked
  refine ⟨marks, sys, call, run, same, found, ⟨point, reading⟩, contents, ?_, fun progress => ?_⟩
  · rintro ⟨err, complete, count, msg, replied, progress⟩
    rw [replied] at reply
    cases reply
    simp at progress
  · have once := progress.once 0
    rw [same] at once
    revert once
    decide

end CoServer
