import CoServer.Http.ResponseSerialization

/-!
Draining a response: the header index, which served to write the header, walks
over it once more, and the body is handed out at the length that was recorded.
-/

namespace CoServer.Http.Response

def started (res : Response) : Response :=
  if !res.serialized then
    { res.serialize with
      headerSize := res.serialize.headerBufferIdx
      headerBufferIdx := 0 }
  else res

def currentBody (res : Response) : Option Bytes :=
  res.sizedBody (if res.isBodyString then res.stringBody else res.body)

/-- A serialized response; it has no body when the one it should have is too long. -/
structure Draining (header : Bytes) (body : Option Bytes) (res : Response) : Prop where
  serialized : res.serialized = true
  size : res.headerSize = header.length
  text : res.headerBuffer.take header.length = header
  body : res.currentBody = body

def HeaderPending (header : Bytes) (body : Option Bytes) (content : Bytes) (res : Response) : Prop :=
  Draining header body res.started ∧ res.started.bodyIdx = 0 ∧
    res.started.headerBufferIdx ≤ header.length ∧
    content = header.drop res.started.headerBufferIdx

def BodyPending (header body content : Bytes) (res : Response) : Prop :=
  Draining header (some body) res ∧ res.headerBufferIdx = 0 ∧ res.bodyIdx ≤ body.length ∧
    content = body.drop res.bodyIdx

def Rewound (header : Bytes) (body : Option Bytes) (res : Response) : Prop :=
  Draining header body res ∧ res.headerBufferIdx = 0 ∧ res.bodyIdx = 0

theorem produceHeaderSome_started (res : Response) (out : Bytes) :
    res.produceHeaderSome out =
      ((none, decide (res.started.headerBufferIdx +
          min out.length (res.started.headerSize - res.started.headerBufferIdx) ≥
            res.started.headerSize),
        min out.length (res.started.headerSize - res.started.headerBufferIdx)),
      Splice.store out 0 (Splice.window res.started.headerBuffer res.started.headerBufferIdx
        (min out.length (res.started.headerSize - res.started.headerBufferIdx))),
      { res.started with
        headerBufferIdx :=
          if decide (res.started.headerBufferIdx +
              min out.length (res.started.headerSize - res.started.headerBufferIdx) ≥
                res.started.headerSize) then 0
          else res.started.headerBufferIdx +
            min out.length (res.started.headerSize - res.started.headerBufferIdx) }) := rfl

theorem started_serialized {res : Response} (serialized : res.serialized = true) :
    res.started = res := by
  simp [started, serialized]

theorem Draining.moved {header : Bytes} {body : Option Bytes} {res : Response}
    (draining : Draining header body res) (index : Nat) :
    Draining header body { res with headerBufferIdx := index } :=
  ⟨draining.serialized, draining.size, draining.text, draining.body⟩

theorem emitsHeader (header : Bytes) (body : Option Bytes) :
    Emits (M := Response) MessageLike.produceHeaderSome (HeaderPending header body)
      (Rewound header body) := by
  rintro content res out ⟨draining, atBody, inside, rfl⟩
  have complete : res.started.headerBufferIdx +
      min out.length (header.length - res.started.headerBufferIdx) ≥ header.length ↔
      header.length - res.started.headerBufferIdx ≤ out.length := by omega
  refine ⟨(res.produceHeaderSome out).2.1, (res.produceHeaderSome out).2.2, ?_, ?_, ?_⟩
  · simp only [MessageLike.produceHeaderSome, produceHeaderSome_started, draining.size,
      List.length_drop, complete]
  · simp only [produceHeaderSome_started, draining.size, List.length_drop]
    have below : res.started.headerBufferIdx +
        min out.length (header.length - res.started.headerBufferIdx) ≤ header.length := by omega
    rw [← Splice.window_of_take below, draining.text]
    exact Splice.store_window_take out header res.started.headerBufferIdx
  · have after : (res.produceHeaderSome out).2.2 = { res.started with
        headerBufferIdx :=
          if header.length - res.started.headerBufferIdx ≤ out.length then 0
          else res.started.headerBufferIdx +
            min out.length (header.length - res.started.headerBufferIdx) } := by
      simp only [produceHeaderSome_started, draining.size, complete, decide_eq_true_eq]
    rw [after, List.length_drop]
    by_cases fits : header.length - res.started.headerBufferIdx ≤ out.length
    · rw [if_pos fits, if_pos fits]
      exact ⟨draining.moved 0, rfl, atBody⟩
    · rw [if_neg fits, if_neg fits]
      have moved := draining.moved (res.started.headerBufferIdx +
        min out.length (header.length - res.started.headerBufferIdx))
      rw [HeaderPending, started_serialized moved.serialized]
      refine ⟨moved, atBody, by simp only; omega, ?_⟩
      rw [List.drop_drop]
      congr 1
      simp only
      omega

theorem produceFrom_emits {body : Bytes} {index : Nat} (inside : index ≤ body.length) (out : Bytes) :
    (produceFrom body index out).1 =
        (none, decide (body.length - index ≤ out.length), min out.length (body.length - index)) ∧
      (produceFrom body index out).2.1.take (min out.length (body.length - index)) =
        (body.drop index).take out.length ∧
      (produceFrom body index out).2.2 =
        if body.length - index ≤ out.length then 0 else index + out.length := by
  by_cases empty : body.length = 0
  · have nothing : body = [] := List.length_eq_zero_iff.mp empty
    have start : index = 0 := by omega
    simp [produceFrom, nothing, start]
  · have complete : index + min out.length (body.length - index) ≥ body.length ↔
        body.length - index ≤ out.length := by omega
    simp only [produceFrom, empty, ↓reduceIte, complete]
    refine ⟨trivial, Splice.store_window_take out body index, ?_⟩
    by_cases fits : body.length - index ≤ out.length
    · simp [fits]
    · simp only [fits, decide_false, Bool.false_eq_true, ↓reduceIte]
      omega

theorem sizedBody_again {res : Response} {body sized : Bytes} (some_ : res.sizedBody body = some sized) :
    res.sizedBody sized = some sized := by
  by_cases resized : res.contentLength > 0 ∧ res.contentLength ≠ body.length
  · rw [sizedBody, if_pos resized, resize] at some_
    split at some_
    · cases some_
      rw [sizedBody, resizeTo_length, if_neg (by omega)]
    · cases some_
  · rw [sizedBody, if_neg resized] at some_
    cases some_
    rw [sizedBody, if_neg resized]

theorem produceBodySome_current {res : Response} {body : Bytes} (current : res.currentBody = some body)
    (out : Bytes) :
    ∃ after : Response, res.produceBodySome out =
        some ((produceFrom body res.bodyIdx out).1, (produceFrom body res.bodyIdx out).2.1, after) ∧
      after.bodyIdx = (produceFrom body res.bodyIdx out).2.2 ∧
      after.headerBufferIdx = res.headerBufferIdx ∧
      ∀ header, Draining header (some body) res → Draining header (some body) after := by
  cases flag : res.isBodyString with
  | true =>
      simp only [currentBody, flag, ↓reduceIte] at current
      refine ⟨{ res with
        stringBody := body
        bodyIdx := (produceFrom body res.bodyIdx out).2.2 },
        by simp [produceBodySome, flag, current], rfl, rfl, ?_⟩
      intro header draining
      refine ⟨draining.serialized, draining.size, draining.text, ?_⟩
      simp only [currentBody, flag, ↓reduceIte]
      exact sizedBody_again current
  | false =>
      simp only [currentBody, flag, Bool.false_eq_true, ↓reduceIte] at current
      refine ⟨{ res with
        body := body
        bodyIdx := (produceFrom body res.bodyIdx out).2.2 },
        by simp [produceBodySome, flag, current], rfl, rfl, ?_⟩
      intro header draining
      refine ⟨draining.serialized, draining.size, draining.text, ?_⟩
      simp only [currentBody, flag, Bool.false_eq_true, ↓reduceIte]
      exact sizedBody_again current

theorem produceBodySome_throws {res : Response} (current : res.currentBody = none) (out : Bytes) :
    MessageLike.produceBodySome res out = none := by
  cases flag : res.isBodyString with
  | true =>
      simp only [currentBody, flag, ↓reduceIte] at current
      simp only [MessageLike.produceBodySome, produceBodySome, flag, ↓reduceIte, current, Option.map_none]
  | false =>
      simp only [currentBody, flag, Bool.false_eq_true, ↓reduceIte] at current
      simp only [MessageLike.produceBodySome, produceBodySome, flag, Bool.false_eq_true, ↓reduceIte, current,
        Option.map_none]

theorem emitsBody (header body : Bytes) :
    Emits (M := Response) MessageLike.produceBodySome (BodyPending header body)
      (Rewound header (some body)) := by
  rintro content res out ⟨draining, atHeader, inside, rfl⟩
  obtain ⟨after, shape, index, header', kept⟩ := produceBodySome_current draining.body out
  obtain ⟨reply, stored, next⟩ := produceFrom_emits inside out
  rw [reply] at shape
  rw [next] at index
  refine ⟨(produceFrom body res.bodyIdx out).2.1, after,
    by simp only [MessageLike.produceBodySome, shape, List.length_drop], ?_, ?_⟩
  · rw [List.length_drop]
    exact stored
  · rw [List.length_drop]
    by_cases fits : body.length - res.bodyIdx ≤ out.length
    · rw [if_pos fits] at index ⊢
      exact ⟨kept header draining, header'.trans atHeader, index⟩
    · rw [if_neg fits] at index ⊢
      refine ⟨kept header draining, header'.trans atHeader, by omega, ?_⟩
      rw [List.drop_drop, index]

/-- How a response is constructed: the status, and the buffer when one is given. -/
inductive Constructor
  | status (status : Status) (headerBuffer : Bytes)
  | number (number : Nat) (reason headerBuffer : Bytes)
  | statusAllocated (status : Status)
  | numberAllocated (number : Nat) (reason : Bytes)

namespace Constructor

def build (version : Bytes) (uninitialized : Bool) : Constructor → Option Response
  | .status code headerBuffer => some (ofStatus code version headerBuffer uninitialized)
  | .number code reason headerBuffer => ofNumber (code, reason) version headerBuffer uninitialized
  | .statusAllocated code => some (ofStatusAllocated code version uninitialized)
  | .numberAllocated code reason => ofNumberAllocated (code, reason) version uninitialized

def statusText : Constructor → Bytes
  | .status code _ | .statusAllocated code => (statusStrArr code).1
  | .number code _ _ | .numberAllocated code _ => Decimal.text code

def reasonText : Constructor → Bytes
  | .status code _ | .statusAllocated code => (statusStrArr code).2
  | .number _ reason _ | .numberAllocated _ reason => reason

/-- The status number is a non-negative `int`. -/
def Valid : Constructor → Prop
  | .number code _ _ | .numberAllocated code _ => code < 2 ^ 31
  | .status _ _ | .statusAllocated _ => True

end Constructor

theorem init_written {res : Response} (fits : res.Fits) (empty : res.headerBufferIdx = 0)
    (plain : res.defaultKeepAlive = true ∧ res.hasContentType = false ∧ res.hasConnection = false ∧
      res.contentLength = 0 ∧ res.body = [] ∧ res.stringBody = [])
    (status reason version : Bytes) :
    Written (statusLine status reason version) version [] (res.init status reason version) := by
  obtain ⟨text, fits'⟩ := init_text fits status reason version
  refine ⟨fits', ?_, ?_, plain.2.1, plain.2.2.1, plain.2.2.2.1, ?_⟩
  · rw [text, Response.text, empty]
    simp
  · by_cases old : version = ascii "1.0"
    · simp [init, put, alloc, old]
    · simp [init, put, alloc, old, plain.1]
  · exact ⟨fun _ => plain.2.2.2.2, by simp [lastBody], by simp [lastBody]⟩

theorem constructor_written {constructor : Constructor} (valid : constructor.Valid)
    (version : Bytes) (uninitialized : Bool) :
    ∃ res, constructor.build version uninitialized = some res ∧ res.serialized = false ∧
      res.bodyIdx = 0 ∧
      Written (statusLine constructor.statusText constructor.reasonText version) version [] res := by
  have short : ∀ number : Nat, number < 2 ^ 31 → (toChars (number : Int)).length ≤ 10 := by
    intro number bound
    exact Decimal.text_length (by decide) (Nat.lt_trans bound (by decide))
  have given : ∀ headerBuffer, (blank headerBuffer uninitialized).Fits := fun _ => Nat.zero_le _
  have allocated : ((blank [] uninitialized).alloc 4096).Fits := Nat.zero_le _
  cases constructor with
  | status status headerBuffer =>
      exact ⟨_, rfl, rfl, rfl, init_written (given _) rfl ⟨rfl, rfl, rfl, rfl, rfl, rfl⟩ _ _ _⟩
  | number number reason headerBuffer =>
      exact ⟨_, if_pos (short number valid), rfl, rfl,
        init_written (given _) rfl ⟨rfl, rfl, rfl, rfl, rfl, rfl⟩ _ _ _⟩
  | statusAllocated status =>
      exact ⟨_, rfl, rfl, rfl, init_written allocated rfl ⟨rfl, rfl, rfl, rfl, rfl, rfl⟩ _ _ _⟩
  | numberAllocated number reason =>
      exact ⟨_, if_pos (short number valid), rfl, rfl,
        init_written allocated rfl ⟨rfl, rfl, rfl, rfl, rfl, rfl⟩ _ _ _⟩

/-- Draining a response in any spans yields the header and the body, and any spans
with room for both drain it. -/
structure Serializes (header body : Bytes) (res : Response) : Prop where
  drained : ∀ headSpans bodySpans header' body' (headed last : Response),
    drain MessageLike.produceHeaderSome headSpans res = some (header', headed) →
    drain MessageLike.produceBodySome bodySpans headed = some (body', last) →
    header' = header ∧ body' = body
  completes : ∀ headSpans bodySpans : List Bytes, headSpans ≠ [] → bodySpans ≠ [] →
    header.length ≤ (headSpans.map List.length).sum →
    body.length ≤ (bodySpans.map List.length).sum →
    ∃ headed last : Response,
      drain MessageLike.produceHeaderSome headSpans res = some (header, headed) ∧
      drain MessageLike.produceBodySome bodySpans headed = some (body, last)

/-- Draining a response in any spans yields the header, and then no call for the body returns. -/
structure Throws (header : Bytes) (res : Response) : Prop where
  drained : ∀ headSpans header' (headed : Response),
    drain MessageLike.produceHeaderSome headSpans res = some (header', headed) →
    header' = header ∧ ∀ out, MessageLike.produceBodySome headed out = none
  completes : ∀ headSpans : List Bytes, headSpans ≠ [] →
    header.length ≤ (headSpans.map List.length).sum →
    ∃ headed : Response, drain MessageLike.produceHeaderSome headSpans res = some (header, headed)

theorem Rewound.bodyPending {header body : Bytes} {res : Response}
    (rewound : Rewound header (some body) res) : BodyPending header body body res :=
  ⟨rewound.1, rewound.2.1, by rw [rewound.2.2]; exact Nat.zero_le _, by rw [rewound.2.2, List.drop_zero]⟩

theorem Rewound.headerPending {header : Bytes} {body : Option Bytes} {res : Response}
    (rewound : Rewound header body res) : HeaderPending header body header res := by
  rw [HeaderPending, started_serialized rewound.1.serialized, rewound.2.1]
  exact ⟨rewound.1, rewound.2.2, Nat.zero_le _, List.drop_zero.symm⟩

theorem Written.pending {status reason version : Bytes} {calls : List Call} {res : Response}
    (written : Written (statusLine status reason version) version calls res)
    (fresh : res.serialized = false) (atBody : res.bodyIdx = 0) :
    HeaderPending (plainHeader status reason version calls)
      (if Storable calls then some (plainBody calls) else none)
      (plainHeader status reason version calls) res := by
  obtain ⟨text, fits, serialized, length, body, index⟩ := serialize_written written
  have size : res.serialize.headerBufferIdx = (plainHeader status reason version calls).length := by
    rw [← text, Response.text, List.length_take]
    exact (Nat.min_eq_left fits).symm
  have begun : res.started = { res.serialize with
      headerSize := res.serialize.headerBufferIdx
      headerBufferIdx := 0 } := by
    simp [started, fresh]
  rw [HeaderPending, begun]
  refine ⟨⟨serialized, size, ?_, ?_⟩, index.trans atBody, Nat.zero_le _, List.drop_zero.symm⟩
  · rw [← size]
    exact text
  · have chosen := body.chosen
    rw [← bodyOf] at chosen
    simp only [currentBody, sizedBody, chosen, length, finalLength, plainBody, Storable, resize]
    by_cases unset : recordedLength calls = 0
    · simp [unset]
    · simp only [unset, ↓reduceIte]
      by_cases same : recordedLength calls = (bodyOf calls).length
      · rw [if_neg (by omega), if_pos (Or.inl same), same, resizeTo_same]
      · rw [if_pos (by omega)]
        simp only [same, false_or]

theorem calls_fresh (calls : List Call) {res : Response} (fresh : res.serialized = false)
    (atBody : res.bodyIdx = 0) : (calls.foldl Call.apply res).serialized = false ∧
      (calls.foldl Call.apply res).bodyIdx = 0 := by
  induction calls generalizing res with
  | nil => exact ⟨fresh, atBody⟩
  | cons call rest ih =>
      cases call with
      | set field value =>
          have same := set_sameBody res field value
          exact ih (same.serialized.trans fresh) (same.bodyIdx.trans atBody)
      | setNamed field value =>
          have same := setNamed_sameBody res field value
          exact ih (same.serialized.trans fresh) (same.bodyIdx.trans atBody)
      | setBody data => exact ih fresh atBody
      | setBodyString data => exact ih fresh atBody

theorem HeaderPending.serializes {header body : Bytes} {res : Response}
    (pending : HeaderPending header (some body) header res) : Serializes header body res := by
  constructor
  · intro headSpans bodySpans header' body' headed last headDrained bodyDrained
    obtain ⟨same, rewound⟩ := (emitsHeader _ _).drained pending headDrained
    exact ⟨same, ((emitsBody _ _).drained rewound.bodyPending bodyDrained).1⟩
  · intro headSpans bodySpans headSome bodySome headRoom bodyRoom
    obtain ⟨headed, headDrained, rewound⟩ :=
      (emitsHeader _ _).drains headSpans pending headSome headRoom
    obtain ⟨last, bodyDrained, _⟩ :=
      (emitsBody _ _).drains bodySpans rewound.bodyPending bodySome bodyRoom
    exact ⟨headed, last, headDrained, bodyDrained⟩

theorem HeaderPending.throws {header : Bytes} {res : Response}
    (pending : HeaderPending header none header res) : Throws header res := by
  constructor
  · intro headSpans header' headed headDrained
    obtain ⟨same, rewound⟩ := (emitsHeader _ _).drained pending headDrained
    exact ⟨same, produceBodySome_throws rewound.1.body⟩
  · intro headSpans headSome headRoom
    obtain ⟨headed, headDrained, _⟩ := (emitsHeader _ _).drains headSpans pending headSome headRoom
    exact ⟨headed, headDrained⟩

theorem Written.serializes {status reason version : Bytes} {res : Response}
    (start : Written (statusLine status reason version) version [] res)
    (fresh : res.serialized = false) (atBody : res.bodyIdx = 0) (calls : List Call) :
    (Storable calls → Serializes (plainHeader status reason version calls) (plainBody calls)
        (calls.foldl Call.apply res)) ∧
      (¬ Storable calls → Throws (plainHeader status reason version calls)
        (calls.foldl Call.apply res)) := by
  obtain ⟨fresh', atBody'⟩ := calls_fresh calls fresh atBody
  have pending := Written.pending (start.append calls) fresh' atBody'
  rw [List.nil_append] at pending
  constructor
  · intro storable
    rw [if_pos storable] at pending
    exact pending.serializes
  · intro long
    rw [if_neg long] at pending
    exact pending.throws

theorem Serializes.unique {header header' body body' : Bytes} {res : Response}
    (serializes : Serializes header body res) (serializes' : Serializes header' body' res) :
    header' = header ∧ body' = body := by
  obtain ⟨headed, last, headDrained, bodyDrained⟩ := serializes'.completes
    [List.replicate header'.length 0] [List.replicate body'.length 0] (by simp) (by simp)
    (by simp) (by simp)
  exact serializes.drained _ _ _ _ _ _ headDrained bodyDrained

theorem Throws.unserialized {header header' body : Bytes} {res : Response} (throws : Throws header res) :
    ¬ Serializes header' body res := by
  intro serializes
  obtain ⟨headed, last, headDrained, bodyDrained⟩ := serializes.completes
    [List.replicate header'.length 0] [List.replicate body.length 0] (by simp) (by simp)
    (by simp) (by simp)
  have none_ := (throws.drained _ _ _ headDrained).2 (List.replicate body.length 0)
  simp [drain, none_] at bodyDrained

theorem serializes_plainly (constructor : Constructor) (valid : constructor.Valid) (version : Bytes)
    (uninitialized : Bool) (calls : List Call) :
    ∃ res, constructor.build version uninitialized = some res ∧
      (Storable calls →
        Serializes (plainHeader constructor.statusText constructor.reasonText version calls)
          (plainBody calls) (calls.foldl Call.apply res)) ∧
      (¬ Storable calls →
        Throws (plainHeader constructor.statusText constructor.reasonText version calls)
          (calls.foldl Call.apply res)) := by
  obtain ⟨res, built, fresh, atBody, start⟩ := constructor_written valid version uninitialized
  exact ⟨res, built, start.serializes fresh atBody calls⟩

/-- A status number with a string body and a length that is set by name. -/
theorem serializes_plainly_number : ∃ res,
    (Constructor.number 299 (ascii "Odd") []).build (ascii "1.0") true = some res ∧
      Serializes (plainHeader (Decimal.text 299) (ascii "Odd") (ascii "1.0")
          [.setBodyString (ascii "hi"), .setNamed (ascii "content-length") (ascii "3")])
        [0x68, 0x69, 0] ([.setBodyString (ascii "hi"),
          .setNamed (ascii "content-length") (ascii "3")].foldl Call.apply res) := by
  obtain ⟨res, built, serializes, _⟩ := serializes_plainly (.number 299 (ascii "Odd") [])
    (by decide : 299 < 2 ^ 31) (ascii "1.0") true
    [.setBodyString (ascii "hi"), .setNamed (ascii "content-length") (ascii "3")]
  exact ⟨res, built, serializes (by decide)⟩

/-- A length above `max_size` is set, and the body cannot be drained. -/
theorem serializes_plainly_long :
    ¬ Serializes (plainHeader (ascii "200") (ascii "OK") (ascii "1.1") overlong) (plainBody overlong)
      (overlong.foldl Call.apply (ofStatusAllocated .ok (ascii "1.1") false)) := by
  obtain ⟨res, built, fresh, atBody, start⟩ :=
    @constructor_written (.statusAllocated .ok) trivial (ascii "1.1") false
  cases built
  exact ((start.serializes fresh atBody overlong).2 (by decide)).unserialized

end CoServer.Http.Response
