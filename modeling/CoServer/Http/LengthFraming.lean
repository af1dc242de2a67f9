import CoServer.Http.HeadTaken

/-!
Which heads with fields for the length are accepted. Only the first line of the
first of them is looked at, and only its leading digits: a head is framed by a
length that all its fields denote, or rejected, unless that line starts with a
number and the fields do not denote one. A line that continues a field is part of
the field's value, and no part of what the field is looked up for.
-/

namespace CoServer.Http.Request

def continuation (headers : List PhrHeader) : Bytes :=
  (headers.takeWhile fun header => header.name.isNone).flatMap PhrHeader.value

/-- The complete values of the fields of a kind: each with the lines that continue it,
and without the blanks in front. -/
def foldedValues (field : Field) : List PhrHeader → List Bytes
  | [] => []
  | header :: headers =>
      if field.named (header.name.getD []) then
        (header.value ++ continuation headers).dropWhile isBlank :: foldedValues field headers
      else foldedValues field headers

def Denote (values : List Bytes) (length : Nat) : Prop :=
  length < sizeModulus ∧
    ∀ value ∈ values, value ≠ [] ∧ value.all Decimal.isDigit = true ∧ Decimal.value value = length

/-- A head that is accepted is framed by the length that its fields denote, and one
whose fields denote none is rejected. -/
structure FramedByLength (req : Request) (data : Bytes) (values : List Bytes) : Prop where
  accepted : ∀ req', (req.fill data).deserialize = some (true, req') →
    ∃ length, Denote values length ∧ req'.contentLength = some length
  rejected : (¬ ∃ length, Denote values length) → ∃ req',
    (req.fill data).deserialize = some (false, req') ∧
      req.consumeHeaderSome data = some ((some .invalidMessage, true, 0), req')

def NoLeadingNumber (text : Bytes) : Prop :=
  text.takeWhile Decimal.isDigit = [] ∨ sizeModulus ≤ Decimal.value (text.takeWhile Decimal.isDigit)

theorem fromChars_none {text : Bytes} : fromChars text = none ↔ NoLeadingNumber text := by
  simp only [fromChars, NoLeadingNumber]
  by_cases none_ : text.takeWhile Decimal.isDigit = []
  · simp [none_]
  · by_cases small : Decimal.value (text.takeWhile Decimal.isDigit) < sizeModulus
    · simp [none_, small]
    · simp [none_, Nat.not_lt.mp small]

theorem Denote.read {value : Bytes} {values : List Bytes} {length : Nat}
    (denote : Denote (value :: values) length) : fromChars value = some length := by
  obtain ⟨bound, numerals⟩ := denote
  obtain ⟨some_, digits, rfl⟩ := numerals value List.mem_cons_self
  have whole : value.takeWhile Decimal.isDigit = value := by
    rw [List.takeWhile_eq_self_iff]
    exact List.all_eq_true.mp digits
  simp only [fromChars, whole, some_, ↓reduceIte, bound]

/-- A line that continues a field is empty or starts with a blank. -/
def Folded (headers : List PhrHeader) : Prop :=
  ∀ header ∈ headers, header.name = none → ∀ char ∈ header.value.head?, isBlank char = true

theorem Folded.tail {header : PhrHeader} {headers : List PhrHeader} (folded : Folded (header :: headers)) :
    Folded headers := fun other member => folded other (List.mem_cons_of_mem _ member)

theorem continuation_blank {headers : List PhrHeader} (folded : Folded headers) :
    ∀ char ∈ (continuation headers).head?, isBlank char = true := by
  induction headers with
  | nil => simp [continuation]
  | cons header headers ih =>
      have later := ih folded.tail
      cases name : header.name with
      | some text => simp [continuation, name]
      | none =>
          have shape : continuation (header :: headers) = header.value ++ continuation headers := by
            simp [continuation, name]
          rw [shape, List.head?_append]
          have front := folded header List.mem_cons_self name
          cases first : header.value.head? with
          | none => exact later
          | some char => rwa [first] at front

theorem foldedValues_cons {field : Field} {headers : List PhrHeader} {value : Bytes} {values : List Bytes}
    (folded : Folded headers) (shape : valuesOf field headers = value :: values) :
    ∃ more wholes, foldedValues field headers = (value ++ more).dropWhile isBlank :: wholes ∧
      ∀ char ∈ more.head?, isBlank char = true := by
  induction headers with
  | nil => cases shape
  | cons header headers ih =>
      by_cases named : field.named (header.name.getD []) = true
      · simp only [valuesOf, fieldsOf, List.map_cons, List.filter_cons, named, ↓reduceIte,
          List.cons.injEq] at shape
        obtain ⟨rfl, _⟩ := shape
        exact ⟨_, _, by rw [foldedValues, if_pos named], continuation_blank folded.tail⟩
      · simp only [valuesOf, fieldsOf, List.map_cons, List.filter_cons, named, Bool.false_eq_true,
          ↓reduceIte] at shape
        rw [foldedValues, if_neg named]
        exact ih folded.tail shape

theorem headers_folded {buffer : Bytes} {ret : Int} {numHeaders : Nat} {parsed : PhrRequest}
    (accepts : phrParseRequest buffer maxNumHeaders = (ret, numHeaders, some parsed)) :
    Folded parsed.headers := by
  obtain ⟨head, _, rfl⟩ := phrParseRequest_sound accepts
  intro header member none_ char first
  obtain ⟨line, _, rfl⟩ := List.mem_map.mp member
  obtain ⟨_, char', first', blank⟩ := line.folded none_
  obtain ⟨blanks, split⟩ := trimBlanks_prefix line.content
  have trimmed : (trimBlanks line.content).head? = some char := first
  rw [split, List.head?_append, trimmed] at first'
  cases first'
  exact blank

theorem digit_not_blank {char : UInt8} (digit : Decimal.isDigit char = true) : isBlank char = false := by
  rw [isBlank, Bool.or_eq_false_iff, beq_eq_false_iff_ne, beq_eq_false_iff_ne]
  constructor <;>
  · rintro rfl
    exact absurd digit (by decide)

theorem Denote.unfolded {value more : Bytes} {wholes : List Bytes} {length length' : Nat}
    (number : fromChars value = some length) (blank : ∀ char ∈ more.head?, isBlank char = true)
    (denote : Denote ((value ++ more).dropWhile isBlank :: wholes) length') : length' = length := by
  obtain ⟨char, rest, rfl⟩ : ∃ char rest, value = char :: rest :=
    List.exists_cons_of_ne_nil (by rintro rfl; cases number)
  have solid : isBlank char = false := by
    by_cases digit : Decimal.isDigit char = true
    · exact digit_not_blank digit
    · simp [fromChars, digit] at number
  have whole : (char :: rest ++ more).dropWhile isBlank = char :: rest ++ more := by
    rw [List.cons_append, List.dropWhile_cons, solid, if_neg Bool.false_ne_true]
  have none_ : more = [] := by
    cases more with
    | nil => rfl
    | cons blank_ others =>
        have digits := (denote.2 _ List.mem_cons_self).2.1
        rw [whole] at digits
        have digit := List.all_eq_true.mp digits blank_ (by simp)
        have blank := blank blank_ rfl
        rw [digit_not_blank digit] at blank
        cases blank
  have read := denote.read
  rw [whole, none_, List.append_nil, number, Option.some.injEq] at read
  exact read.symm

theorem framed_by_length_iff (req : Request) (data : Bytes) (ret : Int) (numHeaders : Nat)
    (parsed : PhrRequest) (finished : (req.scanData data).1.numFound = 4)
    (accepts : phrParseRequest (req.fill data).headerBuffer maxNumHeaders =
      (ret, numHeaders, some parsed)) (positive : 0 < ret)
    (named : valuesOf .contentLength parsed.headers ≠ []) :
    FramedByLength req data (foldedValues .contentLength parsed.headers) ↔
      (∃ line ∈ (valuesOf .contentLength parsed.headers).head?, NoLeadingNumber line) ∨
        ∃ length, Denote (foldedValues .contentLength parsed.headers) length := by
  obtain ⟨value, values, shape⟩ := List.exists_cons_of_ne_nil named
  have framing : lengthOf (req.fill data).contentLength (valuesOf .contentLength parsed.headers) =
      (fromChars value).map some := by rw [shape, lengthOf]
  obtain ⟨more, wholes, folded, blank⟩ := foldedValues_cons (headers_folded accepts) shape
  rw [shape, folded]
  cases number : fromChars value with
  | none =>
      rw [number, Option.map_none] at framing
      have failed := (deserialize_framing accepts positive).1 framing
      refine iff_of_true ⟨?_, fun _ => ⟨_, failed, ?_⟩⟩ (Or.inl ⟨value, rfl, fromChars_none.mp number⟩)
      · intro req' accepted
        rw [failed] at accepted
        cases accepted
      · rw [consumeHeaderSome_finished finished, acceptHeader, failed]
  | some length =>
      rw [number, Option.map_some] at framing
      obtain ⟨undefined, final⟩ := deserialize_target accepts positive framing
      have ends : ∀ {success : Bool} {req' : Request},
          (req.fill data).deserialize = some (success, req') →
            success = true ∧ req'.contentLength = some length := by
        intro success req' read
        by_cases none_ : pathPart parsed.path = []
        · rw [undefined none_] at read
          cases read
        · rw [final none_] at read
          cases read
          exact ⟨rfl, rfl⟩
      have leading : ¬ ∃ first ∈ (value :: values).head?, NoLeadingNumber first := by
        rintro ⟨first, same, none_⟩
        cases same
        rw [← fromChars_none, number] at none_
        cases none_
      rw [or_iff_right leading]
      constructor
      · rintro ⟨_, rejected⟩
        by_contra undenoted
        obtain ⟨req', failed, _⟩ := rejected undenoted
        cases (ends failed).1
      · rintro ⟨length', denote⟩
        obtain rfl := Denote.unfolded number blank denote
        refine ⟨?_, fun undenoted => (undenoted ⟨length', denote⟩).elim⟩
        intro req' accepted
        exact ⟨length', denote, (ends accepted).2⟩

theorem framed_by_length_iff_twice :
    FramedByLength (ofSize 64)
        (ascii "PUT / HTTP/1.1\r\nContent-Length: 5\r\n \r\ncontent-length: 05\r\n\r\n")
        [ascii "5", ascii "05"] ↔
      (∃ line ∈ [ascii "5", ascii "05"].head?, NoLeadingNumber line) ∨
        ∃ length, Denote [ascii "5", ascii "05"] length :=
  framed_by_length_iff (ofSize 64)
    (ascii "PUT / HTTP/1.1\r\nContent-Length: 5\r\n \r\ncontent-length: 05\r\n\r\n") 60 3
    ⟨ascii "PUT", ascii "/", 1, [⟨some (ascii "Content-Length"), ascii "5"⟩, ⟨none, []⟩,
      ⟨some (ascii "content-length"), ascii "05"⟩]⟩
    (by decide +kernel) (by decide +kernel) (by decide) (by decide)

example : foldedValues .contentLength
    [⟨some (ascii "Content-Length"), ascii "5"⟩, ⟨none, ascii " 6"⟩] = [ascii "5 6"] := by decide

/-- The head is accepted with the leading digits of the first of two fields. -/
theorem length_prefix_accepted :
    ((ofSize 64).consumeHeaderSome
        (ascii "PUT / HTTP/1.1\r\nContent-Length: 5x\r\nContent-Length: 7\r\n\r\n")).map
          (fun after => (after.1, after.2.contentLength, after.2.getList .contentLength)) =
        some ((none, true, 57), some 5, [ascii "5x", ascii "7"]) ∧
      ¬ FramedByLength (ofSize 64)
        (ascii "PUT / HTTP/1.1\r\nContent-Length: 5x\r\nContent-Length: 7\r\n\r\n")
        [ascii "5x", ascii "7"] := by
  refine ⟨by decide +kernel, ?_⟩
  rintro ⟨accepted, _⟩
  have success : (((ofSize 64).fill
      (ascii "PUT / HTTP/1.1\r\nContent-Length: 5x\r\nContent-Length: 7\r\n\r\n")).deserialize).map
        Prod.fst = some true := by decide +kernel
  obtain ⟨⟨_, req'⟩, read, rfl⟩ := Option.map_eq_some_iff.mp success
  obtain ⟨length, ⟨_, numerals⟩, _⟩ := accepted req' read
  have digits := (numerals (ascii "5x") List.mem_cons_self).2.1
  revert digits
  decide

end CoServer.Http.Request
