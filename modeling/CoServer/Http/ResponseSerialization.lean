import CoServer.Drain
import CoServer.Http.Response

/-!
What a response puts on the wire is the plain concatenation of its status line,
its fields in call order, the fields it adds itself and its body, for any buffer
it starts with and any value of the flag that `setBody` sets.
-/

namespace CoServer.Http

inductive Call
  | set (field : Field) (value : Bytes)
  | setNamed (field value : Bytes)
  | setBody (data : Bytes)
  | setBodyString (data : Bytes)

def fieldLine (name value : Bytes) : Bytes := name ++ ascii ": " ++ value ++ ascii "\r\n"

namespace Call

def apply (res : Response) : Call → Response
  | .set field value => res.set field value
  | .setNamed field value => res.setNamed field value
  | .setBody data => res.setBody data
  | .setBodyString data => res.setBodyString data

def line : Call → Bytes
  | .set field value => fieldLine (fieldStrArr field) value
  | .setNamed field value => fieldLine field value
  | .setBody _ | .setBodyString _ => []

def sets (field : Field) : Call → Bool
  | .set other _ => decide (other = field)
  | .setNamed name _ => field.named name
  | .setBody _ | .setBodyString _ => false

/-- The content length after the call, when it was the given one before. -/
def recorded (length : Nat) (call : Call) : Nat :=
  if call.sets .contentLength then
    match call with
    | .set _ value | .setNamed _ value => (fromChars value).getD length
    | .setBody _ | .setBodyString _ => length
  else length

/-- The body after the call, with a flag for a string body. -/
def bodyAfter (body : Option (Bool × Bytes)) : Call → Option (Bool × Bytes)
  | .set _ _ | .setNamed _ _ => body
  | .setBody data => some (false, data)
  | .setBodyString data => some (true, data)

end Call

def recordedLength (calls : List Call) : Nat := calls.foldl Call.recorded 0

def lastBody (calls : List Call) : Option (Bool × Bytes) := calls.foldl Call.bodyAfter none

def bodyOf (calls : List Call) : Bytes := ((lastBody calls).map Prod.snd).getD []

def statusLine (status reason version : Bytes) : Bytes :=
  ascii "HTTP/" ++ version ++ ascii " " ++ status ++ ascii " " ++ reason ++ ascii "\r\n"

def contentTypeLine (calls : List Call) : Bytes :=
  if !calls.any (Call.sets .contentType) && !(bodyOf calls).isEmpty then
    fieldLine (ascii "Content-Type")
      (if ((lastBody calls).map Prod.fst).getD false then ascii "text/plain"
        else ascii "application/octet-stream")
  else []

def connectionLine (version : Bytes) (calls : List Call) : Bytes :=
  if !calls.any (Call.sets .connection) then
    fieldLine (ascii "Connection")
      (if version = ascii "1.0" then ascii "close" else ascii "keep-alive")
  else []

def contentLengthLine (calls : List Call) : Bytes :=
  if recordedLength calls = 0 then
    fieldLine (ascii "Content-Length") (Decimal.text (bodyOf calls).length)
  else []

def plainHeader (status reason version : Bytes) (calls : List Call) : Bytes :=
  statusLine status reason version ++ calls.flatMap Call.line ++ contentTypeLine calls ++
    connectionLine version calls ++ contentLengthLine calls ++ ascii "\r\n"

def plainBody (calls : List Call) : Bytes :=
  if recordedLength calls = 0 then bodyOf calls else resizeTo (bodyOf calls) (recordedLength calls)

/-- A body of the length that is recorded is one that is there already, or one that a
string and a vector can hold. -/
def Storable (calls : List Call) : Prop :=
  recordedLength calls = (bodyOf calls).length ∨ recordedLength calls ≤ maxSize

instance (calls : List Call) : Decidable (Storable calls) := inferInstanceAs (Decidable (_ ∨ _))

def overlong : List Call :=
  [.set .contentLength (ascii "9223372036854775808"), .setBodyString (ascii "hi")]

example : ¬ Storable overlong := by decide

namespace Response

def text (res : Response) : Bytes := res.headerBuffer.take res.headerBufferIdx

def Fits (res : Response) : Prop := res.headerBufferIdx ≤ res.headerBuffer.length

theorem alloc_text {res : Response} (fits : res.Fits) (num : Nat) :
    (res.alloc num).text = res.text ∧
      (res.alloc num).headerBufferIdx + num ≤ (res.alloc num).headerBuffer.length := by
  rw [Fits] at fits
  simp only [text, alloc]
  by_cases full : res.headerBuffer.length ≤ res.headerBufferIdx + num
  · have size : (Splice.window res.headerBuffer 0 res.headerBufferIdx).length =
        res.headerBufferIdx := Splice.window_length (by omega)
    rw [if_pos full]
    constructor
    · generalize List.replicate _ (0 : UInt8) = fresh
      have stored := Splice.store_take_end (Splice.window res.headerBuffer 0 res.headerBufferIdx)
        (Nat.zero_le fresh.length)
      rw [Nat.zero_add, size, List.take_zero, List.nil_append] at stored
      rw [stored, Splice.window, List.drop_zero]
    · rw [Splice.store_length (by rw [size, List.length_replicate]; omega), List.length_replicate]
      omega
  · rw [if_neg full]
    exact ⟨rfl, by omega⟩

theorem put_text (res : Response) (block : Bytes)
    (room : res.headerBufferIdx + block.length ≤ res.headerBuffer.length) :
    (res.put block).text = res.text ++ block ∧
      (res.put block).headerBuffer.length = res.headerBuffer.length := by
  simp only [text, put]
  exact ⟨Splice.store_take_end block (by omega), Splice.store_length room⟩

def putAll (res : Response) (parts : List Bytes) : Response := parts.foldl put res

theorem putAll_text (parts : List Bytes) (res : Response)
    (room : res.headerBufferIdx + parts.flatten.length ≤ res.headerBuffer.length) :
    (res.putAll parts).text = res.text ++ parts.flatten ∧ (res.putAll parts).Fits := by
  induction parts generalizing res with
  | nil => exact ⟨by simp [putAll], by simpa [putAll, Fits] using room⟩
  | cons part rest ih =>
      rw [List.flatten_cons, List.length_append] at room
      obtain ⟨first, same⟩ := res.put_text part (by omega)
      have later : (res.put part).headerBufferIdx + rest.flatten.length ≤
          (res.put part).headerBuffer.length := by
        rw [same]
        simp only [put]
        omega
      obtain ⟨others, fits⟩ := ih (res.put part) later
      refine ⟨?_, fits⟩
      rw [List.flatten_cons, ← List.append_assoc, ← first]
      exact others

theorem putField_text {res : Response} (fits : res.Fits) (name value : Bytes) :
    (res.putField name value).text = res.text ++ fieldLine name value ∧
      (res.putField name value).Fits := by
  let parts := [name, ascii ": ", value, ascii "\r\n"]
  have line : parts.flatten = fieldLine name value := by simp [parts, fieldLine]
  have size : parts.flatten.length =
      name.length + (ascii ": ").length + value.length + (ascii "\r\n").length := by
    simp only [line, fieldLine, List.length_append]
  obtain ⟨kept, room⟩ := alloc_text fits parts.flatten.length
  have all := putAll_text parts _ room
  have same : res.putField name value = (res.alloc parts.flatten.length).putAll parts := by
    rw [size]
    rfl
  rwa [same, ← line, ← kept]

theorem init_text {res : Response} (fits : res.Fits) (status reason version : Bytes) :
    (res.init status reason version).text = res.text ++ statusLine status reason version ∧
      (res.init status reason version).Fits := by
  let started := { res with
    defaultKeepAlive := if version = ascii "1.0" then false else res.defaultKeepAlive }
  let parts :=
    [ascii "HTTP/", version, ascii " ", status, ascii " ", reason, ascii "\r\n"]
  have line : parts.flatten = statusLine status reason version := by simp [parts, statusLine]
  have size : parts.flatten.length = (ascii "HTTP/").length + version.length + 1 + status.length +
      1 + reason.length + (ascii "\r\n").length := by
    have space : (ascii " ").length = 1 := rfl
    simp only [line, statusLine, List.length_append, space]
  obtain ⟨kept, room⟩ := alloc_text (show started.Fits from fits) parts.flatten.length
  have all := putAll_text parts _ room
  have same : res.init status reason version =
      (started.alloc parts.flatten.length).putAll parts := by
    rw [size]
    rfl
  rwa [same, ← line, show res.text = started.text from rfl, ← kept]

/-- What no field call changes. -/
structure SameBody (before after : Response) : Prop where
  keepAlive : after.defaultKeepAlive = before.defaultKeepAlive
  serialized : after.serialized = before.serialized
  stringBody : after.stringBody = before.stringBody
  body : after.body = before.body
  bodyIdx : after.bodyIdx = before.bodyIdx
  isBodyString : after.isBodyString = before.isBodyString

theorem set_marked (res : Response) (field : Field) (value : Bytes) :
    ∃ marked : Response, marked.headerBuffer = res.headerBuffer ∧
      marked.headerBufferIdx = res.headerBufferIdx ∧ SameBody res marked ∧
      res.set field value = marked.putField (fieldStrArr field) value := by
  refine ⟨_, ?_, ?_, ?_, rfl⟩
  · cases field <;> rfl
  · cases field <;> rfl
  · cases field <;> exact ⟨rfl, rfl, rfl, rfl, rfl, rfl⟩

theorem setNamed_marked (res : Response) (field value : Bytes) :
    ∃ marked : Response, marked.headerBuffer = res.headerBuffer ∧
      marked.headerBufferIdx = res.headerBufferIdx ∧ SameBody res marked ∧
      res.setNamed field value = marked.putField field value := by
  refine ⟨_, ?_, ?_, ?_, rfl⟩
  · split
    · rfl
    · split
      · rfl
      · split <;> rfl
  · split
    · rfl
    · split
      · rfl
      · split <;> rfl
  · split
    · constructor <;> rfl
    · split
      · constructor <;> rfl
      · split <;> constructor <;> rfl

theorem marked_text {res marked : Response} (fits : res.Fits)
    (buffer : marked.headerBuffer = res.headerBuffer)
    (index : marked.headerBufferIdx = res.headerBufferIdx) (name value : Bytes) :
    (marked.putField name value).text = res.text ++ fieldLine name value ∧
      (marked.putField name value).Fits := by
  have fits' : marked.Fits := by rwa [Fits, buffer, index]
  have put := putField_text fits' name value
  rwa [show marked.text = res.text by rw [text, text, buffer, index]] at put

theorem set_text {res : Response} (fits : res.Fits) (field : Field) (value : Bytes) :
    (res.set field value).text = res.text ++ fieldLine (fieldStrArr field) value ∧
      (res.set field value).Fits := by
  obtain ⟨marked, buffer, index, _, same⟩ := set_marked res field value
  rw [same]
  exact marked_text fits buffer index _ value

theorem setNamed_text {res : Response} (fits : res.Fits) (field value : Bytes) :
    (res.setNamed field value).text = res.text ++ fieldLine field value ∧
      (res.setNamed field value).Fits := by
  obtain ⟨marked, buffer, index, _, same⟩ := setNamed_marked res field value
  rw [same]
  exact marked_text fits buffer index _ value

theorem named_length {field : Field} {name : Bytes} (is : field.named name = true) :
    name.length = (fieldStrArr field).length := by
  simp only [Field.named, Bool.or_eq_true, beq_iff_eq] at is
  rcases is with rfl | rfl
  · rfl
  · cases field <;> decide

theorem set_contentType (res : Response) (field : Field) (value : Bytes) :
    (res.set field value).hasContentType = (res.hasContentType || decide (field = .contentType)) := by
  cases field <;> simp [set]

theorem set_connection (res : Response) (field : Field) (value : Bytes) :
    (res.set field value).hasConnection = (res.hasConnection || decide (field = .connection)) := by
  cases field <;> simp [set]

theorem set_contentLength (res : Response) (field : Field) (value : Bytes) :
    (res.set field value).contentLength =
      if field = .contentLength then (fromChars value).getD res.contentLength
      else res.contentLength := by
  cases field <;> simp [set]

theorem setNamed_flags (res : Response) (field value : Bytes) :
    (res.setNamed field value).hasContentType =
        (res.hasContentType || Field.contentType.named field) ∧
      (res.setNamed field value).hasConnection =
        (res.hasConnection || Field.connection.named field) ∧
      (res.setNamed field value).contentLength =
        if Field.contentLength.named field then (fromChars value).getD res.contentLength
        else res.contentLength := by
  have apart : ∀ first second : Field, (fieldStrArr first).length ≠ (fieldStrArr second).length →
      first.named field = true → second.named field = false := by
    intro first second lengths is
    by_contra also
    rw [Bool.not_eq_false] at also
    exact lengths ((named_length is).symm.trans (named_length also))
  rw [setNamed]
  cases isType : Field.contentType.named field with
  | true =>
      have notConnection := apart .contentType .connection (by decide) isType
      have notLength := apart .contentType .contentLength (by decide) isType
      simp [notConnection, notLength]
  | false =>
      cases isConnection : Field.connection.named field with
      | true =>
          have notLength := apart .connection .contentLength (by decide) isConnection
          simp [notLength]
      | false =>
          cases isLength : Field.contentLength.named field with
          | true => simp
          | false => simp

theorem set_sameBody (res : Response) (field : Field) (value : Bytes) :
    SameBody res (res.set field value) := by
  obtain ⟨marked, _, _, same, put⟩ := set_marked res field value
  rw [put]
  exact ⟨same.keepAlive, same.serialized, same.stringBody, same.body, same.bodyIdx,
    same.isBodyString⟩

theorem setNamed_sameBody (res : Response) (field value : Bytes) :
    SameBody res (res.setNamed field value) := by
  obtain ⟨marked, _, _, same, put⟩ := setNamed_marked res field value
  rw [put]
  exact ⟨same.keepAlive, same.serialized, same.stringBody, same.body, same.bodyIdx,
    same.isBodyString⟩

/-- The body of a response is that of the last call that set one. -/
structure HoldsBody (body : Option (Bool × Bytes)) (res : Response) : Prop where
  none : body = none → res.body = [] ∧ res.stringBody = []
  bytes : ∀ data, body = some (false, data) →
    res.isBodyString = false ∧ res.body = data ∧ res.stringBody = []
  string : ∀ data, body = some (true, data) →
    res.isBodyString = true ∧ res.stringBody = data ∧ res.body = []

theorem HoldsBody.chosen {body : Option (Bool × Bytes)} {res : Response} (holds : HoldsBody body res) :
    (if res.isBodyString then res.stringBody else res.body) = (body.map Prod.snd).getD [] := by
  cases body with
  | none =>
      obtain ⟨first, second⟩ := holds.none rfl
      simp [first, second]
  | some last =>
      obtain ⟨kind, data⟩ := last
      cases kind with
      | false =>
          obtain ⟨flag, same, _⟩ := holds.bytes data rfl
          simp [flag, same]
      | true =>
          obtain ⟨flag, same, _⟩ := holds.string data rfl
          simp [flag, same]

theorem HoldsBody.size {body : Option (Bool × Bytes)} {res : Response} (holds : HoldsBody body res) :
    res.body.length + res.stringBody.length = ((body.map Prod.snd).getD []).length := by
  cases body with
  | none =>
      obtain ⟨first, second⟩ := holds.none rfl
      simp [first, second]
  | some last =>
      obtain ⟨kind, data⟩ := last
      cases kind with
      | false =>
          obtain ⟨_, same, other⟩ := holds.bytes data rfl
          simp [same, other]
      | true =>
          obtain ⟨_, same, other⟩ := holds.string data rfl
          simp [same, other]

theorem HoldsBody.kind {body : Option (Bool × Bytes)} {res : Response} (holds : HoldsBody body res)
    (some_ : (body.map Prod.snd).getD [] ≠ []) :
    res.isBodyString = (body.map Prod.fst).getD false := by
  cases body with
  | none => exact (some_ rfl).elim
  | some last =>
      obtain ⟨kind, data⟩ := last
      cases kind with
      | false => exact (holds.bytes data rfl).1
      | true => exact (holds.string data rfl).1

theorem HoldsBody.same {body : Option (Bool × Bytes)} {before after : Response}
    (holds : HoldsBody body before) (same : SameBody before after) : HoldsBody body after := by
  constructor
  · rw [same.body, same.stringBody]
    exact holds.none
  · rw [same.body, same.stringBody, same.isBodyString]
    exact holds.bytes
  · rw [same.body, same.stringBody, same.isBodyString]
    exact holds.string

/-- What a response holds after some calls. -/
structure Written (start version : Bytes) (calls : List Call) (res : Response) : Prop where
  fits : res.Fits
  text : res.text = start ++ calls.flatMap Call.line
  keepAlive : res.defaultKeepAlive = decide (version ≠ ascii "1.0")
  contentType : res.hasContentType = calls.any (Call.sets .contentType)
  connection : res.hasConnection = calls.any (Call.sets .connection)
  contentLength : res.contentLength = recordedLength calls
  body : HoldsBody (lastBody calls) res

theorem Written.snoc {start version : Bytes} {calls : List Call} {res : Response}
    (written : Written start version calls res) (call : Call) :
    Written start version (calls ++ [call]) (call.apply res) := by
  have any : ∀ field, (calls ++ [call]).any (Call.sets field) =
      (calls.any (Call.sets field) || call.sets field) := by
    intro field
    simp
  have length : recordedLength (calls ++ [call]) = call.recorded (recordedLength calls) := by
    rw [recordedLength, List.foldl_append]
    rfl
  have body : lastBody (calls ++ [call]) = call.bodyAfter (lastBody calls) := by
    rw [lastBody, List.foldl_append]
    rfl
  have lines : (calls ++ [call]).flatMap Call.line = calls.flatMap Call.line ++ call.line := by
    simp
  constructor
  · cases call with
    | set field value => exact (set_text written.fits field value).2
    | setNamed field value => exact (setNamed_text written.fits field value).2
    | setBody data => exact written.fits
    | setBodyString data => exact written.fits
  · rw [lines, ← List.append_assoc, ← written.text]
    cases call with
    | set field value => exact (set_text written.fits field value).1
    | setNamed field value => exact (setNamed_text written.fits field value).1
    | setBody data => exact (List.append_nil _).symm
    | setBodyString data => exact (List.append_nil _).symm
  · rw [← written.keepAlive]
    cases call with
    | set field value => exact (set_sameBody res field value).keepAlive
    | setNamed field value => exact (setNamed_sameBody res field value).keepAlive
    | setBody data => rfl
    | setBodyString data => rfl
  · rw [any, ← written.contentType]
    cases call with
    | set field value => exact set_contentType res field value
    | setNamed field value => exact (setNamed_flags res field value).1
    | setBody data => exact (Bool.or_false _).symm
    | setBodyString data => exact (Bool.or_false _).symm
  · rw [any, ← written.connection]
    cases call with
    | set field value => exact set_connection res field value
    | setNamed field value => exact (setNamed_flags res field value).2.1
    | setBody data => exact (Bool.or_false _).symm
    | setBodyString data => exact (Bool.or_false _).symm
  · rw [length, ← written.contentLength]
    cases call with
    | set field value =>
        simp only [Call.apply, set_contentLength, Call.recorded, Call.sets, decide_eq_true_eq]
    | setNamed field value =>
        rw [Call.apply, (setNamed_flags res field value).2.2]
        rfl
    | setBody data => rfl
    | setBodyString data => rfl
  · rw [body]
    cases call with
    | set field value => exact written.body.same (set_sameBody res field value)
    | setNamed field value => exact written.body.same (setNamed_sameBody res field value)
    | setBody data => constructor <;> simp [Call.bodyAfter, Call.apply, setBody]
    | setBodyString data => constructor <;> simp [Call.bodyAfter, Call.apply, setBodyString]

theorem Written.append {start version : Bytes} {done : List Call} {res : Response}
    (written : Written start version done res) (calls : List Call) :
    Written start version (done ++ calls) (calls.foldl Call.apply res) := by
  induction calls generalizing done res with
  | nil => rwa [List.append_nil]
  | cons call rest ih =>
      have later := ih (written.snoc call)
      rwa [List.append_assoc, List.singleton_append] at later

theorem set_when {res : Response} (fits : res.Fits) (condition : Bool) (field : Field)
    (value : Bytes) :
    (if condition then res.set field value else res).text =
        res.text ++ (if condition then fieldLine (fieldStrArr field) value else []) ∧
      (if condition then res.set field value else res).Fits ∧
      SameBody res (if condition then res.set field value else res) ∧
      (field ≠ .connection →
        (if condition then res.set field value else res).hasConnection = res.hasConnection) ∧
      (field ≠ .contentLength →
        (if condition then res.set field value else res).contentLength = res.contentLength) := by
  cases condition with
  | false => exact ⟨(List.append_nil _).symm, fits, ⟨rfl, rfl, rfl, rfl, rfl, rfl⟩,
      fun _ => rfl, fun _ => rfl⟩
  | true =>
      obtain ⟨put, fits'⟩ := set_text fits field value
      refine ⟨put, fits', set_sameBody res field value, ?_, ?_⟩
      · intro other
        simp [set_connection, other]
      · intro other
        simp [set_contentLength, other]

theorem fromChars_text_getD (number : Nat) :
    (fromChars (Decimal.text number)).getD number = number := by
  by_cases bound : number < sizeModulus
  · rw [fromChars_text bound, Option.getD_some]
  · have digits : (Decimal.text number).takeWhile Decimal.isDigit = Decimal.text number := by
      rw [List.takeWhile_eq_self_iff]
      exact Decimal.text_isDigit number
    simp only [fromChars, digits, Decimal.text_ne_nil, ↓reduceIte, Decimal.value_text, bound,
      Option.getD_none]

def finalLength (calls : List Call) : Nat :=
  if recordedLength calls = 0 then (bodyOf calls).length else recordedLength calls

theorem contentTypeLine_eq {calls : List Call} {res : Response} (body : HoldsBody (lastBody calls) res)
    (flag : res.hasContentType = calls.any (Call.sets .contentType)) :
    (if !res.hasContentType && decide (res.body.length + res.stringBody.length > 0) then
      fieldLine (fieldStrArr .contentType)
        (if res.isBodyString then ascii "text/plain" else ascii "application/octet-stream")
      else []) = contentTypeLine calls := by
  have size := body.size
  rw [contentTypeLine, flag, size, ← bodyOf]
  cases data : bodyOf calls with
  | nil => simp
  | cons first rest =>
      have kind := body.kind (by rw [← bodyOf, data]; simp)
      rw [kind]
      simp [fieldStrArr]

theorem lengthLine {res : Response} (fits : res.Fits) (length : Nat) :
    ({ res with contentLength := length }.set .contentLength (toChars length)).text =
        res.text ++ fieldLine (fieldStrArr .contentLength) (Decimal.text length) ∧
      ({ res with contentLength := length }.set .contentLength (toChars length)).Fits ∧
      ({ res with contentLength := length }.set .contentLength (toChars length)).contentLength =
        length ∧
      SameBody res ({ res with contentLength := length }.set .contentLength (toChars length)) := by
  let marked := { res with contentLength := length }
  have fits' : marked.Fits := fits
  obtain ⟨put, room⟩ := set_text fits' .contentLength (toChars length)
  have same := set_sameBody marked .contentLength (toChars length)
  refine ⟨put, room, ?_, same.keepAlive, same.serialized, same.stringBody, same.body, same.bodyIdx,
    same.isBodyString⟩
  rw [set_contentLength, if_pos rfl]
  exact fromChars_text_getD length

theorem serialize_written {status reason version : Bytes} {calls : List Call} {res : Response}
    (written : Written (statusLine status reason version) version calls res) :
    res.serialize.text = plainHeader status reason version calls ∧ res.serialize.Fits ∧
      res.serialize.serialized = true ∧ res.serialize.contentLength = finalLength calls ∧
      HoldsBody (lastBody calls) res.serialize ∧ res.serialize.bodyIdx = res.bodyIdx := by
  let first := { res with serialized := true }
  have body : HoldsBody (lastBody calls) first :=
    ⟨written.body.none, written.body.bytes, written.body.string⟩
  -- the three fields that may be added, one after the other
  obtain ⟨typeText, typeFits, typeSame, typeConnection, typeLength⟩ := set_when
    (show first.Fits from written.fits)
    (!first.hasContentType && decide (first.body.length + first.stringBody.length > 0)) .contentType
    (if first.isBodyString then ascii "text/plain" else ascii "application/octet-stream")
  rw [contentTypeLine_eq body written.contentType] at typeText
  generalize second_ : (if (!first.hasContentType &&
    decide (first.body.length + first.stringBody.length > 0)) = true then
      first.set .contentType
        (if first.isBodyString then ascii "text/plain" else ascii "application/octet-stream")
      else first) = second at *
  obtain ⟨connText, connFits, connSame, _, connLength⟩ := set_when typeFits
    (!second.hasConnection) .connection
    (if second.defaultKeepAlive then ascii "keep-alive" else ascii "close")
  have keepAlive : second.defaultKeepAlive = decide (version ≠ ascii "1.0") :=
    typeSame.keepAlive.trans written.keepAlive
  have connection : second.hasConnection = calls.any (Call.sets .connection) :=
    (typeConnection (by decide)).trans written.connection
  have connLine : (if (!second.hasConnection) = true then fieldLine (fieldStrArr .connection)
      (if second.defaultKeepAlive then ascii "keep-alive" else ascii "close") else []) =
      connectionLine version calls := by
    rw [connectionLine, connection, keepAlive]
    by_cases old : version = ascii "1.0"
    · simp [old, fieldStrArr]
    · simp [old, fieldStrArr]
  rw [connLine] at connText
  generalize third_ : (if (!second.hasConnection) = true then
    second.set .connection (if second.defaultKeepAlive then ascii "keep-alive" else ascii "close")
    else second) = third at *
  have length : third.contentLength = recordedLength calls :=
    (connLength (by decide)).trans ((typeLength (by decide)).trans written.contentLength)
  have body' : HoldsBody (lastBody calls) third := (body.same typeSame).same connSame
  have size : (if third.isBodyString then third.stringBody.length else third.body.length) =
      (bodyOf calls).length := by
    rw [bodyOf, ← body'.chosen]
    split <;> rfl
  obtain ⟨fourth, fourth_, text, fits, same, final⟩ : ∃ fourth : Response,
      (if third.contentLength = 0 then
        { third with contentLength :=
            if third.isBodyString then third.stringBody.length else third.body.length }.set
          .contentLength (toChars (if third.isBodyString then third.stringBody.length
            else third.body.length : Nat))
        else third) = fourth ∧
      fourth.text = third.text ++ contentLengthLine calls ∧ fourth.Fits ∧ SameBody third fourth ∧
      fourth.contentLength = finalLength calls := by
    refine ⟨_, rfl, ?_⟩
    rw [contentLengthLine, finalLength, ← length, size]
    by_cases unset : third.contentLength = 0
    · obtain ⟨text, fits, recorded, same⟩ := lengthLine connFits (bodyOf calls).length
      rw [if_pos unset, if_pos unset, if_pos unset]
      exact ⟨text, fits, same, recorded⟩
    · rw [if_neg unset, if_neg unset, if_neg unset]
      exact ⟨(List.append_nil _).symm, connFits, ⟨rfl, rfl, rfl, rfl, rfl, rfl⟩, rfl⟩
  obtain ⟨kept, room⟩ := alloc_text fits (ascii "\r\n").length
  obtain ⟨ended, whole⟩ := put_text (fourth.alloc (ascii "\r\n").length) _ room
  have shape : res.serialize = (fourth.alloc (ascii "\r\n").length).put (ascii "\r\n") := by
    rw [← fourth_, ← third_, ← second_]
    rfl
  rw [shape]
  refine ⟨?_, ?_, ?_, final, ?_, ?_⟩
  · rw [ended, kept, text, connText, typeText, plainHeader, ← written.text]
    rfl
  · rw [Fits, whole]
    exact room
  · exact same.serialized.trans (connSame.serialized.trans typeSame.serialized)
  · have last := body'.same same
    exact ⟨last.none, last.bytes, last.string⟩
  · exact same.bodyIdx.trans (connSame.bodyIdx.trans typeSame.bodyIdx)

end Response

end CoServer.Http
