import CoServer.Http.HeadScan
import CoServer.Http.ResponseDraining

/-!
The length a response declares, read off its header as text: the lines between
the CRLFs that name Content-Length. A header has one such line, and it is true,
unless the length is set to zero, which `serialize_` takes for a length that was
not set, or another text that is put into the header brings such a line.
-/

namespace CoServer.Http

/-- The lines of a text, cut at each CRLF; the first of them has begun. -/
def linesFrom (line : Bytes) : Bytes → List Bytes
  | [] => [line]
  | [char] => [line ++ [char]]
  | char :: next :: rest =>
      if char = cr ∧ next = lf then line :: linesFrom [] rest
      else linesFrom (line ++ [char]) (next :: rest)

/-- The line has a colon, with the name of the field before it in any case. -/
def namesLength (line : Bytes) : Bool :=
  match findChar line 0x3a 0 with
  | some colon => lower (line.take colon) == fieldStrArrLower .contentLength
  | none => false

def lengthLines (text : Bytes) : List Bytes := (linesFrom [] text).filter namesLength

def readNumeral (text : Bytes) : Option Nat :=
  if text ≠ [] ∧ text.all Decimal.isDigit then some (Decimal.value text) else none

/-- The number after the colon and blanks. -/
def declaredLength (line : Bytes) : Option Nat :=
  (findChar line 0x3a 0).bind fun colon =>
    readNumeral ((line.drop (colon + 1)).dropWhile fun char => char == space || char == tab)

/-- The header has one field for the length, and it is that of the body. -/
def DeclaresLength (header body : Bytes) : Prop :=
  ∃ line, lengthLines header = [line] ∧ declaredLength line = some body.length

def SizeNumeral (text : Bytes) : Prop :=
  text ≠ [] ∧ text.all Decimal.isDigit = true ∧ Decimal.value text < sizeModulus

/-- Empty, or ended by a CRLF. -/
def Closed (text : Bytes) : Prop := text = [] ∨ ∃ front, text = front ++ crlf

theorem linesFrom_cut (line front back : Bytes) :
    linesFrom line (front ++ (crlf ++ back)) = linesFrom line front ++ linesFrom [] back := by
  induction line, front using linesFrom.induct with
  | case1 line => simp [linesFrom, crlf]
  | case2 line char => simp [linesFrom, crlf, cr, lf]
  | case3 line char next rest ended ih =>
      simp only [List.cons_append, linesFrom, if_pos ended, ih]
  | case4 line char next rest other ih =>
      rw [List.cons_append] at ih
      simp only [List.cons_append, linesFrom, if_neg other, ih]

theorem lengthLines_append {text : Bytes} (closed : Closed text) (back : Bytes) :
    lengthLines (text ++ back) = lengthLines text ++ lengthLines back := by
  rcases closed with rfl | ⟨front, rfl⟩
  · rfl
  · have none_ : (linesFrom [] []).filter namesLength = [] := by decide
    have whole := linesFrom_cut [] front []
    rw [List.append_nil] at whole
    rw [List.append_assoc, lengthLines, lengthLines, lengthLines, linesFrom_cut, whole,
      List.filter_append, List.filter_append, none_, List.append_nil]

theorem linesFrom_single {text : Bytes} (clean : cr ∉ text) (line : Bytes) :
    linesFrom line text = [line ++ text] := by
  induction line, text using linesFrom.induct with
  | case1 line => rw [linesFrom, List.append_nil]
  | case2 line char => rfl
  | case3 line char next rest ended ih => exact (clean (by simp [ended.1])).elim
  | case4 line char next rest other ih =>
      rw [linesFrom, if_neg other, ih (fun member => clean (List.mem_cons_of_mem _ member)),
        List.append_assoc, List.singleton_append]

theorem findChar_first {front : Bytes} {char : UInt8} (clean : char ∉ front) (back : Bytes) :
    findChar (front ++ char :: back) char 0 = some front.length := by
  have missing : front.findIdx? (· == char) = none := by
    rw [List.findIdx?_eq_none_iff]
    intro other member
    rw [beq_eq_false_iff_ne]
    rintro rfl
    exact clean member
  simp [findChar, List.findIdx?_append, missing, List.findIdx?_cons]

theorem lengthLines_numeral {name value : Bytes} (named : Field.contentLength.named name = true)
    (some_ : value ≠ []) (digits : value.all Decimal.isDigit = true) :
    lengthLines (fieldLine name value) = [name ++ ascii ": " ++ value] ∧
      declaredLength (name ++ ascii ": " ++ value) = some (Decimal.value value) := by
  have spelled : name = ascii "Content-Length" ∨ name = ascii "content-length" := by
    simpa [Field.named, fieldStrArr, fieldStrArrLower] using named
  have lowered : lower name = fieldStrArrLower .contentLength := by
    rcases spelled with rfl | rfl <;> decide
  have cleanName : cr ∉ name ∧ 0x3a ∉ name := by
    rcases spelled with rfl | rfl <;> decide
  have cleanValue : cr ∉ value := by
    intro member
    have digit := List.all_eq_true.mp digits _ member
    revert digit
    decide
  have clean : cr ∉ name ++ ascii ": " ++ value := by
    rw [List.mem_append, List.mem_append, not_or, not_or]
    exact ⟨⟨cleanName.1, by decide⟩, cleanValue⟩
  have shape : name ++ ascii ": " ++ value = name ++ 0x3a :: (space :: value) := by
    rw [List.append_assoc]
    rfl
  have colon : findChar (name ++ ascii ": " ++ value) 0x3a 0 = some name.length := by
    rw [shape]
    exact findChar_first cleanName.2 _
  have single : linesFrom [] (fieldLine name value) = [name ++ ascii ": " ++ value, []] := by
    have cut := linesFrom_cut [] (name ++ ascii ": " ++ value) []
    rwa [List.append_nil, linesFrom_single clean] at cut
  have names : namesLength (name ++ ascii ": " ++ value) = true := by
    simp only [namesLength, colon]
    rw [shape, List.take_left, lowered, beq_self_eq_true]
  refine ⟨?_, ?_⟩
  · rw [lengthLines, single, List.filter_cons_of_pos names]
    rfl
  · have behind : (name ++ 0x3a :: (space :: value)).drop (name.length + 1) = space :: value := by
      simp
    rw [declaredLength, colon, Option.bind_some, shape, behind, readNumeral]
    obtain ⟨first, rest, rfl⟩ := List.exists_cons_of_ne_nil some_
    have solid : (first == space || first == tab) = false := by
      have digit := List.all_eq_true.mp digits _ List.mem_cons_self
      by_contra blank
      rw [Bool.not_eq_false, Bool.or_eq_true, beq_iff_eq, beq_iff_eq] at blank
      rcases blank with rfl | rfl <;> revert digit <;> decide
    rw [List.dropWhile_cons_of_pos (by decide), List.dropWhile_cons_of_neg (by simp [solid]),
      if_pos ⟨some_, digits⟩]

theorem Closed.nil : Closed [] := Or.inl rfl

theorem Closed.append {first second : Bytes} (closed : Closed first) (closed' : Closed second) :
    Closed (first ++ second) := by
  rcases closed' with rfl | ⟨front, rfl⟩
  · rwa [List.append_nil]
  · exact Or.inr ⟨first ++ front, (List.append_assoc _ _ _).symm⟩

theorem closed_fieldLine (name value : Bytes) : Closed (fieldLine name value) :=
  Or.inr ⟨name ++ ascii ": " ++ value, rfl⟩

theorem closed_line (call : Call) : Closed call.line := by
  cases call with
  | set field value => exact closed_fieldLine _ _
  | setNamed field value => exact closed_fieldLine _ _
  | setBody data => exact .nil
  | setBodyString data => exact .nil

theorem closed_lines (calls : List Call) : Closed (calls.flatMap Call.line) := by
  induction calls with
  | nil => exact .nil
  | cons call rest ih =>
      rw [List.flatMap_cons]
      exact (closed_line call).append ih

theorem lengthLines_lines (calls : List Call) :
    lengthLines (calls.flatMap Call.line) = calls.flatMap fun call => lengthLines call.line := by
  induction calls with
  | nil => decide
  | cons call rest ih =>
      rw [List.flatMap_cons, List.flatMap_cons, lengthLines_append (closed_line call), ih]

theorem lengthLines_header (status reason version : Bytes) (calls : List Call) :
    lengthLines (plainHeader status reason version calls) =
      lengthLines (statusLine status reason version) ++
        (calls.flatMap fun call => lengthLines call.line) ++ lengthLines (contentLengthLine calls) := by
  have statusClosed : Closed (statusLine status reason version) := Or.inr ⟨_, rfl⟩
  have typeClosed : Closed (contentTypeLine calls) ∧ lengthLines (contentTypeLine calls) = [] := by
    simp only [contentTypeLine]
    split
    · exact ⟨closed_fieldLine _ _, by split <;> decide⟩
    · exact ⟨.nil, by decide⟩
  have connClosed : Closed (connectionLine version calls) ∧
      lengthLines (connectionLine version calls) = [] := by
    simp only [connectionLine]
    split
    · exact ⟨closed_fieldLine _ _, by split <;> decide⟩
    · exact ⟨.nil, by decide⟩
  have lengthClosed : Closed (contentLengthLine calls) := by
    rw [contentLengthLine]
    split
    · exact closed_fieldLine _ _
    · exact .nil
  have ended : lengthLines (ascii "\r\n") = [] := by decide
  have calling := statusClosed.append (closed_lines calls)
  have typing := calling.append typeClosed.1
  have connecting := typing.append connClosed.1
  rw [plainHeader, lengthLines_append (connecting.append lengthClosed), lengthLines_append connecting,
    lengthLines_append typing, lengthLines_append calling, lengthLines_append statusClosed,
    lengthLines_lines, typeClosed.2, connClosed.2, ended, List.append_nil, List.append_nil,
    List.append_nil]

def Call.value : Call → Bytes
  | .set _ value | .setNamed _ value => value
  | .setBody _ | .setBodyString _ => []

theorem fromChars_numeral {text : Bytes} (numeral : SizeNumeral text) :
    fromChars text = some (Decimal.value text) := by
  obtain ⟨some_, digits, bound⟩ := numeral
  have whole : text.takeWhile Decimal.isDigit = text := by
    rw [List.takeWhile_eq_self_iff]
    exact List.all_eq_true.mp digits
  simp only [fromChars, whole, some_, ↓reduceIte, bound]

theorem recorded_setter {call : Call} (setter : call.sets .contentLength = true)
    (numeral : SizeNumeral call.value) (length : Nat) :
    call.recorded length = Decimal.value call.value := by
  cases call with
  | set field value | setNamed field value =>
      have read := fromChars_numeral numeral
      simp only [Call.recorded, setter, ↓reduceIte, Call.value] at read ⊢
      rw [read, Option.getD_some]
  | setBody data | setBodyString data => cases setter

theorem recorded_others {calls : List Call} (others : ∀ call ∈ calls, call.sets .contentLength = false)
    (length : Nat) : calls.foldl Call.recorded length = length := by
  induction calls with
  | nil => rfl
  | cons call rest ih =>
      have other := others call List.mem_cons_self
      have same : call.recorded length = length := by
        simp [Call.recorded, other]
      rw [List.foldl_cons, same, ih fun call member => others call (List.mem_cons_of_mem _ member)]

theorem setter_once {calls : List Call}
    (once : (calls.filter (Call.sets .contentLength)).length ≤ 1) :
    (∀ call ∈ calls, call.sets .contentLength = false) ∨
      ∃ front setter back, calls = front ++ setter :: back ∧ setter.sets .contentLength = true ∧
        (∀ call ∈ front, call.sets .contentLength = false) ∧
        ∀ call ∈ back, call.sets .contentLength = false := by
  by_cases some_ : ∃ call ∈ calls, call.sets .contentLength = true
  · obtain ⟨setter, member, sets⟩ := some_
    obtain ⟨front, back, rfl⟩ := List.append_of_mem member
    rw [List.filter_append, List.filter_cons_of_pos sets, List.length_append, List.length_cons] at once
    have none_ : ∀ part : List Call, (part.filter (Call.sets .contentLength)).length = 0 →
        ∀ call ∈ part, call.sets .contentLength = false := by
      intro part few call member
      have unset := List.filter_eq_nil_iff.mp (List.length_eq_zero_iff.mp few) call member
      rwa [Bool.not_eq_true] at unset
    exact Or.inr ⟨front, setter, back, rfl, sets, none_ front (by omega), none_ back (by omega)⟩
  · refine Or.inl fun call member => ?_
    rw [← Bool.not_eq_true]
    exact fun sets => some_ ⟨call, member, sets⟩

/-- The length is set at most once, to a numeral. -/
structure LengthOnce (calls : List Call) : Prop where
  once : (calls.filter (Call.sets .contentLength)).length ≤ 1
  numeral : ∀ call ∈ calls, call.sets .contentLength = true → SizeNumeral call.value

/-- The length is not set to zero, and no other text brings a line for it. -/
structure LengthPlain (status reason version : Bytes) (calls : List Call) : Prop where
  status : lengthLines (statusLine status reason version) = []
  others : ∀ call ∈ calls, call.sets .contentLength = false → lengthLines call.line = []
  nonzero : ∀ call ∈ calls, call.sets .contentLength = true → Decimal.value call.value ≠ 0

/-- A string and a vector can hold a body of the length that is set, or it is there. -/
def LengthStorable (calls : List Call) : Prop :=
  ∀ call ∈ calls, call.sets .contentLength = true →
    Decimal.value call.value = (bodyOf calls).length ∨ Decimal.value call.value ≤ maxSize

theorem setter_line {call : Call} (setter : call.sets .contentLength = true)
    (numeral : SizeNumeral call.value) : ∃ line, lengthLines call.line = [line] ∧
      declaredLength line = some (Decimal.value call.value) := by
  cases call with
  | set field value =>
      have same : field = .contentLength := by simpa [Call.sets] using setter
      subst same
      exact ⟨_, lengthLines_numeral (by decide) numeral.1 numeral.2.1⟩
  | setNamed field value => exact ⟨_, lengthLines_numeral setter numeral.1 numeral.2.1⟩
  | setBody data | setBodyString data => cases setter

theorem added_line (length : Nat) :
    ∃ line, lengthLines (fieldLine (ascii "Content-Length") (Decimal.text length)) = [line] ∧
      declaredLength line = some length := by
  have digits : (Decimal.text length).all Decimal.isDigit = true :=
    List.all_eq_true.mpr (Decimal.text_isDigit length)
  have lines := lengthLines_numeral (show Field.contentLength.named (ascii "Content-Length") = true by decide)
    (Decimal.text_ne_nil length) digits
  rw [Decimal.value_text] at lines
  exact ⟨_, lines⟩

theorem recorded_set {front back : List Call} {setter : Call}
    (sets : setter.sets .contentLength = true) (numeral : SizeNumeral setter.value)
    (after : ∀ call ∈ back, call.sets .contentLength = false) :
    recordedLength (front ++ setter :: back) = Decimal.value setter.value := by
  rw [recordedLength, List.foldl_append, List.foldl_cons, recorded_setter sets numeral,
    recorded_others after]

theorem storable_iff {calls : List Call} (once : LengthOnce calls) :
    Storable calls ↔ LengthStorable calls := by
  rcases setter_once once.once with others | ⟨front, setter, back, rfl, sets, before, after⟩
  · refine iff_of_true (Or.inr ?_) fun call member setter => ?_
    · rw [show recordedLength calls = 0 from recorded_others others 0]
      exact Nat.zero_le _
    · rw [others call member] at setter
      cases setter
  · have only : ∀ call ∈ front ++ setter :: back, call.sets .contentLength = true → call = setter := by
      intro call member setter_
      rcases List.mem_append.mp member with early | late
      · rw [before call early] at setter_
        cases setter_
      · rcases List.mem_cons.mp late with same | late
        · exact same
        · rw [after call late] at setter_
          cases setter_
    rw [Storable, recorded_set sets (once.numeral setter (by simp) sets) after]
    constructor
    · intro storable call member setter_
      rw [only call member setter_]
      exact storable
    · intro storable
      exact storable setter (by simp) sets

theorem declares_unset {status reason version : Bytes} {calls : List Call}
    (others : ∀ call ∈ calls, call.sets .contentLength = false) :
    DeclaresLength (plainHeader status reason version calls) (plainBody calls) ↔
      LengthPlain status reason version calls := by
  have unset : recordedLength calls = 0 := recorded_others others 0
  obtain ⟨added, lines, declared⟩ := added_line (bodyOf calls).length
  have whole := lengthLines_header status reason version calls
  rw [contentLengthLine, if_pos unset, lines] at whole
  rw [plainBody, if_pos unset, DeclaresLength, whole]
  constructor
  · rintro ⟨line, single, _⟩
    have count := congrArg List.length single
    simp only [List.length_append, List.length_singleton] at count
    have none_ : (calls.flatMap fun call => lengthLines call.line) = [] :=
      List.length_eq_zero_iff.mp (by omega)
    refine ⟨List.length_eq_zero_iff.mp (by omega), fun call member _ => ?_, ?_⟩
    · exact List.flatMap_eq_nil_iff.mp none_ call member
    · intro call member setter
      rw [others call member] at setter
      cases setter
  · rintro ⟨status_, plain, _⟩
    have none_ : (calls.flatMap fun call => lengthLines call.line) = [] :=
      List.flatMap_eq_nil_iff.mpr fun call member => plain call member (others call member)
    exact ⟨added, by rw [status_, none_]; rfl, declared⟩

theorem declares_set {status reason version : Bytes} {front back : List Call} {setter : Call}
    (sets : setter.sets .contentLength = true) (numeral : SizeNumeral setter.value)
    (before : ∀ call ∈ front, call.sets .contentLength = false)
    (after : ∀ call ∈ back, call.sets .contentLength = false) :
    DeclaresLength (plainHeader status reason version (front ++ setter :: back))
        (plainBody (front ++ setter :: back)) ↔
      LengthPlain status reason version (front ++ setter :: back) := by
  have recorded : recordedLength (front ++ setter :: back) = Decimal.value setter.value :=
    recorded_set sets numeral after
  obtain ⟨own, lines, declared⟩ := setter_line sets numeral
  have whole := lengthLines_header status reason version (front ++ setter :: back)
  rw [List.flatMap_append, List.flatMap_cons, lines] at whole
  constructor
  · rintro ⟨line, single, _⟩
    rw [whole] at single
    have count := congrArg List.length single
    simp only [List.length_append, List.length_singleton] at count
    have noneBefore : (front.flatMap fun call => lengthLines call.line) = [] :=
      List.length_eq_zero_iff.mp (by omega)
    have noneAfter : (back.flatMap fun call => lengthLines call.line) = [] :=
      List.length_eq_zero_iff.mp (by omega)
    have noneAdded : lengthLines (contentLengthLine (front ++ setter :: back)) = [] :=
      List.length_eq_zero_iff.mp (by omega)
    refine ⟨List.length_eq_zero_iff.mp (by omega), ?_, ?_⟩
    · intro call member other
      rcases List.mem_append.mp member with early | late
      · exact List.flatMap_eq_nil_iff.mp noneBefore call early
      · rcases List.mem_cons.mp late with rfl | late
        · rw [sets] at other
          cases other
        · exact List.flatMap_eq_nil_iff.mp noneAfter call late
    · intro call member setter_ zero
      have same : call = setter := by
        rcases List.mem_append.mp member with early | late
        · rw [before call early] at setter_
          cases setter_
        · rcases List.mem_cons.mp late with same | late
          · exact same
          · rw [after call late] at setter_
            cases setter_
      -- a recorded zero brings a second line
      obtain ⟨added, second, _⟩ := added_line (bodyOf (front ++ setter :: back)).length
      rw [same] at zero
      rw [contentLengthLine, if_pos (recorded.trans zero), second] at noneAdded
      cases noneAdded
  · rintro ⟨status_, plain, nonzero⟩
    have some_ := nonzero setter (by simp) sets
    have noneBefore : (front.flatMap fun call => lengthLines call.line) = [] :=
      List.flatMap_eq_nil_iff.mpr fun call member =>
        plain call (List.mem_append_left _ member) (before call member)
    have noneAfter : (back.flatMap fun call => lengthLines call.line) = [] :=
      List.flatMap_eq_nil_iff.mpr fun call member =>
        plain call (List.mem_append_right _ (List.mem_cons_of_mem _ member)) (after call member)
    have noneAdded : lengthLines (contentLengthLine (front ++ setter :: back)) = [] := by
      rw [contentLengthLine, if_neg (by rwa [recorded])]
      decide
    refine ⟨own, by rw [whole, status_, noneBefore, noneAfter, noneAdded]; rfl, ?_⟩
    rw [declared, plainBody, if_neg (by rwa [recorded]), resizeTo_length, recorded]

namespace Response

/-- The responses of the constructors, with the status and the reason they put; a
number of the status may have a sign. -/
inductive Built (version : Bytes) (uninitialized : Bool) : Bytes → Bytes → Response → Prop
  | status (code headerBuffer) : Built version uninitialized (statusStrArr code).1
      (statusStrArr code).2 (ofStatus code version headerBuffer uninitialized)
  | number {code reason headerBuffer res} :
      ofNumber (code, reason) version headerBuffer uninitialized = some res →
      Built version uninitialized (toChars code) reason res
  | statusAllocated (code) : Built version uninitialized (statusStrArr code).1
      (statusStrArr code).2 (ofStatusAllocated code version uninitialized)
  | numberAllocated {code reason res} :
      ofNumberAllocated (code, reason) version uninitialized = some res →
      Built version uninitialized (toChars code) reason res

theorem Built.written {version status reason : Bytes} {uninitialized : Bool} {res : Response}
    (built : Built version uninitialized status reason res) :
    Written (statusLine status reason version) version [] res ∧ res.serialized = false ∧
      res.bodyIdx = 0 := by
  have given : ∀ headerBuffer, (blank headerBuffer uninitialized).Fits := fun _ => Nat.zero_le _
  have allocated : ((blank [] uninitialized).alloc 4096).Fits := Nat.zero_le _
  cases built with
  | status code headerBuffer =>
      exact ⟨init_written (given _) rfl ⟨rfl, rfl, rfl, rfl, rfl, rfl⟩ _ _ _, rfl, rfl⟩
  | number made =>
      simp only [ofNumber, Option.ite_none_right_eq_some, Option.some.injEq] at made
      rw [← made.2]
      exact ⟨init_written (given _) rfl ⟨rfl, rfl, rfl, rfl, rfl, rfl⟩ _ _ _, rfl, rfl⟩
  | statusAllocated code =>
      exact ⟨init_written allocated rfl ⟨rfl, rfl, rfl, rfl, rfl, rfl⟩ _ _ _, rfl, rfl⟩
  | numberAllocated made =>
      simp only [ofNumberAllocated, Option.ite_none_right_eq_some, Option.some.injEq] at made
      rw [← made.2]
      exact ⟨init_written allocated rfl ⟨rfl, rfl, rfl, rfl, rfl, rfl⟩ _ _ _, rfl, rfl⟩

theorem Built.serializes {version status reason : Bytes} {uninitialized : Bool} {res : Response}
    (built : Built version uninitialized status reason res) (calls : List Call) :
    (Storable calls → Serializes (plainHeader status reason version calls) (plainBody calls)
        (calls.foldl Call.apply res)) ∧
      (¬ Storable calls → Throws (plainHeader status reason version calls)
        (calls.foldl Call.apply res)) := by
  obtain ⟨start, fresh, atBody⟩ := built.written
  exact start.serializes fresh atBody calls

theorem declares_length {status reason version : Bytes} {calls : List Call} (once : LengthOnce calls) :
    DeclaresLength (plainHeader status reason version calls) (plainBody calls) ↔
      LengthPlain status reason version calls := by
  rcases setter_once once.once with others | ⟨front, setter, back, rfl, sets, before, after⟩
  · exact declares_unset others
  · exact declares_set sets (once.numeral setter (by simp) sets) before after

theorem declared_length_iff (version status reason : Bytes) (uninitialized : Bool) (res : Response)
    (calls : List Call) (built : Built version uninitialized status reason res)
    (once : LengthOnce calls) :
    (∃ header body, Serializes header body (calls.foldl Call.apply res) ∧ DeclaresLength header body) ↔
      LengthStorable calls ∧ LengthPlain status reason version calls := by
  obtain ⟨serializes, throws⟩ := built.serializes calls
  rw [← declares_length once, ← storable_iff once]
  constructor
  · rintro ⟨header, body, serializes', declares⟩
    by_cases storable : Storable calls
    · obtain ⟨rfl, rfl⟩ := (serializes storable).unique serializes'
      exact ⟨storable, declares⟩
    · exact ((throws storable).unserialized serializes').elim
  · rintro ⟨storable, declares⟩
    exact ⟨_, _, serializes storable, declares⟩

def zeroLength : List Call := [.set .contentLength (ascii "0"), .setBodyString (ascii "hi")]

theorem zeroLength_once : LengthOnce zeroLength := by
  refine ⟨by decide, ?_⟩
  intro call member setter
  rcases List.mem_cons.mp member with rfl | member
  · exact ⟨by decide, by decide, by decide⟩
  · rw [List.mem_singleton.mp member] at setter
    cases setter

theorem declared_length_iff_zero :
    (∃ header body, Serializes header body
        (zeroLength.foldl Call.apply (ofStatusAllocated .ok (ascii "1.1") false)) ∧
      DeclaresLength header body) ↔
      LengthStorable zeroLength ∧
        LengthPlain (statusStrArr .ok).1 (statusStrArr .ok).2 (ascii "1.1") zeroLength :=
  declared_length_iff _ _ _ false _ zeroLength (.statusAllocated .ok) zeroLength_once

/-- The body of two bytes is drained behind a header with both lengths. -/
theorem zero_length_twice : LengthOnce zeroLength ∧
    (∃ header, Serializes header (ascii "hi")
        (zeroLength.foldl Call.apply (ofStatusAllocated .ok (ascii "1.1") false)) ∧
      lengthLines header = [ascii "Content-Length: 0", ascii "Content-Length: 2"]) ∧
    ¬ ∃ header body, Serializes header body
        (zeroLength.foldl Call.apply (ofStatusAllocated .ok (ascii "1.1") false)) ∧
      DeclaresLength header body := by
  have built : Built (ascii "1.1") false (statusStrArr .ok).1 (statusStrArr .ok).2
      (ofStatusAllocated .ok (ascii "1.1") false) := .statusAllocated .ok
  have serializes := (built.serializes zeroLength).1 (by decide)
  have body : plainBody zeroLength = ascii "hi" := by decide
  have lines : lengthLines (plainHeader (statusStrArr .ok).1 (statusStrArr .ok).2 (ascii "1.1")
      zeroLength) = [ascii "Content-Length: 0", ascii "Content-Length: 2"] := by decide +kernel
  rw [body] at serializes
  refine ⟨zeroLength_once, ⟨_, serializes, lines⟩, ?_⟩
  rintro ⟨header, body', serializes', line, single, _⟩
  obtain ⟨rfl, _⟩ := serializes.unique serializes'
  rw [lines] at single
  cases single

end Response

end CoServer.Http
