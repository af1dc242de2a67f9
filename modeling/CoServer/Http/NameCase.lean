import CoServer.Http.HeadReading
import CoServer.Http.RequestHead
import Mathlib.Data.List.Forall2

/-!
Heads that differ in the case of their field names only. A name is recognised in
two spellings, so a change of case makes no difference exactly in a head that has
none of the known names, in whatever case.
-/

namespace CoServer.Http

/-- The same line, with the letters of its name in another case. -/
structure FieldLine.Recased (line line' : FieldLine) : Prop where
  name : line.name.map lower = line'.name.map lower
  blanks : line.blanks = line'.blanks
  content : line.content = line'.content
  ending : line.ending = line'.ending

structure RequestHead.Recased (head head' : RequestHead) : Prop where
  leading : head.leading = head'.leading
  method : head.method = head'.method
  gap : head.gap = head'.gap
  target : head.target = head'.target
  gap' : head.gap' = head'.gap'
  digit : head.digit = head'.digit
  ending : head.ending = head'.ending
  final : head.final = head'.final
  lines : List.Forall₂ FieldLine.Recased head.lines head'.lines

theorem lower_length (text : Bytes) : (lower text).length = text.length := List.length_map _

theorem FieldLine.Recased.length {line line' : FieldLine} (recased : line.Recased line') :
    line.text.length = line'.text.length := by
  have name := recased.name
  cases first : line.name with
  | none =>
      cases second : line'.name with
      | none => simp [text, start, first, second, recased.blanks, recased.content, recased.ending]
      | some token' => simp [first, second] at name
  | some token =>
      cases second : line'.name with
      | none => simp [first, second] at name
      | some token' =>
          simp only [first, second, Option.map_some, Option.some.injEq] at name
          have same := congrArg List.length name
          rw [lower_length, lower_length] at same
          simp [text, start, first, second, recased.blanks, recased.content, recased.ending, same]

theorem RequestHead.Recased.length {head head' : RequestHead} (recased : head.Recased head') :
    head.text.length = head'.text.length := by
  have lines : (head.lines.flatMap FieldLine.text).length =
      (head'.lines.flatMap FieldLine.text).length := by
    have each := recased.lines
    generalize head.lines = lines, head'.lines = lines' at each
    induction each with
    | nil => rfl
    | cons first _ ih =>
        rw [List.flatMap_cons, List.flatMap_cons, List.length_append, List.length_append, first.length, ih]
  simp only [text, leadingText, requestLine, recased.leading, recased.method, recased.gap, recased.target,
    recased.gap', recased.digit, recased.ending, recased.final, List.length_append, lines]

namespace Request

def holding (req : Request) (head : RequestHead) (rest : Bytes) : Request :=
  { req with headerBuffer := head.text ++ rest }

/-- The two heads are both accepted or both rejected, they show the same values for
every field, and they are framed alike. -/
structure SameFields (req : Request) (rest : Bytes) (head head' : RequestHead) : Prop where
  outcome : (req.holding head rest).deserialize.map Prod.fst =
    (req.holding head' rest).deserialize.map Prod.fst
  values : ∀ field, ((req.holding head rest).withHead head.request).get field =
      ((req.holding head' rest).withHead head'.request).get field ∧
    ((req.holding head rest).withHead head.request).getList field =
      ((req.holding head' rest).withHead head'.request).getList field
  framing : ∀ final final', (req.holding head rest).deserialize = some (true, final) →
    (req.holding head' rest).deserialize = some (true, final') →
    final.contentLength = final'.contentLength ∧ final.chunked = final'.chunked

theorem holding_accepts {req : Request} {head : RequestHead} {rest : Bytes}
    (few : head.lines.length ≤ maxNumHeaders) :
    phrParseRequest (req.holding head rest).headerBuffer maxNumHeaders =
      (toInt head.text.length, head.request.headers.length, some head.request) :=
  phrParseRequest_head few rfl

theorem sameFields_of_values {req : Request} {rest : Bytes} {head head' : RequestHead}
    (few : head.lines.length ≤ maxNumHeaders) (few' : head'.lines.length ≤ maxNumHeaders)
    (positive : 0 < toInt head.text.length) (length : head.text.length = head'.text.length)
    (target : head.target = head'.target)
    (values : ∀ field, valuesOf field head.request.headers = valuesOf field head'.request.headers) :
    SameFields req rest head head' := by
  have accepts := @holding_accepts req head rest few
  have accepts' := @holding_accepts req head' rest few'
  have positive' : 0 < toInt head'.text.length := length ▸ positive
  have shown : ∀ field, ((req.holding head rest).withHead head.request).get field =
        ((req.holding head' rest).withHead head'.request).get field ∧
      ((req.holding head rest).withHead head.request).getList field =
        ((req.holding head' rest).withHead head'.request).getList field := by
    intro field
    simp only [withHead_get, withHead_getList, values, and_self]
  cases framed : lengthOf req.contentLength (valuesOf .contentLength head.request.headers) with
  | none =>
      have failed := (deserialize_framing accepts positive).1 framed
      have failed' := (deserialize_framing accepts' positive').1 (by rw [← values]; exact framed)
      refine ⟨by rw [failed, failed']; rfl, shown, ?_⟩
      intro final final' accepted
      rw [failed] at accepted
      cases accepted
  | some size =>
      obtain ⟨undefined, went⟩ := deserialize_target accepts positive framed
      obtain ⟨undefined', went'⟩ :=
        deserialize_target accepts' positive' (by rw [← values]; exact framed)
      have path : pathPart head'.request.path = pathPart head.request.path := by
        rw [RequestHead.request, RequestHead.request, target]
      rw [path] at undefined' went'
      by_cases none_ : pathPart head.request.path = []
      · refine ⟨by rw [undefined none_, undefined' none_], shown, ?_⟩
        intro final final' accepted
        rw [undefined none_] at accepted
        cases accepted
      · refine ⟨by rw [went none_, went' none_]; rfl, shown, ?_⟩
        intro final final' accepted accepted'
        rw [went none_] at accepted
        rw [went' none_] at accepted'
        cases accepted
        cases accepted'
        exact ⟨rfl, by rw [withTarget, withTarget, values]; rfl⟩

/-- The two lines are taken for the same fields. -/
def SameRecognised (line line' : FieldLine) : Prop :=
  line.Recased line' ∧ ∀ field, Field.named field (line.name.getD []) = field.named (line'.name.getD [])

theorem valuesOf_recased {lines lines' : List FieldLine} (same : List.Forall₂ SameRecognised lines lines')
    (field : Field) :
    valuesOf field (lines.map FieldLine.header) = valuesOf field (lines'.map FieldLine.header) := by
  induction same with
  | nil => rfl
  | @cons line line' rest rest' first _ ih =>
      obtain ⟨recased, recognised⟩ := first
      simp only [valuesOf, fieldsOf, List.map_cons, FieldLine.header, List.filter_cons, recased.content,
        recognised field] at ih ⊢
      split
      · rw [List.map_cons, List.map_cons, ih]
      · exact ih

/-- The name of the line is not one of the known names, in whatever case. -/
def Unknown (line : FieldLine) : Prop := ∀ name ∈ line.name, ∀ field, lower name ≠ fieldStrArrLower field

theorem Unknown.unnamed {line : FieldLine} (unknown : Unknown line) (field : Field) :
    field.named (line.name.getD []) = false := by
  rw [← Bool.not_eq_true]
  intro named
  cases name : line.name with
  | none =>
      rw [name, Option.getD_none] at named
      revert named
      cases field <;> decide
  | some token =>
      rw [name, Option.getD_some] at named
      exact unknown token name field (lower_named named)

theorem Unknown.recased {line line' : FieldLine} (unknown : Unknown line) (recased : line.Recased line') :
    Unknown line' := by
  intro name' named field
  have same := recased.name
  rw [Option.mem_def.mp named, Option.map_some, Option.map_eq_some_iff] at same
  obtain ⟨name, here, lowered⟩ := same
  rw [← lowered]
  exact unknown name here field

theorem recognised_of_unknown {lines lines' : List FieldLine}
    (recased : List.Forall₂ FieldLine.Recased lines lines') (unknown : ∀ line ∈ lines, Unknown line) :
    List.Forall₂ SameRecognised lines lines' := by
  induction recased with
  | nil => exact .nil
  | cons first _ ih =>
      have here := unknown _ List.mem_cons_self
      refine .cons ⟨first, fun field => ?_⟩ (ih fun line member => unknown line (List.mem_cons_of_mem _ member))
      rw [here.unnamed, (here.recased first).unnamed]

end Request

def FieldLine.rename (line : FieldLine) (name : Bytes) (named : line.name ≠ none)
    (token : name ≠ [] ∧ ∀ char ∈ name, tokenCharMap char = true) : FieldLine where
  name := some name
  blanks := line.blanks
  content := line.content
  ending := line.ending
  token := by
    rintro text same
    cases same
    exact token
  spaced := line.spaced
  plain := line.plain
  tight := fun _ => line.tight named
  folded := by simp

instance : Std.Refl FieldLine.Recased := ⟨fun _ => ⟨rfl, rfl, rfl, rfl⟩⟩

theorem exists_unrecognised (field : Field) : ∃ name, lower name = fieldStrArrLower field ∧
    field.named name = false ∧ name ≠ [] ∧ ∀ char ∈ name, tokenCharMap char = true := by
  have shape : ∃ name : Bytes, lower name = fieldStrArrLower field ∧ field.named name = false ∧
      name ≠ [] ∧ name.all tokenCharMap = true := by
    refine ⟨(fieldStrArr field).map fun char =>
      if 0x61 ≤ char ∧ char ≤ 0x7a then char - 0x20 else char, ?_⟩
    cases field <;> decide
  obtain ⟨name, lowered, unnamed, some_, token⟩ := shape
  exact ⟨name, lowered, unnamed, some_, List.all_eq_true.mp token⟩

theorem exists_respelled {field : Field} {name : Bytes} (known : lower name = fieldStrArrLower field) :
    ∃ name', lower name' = lower name ∧ field.named name' = !field.named name ∧
      name' ≠ [] ∧ ∀ char ∈ name', tokenCharMap char = true := by
  cases named : field.named name with
  | true =>
      obtain ⟨name', lowered, unnamed, token⟩ := exists_unrecognised field
      exact ⟨name', lowered.trans known.symm, unnamed, token⟩
  | false =>
      have shape : field.named (fieldStrArr field) = true ∧ fieldStrArr field ≠ [] ∧
          (fieldStrArr field).all tokenCharMap = true := by
        cases field <;> decide
      refine ⟨fieldStrArr field, ?_, shape.1, shape.2.1, List.all_eq_true.mp shape.2.2⟩
      rw [known]
      cases field <;> decide

namespace Request

theorem respelled_differs {field : Field} {before after : List FieldLine} {line line' : FieldLine}
    (differs : field.named (line'.name.getD []) = !field.named (line.name.getD [])) :
    valuesOf field ((before ++ line :: after).map FieldLine.header) ≠
      valuesOf field ((before ++ line' :: after).map FieldLine.header) := by
  intro same
  have count := congrArg List.length same
  simp only [valuesOf, fieldsOf, List.map_append, List.map_cons, List.filter_append, List.filter_cons,
    List.length_append, List.length_map, FieldLine.header, differs] at count
  cases named : field.named (line.name.getD []) <;> simp [named] at count

theorem names_case_blind_iff (req : Request) (rest : Bytes) (head : RequestHead)
    (few : head.lines.length ≤ maxNumHeaders) (positive : 0 < toInt head.text.length) :
    ((∀ head', head.Recased head' → SameFields req rest head head') ↔
      ∀ line ∈ head.lines, Unknown line) ∧
    ∀ head', head.Recased head' → List.Forall₂ SameRecognised head.lines head'.lines →
      SameFields req rest head head' := by
  have enough : ∀ head', head.Recased head' → List.Forall₂ SameRecognised head.lines head'.lines →
      SameFields req rest head head' := by
    intro head' recased same
    exact sameFields_of_values few (recased.lines.length_eq ▸ few) positive recased.length
      recased.target fun field => valuesOf_recased same field
  refine ⟨⟨?_, ?_⟩, enough⟩
  · intro blind line member name named field known
    obtain ⟨name', lowered, differs, token⟩ := exists_respelled known
    obtain ⟨before, after, split⟩ := List.append_of_mem member
    have some_ : line.name ≠ none := by
      rw [Option.mem_def.mp named]
      simp
    let line' := line.rename name' some_ token
    have recased' : line.Recased line' := by
      refine ⟨?_, rfl, rfl, rfl⟩
      rw [Option.mem_def.mp named]
      exact congrArg some lowered.symm
    let head' : RequestHead := { head with
      lines := before ++ line' :: after
      first := by
        intro other first
        cases before with
        | nil =>
            cases first
            simp [line', FieldLine.rename]
        | cons opening more =>
            refine head.first other ?_
            rw [split]
            exact first }
    have recased : head.Recased head' := by
      refine ⟨rfl, rfl, rfl, rfl, rfl, rfl, rfl, rfl, ?_⟩
      rw [split]
      exact List.rel_append (List.forall₂_refl before) (.cons recased' (List.forall₂_refl after))
    have values := (blind head' recased).values field
    simp only [withHead_getList] at values
    have other : field.named (line'.name.getD []) = !field.named (line.name.getD []) := by
      rw [Option.mem_def.mp named]
      exact differs
    refine @respelled_differs field before after line line' other ?_
    rw [← split]
    exact values.2
  · exact fun unknown head' recased => enough head' recased (recognised_of_unknown recased.lines unknown)

def plainHead (name value : Bytes) (token : name ≠ [] ∧ name.all tokenCharMap = true)
    (plain : value.all (fun char => !isControl char && !isBlank char) = true) : RequestHead where
  leading := none
  method := ascii "PUT"
  gap := 0
  target := ascii "/"
  gap' := 0
  digit := 0x31
  ending := .crlf
  lines := [{
    name := some name
    blanks := [space]
    content := value
    ending := .crlf
    token := by
      rintro text same
      cases same
      exact ⟨token.1, List.all_eq_true.mp token.2⟩
    spaced := List.all_eq_true.mp (by decide)
    plain := fun char member => by
      have both := List.all_eq_true.mp plain char member
      rw [Bool.and_eq_true, Bool.not_eq_true'] at both
      exact both.1
    tight := fun _ char first => by
      have both := List.all_eq_true.mp plain char (List.mem_of_mem_head? first)
      rw [Bool.and_eq_true, Bool.not_eq_true', Bool.not_eq_true'] at both
      exact both.2
    folded := by simp }]
  final := .crlf
  methodToken := ⟨by decide, List.all_eq_true.mp (by decide)⟩
  targetChars := ⟨by decide, List.forall_mem_singleton.mpr (by decide)⟩
  version := by decide
  first := by simp

theorem plainHead_recased {name name' value : Bytes} (same : lower name = lower name')
    (token : name ≠ [] ∧ name.all tokenCharMap = true)
    (token' : name' ≠ [] ∧ name'.all tokenCharMap = true)
    (plain : value.all (fun char => !isControl char && !isBlank char) = true) :
    (plainHead name value token plain).Recased (plainHead name' value token' plain) :=
  ⟨rfl, rfl, rfl, rfl, rfl, rfl, rfl, rfl, .cons ⟨congrArg some same, rfl, rfl, rfl⟩ .nil⟩

theorem names_case_blind_iff_plain :
    ((∀ head', (plainHead (ascii "X-Y") (ascii "z") (by decide) (by decide)).Recased head' →
        SameFields (ofSize 64) [] (plainHead (ascii "X-Y") (ascii "z") (by decide) (by decide)) head') ↔
      ∀ line ∈ (plainHead (ascii "X-Y") (ascii "z") (by decide) (by decide)).lines, Unknown line) ∧
    ∀ head', (plainHead (ascii "X-Y") (ascii "z") (by decide) (by decide)).Recased head' →
      List.Forall₂ SameRecognised
        (plainHead (ascii "X-Y") (ascii "z") (by decide) (by decide)).lines head'.lines →
      SameFields (ofSize 64) [] (plainHead (ascii "X-Y") (ascii "z") (by decide) (by decide)) head' :=
  names_case_blind_iff (ofSize 64) [] _ (by decide) (by decide)

/-- A length under a name in capitals is not seen: the head is accepted without one. -/
theorem capital_length_unseen :
    (plainHead (ascii "Content-Length") (ascii "5") (by decide) (by decide)).Recased
        (plainHead (ascii "CONTENT-LENGTH") (ascii "5") (by decide) (by decide)) ∧
      (((ofSize 64).consumeHeaderSome
          (plainHead (ascii "Content-Length") (ascii "5") (by decide) (by decide)).text).map
        fun after => (after.1, after.2.contentLength, after.2.get .contentLength)) =
          some ((none, true, 37), some 5, some (ascii "5")) ∧
      (((ofSize 64).consumeHeaderSome
          (plainHead (ascii "CONTENT-LENGTH") (ascii "5") (by decide) (by decide)).text).map
        fun after => (after.1, after.2.contentLength, after.2.get .contentLength)) =
          some ((none, true, 37), none, none) ∧
      ¬ SameFields (ofSize 64) []
        (plainHead (ascii "Content-Length") (ascii "5") (by decide) (by decide))
        (plainHead (ascii "CONTENT-LENGTH") (ascii "5") (by decide) (by decide)) := by
  refine ⟨plainHead_recased (by decide) _ _ _, by decide +kernel, by decide +kernel, ?_⟩
  intro same
  have values := (same.values .contentLength).1
  revert values
  decide +kernel

end Request

end CoServer.Http
