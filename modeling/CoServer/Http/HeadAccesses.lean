import CoServer.Foundation.Traced
import CoServer.Http.LengthFraming
import CoServer.Http.TargetSplitting

/-!
The element accesses of `deserialize_`, `get` and `getList`. Each function is given
once more with the accesses it makes, and has the value it has without them.
-/

namespace CoServer.Http

open Splice

/-- The last character of a view of a size, the rest of one from a start, and an entry
of `fields_` where a number of them is in use. -/
inductive Access
  | back (size : Nat)
  | substr (start size : Nat)
  | field (index numHeaders : Nat)
  deriving DecidableEq

def Access.InRange : Access → Prop
  | .back size => 0 < size
  | .substr start size => start ≤ size
  | .field index numHeaders => index < numHeaders ∧ index < maxNumHeaders

abbrev Reads (α : Type) := Traced Access α

abbrev Reads.InRange {α : Type} (reads : Reads α) : Prop := reads.Safe Access.InRange

def back (text : Bytes) : Reads UInt8 := ⟨[.back text.length], text.getLast?⟩

def substr (text : Bytes) (start count : Nat) : Reads Bytes :=
  ⟨[.substr start text.length], if start ≤ text.length then some (window text start count) else none⟩

theorem back_inRange (text : Bytes) : (back text).InRange ↔ text ≠ [] := by
  simp [Reads.InRange, Traced.Safe, back, Access.InRange, List.length_pos_iff]

theorem substr_inRange {text : Bytes} {start count : Nat} :
    (substr text start count).InRange ↔ start ≤ text.length := by
  simp [Reads.InRange, Traced.Safe, substr, Access.InRange]

theorem substr_value {text : Bytes} {start : Nat} (inside : start ≤ text.length) (count : Nat) :
    (substr text start count).value = some (window text start count) := by
  rw [substr, if_pos inside]

namespace Request

def fieldAt (req : Request) (index : Nat) : Reads (Bytes × Bytes) :=
  ⟨[.field index req.numHeaders], req.fields[index]?⟩

/-- The loop of `get`, over a number of entries from an index on. -/
def getReads (req : Request) (named : Bytes → Bool) : Nat → Nat → Reads (Option Bytes)
  | 0, _ => pure none
  | left + 1, index => do
      let entry ← req.fieldAt index
      if named entry.1 then pure (some entry.2) else req.getReads named left (index + 1)

def getListReads (req : Request) (named : Bytes → Bool) : Nat → Nat → Reads (List Bytes)
  | 0, _ => pure []
  | left + 1, index => do
      let entry ← req.fieldAt index
      let rest ← req.getListReads named left (index + 1)
      pure (if named entry.1 then entry.2 :: rest else rest)

def storeReads (req : Request) (headers : List PhrHeader) : Reads Request :=
  ⟨(List.range headers.length).map fun index => .field index req.numHeaders,
    some { req with fields := store req.fields 0 (fieldsOf headers) }⟩

def lengthReads (req : Request) : Reads (Option Request) := do
  let found ← req.getReads Field.contentLength.named req.numHeaders 0
  match found with
  | none => pure (some req)
  | some text => pure ((fromChars text).map fun value => { req with contentLength := some value })

def chunkedReads (req : Request) : Reads Request :=
  if req.contentLength.isNone then do
    let values ← req.getListReads Field.transferEncoding.named req.numHeaders 0
    pure (if values.any (fun text => decide (ascii "chunked" <:+: text)) then
      { req with chunked := true } else req)
  else pure req

def pathReads (path : Bytes) : Nat → Nat → Reads (List Bytes)
  | 0, _ => pure []
  | fuel + 1, start =>
      if start < path.length then
        match findChar path slash start with
        | some found =>
            if found = start then pathReads path fuel (start + 1)
            else do
              let segment ← substr path start (found - start)
              let rest ← pathReads path fuel (found + 1)
              pure (segment :: rest)
        | none => do
            let segment ← substr path start (path.length - start)
            let rest ← pathReads path fuel (path.length + 1)
            pure (segment :: rest)
      else pure []

def pairReads (pair : Bytes) : Reads (Bytes × Bytes) :=
  match findChar pair 0x3d 0 with
  | some eq => do
      let key ← substr pair 0 eq
      let value ← substr pair (eq + 1) pair.length
      pure (key, value)
  | none => pure (pair, [])

def queryReads (query : Bytes) : Nat → Nat → Reads (List (Bytes × Bytes))
  | 0, _ => pure []
  | fuel + 1, start =>
      if start < query.length then do
        let amp := (findChar query 0x26 start).getD query.length
        let pair ← substr query start (amp - start)
        let entry ← pairReads pair
        let rest ← queryReads query fuel (amp + 1)
        pure (entry :: rest)
      else pure []

def targetReads (req : Request) : Reads Request := do
  let qPos := findChar req.target 0x3f 0
  let pathPart ← substr req.target 0 (qPos.getD req.target.length)
  let segments ← pathReads pathPart pathPart.length 0
  let last ← back pathPart
  let req := { req with path := req.path ++ (segments ++ if last = slash then [[]] else []) }
  match qPos with
  | none => pure req
  | some qPos => do
      let query ← substr req.target (qPos + 1) req.target.length
      let params ← queryReads query query.length 0
      pure { req with params := req.params ++ params }

def deserializeReads (req : Request) : Reads (Bool × Request) :=
  let (ret, numHeaders, parsed) := phrParseRequest req.headerBuffer maxNumHeaders
  let req := { req with numHeaders := numHeaders }
  if ret ≤ 0 then pure (false, req)
  else
    match parsed with
    | none => ⟨[], none⟩
    | some parsed => do
        let req ← storeReads { req with
          method := parsed.method
          target := parsed.path
          version := versionText parsed.minorVersion } parsed.headers
        let sized ← req.lengthReads
        match sized with
        | none => pure (false, req)
        | some req => do
            let req ← req.chunkedReads
            let req ← req.targetReads
            pure (true, req)

theorem fieldAt_value {req : Request} {index : Nat} (inside : index < req.fields.length) :
    (req.fieldAt index).value = some req.fields[index] := List.getElem?_eq_getElem inside

theorem fieldAt_inRange {req : Request} {index : Nat} :
    (req.fieldAt index).InRange ↔ index < req.numHeaders ∧ index < maxNumHeaders := by
  simp [Reads.InRange, Traced.Safe, fieldAt, Access.InRange]

theorem getReads_inRange {req : Request} (few : req.numHeaders ≤ maxNumHeaders) (named : Bytes → Bool)
    {left index : Nat} (within : index + left ≤ req.numHeaders) :
    (req.getReads named left index).InRange := by
  induction left generalizing index with
  | zero => exact Traced.safe_pure _
  | succ left ih =>
      refine (Traced.safe_bind _ _).mpr ⟨fieldAt_inRange.mpr ⟨by omega, by omega⟩, ?_⟩
      intro entry _
      split
      · exact Traced.safe_pure _
      · exact ih (by omega)

theorem getListReads_inRange {req : Request} (few : req.numHeaders ≤ maxNumHeaders)
    (named : Bytes → Bool) {left index : Nat} (within : index + left ≤ req.numHeaders) :
    (req.getListReads named left index).InRange := by
  induction left generalizing index with
  | zero => exact Traced.safe_pure _
  | succ left ih =>
      refine (Traced.safe_bind _ _).mpr ⟨fieldAt_inRange.mpr ⟨by omega, by omega⟩, ?_⟩
      intro entry _
      refine (Traced.safe_bind _ _).mpr ⟨ih (by omega), ?_⟩
      intro rest _
      exact Traced.safe_pure _

theorem getReads_value {req : Request} (named : Bytes → Bool) {left index : Nat}
    (inside : index + left ≤ req.fields.length) :
    (req.getReads named left index).value =
      some ((((req.fields.drop index).take left).find? fun entry => named entry.1).map Prod.snd) := by
  induction left generalizing index with
  | zero => rfl
  | succ left ih =>
      have here : index < req.fields.length := by omega
      rw [getReads, Traced.value_bind, fieldAt_value here, Option.bind_some,
        List.drop_eq_getElem_cons here, List.take_succ_cons, List.find?_cons]
      cases named req.fields[index].1 with
      | true => rfl
      | false => exact ih (by omega)

theorem getListReads_value {req : Request} (named : Bytes → Bool) {left index : Nat}
    (inside : index + left ≤ req.fields.length) :
    (req.getListReads named left index).value =
      some ((((req.fields.drop index).take left).filter fun entry => named entry.1).map Prod.snd) := by
  induction left generalizing index with
  | zero => rfl
  | succ left ih =>
      have here : index < req.fields.length := by omega
      rw [getListReads, Traced.value_bind, fieldAt_value here, Option.bind_some, Traced.value_bind,
        ih (by omega), Option.bind_some, List.drop_eq_getElem_cons here, List.take_succ_cons,
        List.filter_cons]
      cases named req.fields[index].1 with
      | true => rfl
      | false => rfl

theorem storeReads_inRange {req : Request} {headers : List PhrHeader}
    (count : req.numHeaders = headers.length) (few : headers.length ≤ maxNumHeaders) :
    (req.storeReads headers).InRange := by
  intro access member
  obtain ⟨index, inside, rfl⟩ := List.mem_map.mp member
  rw [List.mem_range] at inside
  exact ⟨by omega, by omega⟩

theorem lengthReads_inRange {req : Request} (few : req.numHeaders ≤ maxNumHeaders) :
    req.lengthReads.InRange := by
  refine (Traced.safe_bind _ _).mpr ⟨getReads_inRange few _ (by omega), ?_⟩
  intro found _
  cases found <;> exact Traced.safe_pure _

theorem lengthReads_value {req : Request} (inside : req.numHeaders ≤ req.fields.length) :
    req.lengthReads.value = some req.readContentLength := by
  rw [lengthReads, Traced.value_bind, getReads_value _ (by omega), Option.bind_some, readContentLength]
  have found : (((req.fields.drop 0).take req.numHeaders).find? fun entry =>
      Field.contentLength.named entry.1).map Prod.snd = req.get .contentLength := rfl
  rw [found]
  cases req.get .contentLength with
  | none => rfl
  | some text =>
      simp only [Traced.value_pure]
      cases fromChars text <;> rfl

theorem chunkedReads_inRange {req : Request} (few : req.numHeaders ≤ maxNumHeaders) :
    req.chunkedReads.InRange := by
  rw [chunkedReads]
  split
  · refine (Traced.safe_bind _ _).mpr ⟨getListReads_inRange few _ (by omega), ?_⟩
    intro values _
    exact Traced.safe_pure _
  · exact Traced.safe_pure _

theorem chunkedReads_value {req : Request} (inside : req.numHeaders ≤ req.fields.length) :
    req.chunkedReads.value = some req.readChunked := by
  rw [chunkedReads, readChunked]
  by_cases unset : req.contentLength.isNone
  · rw [if_pos unset, Traced.value_bind, getListReads_value _ (by omega), Option.bind_some,
      Traced.value_pure]
    simp only [unset, true_and]
    rfl
  · rw [if_neg unset, if_neg (fun asks => unset asks.1), Traced.value_pure]

theorem pathReads_inRange (path : Bytes) (fuel start : Nat) : (pathReads path fuel start).InRange := by
  induction fuel generalizing start with
  | zero => exact Traced.safe_pure _
  | succ fuel ih =>
      rw [pathReads]
      split
      · rename_i inside
        split
        · split
          · exact ih _
          · refine (Traced.safe_bind _ _).mpr ⟨substr_inRange.mpr (by omega), fun segment _ => ?_⟩
            refine (Traced.safe_bind _ _).mpr ⟨ih _, fun rest _ => ?_⟩
            exact Traced.safe_pure _
        · refine (Traced.safe_bind _ _).mpr ⟨substr_inRange.mpr (by omega), fun segment _ => ?_⟩
          refine (Traced.safe_bind _ _).mpr ⟨ih _, fun rest _ => ?_⟩
          exact Traced.safe_pure _
      · exact Traced.safe_pure _

theorem pathReads_value (path : Bytes) (fuel start : Nat) :
    (pathReads path fuel start).value =
      some ((splitLoop path fuel start).map fun span => window path span.position span.length) := by
  induction fuel generalizing start with
  | zero => rfl
  | succ fuel ih =>
      rw [pathReads, splitLoop]
      by_cases inside : start < path.length
      · rw [if_pos inside, if_pos inside]
        cases findChar path slash start with
        | some found =>
            by_cases here : found = start
            · simp only [here, ↓reduceIte, ih]
            · simp only [here, ↓reduceIte, Traced.value_bind, substr_value (Nat.le_of_lt inside),
                Option.bind_some, ih, Traced.value_pure, List.map_cons]
        | none =>
            simp only [Traced.value_bind, substr_value (Nat.le_of_lt inside), Option.bind_some, ih,
              Traced.value_pure, List.map_cons]
      · rw [if_neg inside, if_neg inside]
        rfl

theorem pairReads_inRange (pair : Bytes) : (pairReads pair).InRange := by
  rw [pairReads]
  split
  · rename_i eq at_
    have bound := (findChar_some at_).2.1
    refine (Traced.safe_bind _ _).mpr ⟨substr_inRange.mpr (Nat.zero_le _), fun key _ => ?_⟩
    refine (Traced.safe_bind _ _).mpr ⟨substr_inRange.mpr bound, fun value _ => ?_⟩
    exact Traced.safe_pure _
  · exact Traced.safe_pure _

theorem pairReads_value (pair : Bytes) : (pairReads pair).value = some (pairOf pair) := by
  rw [pairReads, pairOf]
  cases at_ : findChar pair 0x3d 0 with
  | none => rfl
  | some eq =>
      have bound := (findChar_some at_).2.1
      have rest : window pair (eq + 1) pair.length = pair.drop (eq + 1) := by
        rw [window, List.take_of_length_le]
        rw [List.length_drop]
        omega
      simp only [Traced.value_bind, substr_value (Nat.zero_le _), Option.bind_some,
        substr_value (show eq + 1 ≤ pair.length from bound), Traced.value_pure, rest]
      rfl

theorem queryReads_inRange (query : Bytes) (fuel start : Nat) :
    (queryReads query fuel start).InRange := by
  induction fuel generalizing start with
  | zero => exact Traced.safe_pure _
  | succ fuel ih =>
      rw [queryReads]
      split
      · rename_i inside
        refine (Traced.safe_bind _ _).mpr ⟨substr_inRange.mpr (by omega), fun pair _ => ?_⟩
        refine (Traced.safe_bind _ _).mpr ⟨pairReads_inRange pair, fun entry _ => ?_⟩
        refine (Traced.safe_bind _ _).mpr ⟨ih _, fun rest _ => ?_⟩
        exact Traced.safe_pure _
      · exact Traced.safe_pure _

theorem queryReads_value (query : Bytes) (fuel start : Nat) :
    (queryReads query fuel start).value = some (splitQuery query fuel start) := by
  induction fuel generalizing start with
  | zero => rfl
  | succ fuel ih =>
      rw [queryReads, splitQuery]
      by_cases inside : start < query.length
      · simp only [inside, ↓reduceIte, Traced.value_bind, substr_value (Nat.le_of_lt inside),
          Option.bind_some, pairReads_value, ih, Traced.value_pure]
        rfl
      · rw [if_neg inside, if_neg inside]
        rfl

theorem pathPart_window (target : Bytes) :
    window target 0 ((findChar target 0x3f 0).getD target.length) = pathPart target := by
  rw [← splitTarget_fst, splitTarget]
  cases findChar target 0x3f 0 with
  | none => exact List.take_length
  | some pos => rfl

theorem queryStart_le {target : Bytes} {pos : Nat} (at_ : findChar target 0x3f 0 = some pos) :
    pos + 1 ≤ target.length := (findChar_some at_).2.1

theorem targetReads_inRange (req : Request) : req.targetReads.InRange ↔ pathPart req.target ≠ [] := by
  have whole := substr_value (Nat.zero_le req.target.length) ((findChar req.target 0x3f 0).getD
    req.target.length)
  rw [pathPart_window] at whole
  simp only [targetReads, Reads.InRange, Traced.safe_bind, whole, Option.some.injEq, forall_eq',
    pathReads_value]
  constructor
  · rintro ⟨_, _, last, _⟩
    exact (back_inRange _).mp last
  · intro some_
    refine ⟨substr_inRange.mpr (Nat.zero_le _), pathReads_inRange _ _ _, (back_inRange _).mpr some_, ?_⟩
    intro last _
    split
    · exact Traced.safe_pure _
    · rename_i pos at_
      refine (Traced.safe_bind _ _).mpr ⟨substr_inRange.mpr (queryStart_le at_), fun query _ => ?_⟩
      refine (Traced.safe_bind _ _).mpr ⟨queryReads_inRange _ _ _, fun params _ => ?_⟩
      exact Traced.safe_pure _

theorem targetReads_value (req : Request) : req.targetReads.value = req.readTarget := by
  have whole := substr_value (Nat.zero_le req.target.length) ((findChar req.target 0x3f 0).getD
    req.target.length)
  rw [pathPart_window] at whole
  have first := splitTarget_fst req.target
  simp only [targetReads, Traced.value_bind, whole, Option.bind_some, pathReads_value, back, readTarget,
    first, splitPath]
  cases last : (pathPart req.target).getLast? with
  | none => rfl
  | some char =>
      simp only [Option.bind_some, Option.map_some, List.map_append, splitTarget]
      have trailing : (if char = slash then [(⟨(pathPart req.target).length, 0⟩ : Span)] else []).map
          (fun span => window (pathPart req.target) span.position span.length) =
          if char = slash then [[]] else [] := by
        by_cases ends : char = slash
        · simp [ends]
        · simp [ends]
      rw [trailing]
      cases at_ : findChar req.target 0x3f 0 with
      | none => rfl
      | some pos =>
          have rest : window req.target (pos + 1) req.target.length = req.target.drop (pos + 1) := by
            rw [window, List.take_of_length_le]
            rw [List.length_drop]
            omega
          simp only [Traced.value_bind, substr_value (queryStart_le at_), Option.bind_some, rest,
            queryReads_value, Traced.value_pure]

def headReads (req : Request) (parsed : PhrRequest) : Reads (Bool × Request) := do
  let req ← storeReads { req with
    numHeaders := parsed.headers.length
    method := parsed.method
    target := parsed.path
    version := versionText parsed.minorVersion } parsed.headers
  let sized ← req.lengthReads
  match sized with
  | none => pure (false, req)
  | some req => do
      let req ← req.chunkedReads
      let req ← req.targetReads
      pure (true, req)

theorem phrParseRequest_few {buffer : Bytes} {ret : Int} {numHeaders : Nat} {parsed : PhrRequest}
    (accepts : phrParseRequest buffer maxNumHeaders = (ret, numHeaders, some parsed)) :
    parsed.headers.length ≤ maxNumHeaders := by
  obtain ⟨head, few, rfl⟩ := phrParseRequest_sound accepts
  simp only [RequestHead.request, List.length_map]
  exact few

theorem deserializeReads_accepts {req : Request} {ret : Int} {numHeaders : Nat} {parsed : PhrRequest}
    (accepts : phrParseRequest req.headerBuffer maxNumHeaders = (ret, numHeaders, some parsed))
    (positive : 0 < ret) : req.deserializeReads = req.headReads parsed := by
  obtain rfl := phrParseRequest_count accepts
  have some_ : ¬ ret ≤ 0 := by omega
  simp only [deserializeReads, accepts, some_, ↓reduceIte]
  rfl

theorem withHead_inside (req : Request) (parsed : PhrRequest) :
    (req.withHead parsed).numHeaders ≤ (req.withHead parsed).fields.length := by
  have all := congrArg List.length (withHead_fields req parsed)
  rw [List.length_take] at all
  have size : (fieldsOf parsed.headers).length = (req.withHead parsed).numHeaders := by
    simp [fieldsOf, withHead]
  omega

/-- The function with its accesses computes what the function without them does. -/
theorem deserializeReads_value (req : Request) : req.deserializeReads.value = req.deserialize := by
  cases outcome : phrParseRequest req.headerBuffer maxNumHeaders with
  | mk ret rest =>
      obtain ⟨numHeaders, parsed⟩ := rest
      by_cases rejected : ret ≤ 0
      · simp only [deserializeReads, deserialize, outcome, rejected, ↓reduceIte, Traced.value_pure]
      · cases parsed with
        | none => simp only [deserializeReads, deserialize, outcome, rejected, ↓reduceIte]
        | some parsed =>
            have positive : 0 < ret := by omega
            obtain ⟨rejects, goesOn⟩ := deserialize_accepts outcome positive
            rw [deserializeReads_accepts outcome positive, headReads]
            simp only [Traced.value_bind, storeReads, Option.bind_some]
            have head : ({ req with
                numHeaders := parsed.headers.length
                method := parsed.method
                target := parsed.path
                version := versionText parsed.minorVersion
                fields := store req.fields 0 (fieldsOf parsed.headers) } : Request) =
              req.withHead parsed := rfl
            rw [head, lengthReads_value (withHead_inside req parsed), Option.bind_some]
            cases sized : (req.withHead parsed).readContentLength with
            | none => exact (rejects sized).symm
            | some req' =>
                obtain ⟨length, rfl⟩ := readContentLength_shape sized
                rw [goesOn _ sized]
                have framing := @chunkedReads_value { req.withHead parsed with contentLength := length }
                  (withHead_inside req parsed)
                simp only [Traced.value_bind, framing, Option.bind_some, targetReads_value,
                  Traced.value_pure]
                cases readTarget (readChunked { req.withHead parsed with contentLength := length }) <;> rfl

theorem lengthOf_none {before : Option Nat} {values : List Bytes} :
    lengthOf before values = none ↔ ∃ value ∈ values.head?, NoLeadingNumber value := by
  cases values with
  | nil => simp [lengthOf]
  | cons value values => simp [lengthOf, fromChars_none]

theorem headReads_inRange (req : Request) {parsed : PhrRequest}
    (few : parsed.headers.length ≤ maxNumHeaders) :
    (req.headReads parsed).InRange ↔ (req.withHead parsed).readContentLength = none ∨
      pathPart parsed.path ≠ [] := by
  have stores : (storeReads { req with
      numHeaders := parsed.headers.length
      method := parsed.method
      target := parsed.path
      version := versionText parsed.minorVersion } parsed.headers).InRange :=
    storeReads_inRange rfl few
  have head : (storeReads { req with
      numHeaders := parsed.headers.length
      method := parsed.method
      target := parsed.path
      version := versionText parsed.minorVersion } parsed.headers).value =
    some (req.withHead parsed) := rfl
  have reads : (req.withHead parsed).lengthReads.InRange := lengthReads_inRange few
  simp only [headReads, Reads.InRange, Traced.safe_bind, stores, head, Option.some.injEq, forall_eq',
    reads, true_and, lengthReads_value (withHead_inside req parsed)]
  cases sized : (req.withHead parsed).readContentLength with
  | none => simp
  | some req' =>
      obtain ⟨length, rfl⟩ := readContentLength_shape sized
      have framing := @chunkedReads_value { req.withHead parsed with contentLength := length }
        (withHead_inside req parsed)
      have framed : (chunkedReads { req.withHead parsed with contentLength := length }).InRange :=
        chunkedReads_inRange few
      obtain ⟨chunked, shape⟩ := readChunked_shape { req.withHead parsed with contentLength := length }
      have target := targetReads_inRange (readChunked
        { req.withHead parsed with contentLength := length })
      rw [shape] at target
      simp only [Traced.safe_bind, framed, framing, shape, Option.some.injEq, forall_eq', true_and,
        Traced.safe_pure, implies_true, and_true, reduceCtorEq, false_or]
      exact target

theorem deserializeReads_inRange {req : Request} {ret : Int} {numHeaders : Nat} {parsed : PhrRequest}
    (accepts : phrParseRequest req.headerBuffer maxNumHeaders = (ret, numHeaders, some parsed))
    (positive : 0 < ret) : req.deserializeReads.InRange ↔ pathPart parsed.path ≠ [] ∨
      ∃ value ∈ (valuesOf .contentLength parsed.headers).head?, NoLeadingNumber value := by
  rw [deserializeReads_accepts accepts positive,
    headReads_inRange req (phrParseRequest_few accepts), withHead_length, Option.map_eq_none_iff,
    lengthOf_none, or_comm]

/-- Every access of `deserialize_`, and of `get` and `getList` on the request it
leaves, is in range. -/
structure HeadInRange (req : Request) : Prop where
  reading : req.deserializeReads.InRange
  after : ∀ success req', req.deserialize = some (success, req') → ∀ named,
    (req'.getReads named req'.numHeaders 0).InRange ∧
      (req'.getListReads named req'.numHeaders 0).InRange

theorem deserialize_numHeaders {req req' : Request} {ret : Int} {numHeaders : Nat} {success : Bool}
    {parsed : PhrRequest}
    (accepts : phrParseRequest req.headerBuffer maxNumHeaders = (ret, numHeaders, some parsed))
    (positive : 0 < ret) (read : req.deserialize = some (success, req')) :
    req'.numHeaders = parsed.headers.length := by
  obtain ⟨_, _, _, outcome, rejected, _, _⟩ |
    ⟨_, _, _, outcome, _, ⟨_, rfl⟩ | ⟨_, _, rfl⟩⟩ := deserialize_cases read <;>
    rw [accepts] at outcome <;> cases outcome
  · omega
  · rfl
  · rfl

theorem head_in_range_iff (req : Request) (ret : Int) (numHeaders : Nat) (parsed : PhrRequest)
    (accepts : phrParseRequest req.headerBuffer maxNumHeaders = (ret, numHeaders, some parsed))
    (positive : 0 < ret) :
    HeadInRange req ↔ pathPart parsed.path ≠ [] ∨
      ∃ value ∈ (valuesOf .contentLength parsed.headers).head?, NoLeadingNumber value := by
  have few := phrParseRequest_few accepts
  have reading := deserializeReads_inRange accepts positive
  refine ⟨fun inRange => reading.mp inRange.reading, fun when => ⟨reading.mpr when, ?_⟩⟩
  intro success req' read named
  have count := deserialize_numHeaders accepts positive read
  exact ⟨getReads_inRange (count ▸ few) named (by omega),
    getListReads_inRange (count ▸ few) named (by omega)⟩

theorem head_in_range_iff_query :
    HeadInRange (ofBuffer (ascii "GET /a?b=&c HTTP/1.1\r\nHost: d\r\n e\r\n\r\n")) ↔
      pathPart (ascii "/a?b=&c") ≠ [] ∨
        ∃ value ∈ (valuesOf .contentLength
          [⟨some (ascii "Host"), ascii "d"⟩, ⟨none, ascii " e"⟩]).head?, NoLeadingNumber value :=
  head_in_range_iff (ofBuffer (ascii "GET /a?b=&c HTTP/1.1\r\nHost: d\r\n e\r\n\r\n")) 37 2
    ⟨ascii "GET", ascii "/a?b=&c", 1, [⟨some (ascii "Host"), ascii "d"⟩, ⟨none, ascii " e"⟩]⟩
    (by decide +kernel) (by decide)

/-- The last character of the path is asked for where the target is only a query. -/
theorem query_overreads :
    phrParseRequest (ascii "GET ?x HTTP/1.1\r\n\r\n") maxNumHeaders =
      (19, 0, some ⟨ascii "GET", ascii "?x", 1, []⟩) ∧
    (ofSize 19).consumeHeaderSome (ascii "GET ?x HTTP/1.1\r\n\r\n") = none ∧
    ¬ HeadInRange (ofBuffer (ascii "GET ?x HTTP/1.1\r\n\r\n")) := by
  have accepts : phrParseRequest (ascii "GET ?x HTTP/1.1\r\n\r\n") maxNumHeaders =
      (19, 0, some ⟨ascii "GET", ascii "?x", 1, []⟩) := by decide +kernel
  refine ⟨accepts, by decide +kernel, ?_⟩
  intro inRange
  rcases (@deserializeReads_inRange (ofBuffer (ascii "GET ?x HTTP/1.1\r\n\r\n")) _ _ _ accepts
    (by decide)).mp inRange.reading with some_ | ⟨value, member, _⟩
  · exact some_ (by decide)
  · cases member

end Request

end CoServer.Http
