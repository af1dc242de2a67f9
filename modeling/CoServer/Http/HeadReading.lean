import CoServer.Drain
import CoServer.Http.Request

/-!
What accepting a head does to the request: the fields it sets, and the path that
is taken from the target.
-/

namespace CoServer.Http

namespace Request

def pathPart (target : Bytes) : Bytes := target.takeWhile (· != 0x3f)

theorem splitTarget_fst (target : Bytes) : (splitTarget target).1 = pathPart target := by
  rw [splitTarget, pathPart]
  cases found : findChar target 0x3f 0 with
  | none =>
      have absent := findChar_none found
      refine (List.takeWhile_eq_self_iff.mpr fun char member => ?_).symm
      rw [bne_iff_ne]
      rintro rfl
      exact absent member
  | some pos =>
      obtain ⟨_, _, split, clean⟩ := findChar_some found
      rw [List.drop_zero, Nat.sub_zero] at split
      rw [Nat.sub_zero] at clean
      have front : Splice.window target 0 pos = target.take pos := rfl
      rw [front] at split clean
      simp only
      conv_rhs => rw [split]
      rw [List.takeWhile_append_of_pos]
      · simp
      · intro char member
        rw [bne_iff_ne]
        rintro rfl
        exact clean member

theorem readContentLength_shape {req req' : Request} (read : req.readContentLength = some req') :
    ∃ length, req' = { req with contentLength := length } := by
  simp only [readContentLength] at read
  split at read
  · cases read
    exact ⟨_, rfl⟩
  · split at read
    · cases read
    · cases read
      exact ⟨_, rfl⟩

theorem readChunked_shape (req : Request) :
    ∃ chunked, req.readChunked = { req with chunked := chunked } := by
  rw [readChunked]
  split <;> exact ⟨_, rfl⟩

/-- The pairs of the query of a target, if it has one. -/
def pairsOf (target : Bytes) : List (Bytes × Bytes) :=
  match (splitTarget target).2 with
  | none => []
  | some query => splitQuery query query.length 0

theorem readTarget_shape {req req' : Request} (read : req.readTarget = some req') :
    req' = { req with
      path := req.path ++ pieces (pathPart req.target)
      params := req.params ++ pairsOf req.target } := by
  simp only [readTarget, Option.map_eq_some_iff] at read
  obtain ⟨spans, split, rfl⟩ := read
  rw [splitTarget_fst] at split
  have texts := splitPath_pieces split
  rw [splitTarget_fst, texts, pairsOf]
  cases (splitTarget req.target).2 with
  | none => simp only [List.append_nil]
  | some query => rfl

theorem readTarget_isSome (req : Request) :
    req.readTarget.isSome ↔ pathPart req.target ≠ [] := by
  simp only [readTarget, Option.isSome_map, splitTarget_fst]
  constructor
  · intro some_ empty
    rw [empty] at some_
    cases some_
  · intro some_
    obtain ⟨spans, split⟩ := splitPath_some some_
    rw [split, Option.isSome_some]

theorem readTarget_eq (req : Request) : req.readTarget =
    if pathPart req.target = [] then none
    else some { req with
      path := req.path ++ pieces (pathPart req.target)
      params := req.params ++ pairsOf req.target } := by
  have some_ := readTarget_isSome req
  cases read : req.readTarget with
  | none =>
      rw [read] at some_
      rw [if_pos (by simpa using some_)]
  | some req' =>
      rw [read] at some_
      rw [if_neg (by simpa using some_), readTarget_shape read]

/-- The request with a parsed head, before its fields are read. -/
def withHead (req : Request) (parsed : PhrRequest) : Request :=
  { req with
    numHeaders := parsed.headers.length
    method := parsed.method
    target := parsed.path
    version := versionText parsed.minorVersion
    fields := Splice.store req.fields 0 (fieldsOf parsed.headers) }

theorem withHead_fields (req : Request) (parsed : PhrRequest) :
    (req.withHead parsed).fields.take (req.withHead parsed).numHeaders = fieldsOf parsed.headers := by
  have size : parsed.headers.length = 0 + (fieldsOf parsed.headers).length := by
    simp [fieldsOf]
  simp only [withHead, size]
  rw [Splice.store_take_end _ (Nat.zero_le _), List.take_zero, List.nil_append]

theorem deserialize_rejects {req : Request} {ret : Int} {numHeaders : Nat}
    {parsed : Option PhrRequest}
    (outcome : phrParseRequest req.headerBuffer maxNumHeaders = (ret, numHeaders, parsed))
    (rejected : ret ≤ 0) : req.deserialize = some (false, { req with numHeaders := numHeaders }) := by
  simp only [deserialize, outcome, rejected, ↓reduceIte]

theorem deserialize_accepts {req : Request} {ret : Int} {numHeaders : Nat} {parsed : PhrRequest}
    (accepts : phrParseRequest req.headerBuffer maxNumHeaders = (ret, numHeaders, some parsed))
    (positive : 0 < ret) :
    ((req.withHead parsed).readContentLength = none →
      req.deserialize = some (false, req.withHead parsed)) ∧
    ∀ sized, (req.withHead parsed).readContentLength = some sized →
      req.deserialize = sized.readChunked.readTarget.map fun final => (true, final) := by
  obtain rfl := phrParseRequest_count accepts
  have some_ : ¬ ret ≤ 0 := by omega
  constructor
  · intro rejected
    simp only [withHead] at rejected ⊢
    simp only [deserialize, accepts, some_, ↓reduceIte, rejected]
  · intro sized read
    simp only [withHead] at read
    simp only [deserialize, accepts, some_, ↓reduceIte, read]

/-- The fields of a kind, in the order of the head. -/
def valuesOf (field : Field) (headers : List PhrHeader) : List Bytes :=
  ((fieldsOf headers).filter fun entry => field.named entry.1).map Prod.snd

theorem withHead_getList (req : Request) (parsed : PhrRequest) (field : Field) :
    (req.withHead parsed).getList field = valuesOf field parsed.headers := by
  rw [getList, withHead_fields, valuesOf]

theorem withHead_get (req : Request) (parsed : PhrRequest) (field : Field) :
    (req.withHead parsed).get field = (valuesOf field parsed.headers).head? := by
  rw [get, withHead_fields, valuesOf, List.head?_map, List.head?_filter]

/-- The length that the fields for it leave behind, unless the first is no number. -/
def lengthOf (before : Option Nat) : List Bytes → Option (Option Nat)
  | [] => some before
  | value :: _ => (fromChars value).map some

def chunkedOf (before : Bool) (length : Option Nat) (values : List Bytes) : Bool :=
  before || (length.isNone && values.any fun text => decide (ascii "chunked" <:+: text))

theorem withHead_length (req : Request) (parsed : PhrRequest) :
    (req.withHead parsed).readContentLength =
      (lengthOf req.contentLength (valuesOf .contentLength parsed.headers)).map fun length =>
        { req.withHead parsed with contentLength := length } := by
  have found := withHead_get req parsed .contentLength
  cases shape : valuesOf .contentLength parsed.headers with
  | nil =>
      rw [shape] at found
      simp only [readContentLength, found, List.head?_nil, lengthOf, Option.map_some]
      rfl
  | cons value values =>
      rw [shape] at found
      simp only [readContentLength, found, List.head?_cons, lengthOf]
      cases fromChars value <;> rfl

theorem withHead_chunked (req : Request) (parsed : PhrRequest) (length : Option Nat) :
    ({ req.withHead parsed with contentLength := length } : Request).readChunked =
      { req.withHead parsed with
        contentLength := length
        chunked := chunkedOf req.chunked length (valuesOf .transferEncoding parsed.headers) } := by
  have found : ({ req.withHead parsed with contentLength := length } : Request).getList
      .transferEncoding = valuesOf .transferEncoding parsed.headers :=
    withHead_getList req parsed .transferEncoding
  rw [readChunked, found]
  by_cases asks : length.isNone ∧ ((valuesOf .transferEncoding parsed.headers).any fun text =>
      decide (ascii "chunked" <:+: text)) = true
  · rw [if_pos asks]
    simp [chunkedOf, asks.1, asks.2]
  · have quiet : (length.isNone && (valuesOf .transferEncoding parsed.headers).any fun text =>
        decide (ascii "chunked" <:+: text)) = false := by
      rw [← Bool.not_eq_true, Bool.and_eq_true]
      exact asks
    rw [if_neg asks, chunkedOf, quiet, Bool.or_false]
    rfl

theorem deserialize_framing {req : Request} {ret : Int} {numHeaders : Nat} {parsed : PhrRequest}
    (accepts : phrParseRequest req.headerBuffer maxNumHeaders = (ret, numHeaders, some parsed))
    (positive : 0 < ret) :
    (lengthOf req.contentLength (valuesOf .contentLength parsed.headers) = none →
      req.deserialize = some (false, req.withHead parsed)) ∧
    ∀ length, lengthOf req.contentLength (valuesOf .contentLength parsed.headers) = some length →
      req.deserialize = (readTarget { req.withHead parsed with
        contentLength := length
        chunked := chunkedOf req.chunked length (valuesOf .transferEncoding parsed.headers) }).map
          fun final => (true, final) := by
  obtain ⟨rejects, goesOn⟩ := deserialize_accepts accepts positive
  constructor
  · intro none_
    exact rejects (by rw [withHead_length, none_, Option.map_none])
  · intro length some_
    rw [goesOn _ (by rw [withHead_length, some_, Option.map_some]), withHead_chunked]

/-- The request that an accepted head leaves. -/
def withTarget (req : Request) (parsed : PhrRequest) (length : Option Nat) : Request :=
  { req.withHead parsed with
    contentLength := length
    chunked := chunkedOf req.chunked length (valuesOf .transferEncoding parsed.headers)
    path := req.path ++ pieces (pathPart parsed.path)
    params := req.params ++ pairsOf parsed.path }

theorem deserialize_target {req : Request} {ret : Int} {numHeaders : Nat} {parsed : PhrRequest}
    {length : Option Nat}
    (accepts : phrParseRequest req.headerBuffer maxNumHeaders = (ret, numHeaders, some parsed))
    (positive : 0 < ret)
    (framing : lengthOf req.contentLength (valuesOf .contentLength parsed.headers) = some length) :
    (pathPart parsed.path = [] → req.deserialize = none) ∧
      (pathPart parsed.path ≠ [] → req.deserialize = some (true, req.withTarget parsed length)) := by
  rw [(deserialize_framing accepts positive).2 length framing, readTarget_eq]
  constructor
  · intro none_
    split
    · rfl
    · rename_i some_
      exact (some_ none_).elim
  · intro some_
    split
    · rename_i none_
      exact (some_ none_).elim
    · rfl

theorem deserialize_cases {req req' : Request} {success : Bool}
    (read : req.deserialize = some (success, req')) :
    (∃ ret numHeaders parsed,
        phrParseRequest req.headerBuffer maxNumHeaders = (ret, numHeaders, parsed) ∧ ret ≤ 0 ∧
          success = false ∧ req' = { req with numHeaders := numHeaders }) ∨
      ∃ ret numHeaders parsed,
        phrParseRequest req.headerBuffer maxNumHeaders = (ret, numHeaders, some parsed) ∧ 0 < ret ∧
          ((success = false ∧ req' = req.withHead parsed) ∨
            ∃ length, success = true ∧ req' = req.withTarget parsed length) := by
  cases outcome : phrParseRequest req.headerBuffer maxNumHeaders with
  | mk ret rest =>
      obtain ⟨numHeaders, parsed⟩ := rest
      by_cases rejected : ret ≤ 0
      · rw [deserialize_rejects outcome rejected] at read
        cases read
        exact Or.inl ⟨ret, numHeaders, parsed, rfl, rejected, rfl, rfl⟩
      · have positive : 0 < ret := Int.not_le.mp rejected
        cases parsed with
        | none => simp [deserialize, outcome, rejected] at read
        | some parsed =>
            refine Or.inr ⟨ret, numHeaders, parsed, rfl, positive, ?_⟩
            cases framing : lengthOf req.contentLength (valuesOf .contentLength parsed.headers) with
            | none =>
                rw [(deserialize_framing outcome positive).1 framing] at read
                cases read
                exact Or.inl ⟨rfl, rfl⟩
            | some length =>
                obtain ⟨undefined, final⟩ := deserialize_target outcome positive framing
                by_cases none_ : pathPart parsed.path = []
                · rw [undefined none_] at read
                  cases read
                · rw [final none_] at read
                  cases read
                  exact Or.inr ⟨length, rfl, rfl⟩

theorem deserialize_final {req req' : Request} (accepted : req.deserialize = some (true, req')) :
    ∃ ret numHeaders parsed length,
      phrParseRequest req.headerBuffer maxNumHeaders = (ret, numHeaders, some parsed) ∧ 0 < ret ∧
        req' = req.withTarget parsed length := by
  obtain ⟨_, _, _, _, _, no, _⟩ |
    ⟨ret, numHeaders, parsed, accepts, positive, ⟨no, _⟩ | ⟨length, _, final⟩⟩ :=
    deserialize_cases accepted
  · cases no
  · cases no
  · exact ⟨ret, numHeaders, parsed, length, accepts, positive, final⟩

theorem deserialize_keeps {req req' : Request} {success : Bool}
    (read : req.deserialize = some (success, req')) :
    req'.headerBuffer = req.headerBuffer ∧ req'.maxHeaderSize = req.maxHeaderSize ∧
      req'.headerBufferIdx = req.headerBufferIdx ∧ req'.last = req.last ∧
      req'.numFound = req.numFound := by
  obtain ⟨_, _, _, _, _, _, rfl⟩ | ⟨_, _, _, _, _, ⟨_, rfl⟩ | ⟨_, _, rfl⟩⟩ := deserialize_cases read
  · exact ⟨rfl, rfl, rfl, rfl, rfl⟩
  · exact ⟨rfl, rfl, rfl, rfl, rfl⟩
  · exact ⟨rfl, rfl, rfl, rfl, rfl⟩

theorem deserialize_accepted {req req' : Request} (accepted : req.deserialize = some (true, req')) :
    req'.path = req.path ++ pieces (pathPart req'.target) ∧
      req'.params = req.params ++ pairsOf req'.target := by
  obtain ⟨_, _, _, _, _, _, rfl⟩ := deserialize_final accepted
  exact ⟨rfl, rfl⟩

theorem consumeHeaderSome_target {req req' : Request} {data : Bytes} {complete : Bool} {count : Nat}
    (reply : req.consumeHeaderSome data = some ((none, complete, count), req')) :
    req'.path = (if complete then req.path ++ pieces (pathPart req'.target) else req.path) ∧
      req'.params = if complete then req.params ++ pairsOf req'.target else req.params := by
  obtain ⟨_, ⟨rfl, _, accepted⟩ | ⟨rfl, _, _, rfl⟩⟩ := consumeHeaderSome_ok reply
  · obtain ⟨path, params⟩ := deserialize_accepted accepted
    exact ⟨path, params⟩
  · exact ⟨rfl, rfl⟩

theorem accepted_target {headerBuffer input : Bytes} {sizes : List Nat} {count : Nat} {req : Request}
    (accepted : feed MessageLike.consumeHeaderSome sizes input (ofBuffer headerBuffer) =
      some (count, req)) :
    req.path = pieces (pathPart req.target) ∧ req.params = pairsOf req.target := by
  have keep : ∀ (msg : Request) chunk count msg', (msg.path = [] ∧ msg.params = []) →
      msg.consumeHeaderSome chunk = some ((none, false, count), msg') →
        msg'.path = [] ∧ msg'.params = [] := by
    rintro msg chunk count msg' ⟨noPath, noParams⟩ reply
    obtain ⟨path, params⟩ := consumeHeaderSome_target reply
    rw [path, params, if_neg (by decide), if_neg (by decide)]
    exact ⟨noPath, noParams⟩
  obtain ⟨before, chunk, taken, ⟨noPath, noParams⟩, reply⟩ :=
    feed_last keep (⟨rfl, rfl⟩ : (ofBuffer headerBuffer).path = [] ∧ _) accepted
  obtain ⟨path, params⟩ := consumeHeaderSome_target reply
  rw [if_pos rfl, noPath, List.nil_append] at path
  rw [if_pos rfl, noParams, List.nil_append] at params
  exact ⟨path, params⟩

end Request

end CoServer.Http
