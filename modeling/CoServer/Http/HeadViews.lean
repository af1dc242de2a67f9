import CoServer.Http.HeadLength
import CoServer.Http.TargetSplitting
import CoServer.Http.TokenPositions

/-!
The views that `deserialize_` stores: where they lie in the header buffer, and that
they show what the request is given as text.
-/

namespace CoServer.Http

open Scanning Splice

def Token.span (token : Token) : Span := ⟨token.position, token.text.length⟩

def shifted (start : Nat) (span : Span) : Span := ⟨start + span.position, span.length⟩

def shown (buffer : Bytes) (span : Span) : Bytes := window buffer span.position span.length

/-- The views into the header buffer. The name of a field that is continued, and the
value of a pair without an equals sign, are views of nothing. -/
structure Views where
  method : Span
  target : Span
  fields : List (Option Span × Span)
  path : List Span
  params : List (Span × Option Span)

def Views.all (views : Views) : List Span :=
  views.method :: views.target :: views.fields.flatMap (fun field => field.2 :: field.1.toList) ++
    views.path ++ views.params.flatMap fun pair => pair.1 :: pair.2.toList

namespace Request

def pairViews (query : Bytes) (start length : Nat) : Span × Option Span :=
  match findChar (window query start length) 0x3d 0 with
  | some eq => (⟨start, eq⟩, some ⟨start + (eq + 1), length - (eq + 1)⟩)
  | none => (⟨start, length⟩, none)

def queryViews (query : Bytes) : Nat → Nat → List (Span × Option Span)
  | 0, _ => []
  | fuel + 1, start =>
      if start < query.length then
        let amp := (findChar query 0x26 start).getD query.length
        pairViews query start (amp - start) :: queryViews query fuel (amp + 1)
      else []

def pathViews (target : Token) : List Span :=
  (splitLoop (splitTarget target.text).1 (splitTarget target.text).1.length 0).map (shifted target.position)

def paramViews (target : Token) : List (Span × Option Span) :=
  match findChar target.text 0x3f 0 with
  | none => []
  | some qPos =>
      let query := target.text.drop (qPos + 1)
      (queryViews query query.length 0).map fun pair =>
        (shifted (target.position + (qPos + 1)) pair.1,
          pair.2.map (shifted (target.position + (qPos + 1))))

def viewsOf (tokens : RequestTokens) : Views where
  method := tokens.method.span
  target := tokens.path.span
  fields := tokens.headers.map fun header => (header.name.map Token.span, header.value.span)
  path := pathViews tokens.path
  params := paramViews tokens.path

/-- The views that `deserialize_` stores of a header buffer that the parser accepts;
those of the path and of the parameters only if it comes to them. -/
def views (req : Request) : Option Views :=
  match parseRequestAt req.headerBuffer.length maxNumHeaders req.headerBuffer with
  | .done tokens rest => if usedBytes req.headerBuffer rest ≤ 0 then none else some (viewsOf tokens)
  | .failed _ => none
  | .starved _ => none

theorem splitLoop_inside {path : Bytes} {fuel start : Nat} {span : Span}
    (member : span ∈ splitLoop path fuel start) : span.position + span.length ≤ path.length := by
  induction fuel generalizing start with
  | zero => cases member
  | succ fuel ih =>
      rw [splitLoop] at member
      split at member
      · rename_i inside
        split at member
        · rename_i found at_
          have bound := (findChar_some at_).2.1
          split at member
          · exact ih member
          · rcases List.mem_cons.mp member with rfl | later
            · simp only
              omega
            · exact ih later
        · rcases List.mem_cons.mp member with rfl | later
          · simp only
            omega
          · exact ih later
      · cases member

theorem pairViews_inside {query : Bytes} {start length : Nat} (inside : start + length ≤ query.length)
    {span : Span} (member : span = (pairViews query start length).1 ∨
      some span = (pairViews query start length).2) : span.position + span.length ≤ query.length := by
  rw [pairViews] at member
  split at member
  · rename_i eq at_
    have bound := (findChar_some at_).2.1
    rw [window_length inside] at bound
    rcases member with rfl | same
    · simp only
      omega
    · cases same
      simp only
      omega
  · rcases member with rfl | same
    · exact inside
    · cases same

theorem queryViews_inside {query : Bytes} {fuel start : Nat} {pair : Span × Option Span}
    (member : pair ∈ queryViews query fuel start) {span : Span} (part : span = pair.1 ∨ some span = pair.2) :
    span.position + span.length ≤ query.length := by
  induction fuel generalizing start with
  | zero => cases member
  | succ fuel ih =>
      rw [queryViews] at member
      split at member
      · rename_i inside
        rcases List.mem_cons.mp member with rfl | later
        · refine pairViews_inside ?_ part
          cases at_ : findChar query 0x26 start with
          | none =>
              rw [Option.getD_none]
              omega
          | some found =>
              have bound := findChar_some at_
              rw [Option.getD_some]
              omega
        · exact ih later
      · cases member

variable {buffer rest : Bytes}

theorem span_inside {token : Token} (placed : token.Placed buffer rest) :
    token.span.position + token.span.length ≤ buffer.length - rest.length := by
  obtain ⟨front, back, split, at_⟩ := placed
  simp only [Token.span, at_, split, List.length_append]
  omega

theorem span_shown {token : Token} (placed : token.Placed buffer rest) :
    shown buffer token.span = token.text := by
  obtain ⟨front, back, split, at_⟩ := placed
  simp only [shown, Token.span, at_, split, window, List.append_assoc, List.drop_left, List.take_left]

theorem part_inside {token : Token} (placed : token.Placed buffer rest) {span : Span}
    (inside : span.position + span.length ≤ token.text.length) :
    (shifted token.position span).position + (shifted token.position span).length ≤
      buffer.length - rest.length := by
  have whole := span_inside placed
  simp only [Token.span, shifted] at whole ⊢
  omega

theorem part_shown {token : Token} (placed : token.Placed buffer rest) {span : Span}
    (inside : span.position + span.length ≤ token.text.length) :
    shown buffer (shifted token.position span) = window token.text span.position span.length := by
  conv_rhs => rw [← span_shown placed, shown, window, window_drop, window_take]
  simp only [shown, shifted, Token.span]
  congr 1
  omega

theorem splitTarget_take (target : Bytes) :
    ∃ size, (splitTarget target).1 = target.take size ∧ (splitTarget target).1.length ≤ target.length := by
  rw [splitTarget]
  cases findChar target 0x3f 0 with
  | none => exact ⟨target.length, List.take_length.symm, Nat.le_refl _⟩
  | some pos => exact ⟨pos, rfl, List.length_take_le' _ _⟩

theorem pathViews_part {target : Token} {span : Span} (member : span ∈ pathViews target) :
    ∃ part, span = shifted target.position part ∧ part.position + part.length ≤ target.text.length := by
  obtain ⟨part, inner, rfl⟩ := List.mem_map.mp member
  obtain ⟨_, _, short⟩ := splitTarget_take target.text
  exact ⟨part, rfl, Nat.le_trans (splitLoop_inside inner) short⟩

theorem paramViews_part {target : Token} {pair : Span × Option Span} (member : pair ∈ paramViews target)
    {span : Span} (shows : span = pair.1 ∨ some span = pair.2) :
    ∃ part, span = shifted target.position part ∧ part.position + part.length ≤ target.text.length := by
  rw [paramViews] at member
  split at member
  · cases member
  · rename_i qPos at_
    obtain ⟨inner, there, rfl⟩ := List.mem_map.mp member
    have bound := (findChar_some at_).2.1
    have within : ∀ part, (part = inner.1 ∨ some part = inner.2) →
        part.position + part.length ≤ (target.text.drop (qPos + 1)).length := fun part shows =>
      queryViews_inside there shows
    rw [List.length_drop] at within
    have found : ∃ part, (part = inner.1 ∨ some part = inner.2) ∧
        span = shifted (target.position + (qPos + 1)) part := by
      rcases shows with rfl | same
      · exact ⟨inner.1, Or.inl rfl, rfl⟩
      · obtain ⟨part, second, rfl⟩ := Option.map_eq_some_iff.mp same.symm
        exact ⟨part, Or.inr second.symm, rfl⟩
    obtain ⟨part, inner_, rfl⟩ := found
    refine ⟨⟨qPos + 1 + part.position, part.length⟩, ?_, ?_⟩
    · simp only [shifted, Nat.add_assoc]
    · have inside := within part inner_
      simp only
      omega

theorem viewsOf_inside {tokens : RequestTokens} (method : tokens.method.Placed buffer rest)
    (path : tokens.path.Placed buffer rest)
    (headers : ∀ header ∈ tokens.headers, header.Placed buffer rest) {span : Span}
    (member : span ∈ (viewsOf tokens).all) : span.position + span.length ≤ buffer.length - rest.length := by
  simp only [Views.all, viewsOf, List.mem_append, List.mem_cons, List.mem_flatMap, List.mem_map] at member
  rcases member with ((rfl | rfl | ⟨_, ⟨header, there, rfl⟩, shows⟩) | path_) | ⟨pair, there, shows⟩
  · exact span_inside method
  · exact span_inside path
  · obtain ⟨name, value⟩ := headers header there
    rcases shows with rfl | named
    · exact span_inside value
    · rw [Option.mem_toList] at named
      obtain ⟨token, inner, rfl⟩ := Option.map_eq_some_iff.mp named
      exact span_inside (name token inner)
  · obtain ⟨part, rfl, inside⟩ := pathViews_part path_
    exact part_inside path inside
  · rw [Option.mem_toList, @eq_comm _ pair.2] at shows
    obtain ⟨part, rfl, inside⟩ := paramViews_part there shows
    exact part_inside path inside

/-- What a pair of views shows; a view of nothing shows the empty text. -/
def shownPair (buffer : Bytes) (pair : Span × Option Span) : Bytes × Bytes :=
  (shown buffer pair.1, (pair.2.map (shown buffer)).getD [])

theorem pairViews_shown {query : Bytes} {start length : Nat} (inside : start + length ≤ query.length) :
    shownPair query (pairViews query start length) = pairOf (window query start length) := by
  rw [pairViews, pairOf]
  cases at_ : findChar (window query start length) 0x3d 0 with
  | none => rfl
  | some eq =>
      have bound := (findChar_some at_).2.1
      rw [window_length inside] at bound
      simp only [shownPair, shown, Option.map_some, Option.getD_some, window_take, window_drop]
      rw [Nat.min_eq_left (by omega)]

theorem queryViews_shown (query : Bytes) (fuel start : Nat) :
    (queryViews query fuel start).map (shownPair query) = splitQuery query fuel start := by
  induction fuel generalizing start with
  | zero => rfl
  | succ fuel ih =>
      rw [queryViews, splitQuery]
      by_cases inside : start < query.length
      · have amp : start ≤ (findChar query 0x26 start).getD query.length ∧
            (findChar query 0x26 start).getD query.length ≤ query.length := by
          cases at_ : findChar query 0x26 start with
          | none => exact ⟨Nat.le_of_lt inside, Nat.le_refl _⟩
          | some found => exact ⟨(findChar_some at_).1, Nat.le_of_lt (findChar_some at_).2.1⟩
        rw [if_pos inside, if_pos inside, List.map_cons, ih, pairViews_shown (by omega)]
        rfl
      · rw [if_neg inside, if_neg inside]
        rfl

theorem pathViews_shown {target : Token} (placed : target.Placed buffer rest) :
    (pathViews target).map (shown buffer) =
      ((pathPart target.text).splitOn slash).filter fun piece => !piece.isEmpty := by
  obtain ⟨size, taken, short⟩ := splitTarget_take target.text
  rw [← splitTarget_fst, ← List.drop_zero (l := (splitTarget target.text).1),
    ← splitLoop_pieces (splitTarget target.text).1 _ 0 (Nat.le_add_left _ _), pathViews, List.map_map]
  refine List.map_congr_left fun span member => ?_
  have inside := splitLoop_inside member
  have within : span.position + span.length ≤ target.text.length := Nat.le_trans inside short
  rw [Function.comp_apply, part_shown placed within]
  rw [taken, List.length_take] at inside
  rw [taken, window_of_take (by omega)]

theorem paramViews_shown {target : Token} (placed : target.Placed buffer rest) :
    (paramViews target).map (shownPair buffer) = pairsOf target.text := by
  rw [paramViews, pairsOf, splitTarget]
  cases at_ : findChar target.text 0x3f 0 with
  | none => rfl
  | some qPos =>
      have bound := (findChar_some at_).2.1
      have part : ∀ span : Span, span.position + span.length ≤ (target.text.drop (qPos + 1)).length →
          shown buffer (shifted (target.position + (qPos + 1)) span) =
            shown (target.text.drop (qPos + 1)) span := by
        intro span inside
        rw [List.length_drop] at inside
        have same : shifted (target.position + (qPos + 1)) span =
            shifted target.position ⟨qPos + 1 + span.position, span.length⟩ := by
          simp only [shifted, Nat.add_assoc]
        rw [same, part_shown placed (by simp only; omega)]
        simp only [shown, window, List.drop_drop]
      simp only
      rw [← queryViews_shown, List.map_map]
      refine List.map_congr_left fun pair member => ?_
      obtain ⟨first, second⟩ := pair
      have inner := part first (queryViews_inside member (Or.inl rfl))
      rw [Function.comp_apply, shownPair, shownPair, inner]
      cases second with
      | none => rfl
      | some span =>
          have inner' := part span (queryViews_inside member (Or.inr rfl))
          rw [Option.map_some, Option.map_some, Option.map_some, inner']

/-- The views show what the request has as text. -/
structure Shows (req req' : Request) (views : Views) : Prop where
  method : req'.method = shown req.headerBuffer views.method
  target : req'.target = shown req.headerBuffer views.target
  fields : req'.fields.take req'.numHeaders = views.fields.map fun field =>
    ((field.1.map (shown req.headerBuffer)).getD [], shown req.headerBuffer field.2)
  path : req'.path = req.path ++ (views.path.map (shown req.headerBuffer) ++
    if (pathPart req'.target).getLast? = some slash then [[]] else [])
  params : req'.params = req.params ++ views.params.map (shownPair req.headerBuffer)

theorem views_stored {req : Request} {views : Views} (stored : req.views = some views) :
    ∃ tokens rest, views = viewsOf tokens ∧
      parseRequest maxNumHeaders req.headerBuffer = .done tokens.request rest ∧
      tokens.method.Placed req.headerBuffer rest ∧ tokens.path.Placed req.headerBuffer rest ∧
        ∀ header ∈ tokens.headers, header.Placed req.headerBuffer rest := by
  have erased := erases_parseRequestAt req.headerBuffer.length maxNumHeaders req.headerBuffer
  rw [Request.views] at stored
  split at stored
  · rename_i tokens rest outcome
    rw [outcome, Outcome.map] at erased
    split at stored
    · cases stored
    · cases stored
      exact ⟨tokens, rest, rfl, erased, parseRequestAt_placed outcome⟩
  · cases stored
  · cases stored

theorem views_some {req : Request} {ret : Int} {numHeaders : Nat} {parsed : PhrRequest}
    (accepts : phrParseRequest req.headerBuffer maxNumHeaders = (ret, numHeaders, some parsed))
    (positive : 0 < ret) : ∃ views, req.views = some views := by
  have erased := erases_parseRequestAt req.headerBuffer.length maxNumHeaders req.headerBuffer
  rw [phrParseRequest, erased] at accepts
  rw [views]
  cases outcome : parseRequestAt req.headerBuffer.length maxNumHeaders req.headerBuffer with
  | done tokens rest =>
      simp only [outcome, Outcome.map, Prod.mk.injEq] at accepts
      obtain ⟨rfl, _⟩ := accepts
      exact ⟨_, if_neg (Int.not_le.mpr positive)⟩
  | failed note => simp [outcome, Outcome.map] at accepts
  | starved note => simp [outcome, Outcome.map] at accepts

theorem shows_of_accepted {req req' : Request} (accepted : req.deserialize = some (true, req')) :
    ∃ views, req.views = some views ∧ Shows req req' views := by
  obtain ⟨ret, numHeaders, parsed, length, accepts, positive, rfl⟩ := deserialize_final accepted
  obtain ⟨views, stored⟩ := views_some accepts positive
  obtain ⟨tokens, rest, rfl, done_, method, path, headers⟩ := views_stored stored
  obtain rfl : parsed = tokens.request := by
    simp only [phrParseRequest, done_, Prod.mk.injEq, Option.some.injEq] at accepts
    exact accepts.2.2.symm
  refine ⟨viewsOf tokens, stored, (span_shown method).symm, (span_shown path).symm, ?_, ?_, ?_⟩
  · refine (withHead_fields req tokens.request).trans ?_
    simp only [fieldsOf, RequestTokens.request, viewsOf, List.map_map]
    refine List.map_congr_left fun header member => ?_
    obtain ⟨name, value⟩ := headers header member
    simp only [Function.comp_apply, HeaderTokens.header, span_shown value]
    cases named : header.name with
    | none => rfl
    | some token => simp only [Option.map_some, span_shown (name token named)]
  · simp only [viewsOf, pathViews_shown path]
    rfl
  · simp only [viewsOf, paramViews_shown path]
    rfl

end Request

end CoServer.Http
