import CoServer.Foundation.Loop
import CoServer.Http.HeadReading

/-!
The decomposition of a target. Both loops of `deserialize_` end; the first leaves
the pieces of the path that are not empty, and the second the pieces of the query,
each cut at its first equals sign.
-/

namespace CoServer.Http.Request

open Splice Loop

/-- A round of the loop over the path, on its position and the segments so far. -/
def pathRound (path : Bytes) : Nat × List Span → Option (Nat × List Span)
  | (start, spans) =>
      if start < path.length then
        match findChar path slash start with
        | some found =>
            if found = start then some (start + 1, spans)
            else some (found + 1, spans ++ [⟨start, found - start⟩])
        | none => some (path.length + 1, spans ++ [⟨start, path.length - start⟩])
      else none

def pairOf (pair : Bytes) : Bytes × Bytes :=
  match findChar pair 0x3d 0 with
  | some eq => (pair.take eq, pair.drop (eq + 1))
  | none => (pair, [])

def queryRound (query : Bytes) :
    Nat × List (Bytes × Bytes) → Option (Nat × List (Bytes × Bytes))
  | (start, params) =>
      if start < query.length then
        let amp := (findChar query 0x26 start).getD query.length
        some (amp + 1, params ++ [pairOf (window query start (amp - start))])
      else none

theorem pathRound_some {path : Bytes} {start next : Nat} {spans spans' : List Span}
    (round : pathRound path (start, spans) = some (next, spans')) : start < path.length ∧ start < next := by
  simp only [pathRound] at round
  split at round
  · rename_i inside
    split at round
    · rename_i found at_
      have order := (findChar_some at_).1
      split at round
      · cases round
        exact ⟨inside, Nat.lt_succ_self _⟩
      · cases round
        exact ⟨inside, by omega⟩
    · cases round
      exact ⟨inside, by omega⟩
  · cases round

theorem pathRound_ends (path : Bytes) (state : Nat × List Span) :
    ∃ last, Ends (pathRound path) state last := by
  refine ends_of_decreasing (fun state => path.length - state.1) ?_ state
  rintro ⟨start, spans⟩ ⟨next, spans'⟩ round
  have moved := pathRound_some round
  simp only
  omega

theorem pathRound_splitLoop {path : Bytes} {start last : Nat} {spans out : List Span}
    (ends : Ends (pathRound path) (start, spans) (last, out)) {fuel : Nat}
    (enough : path.length ≤ start + fuel) : out = spans ++ splitLoop path fuel start := by
  generalize first : (start, spans) = state at ends
  generalize final : (last, out) = state' at ends
  induction ends generalizing start spans fuel with
  | stop none_ =>
      subst final
      cases first
      simp only [pathRound] at none_
      split at none_
      · split at none_
        · split at none_ <;> cases none_
        · cases none_
      · rename_i outside
        cases fuel with
        | zero => simp [splitLoop]
        | succ fuel => simp [splitLoop, outside]
  | next round _ ih =>
      subst first
      have inside := (pathRound_some round).1
      obtain ⟨fuel, rfl⟩ : ∃ fuel', fuel = fuel' + 1 := ⟨fuel - 1, by omega⟩
      simp only [pathRound, inside, ↓reduceIte] at round
      simp only [splitLoop, inside, ↓reduceIte]
      cases at_ : findChar path slash start with
      | none =>
          simp only [at_, Option.some.injEq] at round
          have later := @ih _ _ fuel (by omega) round final
          rw [later, List.append_assoc, List.singleton_append]
      | some found =>
          have order := (findChar_some at_).1
          by_cases here : found = start
          · simp only [at_, here, ↓reduceIte, Option.some.injEq] at round ⊢
            exact @ih _ _ fuel (by omega) round final
          · simp only [at_, here, ↓reduceIte, Option.some.injEq] at round ⊢
            have later := @ih _ _ fuel (by omega) round final
            rw [later, List.append_assoc, List.singleton_append]

theorem queryRound_ends (query : Bytes) (state : Nat × List (Bytes × Bytes)) :
    ∃ last, Ends (queryRound query) state last := by
  refine ends_of_decreasing (fun state => query.length - state.1) ?_ state
  rintro ⟨start, params⟩ ⟨next, params'⟩ round
  simp only [queryRound] at round
  split at round
  · rename_i inside
    have amp : start ≤ (findChar query 0x26 start).getD query.length := by
      cases at_ : findChar query 0x26 start with
      | none => exact Nat.le_of_lt inside
      | some found => exact (findChar_some at_).1
    cases round
    simp only
    omega
  · cases round

theorem queryRound_splitQuery {query : Bytes} {start last : Nat} {params out : List (Bytes × Bytes)}
    (ends : Ends (queryRound query) (start, params) (last, out)) {fuel : Nat}
    (enough : query.length ≤ start + fuel) : out = params ++ splitQuery query fuel start := by
  generalize first : (start, params) = state at ends
  generalize final : (last, out) = state' at ends
  induction ends generalizing start params fuel with
  | stop none_ =>
      subst final
      cases first
      simp only [queryRound] at none_
      split at none_
      · cases none_
      · rename_i outside
        cases fuel with
        | zero => simp [splitQuery]
        | succ fuel => simp [splitQuery, outside]
  | next round _ ih =>
      subst first
      by_cases inside : start < query.length
      · obtain ⟨fuel, rfl⟩ : ∃ fuel', fuel = fuel' + 1 := ⟨fuel - 1, by omega⟩
        have amp : start ≤ (findChar query 0x26 start).getD query.length := by
          cases at_ : findChar query 0x26 start with
          | none => exact Nat.le_of_lt inside
          | some found => exact (findChar_some at_).1
        simp only [queryRound, inside, ↓reduceIte, Option.some.injEq] at round
        simp only [splitQuery, inside, ↓reduceIte]
        have later := @ih _ _ fuel (by omega) round final
        rw [later, List.append_assoc, List.singleton_append]
        rfl
      · simp [queryRound, inside] at round

def lastDropped (pieces : List Bytes) : List Bytes :=
  if pieces.getLast? = some [] then pieces.dropLast else pieces

def entryOf (piece : Bytes) : Bytes × Bytes :=
  (piece.takeWhile (· != 0x3d), (piece.dropWhile (· != 0x3d)).drop 1)

def queryPart (target : Bytes) : Option Bytes :=
  if 0x3f ∈ target then some ((target.dropWhile (· != 0x3f)).drop 1) else none

theorem findChar_cut {text : Bytes} {char : UInt8} {found : Nat} (at_ : findChar text char 0 = some found) :
    char ∈ text ∧ text.take found = text.takeWhile (· != char) ∧
      text.drop (found + 1) = (text.dropWhile (· != char)).drop 1 := by
  obtain ⟨_, _, split, clean⟩ := findChar_some at_
  rw [List.drop_zero, Nat.sub_zero] at split
  rw [Nat.sub_zero] at clean
  have front : window text 0 found = text.take found := rfl
  rw [front] at split clean
  have before : ∀ other ∈ text.take found, (other != char) = true := by
    intro other member
    rw [bne_iff_ne]
    rintro rfl
    exact clean member
  have taken : text.takeWhile (· != char) = text.take found := by
    conv_lhs => rw [split]
    rw [List.takeWhile_append_of_pos before]
    simp
  have left : text.dropWhile (· != char) = char :: text.drop (found + 1) := by
    conv_lhs => rw [split]
    rw [List.dropWhile_append_of_pos before]
    simp
  refine ⟨?_, taken.symm, by rw [left]; rfl⟩
  rw [split]
  exact List.mem_append_right _ List.mem_cons_self

theorem pairOf_entryOf (piece : Bytes) : pairOf piece = entryOf piece := by
  rw [pairOf, entryOf]
  cases at_ : findChar piece 0x3d 0 with
  | some found =>
      obtain ⟨_, taken, left⟩ := findChar_cut at_
      rw [← taken, ← left]
  | none =>
      have absent := findChar_none at_
      rw [List.drop_zero] at absent
      have clean : ∀ other ∈ piece, (other != 0x3d) = true := by
        intro other member
        rw [bne_iff_ne]
        rintro rfl
        exact absent member
      rw [List.takeWhile_eq_self_iff.mpr clean, List.dropWhile_eq_nil_iff.mpr clean]
      rfl

theorem splitTarget_snd (target : Bytes) : (splitTarget target).2 = queryPart target := by
  rw [splitTarget, queryPart]
  cases at_ : findChar target 0x3f 0 with
  | none =>
      have absent := findChar_none at_
      rw [List.drop_zero] at absent
      rw [if_neg absent]
  | some found =>
      obtain ⟨present, _, left⟩ := findChar_cut at_
      rw [if_pos present, ← left]

theorem lastDropped_cons {piece : Bytes} {pieces : List Bytes} (more : pieces ≠ []) :
    lastDropped (piece :: pieces) = piece :: lastDropped pieces := by
  obtain ⟨next, rest, rfl⟩ := List.exists_cons_of_ne_nil more
  rw [lastDropped, lastDropped, List.getLast?_cons_cons]
  split <;> rfl

theorem splitQuery_pieces (query : Bytes) (fuel start : Nat) (enough : query.length ≤ start + fuel) :
    splitQuery query fuel start = (lastDropped ((query.drop start).splitOn 0x26)).map entryOf := by
  induction fuel generalizing start with
  | zero =>
      rw [List.drop_of_length_le (by omega)]
      simp [splitQuery, lastDropped]
  | succ fuel ih =>
      by_cases inside : start < query.length
      · have entry : ∀ amp, (findChar query 0x26 start).getD query.length = amp →
            splitQuery query (fuel + 1) start =
              entryOf (window query start (amp - start)) :: splitQuery query fuel (amp + 1) := by
          intro amp at_
          simp only [splitQuery, inside, ↓reduceIte, at_, ← pairOf_entryOf]
          rfl
        cases next : findChar query 0x26 start with
        | none =>
            have whole : query.drop start ≠ [] := by
              simpa using inside
            have single : (query.drop start).splitOn 0x26 = [query.drop start] := by
              refine List.splitOnP_eq_singleton fun char member => ?_
              rw [beq_eq_false_iff_ne]
              rintro rfl
              exact findChar_none next member
            have window_ : window query start (query.length - start) = query.drop start := by
              rw [window, List.take_of_length_le (Nat.le_of_eq List.length_drop)]
            have ended := ih (query.length + 1) (by omega)
            rw [List.drop_of_length_le (by omega)] at ended
            rw [entry query.length (by rw [next]; rfl), window_, ended, single]
            simp [lastDropped, whole]
        | some found =>
            obtain ⟨order, bound, split, clean⟩ := findChar_some next
            have cut : (query.drop start).splitOn 0x26 =
                window query start (found - start) :: (query.drop (found + 1)).splitOn 0x26 := by
              rw [split]
              refine List.splitOnP_append_cons_of_forall_mem ?_ 0x26 (by simp) _
              intro char member
              rw [beq_eq_false_iff_ne]
              rintro rfl
              exact clean member
            rw [entry found (by rw [next]; rfl), ih (found + 1) (by omega), cut,
              lastDropped_cons (List.splitOn_ne_nil _ _), List.map_cons]
      · rw [List.drop_of_length_le (by omega)]
        simp [splitQuery, inside, lastDropped]

/-- The path and the parameters are what the loops over the target leave, and the pieces
of its two parts. -/
structure Decomposed (req : Request) : Prop where
  pathLoop : ∃ last spans, Ends (pathRound (pathPart req.target)) (0, []) (last, spans) ∧
    req.path = spans.map (fun span => window (pathPart req.target) span.position span.length) ++
      if (pathPart req.target).getLast? = some slash then [[]] else []
  path : req.path = ((pathPart req.target).splitOn slash).filter (fun piece => !piece.isEmpty) ++
    if (pathPart req.target).getLast? = some slash then [[]] else []
  plain : queryPart req.target = none → req.params = []
  queryLoop : ∀ query, queryPart req.target = some query →
    ∃ last, Ends (queryRound query) (0, []) (last, req.params)
  query : ∀ query, queryPart req.target = some query →
    req.params = (lastDropped (query.splitOn 0x26)).map entryOf

theorem target_decomposed (headerBuffer input : Bytes) (sizes : List Nat) (count : Nat)
    (req : Request) (accepted : feed MessageLike.consumeHeaderSome sizes input (ofBuffer headerBuffer) =
      some (count, req)) : Decomposed req := by
  obtain ⟨path, params⟩ := accepted_target accepted
  rw [pairsOf, splitTarget_snd] at params
  refine ⟨?_, path, ?_, ?_, ?_⟩
  · obtain ⟨⟨last, spans⟩, ends⟩ := pathRound_ends (pathPart req.target) (0, [])
    have out := pathRound_splitLoop ends
      (show (pathPart req.target).length ≤ 0 + (pathPart req.target).length by omega)
    refine ⟨last, spans, ends, ?_⟩
    rw [out, List.nil_append, splitLoop_pieces _ _ _ (by omega), List.drop_zero, path, pieces]
  · intro none_
    rw [params, none_]
  · intro query some_
    obtain ⟨⟨last, out⟩, ends⟩ := queryRound_ends query (0, [])
    have same := queryRound_splitQuery ends (show query.length ≤ 0 + query.length by omega)
    rw [List.nil_append] at same
    refine ⟨last, ?_⟩
    rw [params, some_]
    show Ends _ _ (last, splitQuery query query.length 0)
    rw [← same]
    exact ends
  · intro query some_
    rw [params, some_]
    exact splitQuery_pieces query _ 0 (by omega)

/-- Separators that are doubled or at an end, an empty key, and a second equals sign. -/
theorem target_decomposed_separators : ∃ count req,
    feed MessageLike.consumeHeaderSome [9, 40]
        (ascii "GET //a//b/?x=1=2&&=y&z?& HTTP/1.1\r\n\r\n") (ofBuffer (List.replicate 64 0)) =
      some (count, req) ∧
    Decomposed req ∧ req.path = [ascii "a", ascii "b", []] ∧
    req.params = [(ascii "x", ascii "1=2"), ([], []), ([], ascii "y"), (ascii "z?", [])] := by
  obtain ⟨⟨count, req⟩, accepted⟩ := Option.isSome_iff_exists.mp
    (by decide +kernel : (feed MessageLike.consumeHeaderSome [9, 40]
      (ascii "GET //a//b/?x=1=2&&=y&z?& HTTP/1.1\r\n\r\n") (ofBuffer (List.replicate 64 0))).isSome)
  have target : ((feed MessageLike.consumeHeaderSome [9, 40]
      (ascii "GET //a//b/?x=1=2&&=y&z?& HTTP/1.1\r\n\r\n") (ofBuffer (List.replicate 64 0))).map
        fun after => after.2.target) = some (ascii "//a//b/?x=1=2&&=y&z?&") := by decide +kernel
  rw [accepted, Option.map_some, Option.some.injEq] at target
  have decomposed := target_decomposed _ _ _ _ _ accepted
  refine ⟨count, req, accepted, decomposed, ?_, ?_⟩
  · rw [decomposed.path, target]
    decide
  · rw [decomposed.query (ascii "x=1=2&&=y&z?&") (by rw [target]; decide)]
    decide

end CoServer.Http.Request
