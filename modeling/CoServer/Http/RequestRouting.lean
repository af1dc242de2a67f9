import CoServer.Http.HeadReading
import CoServer.Http.RouterMatching

/-!
Requests and routes are split the same way: the path of an accepted request is
the pieces of its target before the question mark, and a literal route over the
same pieces runs before every parameter and wildcard route.
-/

namespace CoServer.Http

/-- The literal branch is searched first, so a literal pattern finds its own node. -/
theorem Node.find_literals {H : Type} {handler : H} {segments : List Bytes} {node : Node H}
    (present : handlerAt (segments.map .literal) node = some handler) :
    ∃ found, find node segments = some found ∧ found.handler = some handler := by
  induction segments generalizing node with
  | nil =>
      rw [List.map_nil, handlerAt] at present
      exact ⟨node, by simp [find, present], present⟩
  | cons segment rest ih =>
      rw [List.map_cons, handlerAt, follow, Option.bind_eq_some_iff] at present
      obtain ⟨child, edge, below⟩ := present
      obtain ⟨found, result, same⟩ := ih below
      refine ⟨found, ?_, same⟩
      rw [find, edge, Option.bind_some, result, Option.some_or]

theorem normalise_literal {path : Bytes}
    (literal : ∀ piece ∈ path.splitOn slash, piece ≠ ascii "*" ∧ piece.head? ≠ some 0x3a) :
    normalise path = (pieces path).map .literal := by
  refine List.map_congr_left fun piece member => ?_
  have plain : piece ≠ ascii "*" ∧ piece.head? ≠ some 0x3a := by
    rcases List.mem_append.mp member with inner | trailing
    · exact literal piece (List.mem_filter.mp inner).1
    · split at trailing
      · rw [List.mem_singleton.mp trailing]
        decide
      · cases trailing
  rw [pieceOf, if_neg plain.1, if_neg plain.2]

section Routing

variable {Args Ret : Type} {Await : Type → Type}

theorem literal_route_wins [Monad Await] (notFound : Option (Args → Await Ret))
    (routes : List (Route Args Await Ret)) (path : Bytes) (handler : Args → Await Ret)
    (headerBuffer input : Bytes) (sizes : List Nat) (count : Nat) (req : Request)
    (nonEmpty : ∀ route ∈ routes, route.1 ≠ [])
    (literal : ∀ piece ∈ path.splitOn slash, piece ≠ ascii "*" ∧ piece.head? ≠ some 0x3a)
    (added : lastAdd (normalise path) routes = some handler)
    (accepted : feed MessageLike.consumeHeaderSome sizes input (Request.ofBuffer headerBuffer) =
      some (count, req))
    (samePieces : ((Request.pathPart req.target).splitOn slash).filter (fun piece => !piece.isEmpty) =
      (path.splitOn slash).filter fun piece => !piece.isEmpty)
    (sameEnd : (Request.pathPart req.target).getLast? = some slash ↔ path.getLast? = some slash) :
    ∃ router, (⟨notFound, Node.empty⟩ : Router Args Await Ret).register routes = some router ∧
      (router.root.find req.path).bind Node.handler = some handler ∧
      ∀ args, router.handle req.path args = some (some <$> handler args) := by
  obtain ⟨router, registered, _, handlers⟩ := register_handlerAt routes ⟨notFound, Node.empty⟩ nonEmpty
  have same : req.path = pieces path := by
    rw [(Request.accepted_target accepted).1, pieces, pieces, samePieces]
    simp only [sameEnd]
  have present : router.root.handlerAt ((pieces path).map .literal) = some handler := by
    rw [handlers, ← normalise_literal literal, added, Option.some_or]
  obtain ⟨found, result, runs⟩ := Node.find_literals present
  refine ⟨router, registered, ?_, ?_⟩
  · rw [same, result, Option.bind_some, runs]
  · intro args
    simp only [Router.handle, same, result, runs, Option.map_some]

theorem literal_route_wins_overlap : ∃ count req router,
    feed MessageLike.consumeHeaderSome [7, 18] (ascii "GET //a/b/?c HTTP/1.1\r\n\r\n")
        (Request.ofBuffer (List.replicate 64 0)) = some (count, req) ∧
      (⟨none, Node.empty⟩ : Router Nat Option Nat).register
        [(ascii "/a/:x/", fun n => some (n + 1)), (ascii "a//b/", some), (ascii "*", fun _ => none)] =
      some router ∧
      (router.root.find req.path).bind Node.handler = some some ∧
      ∀ args, router.handle req.path args = some (some <$> some args) := by
  obtain ⟨⟨count, req⟩, accepted⟩ := Option.isSome_iff_exists.mp
    (by decide +kernel : (feed MessageLike.consumeHeaderSome [7, 18]
      (ascii "GET //a/b/?c HTTP/1.1\r\n\r\n") (Request.ofBuffer (List.replicate 64 0))).isSome)
  have target : ((feed MessageLike.consumeHeaderSome [7, 18]
      (ascii "GET //a/b/?c HTTP/1.1\r\n\r\n") (Request.ofBuffer (List.replicate 64 0))).map
        fun after => after.2.target) = some (ascii "//a/b/?c") := by decide +kernel
  rw [accepted, Option.map_some, Option.some.injEq] at target
  obtain ⟨router, registered, found, runs⟩ := literal_route_wins none
    [(ascii "/a/:x/", fun n => some (n + 1)), (ascii "a//b/", some), (ascii "*", fun _ => none)]
    (ascii "a//b/") some _ _ _ _ _ (by decide) (by decide) rfl accepted
    (by rw [target]; decide) (by rw [target]; decide)
  exact ⟨count, req, router, accepted, registered, found, runs⟩

end Routing

end CoServer.Http
