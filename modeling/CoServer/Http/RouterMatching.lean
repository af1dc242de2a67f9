import CoServer.Http.Router

/-!
The router runs a handler exactly when a registered pattern matches. `handlerAt`
is the abstract content of a trie, the handler at the end of a pattern: inserting
changes it at one pattern only, and searching finds a matching pattern in it.
-/

namespace CoServer.Http

open PathPattern

def pieceOf (segment : Bytes) : Piece Bytes :=
  if segment = ascii "*" then .wildcard
  else if segment.head? = some 0x3a then .param
  else .literal segment

def normalise (path : Bytes) : List (Piece Bytes) := (pieces path).map pieceOf

namespace Node

variable {H : Type}

def follow (node : Node H) : Piece Bytes → Option (Node H)
  | .literal segment => node.child segment
  | .param => node.paramChild
  | .wildcard => node.wildcardChild

def handlerAt : List (Piece Bytes) → Node H → Option H
  | [], node => node.handler
  | piece :: rest, node => (node.follow piece).bind (handlerAt rest)

theorem handlerAt_empty (pattern : List (Piece Bytes)) : handlerAt pattern (empty : Node H) = none := by
  cases pattern with
  | nil => rfl
  | cons piece rest => cases piece <;> rfl

theorem handlerAt_getD (pattern : List (Piece Bytes)) (node : Option (Node H)) :
    handlerAt pattern (node.getD empty) = node.bind (handlerAt pattern) := by
  cases node with
  | none => exact handlerAt_empty pattern
  | some node => rfl

theorem lookup_emplace (segment key : Bytes) (change : Node H → Node H)
    (children : List (Bytes × Node H)) :
    (emplace segment change children).lookup key =
      if key = segment then some (change ((children.lookup segment).getD empty))
      else children.lookup key := by
  induction children with
  | nil =>
      by_cases same : key = segment
      · simp [emplace, same]
      · have different : (key == segment) = false := by simpa using same
        simp [emplace, same, List.lookup_cons, different]
  | cons entry rest ih =>
      obtain ⟨present, node⟩ := entry
      by_cases here : segment = present
      · subst here
        by_cases same : key = segment
        · simp [emplace, same]
        · have different : (key == segment) = false := by simpa using same
          simp [emplace, same, List.lookup_cons, different]
      · have absent : (segment == present) = false := by simpa using here
        by_cases same : key = present
        · subst same
          have other : key ≠ segment := fun equal => here equal.symm
          simp [emplace, absent, other]
        · have different : (key == present) = false := by simpa using same
          simp only [emplace, absent, Bool.false_eq_true, ↓reduceIte, List.lookup_cons, different, ih]

theorem follow_insert (handler : H) (segment : Bytes) (rest : List Bytes) (node : Node H)
    (piece : Piece Bytes) : (insert handler (segment :: rest) node).follow piece =
      if piece = pieceOf segment then some (insert handler rest ((node.follow piece).getD empty))
      else node.follow piece := by
  by_cases wild : segment = ascii "*"
  · cases piece <;> simp [insert, pieceOf, wild, follow, child]
  · by_cases named : segment.head? = some 0x3a
    · cases piece <;> simp [insert, pieceOf, wild, named, follow, child]
    · cases piece with
      | literal key =>
          simp only [insert, pieceOf, wild, named, ↓reduceIte, follow, child, lookup_emplace,
            Piece.literal.injEq]
          by_cases same : key = segment
          · simp [same]
          · simp [same]
      | param => simp [insert, pieceOf, wild, named, follow]
      | wildcard => simp [insert, pieceOf, wild, named, follow]

theorem handlerAt_insert (handler : H) (segments : List Bytes) (node : Node H)
    (pattern : List (Piece Bytes)) : handlerAt pattern (insert handler segments node) =
      if pattern = segments.map pieceOf then some handler else handlerAt pattern node := by
  induction segments generalizing node pattern with
  | nil =>
      cases pattern with
      | nil => rfl
      | cons piece rest => cases piece <;> rfl
  | cons segment others ih =>
      cases pattern with
      | nil =>
          simp only [insert, List.map_cons, reduceCtorEq, ↓reduceIte, handlerAt]
          split
          · rfl
          · split <;> rfl
      | cons piece rest =>
          simp only [handlerAt, follow_insert, List.map_cons, List.cons.injEq]
          by_cases same : piece = pieceOf segment
          · simp only [same, ↓reduceIte, Option.bind_some, ih, true_and, handlerAt_getD]
          · simp only [same, ↓reduceIte, false_and]

/-- What a search of the wildcard loop finds lies behind a non-empty part of the path. -/
def FindsLater (child : Node H) (path : List Bytes) (found : Node H) : Prop :=
  ∃ pattern taken left, path = taken ++ left ∧ Matches pattern left ∧
    handlerAt pattern child = found.handler

theorem find_sound (path : List Bytes) :
    (∀ node found : Node H, find node path = some found →
      found.handler.isSome ∧ ∃ pattern, Matches pattern path ∧
        handlerAt pattern node = found.handler) ∧
    (∀ child found : Node H, findLater child path = some found →
      found.handler.isSome ∧ FindsLater child path found) := by
  induction path with
  | nil =>
      refine ⟨?_, by simp [findLater]⟩
      intro node found result
      simp only [find, Option.ite_none_right_eq_some, Option.some.injEq] at result
      obtain ⟨has, rfl⟩ := result
      exact ⟨has, [], Matches.nil, rfl⟩
  | cons front rest ih =>
      refine ⟨?_, ?_⟩
      · intro node found result
        simp only [find, Option.or_eq_some_iff, Option.bind_eq_some_iff] at result
        rcases result with ⟨next, edge, below⟩ | ⟨_, ⟨next, edge, below⟩ | ⟨_, next, edge, below⟩⟩
        · obtain ⟨has, pattern, matched, same⟩ := ih.1 next found below
          exact ⟨has, .literal front :: pattern, Matches.literal matched,
            by simp [handlerAt, follow, edge, same]⟩
        · obtain ⟨has, pattern, matched, same⟩ := ih.1 next found below
          exact ⟨has, .param :: pattern, Matches.param matched,
            by simp [handlerAt, follow, edge, same]⟩
        · rcases below with below | ⟨_, below⟩
          · obtain ⟨has, pattern, matched, same⟩ := ih.1 next found below
            exact ⟨has, .wildcard :: pattern, Matches.wildcard (by simp : [front] ≠ []) matched,
              by simp [handlerAt, follow, edge, same]⟩
          · obtain ⟨has, pattern, taken, left, rfl, matched, same⟩ := ih.2 next found below
            exact ⟨has, .wildcard :: pattern,
              Matches.wildcard (by simp : front :: taken ≠ []) matched,
              by simp [handlerAt, follow, edge, same]⟩
      · intro child found result
        simp only [findLater, Option.or_eq_some_iff] at result
        rcases result with below | ⟨_, below⟩
        · obtain ⟨has, pattern, matched, same⟩ := ih.1 child found below
          exact ⟨has, pattern, [front], rest, rfl, matched, same⟩
        · obtain ⟨has, pattern, taken, left, rfl, matched, same⟩ := ih.2 child found below
          exact ⟨has, pattern, front :: taken, left, rfl, matched, same⟩

theorem find_complete (path : List Bytes) :
    (∀ (node : Node H) pattern, Matches pattern path → (handlerAt pattern node).isSome →
      (find node path).isSome) ∧
    (∀ (child : Node H) pattern taken left, path = taken ++ left → taken ≠ [] →
      Matches pattern left → (handlerAt pattern child).isSome → (findLater child path).isSome) := by
  induction path with
  | nil =>
      refine ⟨?_, ?_⟩
      · intro node pattern matched has
        rw [matches_nil matched, handlerAt] at has
        simp [find, has]
      · intro child pattern taken left empty some_
        exact (some_ (List.append_eq_nil_iff.mp empty.symm).1).elim
  | cons front rest ih =>
      refine ⟨?_, ?_⟩
      · intro node pattern matched has
        simp only [find, Option.isSome_or, Bool.or_eq_true]
        rcases matches_cons matched with ⟨pattern, rfl, below⟩ | ⟨pattern, rfl, below⟩ |
          ⟨pattern, taken, left, rfl, split, below⟩
        · rw [handlerAt, follow] at has
          cases edge : node.child front with
          | none => simp [edge] at has
          | some next => exact Or.inl (ih.1 next pattern below (by simpa [edge] using has))
        · rw [handlerAt, follow] at has
          cases edge : node.paramChild with
          | none => simp [edge] at has
          | some next =>
              exact Or.inr (Or.inl (ih.1 next pattern below (by simpa [edge] using has)))
        · rw [handlerAt, follow] at has
          cases edge : node.wildcardChild with
          | none => simp [edge] at has
          | some next =>
              have has' : (handlerAt pattern next).isSome := by simpa [edge] using has
              refine Or.inr (Or.inr ?_)
              simp only [Option.bind_some, Option.isSome_or, Bool.or_eq_true]
              by_cases one : taken = []
              · rw [one, List.nil_append] at split
                exact Or.inl (ih.1 next pattern (split ▸ below) has')
              · exact Or.inr (ih.2 next pattern taken left split one below has')
      · intro child pattern taken left split some_ matched has
        simp only [findLater, Option.isSome_or, Bool.or_eq_true]
        cases taken with
        | nil => exact (some_ rfl).elim
        | cons first taken =>
            rw [List.cons_append, List.cons.injEq] at split
            by_cases one : taken = []
            · rw [one, List.nil_append] at split
              exact Or.inl (ih.1 child pattern (split.2 ▸ matched) has)
            · exact Or.inr (ih.2 child pattern taken left split.2 one matched has)

end Node

section Routes

variable {Args Ret : Type} {Await : Type → Type}

abbrev Route (Args : Type) (Await : Type → Type) (Ret : Type) := Bytes × (Args → Await Ret)

def Router.register (router : Router Args Await Ret) :
    List (Route Args Await Ret) → Option (Router Args Await Ret)
  | [] => some router
  | route :: rest => (router.add route.1 route.2).bind fun next => next.register rest

/-- The handler of the last route whose path has the pattern. -/
def lastAdd (pattern : List (Piece Bytes)) :
    List (Route Args Await Ret) → Option (Args → Await Ret)
  | [] => none
  | route :: rest =>
      (lastAdd pattern rest).or (if normalise route.1 = pattern then some route.2 else none)

theorem lastAdd_isSome (pattern : List (Piece Bytes)) (routes : List (Route Args Await Ret)) :
    (lastAdd pattern routes).isSome ↔ ∃ route ∈ routes, normalise route.1 = pattern := by
  induction routes with
  | nil => simp [lastAdd]
  | cons route rest ih =>
      simp only [lastAdd, Option.isSome_or, Bool.or_eq_true, ih, List.mem_cons, exists_eq_or_imp]
      by_cases same : normalise route.1 = pattern
      · simp [same]
      · simp [same]

theorem Router.add_some (router : Router Args Await Ret) (func : Args → Await Ret) {path : Bytes}
    (some_ : path ≠ []) : ∃ next, router.add path func = some next ∧
      next.notFoundHandler = router.notFoundHandler ∧
      ∀ pattern, next.root.handlerAt pattern =
        if normalise path = pattern then some func else router.root.handlerAt pattern := by
  obtain ⟨spans, split⟩ := splitPath_some some_
  have added : router.add path func =
      some { router with root := Node.insert func (pieces path) router.root } := by
    rw [add, split, Option.map_some, splitPath_pieces split]
  refine ⟨_, added, rfl, ?_⟩
  intro pattern
  simp only [Node.handlerAt_insert, normalise, eq_comm]

theorem register_handlerAt (routes : List (Route Args Await Ret)) (router : Router Args Await Ret)
    (nonEmpty : ∀ route ∈ routes, route.1 ≠ []) :
    ∃ last, router.register routes = some last ∧ last.notFoundHandler = router.notFoundHandler ∧
      ∀ pattern, last.root.handlerAt pattern =
        (lastAdd pattern routes).or (router.root.handlerAt pattern) := by
  induction routes generalizing router with
  | nil => exact ⟨router, rfl, rfl, fun pattern => rfl⟩
  | cons route rest ih =>
      obtain ⟨next, added, kept, handlers⟩ := router.add_some route.2 (nonEmpty route (by simp))
      obtain ⟨last, registered, kept', handlers'⟩ := ih next fun other member =>
        nonEmpty other (List.mem_cons_of_mem route member)
      refine ⟨last, by rw [Router.register, added, Option.bind_some, registered],
        kept'.trans kept, ?_⟩
      intro pattern
      rw [handlers', handlers, lastAdd]
      by_cases same : normalise route.1 = pattern
      · simp [same]
      · simp [same]

theorem Router.handle_only [Monad Await] {router : Router Args Await Ret} {path : List Bytes}
    {pattern : List (Piece Bytes)} {handler : Args → Await Ret} (args : Args)
    (matched : Matches pattern path) (has : router.root.handlerAt pattern = some handler)
    (only : ∀ other, Matches other path → (router.root.handlerAt other).isSome → other = pattern) :
    router.handle path args = some (some <$> handler args) := by
  have found := (Node.find_complete path).1 router.root pattern matched (by simp [has])
  obtain ⟨node, result⟩ := Option.isSome_iff_exists.mp found
  obtain ⟨some_, other, matched', same⟩ := (Node.find_sound path).1 _ _ result
  rw [only other matched' (same ▸ some_), has] at same
  simp only [Router.handle, result, ← same, Option.map_some]

theorem Router.handle_missing [Monad Await] {router : Router Args Await Ret} {path : List Bytes}
    {handler : Args → Await Ret} (args : Args) (notFound : router.notFoundHandler = some handler)
    (unmatched : ∀ pattern, Matches pattern path → router.root.handlerAt pattern = none) :
    router.handle path args = some (some <$> handler args) := by
  cases result : router.root.find path with
  | none => simp only [Router.handle, result, notFound]
  | some node =>
      obtain ⟨some_, pattern, matched, same⟩ := (Node.find_sound path).1 _ _ result
      rw [← same, unmatched pattern matched] at some_
      cases some_

/-- What a request finds in a router with the given routes. -/
structure RoutesMatched [Monad Await] (routes : List (Route Args Await Ret))
    (router : Router Args Await Ret) (path : List Bytes) : Prop where
  found : (router.root.find path).isSome ↔ ∃ route ∈ routes, Matches (normalise route.1) path
  last : ∀ node, router.root.find path = some node →
    ∃ route ∈ routes, Matches (normalise route.1) path ∧
      node.handler = lastAdd (normalise route.1) routes
  runs : ∀ args,
    (∃ route ∈ routes, ∃ handler, Matches (normalise route.1) path ∧
      lastAdd (normalise route.1) routes = some handler ∧
      router.handle path args = some (some <$> handler args)) ∨
    ((∀ route ∈ routes, ¬ Matches (normalise route.1) path) ∧
      router.handle path args = some (match router.notFoundHandler with
        | some handler => some <$> handler args
        | none => pure none))

theorem router_matches_routes [Monad Await] (notFound : Option (Args → Await Ret))
    (routes : List (Route Args Await Ret)) (nonEmpty : ∀ route ∈ routes, route.1 ≠ []) :
    ∃ router, (⟨notFound, Node.empty⟩ : Router Args Await Ret).register routes = some router ∧
      router.notFoundHandler = notFound ∧ ∀ path, RoutesMatched routes router path := by
  obtain ⟨router, registered, kept, handlers⟩ := register_handlerAt routes ⟨notFound, Node.empty⟩ nonEmpty
  simp only [Node.handlerAt_empty, Option.or_none] at handlers
  refine ⟨router, registered, kept, ?_⟩
  intro path
  have last : ∀ node, router.root.find path = some node → node.handler.isSome ∧
      ∃ route ∈ routes, Matches (normalise route.1) path ∧
        node.handler = lastAdd (normalise route.1) routes := by
    intro node result
    obtain ⟨has, pattern, matched, same⟩ := (Node.find_sound path).1 _ _ result
    rw [handlers] at same
    obtain ⟨route, member, rfl⟩ := (lastAdd_isSome pattern routes).mp (same ▸ has)
    exact ⟨has, route, member, matched, same.symm⟩
  have found : (router.root.find path).isSome ↔
      ∃ route ∈ routes, Matches (normalise route.1) path := by
    constructor
    · intro some_
      obtain ⟨node, result⟩ := Option.isSome_iff_exists.mp some_
      obtain ⟨_, route, member, matched, _⟩ := last node result
      exact ⟨route, member, matched⟩
    · rintro ⟨route, member, matched⟩
      refine (Node.find_complete path).1 router.root _ matched ?_
      rw [handlers]
      exact (lastAdd_isSome _ routes).mpr ⟨route, member, rfl⟩
  refine ⟨found, fun node result => (last node result).2, ?_⟩
  intro args
  cases result : router.root.find path with
  | some node =>
      obtain ⟨has, route, member, matched, same⟩ := last node result
      obtain ⟨handler, runs⟩ := Option.isSome_iff_exists.mp has
      exact Or.inl ⟨route, member, handler, matched, same ▸ runs, by simp [Router.handle, result, runs]⟩
  | none =>
      refine Or.inr ⟨?_, ?_⟩
      · intro route member matched
        have some_ := found.mpr ⟨route, member, matched⟩
        simp [result] at some_
      · simp only [Router.handle, result]
        cases router.notFoundHandler with
        | none => rfl
        | some handler => rfl

/-- A parameter route and a wildcard route that overlap. -/
theorem router_matches_routes_overlap : ∃ router : Router Nat Option Nat,
    router.notFoundHandler = none ∧
      RoutesMatched [(ascii "/a/:x", some), (ascii "/*/b/", fun n => some (n + 1))] router
        [ascii "a", ascii "b", []] := by
  obtain ⟨router, _, kept, matched⟩ := router_matches_routes (none : Option (Nat → Option Nat))
    [(ascii "/a/:x", some), (ascii "/*/b/", fun n => some (n + 1))] (by decide)
  exact ⟨router, kept, matched _⟩

end Routes

end CoServer.Http
