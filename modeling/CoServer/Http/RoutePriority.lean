import CoServer.Foundation.PathChoice
import CoServer.Http.RouterMatching

/-!
Which of the matching patterns a search selects: the one that matches by the least
choices. What is found is therefore settled by the handlers at the patterns that
match, whatever the order in which they were added.
-/

namespace CoServer.Http

open PathPattern

namespace Node

variable {H : Type}

def nodeAt : List (Piece Bytes) → Node H → Option (Node H)
  | [], node => some node
  | piece :: rest, node => (node.follow piece).bind (nodeAt rest)

theorem handlerAt_nodeAt (pattern : List (Piece Bytes)) (node : Node H) :
    handlerAt pattern node = (nodeAt pattern node).bind Node.handler := by
  induction pattern generalizing node with
  | nil => rfl
  | cons piece rest ih =>
      rw [handlerAt, nodeAt, Option.bind_assoc]
      exact congrArg _ (funext ih)

def Held (node : Node H) (pattern : List (Piece Bytes)) : Prop := (handlerAt pattern node).isSome

theorem held_cons {node : Node H} {piece : Piece Bytes} {rest : List (Piece Bytes)} :
    node.Held (piece :: rest) ↔ ∃ next, node.follow piece = some next ∧ next.Held rest := by
  simp only [Held, handlerAt]
  cases node.follow piece with
  | none => simp
  | some next => simp

theorem nodeAt_cons {node next : Node H} {piece : Piece Bytes} (edge : node.follow piece = some next)
    (rest : List (Piece Bytes)) : nodeAt (piece :: rest) node = nodeAt rest next := by
  rw [nodeAt, edge, Option.bind_some]

def HeldLater (child : Node H) (pattern : List (Piece Bytes)) : Prop :=
  ∃ below, pattern = .wildcard :: below ∧ child.Held below

def FindsLeast (node : Node H) (path : List Bytes) (found : Node H) : Prop :=
  ∃ pattern choices, Least node.Held path pattern choices ∧ nodeAt pattern node = some found

def FindsLeastLater (child : Node H) (path : List Bytes) (found : Node H) : Prop :=
  ∃ pattern choices, Least child.HeldLater path (.wildcard :: pattern) choices ∧
    nodeAt pattern child = some found

theorem find_none {node : Node H} {path : List Bytes} (none_ : find node path = none)
    {pattern : List (Piece Bytes)} {choices : List Choice} (held : node.Held pattern)
    (derives : Derives pattern path choices) : False := by
  have some_ := (find_complete path).1 node pattern (matches_iff_derives.mpr ⟨_, derives⟩) held
  rw [none_] at some_
  cases some_

theorem findsLeastLater_first {child found : Node H} {front : Bytes} {rest : List Bytes}
    (finds : child.FindsLeast rest found) : child.FindsLeastLater (front :: rest) found := by
  obtain ⟨pattern, choices, ⟨held, derives, least⟩, node⟩ := finds
  refine ⟨pattern, .wildcard 1 :: choices, ⟨⟨pattern, rfl, held⟩, ?_, ?_⟩, node⟩
  · exact Derives.wildcard Nat.one_pos (Nat.succ_le_succ (Nat.zero_le _)) derives
  · rintro _ choices' ⟨below, rfl, held'⟩ derives'
    cases derives' with
    | @wildcard count _ _ choices' some_ inside derives' =>
        rw [cons_le_cons_iff, Choice.lt_iff]
        simp only [Choice.rank]
        by_cases one : count = 1
        · subst one
          exact Or.inr ⟨rfl, least _ _ held' derives'⟩
        · exact Or.inl (by omega)

theorem findsLeastLater_next {child found : Node H} {front : Bytes} {rest : List Bytes}
    (none_ : find child rest = none) (finds : child.FindsLeastLater rest found) :
    child.FindsLeastLater (front :: rest) found := by
  obtain ⟨pattern, choices, ⟨held, derives, least⟩, node⟩ := finds
  cases derives with
  | @wildcard count _ _ choices some_ inside derives =>
      refine ⟨pattern, .wildcard (count + 1) :: choices, ⟨held, ?_, ?_⟩, node⟩
      · exact Derives.wildcard (Nat.succ_pos _) (Nat.succ_le_succ inside) derives
      · rintro _ choices' ⟨below, rfl, held'⟩ derives'
        cases derives' with
        | @wildcard count' _ _ choices' some_' inside' derives' =>
            by_cases one : count' = 1
            · subst one
              exact (find_none none_ held' derives').elim
            · obtain ⟨more, rfl⟩ : ∃ more, count' = more + 1 := ⟨count' - 1, by omega⟩
              have order := least _ _ ⟨below, rfl, held'⟩
                (Derives.wildcard (by omega) (Nat.le_of_succ_le_succ inside') derives')
              rw [cons_le_cons_iff, Choice.lt_iff] at order ⊢
              simp only [Choice.rank, Choice.wildcard.injEq] at order ⊢
              rcases order with before | ⟨same, later⟩
              · exact Or.inl (by omega)
              · exact Or.inr ⟨by omega, later⟩

theorem findsLeast_literal {node next found : Node H} {front : Bytes} {rest : List Bytes}
    (edge : node.child front = some next) (finds : next.FindsLeast rest found) :
    node.FindsLeast (front :: rest) found := by
  obtain ⟨pattern, choices, ⟨held, derives, least⟩, at_⟩ := finds
  refine ⟨.literal front :: pattern, .literal :: choices, ⟨?_, Derives.literal derives, ?_⟩, ?_⟩
  · exact held_cons.mpr ⟨next, edge, held⟩
  · intro pattern' choices' held' derives'
    cases derives' with
    | literal below =>
        obtain ⟨next', edge', held'⟩ := held_cons.mp held'
        rw [follow, edge, Option.some.injEq] at edge'
        subst edge'
        exact List.cons_le_cons _ (least _ _ held' below)
    | param _ => exact cons_le_cons_iff.mpr (Or.inl (by decide))
    | wildcard _ _ _ => exact cons_le_cons_iff.mpr (Or.inl (Choice.lt_iff.mpr (by simp [Choice.rank])))
  · rw [nodeAt_cons (show node.follow (.literal front) = some next from edge), at_]

theorem findsLeast_param {node next found : Node H} {front : Bytes} {rest : List Bytes}
    (edge : node.paramChild = some next)
    (noLiteral : ∀ child, node.child front = some child → find child rest = none)
    (finds : next.FindsLeast rest found) : node.FindsLeast (front :: rest) found := by
  obtain ⟨pattern, choices, ⟨held, derives, least⟩, at_⟩ := finds
  refine ⟨.param :: pattern, .param :: choices, ⟨?_, Derives.param derives, ?_⟩, ?_⟩
  · exact held_cons.mpr ⟨next, edge, held⟩
  · intro pattern' choices' held' derives'
    cases derives' with
    | literal below =>
        obtain ⟨next', edge', held'⟩ := held_cons.mp held'
        exact (find_none (noLiteral next' edge') held' below).elim
    | param below =>
        obtain ⟨next', edge', held'⟩ := held_cons.mp held'
        rw [follow, edge, Option.some.injEq] at edge'
        subst edge'
        exact List.cons_le_cons _ (least _ _ held' below)
    | wildcard _ _ _ => exact cons_le_cons_iff.mpr (Or.inl (Choice.lt_iff.mpr (by simp [Choice.rank])))
  · rw [nodeAt_cons (show node.follow .param = some next from edge), at_]

theorem findsLeast_wildcard {node next found : Node H} {front : Bytes} {rest : List Bytes}
    (edge : node.wildcardChild = some next)
    (noLiteral : ∀ child, node.child front = some child → find child rest = none)
    (noParam : ∀ child, node.paramChild = some child → find child rest = none)
    (finds : next.FindsLeastLater (front :: rest) found) : node.FindsLeast (front :: rest) found := by
  obtain ⟨pattern, choices, ⟨⟨below, same, held⟩, derives, least⟩, at_⟩ := finds
  cases same
  refine ⟨.wildcard :: pattern, choices, ⟨held_cons.mpr ⟨next, edge, held⟩, derives, ?_⟩, ?_⟩
  · intro pattern' choices' held' derives'
    cases derives' with
    | literal below =>
        obtain ⟨next', edge', held'⟩ := held_cons.mp held'
        exact (find_none (noLiteral next' edge') held' below).elim
    | param below =>
        obtain ⟨next', edge', held'⟩ := held_cons.mp held'
        exact (find_none (noParam next' edge') held' below).elim
    | wildcard some_ inside below =>
        obtain ⟨next', edge', held'⟩ := held_cons.mp held'
        rw [follow, edge, Option.some.injEq] at edge'
        subst edge'
        exact least _ _ ⟨_, rfl, held'⟩ (Derives.wildcard some_ inside below)
  · rw [nodeAt_cons (show node.follow .wildcard = some next from edge), at_]

theorem find_least (path : List Bytes) :
    (∀ node found : Node H, find node path = some found → node.FindsLeast path found) ∧
    (∀ child found : Node H, findLater child path = some found → child.FindsLeastLater path found) := by
  induction path with
  | nil =>
      refine ⟨?_, by simp [findLater]⟩
      intro node found result
      simp only [find, Option.ite_none_right_eq_some, Option.some.injEq] at result
      obtain ⟨has, rfl⟩ := result
      refine ⟨[], [], ⟨has, Derives.nil, ?_⟩, rfl⟩
      intro pattern choices _ derives
      cases derives with
      | nil => exact le_refl _
      | wildcard some_ inside _ => exact absurd some_ (Nat.not_lt.mpr inside)
  | cons front rest ih =>
      have later : ∀ child found : Node H, findLater child (front :: rest) = some found →
          child.FindsLeastLater (front :: rest) found := by
        intro child found result
        rw [findLater, Option.or_eq_some_iff] at result
        rcases result with first | ⟨none_, next⟩
        · exact findsLeastLater_first (ih.1 child found first)
        · exact findsLeastLater_next none_ (ih.2 child found next)
      refine ⟨?_, later⟩
      intro node found result
      rw [find, Option.or_eq_some_iff, Option.or_eq_some_iff] at result
      rcases result with literal | ⟨noLiteral, param | ⟨noParam, wildcard⟩⟩
      · obtain ⟨next, edge, below⟩ := Option.bind_eq_some_iff.mp literal
        exact findsLeast_literal edge (ih.1 next found below)
      · obtain ⟨next, edge, below⟩ := Option.bind_eq_some_iff.mp param
        exact findsLeast_param edge (Option.bind_eq_none_iff.mp noLiteral) (ih.1 next found below)
      · obtain ⟨next, edge, below⟩ := Option.bind_eq_some_iff.mp wildcard
        exact findsLeast_wildcard edge (Option.bind_eq_none_iff.mp noLiteral)
          (Option.bind_eq_none_iff.mp noParam) (later next found below)

/-- The handler that a search ends at. -/
def chosen (node : Node H) (path : List Bytes) : Option H := (find node path).bind Node.handler

theorem find_iff {node found : Node H} {path : List Bytes} :
    find node path = some found ↔ node.FindsLeast path found := by
  constructor
  · exact (find_least path).1 node found
  · rintro ⟨pattern, choices, least, at_⟩
    cases result : find node path with
    | none => exact (find_none result least.member least.derives).elim
    | some found' =>
        obtain ⟨pattern', choices', least', at_'⟩ := (find_least path).1 node found' result
        obtain ⟨rfl, _⟩ := least.unique least'
        rw [at_', Option.some.injEq] at at_
        rw [at_]

theorem chosen_least {node : Node H} {path : List Bytes} {pattern : List (Piece Bytes)}
    {choices : List Choice} (least : Least node.Held path pattern choices) :
    node.chosen path = handlerAt pattern node := by
  have held := least.member
  rw [Held, handlerAt_nodeAt, Option.isSome_bind] at held
  cases at_ : nodeAt pattern node with
  | none => simp [at_] at held
  | some found =>
      rw [chosen, find_iff.mpr ⟨pattern, choices, least, at_⟩, handlerAt_nodeAt, at_]

theorem chosen_congr {node node' : Node H} {path : List Bytes}
    (held : ∀ pattern, Matches pattern path → (node.Held pattern ↔ node'.Held pattern))
    (same : ∀ pattern choices, Least node.Held path pattern choices →
      handlerAt pattern node = handlerAt pattern node') : node.chosen path = node'.chosen path := by
  cases result : find node path with
  | some found =>
      obtain ⟨pattern, choices, least, _⟩ := find_iff.mp result
      rw [chosen_least least, chosen_least (least.congr held)]
      exact same pattern choices least
  | none =>
      cases result' : find node' path with
      | none => rw [chosen, chosen, result, result']
      | some found =>
          obtain ⟨pattern, choices, least', _⟩ := find_iff.mp result'
          have least := least'.congr fun pattern matched => (held pattern matched).symm
          exact (find_none result least.member least.derives).elim

end Node

section Priority

variable {Args Ret : Type} {Await : Type → Type}

/-- The routers run the same handler for the path, or neither runs one of a route. -/
structure Router.Agree [Monad Await] (router router' : Router Args Await Ret) (path : List Bytes) :
    Prop where
  chosen : router.root.chosen path = router'.root.chosen path
  runs : ∀ args, router.handle path args = router'.handle path args

theorem Router.handle_chosen [Monad Await] (router : Router Args Await Ret) (path : List Bytes)
    (args : Args) : router.handle path args = some ((router.root.chosen path).elim
      (router.notFoundHandler.elim (pure none) fun handler => some <$> handler args)
      fun handler => some <$> handler args) := by
  rw [handle, Node.chosen]
  cases result : router.root.find path with
  | none =>
      rw [Option.bind_none, Option.elim_none]
      cases router.notFoundHandler <;> rfl
  | some node =>
      obtain ⟨has, _⟩ := (Node.find_sound path).1 _ _ result
      obtain ⟨handler, runs⟩ := Option.isSome_iff_exists.mp has
      simp only [runs, Option.bind_some, Option.map_some, Option.elim_some]

theorem Router.agree [Monad Await] {router router' : Router Args Await Ret} {path : List Bytes}
    (kept : router.notFoundHandler = router'.notFoundHandler)
    (chosen : router.root.chosen path = router'.root.chosen path) : Router.Agree router router' path := by
  refine ⟨chosen, fun args => ?_⟩
  rw [router.handle_chosen, router'.handle_chosen, chosen, kept]

theorem Router.agree_of_handlerAt [Monad Await] {router router' : Router Args Await Ret}
    {path : List Bytes} (kept : router.notFoundHandler = router'.notFoundHandler)
    (same : ∀ pattern, Matches pattern path →
      router.root.handlerAt pattern = router'.root.handlerAt pattern) :
    Router.Agree router router' path := by
  refine Router.agree kept (Node.chosen_congr ?_ ?_)
  · intro pattern matched
    rw [Node.Held, Node.Held, same pattern matched]
  · intro pattern choices least
    exact same pattern (matches_iff_derives.mpr ⟨choices, least.derives⟩)

/-- A route matches the path by the least choices of all the routes. -/
def Selected (routes : List (Route Args Await Ret)) : List Bytes → List (Piece Bytes) → List Choice → Prop :=
  Least fun pattern => ∃ route ∈ routes, normalise route.1 = pattern

theorem lastAdd_some {routes : List (Route Args Await Ret)}
    (distinct : (routes.map fun route => normalise route.1).Nodup) {pattern : List (Piece Bytes)}
    {handler : Args → Await Ret} : lastAdd pattern routes = some handler ↔
      ∃ route ∈ routes, normalise route.1 = pattern ∧ route.2 = handler := by
  induction routes with
  | nil => simp [lastAdd]
  | cons route rest ih =>
      rw [List.map_cons, List.nodup_cons] at distinct
      simp only [lastAdd, List.mem_cons, exists_eq_or_imp]
      by_cases same : normalise route.1 = pattern
      · have absent : lastAdd pattern rest = none := by
          rw [← Option.not_isSome_iff_eq_none, lastAdd_isSome]
          rintro ⟨other, member, same'⟩
          exact distinct.1 (List.mem_map.mpr ⟨other, member, same'.trans same.symm⟩)
        have later : ¬ ∃ other ∈ rest, normalise other.1 = pattern ∧ other.2 = handler := by
          rw [← ih distinct.2, absent]
          rintro ⟨⟩
        simp only [absent, same, ↓reduceIte, Option.none_or, Option.some.injEq, true_and, later, or_false]
      · simp only [same, ↓reduceIte, Option.or_none, ih distinct.2, false_and, false_or]

theorem lastAdd_perm {routes routes' : List (Route Args Await Ret)} (permuted : routes'.Perm routes)
    (distinct : (routes.map fun route => normalise route.1).Nodup) (pattern : List (Piece Bytes)) :
    lastAdd pattern routes' = lastAdd pattern routes := by
  have distinct' : (routes'.map fun route => normalise route.1).Nodup :=
    ((permuted.map _).nodup_iff).mpr distinct
  refine Option.ext fun handler => ?_
  rw [lastAdd_some distinct, lastAdd_some distinct']
  simp only [permuted.mem_iff]

structure RoutePriority [Monad Await] (routes : List (Route Args Await Ret))
    (router : Router Args Await Ret) : Prop where
  selects : ∀ path found, router.root.find path = some found ↔ ∃ pattern choices,
    Selected routes path pattern choices ∧ router.root.nodeAt pattern = some found
  runs : ∀ path pattern choices, Selected routes path pattern choices →
    ∃ handler, lastAdd pattern routes = some handler ∧ router.root.chosen path = some handler ∧
      ∀ args, router.handle path args = some (some <$> handler args)
  matched : ∀ path, (∃ route ∈ routes, Matches (normalise route.1) path) →
    ∃ pattern choices, Selected routes path pattern choices
  permuted : ∀ routes' : List (Route Args Await Ret), routes'.Perm routes →
    (routes.map fun route => normalise route.1).Nodup →
    ∃ router', (⟨router.notFoundHandler, Node.empty⟩ : Router Args Await Ret).register routes' =
      some router' ∧ ∀ path, Router.Agree router router' path
  framed : ∀ path func, path ≠ [] → ∃ next, router.add path func = some next ∧
    ∀ segments, ¬ Matches (normalise path) segments → Router.Agree router next segments
  replaced : ∀ path func, (∃ route ∈ routes, normalise route.1 = normalise path) → path ≠ [] →
    ∃ next, router.add path func = some next ∧ ∀ segments,
      ((∃ choices, Selected routes segments (normalise path) choices) →
        next.root.chosen segments = some func ∧
          ∀ args, next.handle segments args = some (some <$> func args)) ∧
      ((¬ ∃ choices, Selected routes segments (normalise path) choices) →
        Router.Agree router next segments)

theorem route_priority [Monad Await] (notFound : Option (Args → Await Ret))
    (routes : List (Route Args Await Ret)) (nonEmpty : ∀ route ∈ routes, route.1 ≠ []) :
    ∃ router, (⟨notFound, Node.empty⟩ : Router Args Await Ret).register routes = some router ∧
      router.notFoundHandler = notFound ∧ RoutePriority routes router := by
  obtain ⟨router, registered, kept, handlers⟩ := register_handlerAt routes ⟨notFound, Node.empty⟩ nonEmpty
  simp only [Node.handlerAt_empty, Option.or_none] at handlers
  have held : router.root.Held = fun pattern => ∃ route ∈ routes, normalise route.1 = pattern := by
    funext pattern
    rw [Node.Held, handlers, lastAdd_isSome]
  have runs : ∀ path pattern choices, Selected routes path pattern choices →
      ∃ handler, lastAdd pattern routes = some handler ∧ router.root.chosen path = some handler ∧
        ∀ args, router.handle path args = some (some <$> handler args) := by
    intro path pattern choices selected
    obtain ⟨handler, last⟩ := Option.isSome_iff_exists.mp ((lastAdd_isSome _ _).mpr selected.member)
    have chosen := Node.chosen_least (held ▸ selected : Least router.root.Held path pattern choices)
    rw [handlers, last] at chosen
    refine ⟨handler, last, chosen, fun args => ?_⟩
    rw [router.handle_chosen, chosen, Option.elim_some]
  refine ⟨router, registered, kept, ?_, runs, ?_, ?_, ?_, ?_⟩
  · intro path found
    rw [Node.find_iff, Node.FindsLeast, held]
    rfl
  · rintro path ⟨route, member, matched⟩
    have some_ := (Node.find_complete path).1 router.root _ matched (by
      rw [handlers]
      exact (lastAdd_isSome _ _).mpr ⟨route, member, rfl⟩)
    obtain ⟨found, result⟩ := Option.isSome_iff_exists.mp some_
    obtain ⟨pattern, choices, least, _⟩ := Node.find_iff.mp result
    rw [held] at least
    exact ⟨pattern, choices, least⟩
  · intro routes' permuted distinct
    obtain ⟨router', registered', kept', handlers'⟩ := register_handlerAt routes'
      ⟨router.notFoundHandler, Node.empty⟩ fun route member => nonEmpty route (permuted.mem_iff.mp member)
    refine ⟨router', registered', fun path => Router.agree_of_handlerAt kept'.symm ?_⟩
    intro pattern _
    rw [handlers, handlers', Node.handlerAt_empty, Option.or_none, lastAdd_perm permuted distinct]
  · intro path func some_
    obtain ⟨next, added, kept', handlers'⟩ := router.add_some func some_
    refine ⟨next, added, fun segments unmatched => Router.agree_of_handlerAt kept'.symm ?_⟩
    intro pattern matched
    rw [handlers', if_neg]
    rintro rfl
    exact unmatched matched
  · intro path func again some_
    obtain ⟨next, added, kept', handlers'⟩ := router.add_some func some_
    have held' : next.root.Held = router.root.Held := by
      funext pattern
      rw [held, Node.Held, handlers', handlers]
      by_cases same : normalise path = pattern
      · rw [if_pos same, ← same]
        exact propext (iff_of_true rfl again)
      · rw [if_neg same, lastAdd_isSome]
    refine ⟨next, added, fun segments => ⟨?_, ?_⟩⟩
    · rintro ⟨choices, selected⟩
      have chosen := Node.chosen_least (held' ▸ held ▸ selected :
        Least next.root.Held segments (normalise path) choices)
      rw [handlers', if_pos rfl] at chosen
      refine ⟨chosen, fun args => ?_⟩
      rw [next.handle_chosen, chosen, Option.elim_some]
    · intro unselected
      refine Router.agree kept'.symm (Node.chosen_congr (fun pattern _ => by rw [held']) ?_)
      intro pattern choices least
      rw [handlers', if_neg]
      rintro rfl
      rw [held] at least
      exact unselected ⟨choices, least⟩

/-- Three routes that match the path of two segments. -/
theorem route_priority_overlap : ∃ router : Router Nat Option Nat,
    (⟨none, Node.empty⟩ : Router Nat Option Nat).register [(ascii "/*", fun _ => none),
      (ascii "/:x/b", fun n => some (n + 1)), (ascii "a/*", some)] = some router ∧
    RoutePriority [(ascii "/*", fun _ => none), (ascii "/:x/b", fun n => some (n + 1)),
      (ascii "a/*", some)] router ∧
    router.handle [ascii "a", ascii "b"] 4 = some (some (some 4)) := by
  obtain ⟨router, registered, _, priority⟩ := route_priority (none : Option (Nat → Option Nat))
    [(ascii "/*", fun _ => none), (ascii "/:x/b", fun n => some (n + 1)), (ascii "a/*", some)] (by decide)
  refine ⟨router, registered, priority, ?_⟩
  have added : (some router).bind (fun router => router.handle [ascii "a", ascii "b"] 4) =
      some (some (some 4)) := by
    rw [← registered]
    rfl
  exact added

end Priority

end CoServer.Http
