import CoServer.Foundation.PathPattern
import CoServer.Http.Text

/-!
`Http::Router`: a trie whose edges are literal segments, a parameter and a
wildcard. `add` walks the segments of a path, creating the nodes that are
missing; `find_` searches with backtracking in the order literal, parameter,
wildcard. Handlers run in a monad, which stands for the awaitable.
-/

namespace CoServer.Http

structure Node (H : Type) where
  children : List (Bytes × Node H)
  paramChild : Option (Node H)
  wildcardChild : Option (Node H)
  handler : Option H

namespace Node

variable {H : Type}

def empty : Node H := ⟨[], none, none, none⟩

def child (node : Node H) (segment : Bytes) : Option (Node H) := node.children.lookup segment

/-- `try_emplace` of an empty node under the key, and a change of the node there. -/
def emplace (segment : Bytes) (change : Node H → Node H) :
    List (Bytes × Node H) → List (Bytes × Node H)
  | [] => [(segment, change empty)]
  | (key, node) :: rest =>
      if segment == key then (key, change node) :: rest else (key, node) :: emplace segment change rest

def insert (handler : H) : List Bytes → Node H → Node H
  | [], node => { node with handler := some handler }
  | segment :: rest, node =>
      if segment = ascii "*" then
        { node with wildcardChild := some (insert handler rest (node.wildcardChild.getD empty)) }
      else if segment.head? = some 0x3a then
        { node with paramChild := some (insert handler rest (node.paramChild.getD empty)) }
      else
        { node with children := emplace segment (insert handler rest) node.children }

mutual

def find (node : Node H) : List Bytes → Option (Node H)
  | [] => if node.handler.isSome then some node else none
  | front :: rest =>
      ((node.child front).bind fun child => find child rest).or
        ((node.paramChild.bind fun child => find child rest).or
          (node.wildcardChild.bind fun child => (find child rest).or (findLater child rest)))

/-- The rounds of the wildcard loop after the first one. -/
def findLater (child : Node H) : List Bytes → Option (Node H)
  | [] => none
  | _ :: rest => (find child rest).or (findLater child rest)

end

end Node

structure Router (Args : Type) (Await : Type → Type) (Ret : Type) where
  notFoundHandler : Option (Args → Await Ret)
  root : Node (Args → Await Ret)

namespace Router

variable {Args Ret : Type} {Await : Type → Type}

def init : Router Args Await Ret := ⟨none, Node.empty⟩

def add (router : Router Args Await Ret) (path : Bytes) (func : Args → Await Ret) :
    Option (Router Args Await Ret) :=
  (splitPath path).map fun segments =>
    { router with
      root := router.root.insert func
        (segments.map fun span => Splice.window path span.position span.length) }

def notFound (router : Router Args Await Ret) (func : Args → Await Ret) : Router Args Await Ret :=
  { router with notFoundHandler := some func }

/-- `none` stands for a call of an absent handler. -/
def handle [Monad Await] (router : Router Args Await Ret) (path : List Bytes) (args : Args) :
    Option (Await (Option Ret)) :=
  match router.root.find path with
  | some node => node.handler.map fun handler => some <$> handler args
  | none =>
      match router.notFoundHandler with
      | some handler => some (some <$> handler args)
      | none => some (pure none)

end Router

end CoServer.Http
