import CoServer.Foundation.Interleaving
import CoServer.SessionRefinement

/-!
`Server`: each of its threads runs a context with a listener, and a listener spawns a
coroutine for every connection that it accepts. The coroutines of all contexts share
the handler and its counter of connections. Their steps are taken in any order, and a
connection draws its number in one step and prints it in another.
-/

namespace CoServer

open Http Transition

/-- A connection; `counted` is one between its `fetch_add` and its line of output. -/
inductive Visitor
  | spawned
  | counted (number : Int32)
  | connected (session : Session)

structure Server where
  listening : List Bool
  i : Int32
  visitors : List Visitor

def Server.init (numThreads : Nat) : Server := ⟨List.replicate numThreads true, 1, []⟩

inductive ServerChoice
  | accept (thread : Nat)
  | acceptFail (thread : Nat)
  | fetchAdd (index : Nat)
  | connect (index : Nat) (headBuff : Bytes)
  | resume (index : Nat) (choice : SessionChoice)

inductive VisitorEvent
  | connections (number : Int32)
  | session (event : SessionEvent)

namespace Server

def Listens (server : Server) (thread : Nat) : Prop := server.listening[thread]? = some true

instance (server : Server) (thread : Nat) : Decidable (server.Listens thread) :=
  inferInstanceAs (Decidable (_ = _))

/-- A failed accept is thrown out of its listener, and the others go on. -/
def step (handlers : Handlers) (server : Server) :
    ServerChoice → Option (Server × List (Nat × VisitorEvent))
  | .accept thread =>
      if server.Listens thread then
        some ({ server with visitors := server.visitors ++ [.spawned] }, [])
      else none
  | .acceptFail thread =>
      if server.Listens thread then
        some ({ server with listening := server.listening.set thread false }, [])
      else none
  | .fetchAdd index =>
      match server.visitors[index]? with
      | some .spawned =>
          some ({ server with
              i := server.i + 1
              visitors := server.visitors.set index (.counted server.i) }, [])
      | _ => none
  | .connect index headBuff =>
      match server.visitors[index]? with
      | some (.counted number) =>
          if headBuff.length = 4096 then
            some ({ server with
                visitors := server.visitors.set index (.connected (Session.init headBuff)) },
              [(index, .connections number)])
          else none
      | _ => none
  | .resume index choice =>
      match server.visitors[index]? with
      | some (.connected session) =>
          (session.step handlers choice).map fun after =>
            ({ server with visitors := server.visitors.set index (.connected after.1) },
              after.2.map fun event => (index, .session event))
      | _ => none

def Step (handlers : Handlers) (server : Server) (events : List (Nat × VisitorEvent))
    (next : Server) : Prop :=
  ∃ choice, server.step handlers choice = some (next, events)

inductive Move (handlers : Handlers) (server : Server) : List (Nat × VisitorEvent) → Server → Prop
  | accept : Move handlers server [] { server with visitors := server.visitors ++ [.spawned] }
  | acceptFail {thread} : Move handlers server []
      { server with listening := server.listening.set thread false }
  | fetchAdd {index} : server.visitors[index]? = some .spawned →
      Move handlers server []
        { server with
          i := server.i + 1
          visitors := server.visitors.set index (.counted server.i) }
  | connect {index number headBuff} : server.visitors[index]? = some (.counted number) →
      headBuff.length = 4096 →
      Move handlers server [(index, .connections number)]
        { server with visitors := server.visitors.set index (.connected (Session.init headBuff)) }
  | resume {index session events next} : server.visitors[index]? = some (.connected session) →
      Session.Step handlers session events next →
      Move handlers server (events.map fun event => (index, .session event))
        { server with visitors := server.visitors.set index (.connected next) }

theorem step_move {handlers : Handlers} {server next : Server} {events : List (Nat × VisitorEvent)}
    (taken : Server.Step handlers server events next) : Move handlers server events next := by
  obtain ⟨choice, taken⟩ := taken
  cases choice with
  | accept thread =>
      simp only [step] at taken
      split at taken
      · cases taken
        exact Move.accept
      · cases taken
  | acceptFail thread =>
      simp only [step] at taken
      split at taken
      · cases taken
        exact Move.acceptFail
      · cases taken
  | fetchAdd index =>
      simp only [step] at taken
      split at taken
      · rename_i at_
        cases taken
        exact Move.fetchAdd at_
      · cases taken
  | connect index headBuff =>
      simp only [step] at taken
      split at taken
      · rename_i number at_
        split at taken
        · rename_i whole
          cases taken
          exact Move.connect at_ whole
        · cases taken
      · cases taken
  | resume index choice =>
      simp only [step] at taken
      split at taken
      · rename_i session at_
        obtain ⟨after, moved, same⟩ := Option.map_eq_some_iff.mp taken
        cases same
        exact Move.resume at_ ⟨choice, moved⟩
      · cases taken

end Server

/-- Until its session begins, a connection is one that waits for a request. -/
inductive Visitor.Follows : Visitor → ExchangeState → Prop
  | spawned : Visitor.Follows .spawned .listening
  | counted {number} : Visitor.Follows (.counted number) .listening
  | connected {session state} : session.Follows state → Visitor.Follows (.connected session) state

def VisitorEvent.see : Nat × VisitorEvent → List (Nat × ExchangeEvent)
  | (_, .connections _) => []
  | (index, .session event) => event.see.map fun event => (index, event)

namespace Server

structure Follows (server : Server) (pool : List ExchangeState) : Prop where
  size : server.visitors.length = pool.length
  each : ∀ (index : Nat) (visitor : Visitor) (state : ExchangeState), server.visitors[index]? = some visitor →
    pool[index]? = some state → visitor.Follows state

theorem follows_init (numThreads : Nat) : (Server.init numThreads).Follows [] :=
  ⟨rfl, by simp [Server.init]⟩

section

variable {handlers : Handlers} {frame : Request → Response → Bytes} {pool : List ExchangeState}

theorem Follows.state {server : Server} (follows : server.Follows pool) {index : Nat}
    {visitor : Visitor} (at_ : server.visitors[index]? = some visitor) :
    ∃ state, pool[index]? = some state ∧ visitor.Follows state := by
  have inside := (List.getElem?_eq_some_iff.mp at_).1
  rw [follows.size] at inside
  exact ⟨_, List.getElem?_eq_getElem inside,
    follows.each index visitor _ at_ (List.getElem?_eq_getElem inside)⟩

theorem follows_append {listening : List Bool} {i : Int32} {visitors : List Visitor}
    {visitor : Visitor} {state : ExchangeState} (follows : Follows ⟨listening, i, visitors⟩ pool)
    (now : visitor.Follows state) :
    Follows ⟨listening, i, visitors ++ [visitor]⟩ (pool ++ [state]) := by
  have size : visitors.length = pool.length := follows.size
  refine ⟨by simp [size], ?_⟩
  intro index found other at_ at_'
  by_cases inside : index < visitors.length
  · rw [List.getElem?_append_left inside] at at_
    rw [List.getElem?_append_left (size ▸ inside)] at at_'
    exact follows.each index found other at_ at_'
  · rw [List.getElem?_append_right (Nat.not_lt.mp inside)] at at_
    rw [List.getElem?_append_right (size ▸ Nat.not_lt.mp inside), ← size] at at_'
    obtain ⟨_, rfl⟩ := List.getElem?_eq_some_iff.mp at_
    obtain ⟨_, rfl⟩ := List.getElem?_eq_some_iff.mp at_'
    simpa using now

theorem follows_set {listening : List Bool} {i i' : Int32} {visitors : List Visitor} {index : Nat}
    {visitor : Visitor} {state : ExchangeState} (follows : Follows ⟨listening, i, visitors⟩ pool)
    (now : visitor.Follows state) :
    Follows ⟨listening, i', visitors.set index visitor⟩ (pool.set index state) := by
  refine ⟨by simpa using follows.size, ?_⟩
  intro other found found' at_ at_'
  by_cases same : index = other
  · subst same
    rw [List.getElem?_set] at at_ at_'
    simp_all
  · rw [List.getElem?_set_ne same] at at_ at_'
    exact follows.each other found found' at_ at_'

theorem see_resume (index : Nat) (events : List SessionEvent) :
    (events.map fun event => (index, VisitorEvent.session event)).flatMap VisitorEvent.see =
      (events.flatMap SessionEvent.see).map fun event => (index, event) := by
  rw [List.flatMap_map, List.map_flatMap]
  rfl

theorem step_matched
    (framed : ∀ req res, Answers handlers req (some res) → Frames (frame req res) res)
    {server next : Server} {events : List (Nat × VisitorEvent)}
    (follows : server.Follows pool) (taken : Server.Step handlers server events next) :
    ∃ pool', Run (PoolStep (· = .listening) (ExchangeStep handlers frame)) pool
        (events.flatMap VisitorEvent.see) pool' ∧ next.Follows pool' := by
  cases step_move taken with
  | accept => exact ⟨_, Run.single (PoolStep.enter rfl), follows_append follows .spawned⟩
  | acceptFail => exact ⟨pool, Run.refl, follows.size, follows.each⟩
  | @fetchAdd index at_ =>
      obtain ⟨state, here, waits⟩ := follows.state at_
      cases waits
      exact ⟨pool.set index .listening, Run.inPool Run.refl here, follows_set follows .counted⟩
  | @connect index number headBuff at_ _ =>
      obtain ⟨state, here, waits⟩ := follows.state at_
      cases waits
      refine ⟨pool.set index .listening, Run.inPool Run.refl here, ?_⟩
      exact follows_set follows (.connected (Session.follows_init headBuff))
  | @resume index session events after at_ moved =>
      obtain ⟨state, here, followed⟩ := follows.state at_
      cases followed with
      | connected followed =>
          obtain ⟨state', run, later⟩ := Session.step_matched framed followed moved
          refine ⟨pool.set index state', ?_, follows_set follows (.connected later)⟩
          rw [see_resume]
          exact run.inPool here

/-- However its steps fall, the server runs a pool of exchanges, one for each connection. -/
theorem refines_exchanges
    (framed : ∀ req res, Answers handlers req (some res) → Frames (frame req res) res)
    {numThreads : Nat} {events : List (Nat × VisitorEvent)} {last : Server}
    (run : Run (Server.Step handlers) (Server.init numThreads) events last) :
    ∃ pool, Run (PoolStep (· = .listening) (ExchangeStep handlers frame)) []
        (events.flatMap VisitorEvent.see) pool ∧ last.Follows pool :=
  run.simulated Follows (fun _ _ _ _ => step_matched framed) (follows_init numThreads)

def inTurns : List ServerChoice :=
  [.accept 0, .accept 2, .fetchAdd 1, .fetchAdd 0, .connect 0 (List.replicate 4096 0),
    .connect 1 (List.replicate 4096 0)] ++
    (Session.cutShort.flatMap fun choice =>
      match choice with
      | .receive ⟨failed, _⟩ =>
          [.resume 0 choice, .resume 1 (.receive ⟨failed, ascii "GET /x/three/y/a/b HTTP/1.1\r\n\r\n"⟩)]
      | .accept ⟨_, n⟩ => [.resume 0 choice, .resume 1 (.accept ⟨false, n⟩)]
      | choice => [.resume 0 choice, .resume 1 choice])

def sentOn (index : Nat) (events : List (Nat × VisitorEvent)) : Bytes :=
  (eventsOf index (events.flatMap VisitorEvent.see)).flatMap ExchangeEvent.bytes

theorem inTurns_run : ∃ events last,
    Run (Server.Step TestServer.handlers) (Server.init 3) events last ∧
      sentOn 0 events = ascii "HTTP/1.1 404 Not Found\r\nConnection" ∧
      sentOn 1 events = ascii "HTTP/1.1 200 OK\r\nConnection: keep-" := by
  have checked : (exec (Server.step TestServer.handlers) (Server.init 3) inTurns).any (fun outcome =>
      sentOn 0 outcome.2 == ascii "HTTP/1.1 404 Not Found\r\nConnection" &&
        sentOn 1 outcome.2 == ascii "HTTP/1.1 200 OK\r\nConnection: keep-") = true := by
    decide +kernel
  rw [Option.any_eq_true] at checked
  obtain ⟨⟨last, events⟩, done, sent⟩ := checked
  rw [Bool.and_eq_true, beq_iff_eq, beq_iff_eq] at sent
  exact ⟨events, last, exec_run done, sent⟩

theorem refines_exchanges_turns : ∃ (events : List (Nat × VisitorEvent)) (last : Server)
    (pool : List ExchangeState),
    sentOn 1 events = ascii "HTTP/1.1 200 OK\r\nConnection: keep-" ∧
      Run (PoolStep (· = .listening) (ExchangeStep TestServer.handlers fun req _ => TestServer.frame req))
        [] (events.flatMap VisitorEvent.see) pool ∧ last.Follows pool := by
  obtain ⟨events, last, run, _, sent⟩ := inTurns_run
  obtain ⟨pool, exchanged, follows⟩ := refines_exchanges TestServer.answers_framed run
  exact ⟨events, last, pool, sent, exchanged, follows⟩

end

end Server

/-- Each connection of the server is sent the pages of its own requests, in their order,
whatever the other ones do. -/
theorem TestServer.pages_each {numThreads : Nat} {events : List (Nat × VisitorEvent)} {last : Server}
    (run : Run (Server.Step TestServer.handlers) (Server.init numThreads) events last) (index : Nat) :
    Paged (eventsOf index (events.flatMap VisitorEvent.see)) := by
  obtain ⟨pool, exchanged, _⟩ := run.simulated Server.Follows
    (fun _ _ _ _ => Server.step_matched answers_framed) (Server.follows_init numThreads)
  have separate := pool_separate exchanged
  by_cases inside : index < pool.length
  · obtain ⟨_, rfl, alone⟩ := separate.alone index _ (List.getElem?_eq_getElem inside)
    exact exchange_paged alone
  · rw [separate.quiet index (Nat.not_lt.mp inside)]
    exact exchange_paged Run.refl

theorem TestServer.pages_each_turns : ∃ events : List (Nat × VisitorEvent),
    Server.sentOn 0 events = ascii "HTTP/1.1 404 Not Found\r\nConnection" ∧
      ∀ index, Paged (eventsOf index (events.flatMap VisitorEvent.see)) := by
  obtain ⟨events, last, run, sent, _⟩ := Server.inTurns_run
  exact ⟨events, sent, pages_each run⟩

end CoServer
