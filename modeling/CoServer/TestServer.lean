import CoServer.Http.ResponseDraining
import CoServer.Http.RouterMatching
import CoServer.Outgoing
import CoServer.Session

/-!
The routes of `TestServer`: which of its three handlers a path gets, and what its
response puts on the wire.
-/

namespace CoServer

open Http PathPattern

/-- A response that is built through the interface of the class is ready to be sent. -/
theorem frames_built {constructor : Response.Constructor} (valid : constructor.Valid)
    {version : Bytes} {uninitialized : Bool} {res : Response}
    (built : constructor.build version uninitialized = some res) {calls : List Call}
    (storable : Storable calls) :
    Frames (plainHeader constructor.statusText constructor.reasonText version calls ++
      plainBody calls) (calls.foldl Call.apply res) := by
  obtain ⟨res', built', fresh, atBody, start⟩ :=
    Response.constructor_written valid version uninitialized
  rw [built, Option.some.injEq] at built'
  subst built'
  obtain ⟨fresh', atBody'⟩ := Response.calls_fresh calls fresh atBody
  have pending := Response.Written.pending (start.append calls) fresh' atBody'
  rw [List.nil_append, if_pos storable] at pending
  exact ⟨_, _, rfl, Response.HeaderPending _ _, Response.BodyPending _ _, Response.Rewound _ _,
    ⟨(Response.emitsHeader _ _).weaken fun _ rewound => rewound.bodyPending,
      Response.emitsBody _ _⟩, pending⟩

/-- Where the connection field is set, the version is the only part that varies. -/
theorem plain_kept {status reason version : Bytes} {calls : List Call}
    (kept : calls.any (Call.sets .connection) = true) :
    plainHeader status reason version calls ++ plainBody calls =
      ascii "HTTP/" ++ version ++ (ascii " " ++ status ++ ascii " " ++ reason ++ ascii "\r\n" ++
        calls.flatMap Call.line ++ contentTypeLine calls ++ contentLengthLine calls ++ ascii "\r\n" ++
        plainBody calls) := by
  simp only [plainHeader, statusLine, connectionLine, kept, Bool.not_true, Bool.false_eq_true,
    ↓reduceIte, List.append_nil, List.append_assoc]

namespace TestServer

def one (args : Request × Bytes) : ReaderM Bool Response := fun uninitialized =>
  ((Response.ofStatus .ok args.1.version args.2 uninitialized).setBodyString
    (ascii "Hello twooo2234567!")).set .connection (ascii "keep-alive")

def three (args : Request × Bytes) : ReaderM Bool Response := fun uninitialized =>
  ((Response.ofStatus .ok args.1.version args.2 uninitialized).setBodyString
    (ascii "Hello three!")).set .connection (ascii "keep-alive")

def missing (args : Request × Bytes) : ReaderM Bool Response := fun uninitialized =>
  (Response.ofStatus .notFound args.1.version args.2 uninitialized).set .connection
    (ascii "keep-alive")

def router : Option Handlers :=
  (Router.init.add (ascii "/abc/one/:z/:x/:y") one).bind fun router =>
    (router.add (ascii "/*/three/*/a/b") three).map fun router => router.notFound missing

def handlers : Handlers := router.get (by decide)

inductive Page
  | one
  | three
  | missing
  deriving DecidableEq, Repr

/-- The page of a path; between its first segment and the one before `a/b` there is
a `three`. -/
def page (path : List Bytes) : Page :=
  if [ascii "abc", ascii "one"] <+: path ∧ path.length = 5 then .one
  else if [ascii "a", ascii "b"] <:+ path ∧
      ascii "three" ∈ (path.drop 1).take (path.length - 4) then .three
  else .missing

def Page.frame (version : Bytes) : Page → Bytes
  | .one => ascii "HTTP/" ++ version ++ ascii (" 200 OK\r\nConnection: keep-alive\r\n" ++
      "Content-Type: text/plain\r\nContent-Length: 19\r\n\r\nHello twooo2234567!")
  | .three => ascii "HTTP/" ++ version ++ ascii (" 200 OK\r\nConnection: keep-alive\r\n" ++
      "Content-Type: text/plain\r\nContent-Length: 12\r\n\r\nHello three!")
  | .missing => ascii "HTTP/" ++ version ++
      ascii " 404 Not Found\r\nConnection: keep-alive\r\nContent-Length: 0\r\n\r\n"

def frame (req : Request) : Bytes := (page req.path).frame req.version

def Page.handler : Page → Request × Bytes → ReaderM Bool Response
  | .one => TestServer.one
  | .three => TestServer.three
  | .missing => TestServer.missing

theorem handler_frames (page : Page) (req : Request) (headBuff : Bytes) (uninitialized : Bool) :
    Frames (M := Response) (page.frame req.version) ((page.handler (req, headBuff)).run uninitialized) := by
  have framed : ∀ status calls text, Storable calls → calls.any (Call.sets .connection) = true →
      ascii " " ++ (statusStrArr status).1 ++ ascii " " ++ (statusStrArr status).2 ++ ascii "\r\n" ++
        calls.flatMap Call.line ++ contentTypeLine calls ++ contentLengthLine calls ++ ascii "\r\n" ++
        plainBody calls = text →
      Frames (ascii "HTTP/" ++ req.version ++ text)
        (calls.foldl Call.apply (Response.ofStatus status req.version headBuff uninitialized)) := by
    rintro status calls _ storable kept rfl
    rw [← plain_kept kept]
    exact @frames_built (.status status headBuff) trivial _ uninitialized _ rfl _ storable
  cases page with
  | one =>
      exact framed .ok [.setBodyString (ascii "Hello twooo2234567!"),
        .set .connection (ascii "keep-alive")] _ (by decide) (by decide)
        (by decide +kernel)
  | three =>
      exact framed .ok [.setBodyString (ascii "Hello three!"),
        .set .connection (ascii "keep-alive")] _ (by decide) (by decide)
        (by decide +kernel)
  | missing =>
      exact framed .notFound [.set .connection (ascii "keep-alive")] _ (by decide) (by decide)
        (by decide +kernel)

theorem matches_one (path : List Bytes) :
    Matches (normalise (ascii "/abc/one/:z/:x/:y")) path ↔
      [ascii "abc", ascii "one"] <+: path ∧ path.length = 5 := by
  have pattern : normalise (ascii "/abc/one/:z/:x/:y") =
      [.literal (ascii "abc"), .literal (ascii "one"), .param, .param, .param] := by decide
  simp only [pattern, matches_literal_iff, matches_param_iff, matches_nil_iff]
  constructor
  · rintro ⟨_, rfl, _, rfl, z, _, rfl, x, _, rfl, y, _, rfl, rfl⟩
    exact ⟨⟨[z, x, y], rfl⟩, rfl⟩
  · rintro ⟨⟨rest, rfl⟩, size⟩
    obtain ⟨z, x, y, rfl⟩ := List.length_eq_three.mp (by simpa using size)
    exact ⟨_, rfl, _, rfl, z, _, rfl, x, _, rfl, y, _, rfl, rfl⟩

theorem matches_three (path : List Bytes) :
    Matches (normalise (ascii "/*/three/*/a/b")) path ↔
      [ascii "a", ascii "b"] <:+ path ∧
        ascii "three" ∈ (path.drop 1).take (path.length - 4) := by
  have pattern : normalise (ascii "/*/three/*/a/b") =
      [.wildcard, .literal (ascii "three"), .wildcard, .literal (ascii "a"), .literal (ascii "b")] := by
    decide
  simp only [pattern, matches_literal_iff, matches_wildcard_iff, matches_nil_iff]
  constructor
  · rintro ⟨before, _, before_, rfl, _, rfl, after, _, after_, rfl, _, rfl, _, rfl, rfl⟩
    refine ⟨⟨before ++ ascii "three" :: after, by simp⟩, ?_⟩
    obtain ⟨first, front, rfl⟩ := List.exists_cons_of_ne_nil before_
    have last := List.length_pos_iff.mpr after_
    rw [List.cons_append, List.drop_succ_cons, List.drop_zero, List.take_append]
    refine List.mem_append_right _ (List.mem_of_getElem? (i := 0) ?_)
    rw [List.getElem?_take_of_lt]
    · rfl
    · simp only [List.length_cons, List.length_append]
      omega
  · rintro ⟨⟨inner, rfl⟩, member⟩
    obtain ⟨front, back, split⟩ := List.append_of_mem member
    cases inner with
    | nil => simp at split
    | cons first middle =>
        have inside : (middle.take (middle.length - 1)) = front ++ ascii "three" :: back := by
          rw [← split, List.cons_append, List.drop_succ_cons, List.drop_zero, List.take_append_of_le_length]
          · simp
          · simp
        have left : middle.drop (middle.length - 1) ≠ [] := by
          have size := congrArg List.length inside
          simp only [List.length_take, List.length_append, List.length_cons] at size
          rw [Ne, List.drop_eq_nil_iff]
          omega
        refine ⟨first :: front, _, by simp, ?_, _, rfl, back ++ middle.drop (middle.length - 1), _,
          by simp [left], rfl, _, rfl, _, rfl, rfl⟩
        conv_lhs => rw [← List.take_append_drop (middle.length - 1) middle, inside]
        simp

theorem handlers_routes : handlers.notFoundHandler = some missing ∧
    ∀ pattern, handlers.root.handlerAt pattern =
      if normalise (ascii "/*/three/*/a/b") = pattern then some three
      else if normalise (ascii "/abc/one/:z/:x/:y") = pattern then some one else none := by
  obtain ⟨first, added, _, held⟩ := (Router.init : Handlers).add_some one
    (by decide : ascii "/abc/one/:z/:x/:y" ≠ [])
  obtain ⟨second, added', _, held'⟩ := first.add_some three (by decide : ascii "/*/three/*/a/b" ≠ [])
  have built : router = some (second.notFound missing) := by
    rw [router, added, Option.bind_some, added', Option.map_some]
  have same : handlers = second.notFound missing := Option.get_of_eq_some _ built
  rw [same]
  refine ⟨rfl, fun pattern => ?_⟩
  have empty : (Router.init : Handlers).root.handlerAt pattern = none := Node.handlerAt_empty pattern
  exact (held' pattern).trans (by rw [held pattern, empty])

theorem routes_apart {path : List Bytes} (first : [ascii "abc", ascii "one"] <+: path ∧ path.length = 5) :
    ¬ ([ascii "a", ascii "b"] <:+ path ∧ ascii "three" ∈ (path.drop 1).take (path.length - 4)) := by
  rintro ⟨_, member⟩
  obtain ⟨⟨rest, rfl⟩, size⟩ := first
  rw [size] at member
  have other : ascii "three" ≠ ascii "one" := by decide
  exact other (by simpa using member)

/-- Each path gets the handler of its page. -/
theorem handles (path : List Bytes) (args : Request × Bytes) :
    handlers.handle path args = some (some <$> (page path).handler args) := by
  obtain ⟨notFound, routes⟩ := handlers_routes
  by_cases first : [ascii "abc", ascii "one"] <+: path ∧ path.length = 5
  · rw [page, if_pos first]
    have unmatched := routes_apart first
    rw [← matches_three] at unmatched
    refine Router.handle_only args ((matches_one path).mpr first) ?_ ?_
    · rw [routes, if_neg (by decide), if_pos rfl]
      rfl
    · intro other matched held
      rw [routes] at held
      split at held
      · rename_i same
        exact (unmatched (same ▸ matched)).elim
      · split at held
        · rename_i same
          exact same.symm
        · cases held
  · by_cases second : [ascii "a", ascii "b"] <:+ path ∧
        ascii "three" ∈ (path.drop 1).take (path.length - 4)
    · rw [page, if_neg first, if_pos second]
      rw [← matches_one] at first
      refine Router.handle_only args ((matches_three path).mpr second) ?_ ?_
      · rw [routes, if_pos rfl]
        rfl
      · intro other matched held
        rw [routes] at held
        split at held
        · rename_i same
          exact same.symm
        · split at held
          · rename_i same
            exact (first (same ▸ matched)).elim
          · cases held
    · rw [page, if_neg first, if_neg second]
      rw [← matches_one] at first
      rw [← matches_three] at second
      refine Router.handle_missing args notFound ?_
      intro pattern matched
      rw [routes, if_neg, if_neg]
      · rintro rfl
        exact first matched
      · rintro rfl
        exact second matched

theorem answers_framed (req : Request) (res : Response) (answers : Answers handlers req (some res)) :
    Frames (frame req) res := by
  obtain ⟨headBuff, uninitialized, reply, chosen, answered⟩ := answers
  rw [handles, Option.some.injEq] at chosen
  subst chosen
  obtain rfl : ((page req.path).handler (req, headBuff)).run uninitialized = res :=
    Option.some.inj answered
  exact handler_frames (page req.path) req headBuff uninitialized

theorem answers_always (req : Request) : ¬ Answers handlers req none := by
  rintro ⟨headBuff, uninitialized, reply, chosen, silent⟩
  rw [handles, Option.some.injEq] at chosen
  subst chosen
  cases silent

end TestServer

end CoServer
