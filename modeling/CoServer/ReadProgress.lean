import CoServer.SystemMoves
import Mathlib.Algebra.GroupWithZero.Nat

/-!
Whether reading makes progress. A run is marked where a round of the inner loop
begins. Messages that take at least a byte of every span, unless they fail or
complete, are offered no byte twice as the first of a span, and a loop over what is
buffered has no more rounds than there are bytes.
-/

namespace CoServer

open Transition

variable {M : Type}

/-- What a run shows of its calls: the events, and where a round of an inner loop begins. -/
inductive Mark
  | round (index : Nat)
  | event (event : Event)
  deriving DecidableEq

def roundMarks (index : Nat) (conn : Connection) (call : ReadCall M) : List Mark :=
  if call.point = .drain ∧ conn.readBuffer.empty = false then [.round index] else []

def System.rounds (sys : System M) : Choice M → List Mark
  | .stepRead index =>
      match sys.reads[index]? with
      | some call => roundMarks index sys.conn call
      | none => []
  | _ => []

def MarkedStep [MessageLike M] (condition : System M → Choice M → Prop) (sys : System M)
    (marks : List Mark) (next : System M) : Prop :=
  ∃ choice events, condition sys choice ∧ sys.step choice = some (next, events) ∧
    marks = sys.rounds choice ++ events.map Mark.event

/-- The call is about to offer what is buffered to its message. -/
def Pending (conn : Connection) (call : ReadCall M) : Phase → Prop
  | .header => call.point = .drain ∧ conn.readState = .readHeader
  | .body => call.point = .body ∧ conn.readState = .readBody

def consumeSome [MessageLike M] : Phase → M → Bytes → Option (Reply × M)
  | .header => MessageLike.consumeHeaderSome
  | .body => MessageLike.consumeBodySome

/-- The call returns, with an error, completed or with at least a byte taken. -/
def Advances (outcome : Option (Reply × M)) : Prop :=
  ∃ err complete count msg, outcome = some ((err, complete, count), msg) ∧
    (err ≠ none ∨ complete = true ∨ 0 < count)

def ReadEvent.offer : ReadEvent → Option (Bytes × Nat)
  | .consumed _ offered numBytes => some (offered, numBytes)
  | .refused _ offered => some (offered, 0)
  | _ => none

def Mark.offerTo (index : Nat) : Mark → Option (Bytes × Nat)
  | .event (.read position inner) => if position = index then inner.offer else none
  | _ => none

def offers (index : Nat) (marks : List Mark) : List (Bytes × Nat) := marks.filterMap (Mark.offerTo index)

/-- Where the spans start that are not empty, counted in the bytes taken before them. -/
def starts : Nat → List (Bytes × Nat) → List Nat
  | _, [] => []
  | taken, (offered, count) :: rest =>
      (if offered = [] then [] else [taken]) ++ starts (taken + count) rest

def Mark.delivers : Mark → Bool
  | .event (.read _ (.received _)) => true
  | _ => false

/-- Reading makes progress in a run: at the call that is next, in the spans of each
call, and in every stretch of the run in which nothing is received. -/
structure ReadsProgress [MessageLike M] (condition : System M → Choice M → Prop) (marks : List Mark)
    (sys : System M) : Prop where
  pending : ∀ index call phase, sys.reads[index]? = some call → Pending sys.conn call phase →
    sys.conn.readBuffer.contents ≠ [] →
      (Advances (consumeSome phase call.msg sys.conn.readBuffer.contents) ↔
        condition sys (.stepRead index))
  once : ∀ index, (starts 0 (offers index marks)).Pairwise (· < ·)
  bounded : ∀ before stretch mid, Run (MarkedStep condition) System.init before mid →
    Run (MarkedStep condition) mid stretch sys → (∀ mark ∈ stretch, mark.delivers = false) →
      ∀ index < mid.reads.length, stretch.count (.round index) ≤ mid.conn.readBuffer.contents.length

/-- Reads of fresh messages, whose calls are permitted. -/
def readsOf (fresh : M → Prop) (permits : Phase → M → Bytes → Prop) (sys : System M) : Choice M → Prop
  | .startRead msg => fresh msg
  | .stepRead index => ∀ call phase, sys.reads[index]? = some call → Pending sys.conn call phase →
      sys.conn.readBuffer.contents ≠ [] → permits phase call.msg sys.conn.readBuffer.contents
  | _ => True

theorem completeRead_suspended {conn : Connection} {call : ReadCall M} {result after}
    (taken : conn.completeRead call result = some after) : ∃ span, call.point = .suspended span := by
  cases point : call.point with
  | suspended span => exact ⟨span, rfl⟩
  | loop | drain | body | returned err => simp [Connection.completeRead, point] at taken

theorem starts_append (taken : Nat) (front back : List (Bytes × Nat)) :
    starts taken (front ++ back) = starts taken front ++ starts (taken + (front.map Prod.snd).sum) back := by
  induction front generalizing taken with
  | nil => rfl
  | cons offer rest ih =>
      obtain ⟨offered, count⟩ := offer
      rw [List.cons_append, starts, starts, ih, List.append_assoc, List.map_cons, List.sum_cons, Nat.add_assoc]

theorem offers_append (index : Nat) (front back : List Mark) :
    offers index (front ++ back) = offers index front ++ offers index back := List.filterMap_append

theorem offers_read (index position : Nat) (events : List ReadEvent) :
    offers index ((events.map (Event.read position)).map .event) =
      if position = index then events.filterMap ReadEvent.offer else [] := by
  rw [offers, List.map_map, List.filterMap_map]
  split
  · rename_i same
    congr 1
    funext event
    simp [Mark.offerTo, same]
  · rename_i other
    simp [Mark.offerTo, other]

theorem offers_write (index position : Nat) (events : List WriteEvent) :
    offers index ((events.map (Event.write position)).map .event) = [] := by
  simp [offers, Mark.offerTo]

theorem offers_round (index position : Nat) (conn : Connection) (call : ReadCall M) :
    offers index (roundMarks position conn call) = [] := by
  rw [roundMarks]
  split <;> simp [offers, Mark.offerTo]

theorem offers_rounds (index : Nat) (sys : System M) (choice : Choice M) :
    offers index (sys.rounds choice) = [] := by
  cases choice with
  | stepRead position =>
      simp only [System.rounds]
      split
      · exact offers_round index position sys.conn _
      · rfl
  | startRead | startWrite | stepWrite | completeRead | completeWrite => rfl

theorem read_unoffered (conn : Connection) (msg : M) :
    (conn.read msg).2.2.filterMap ReadEvent.offer = [] := by
  rw [Connection.read]
  split <;> rfl

/-- The spans of a call so far: each starts behind the one before, and what the call
offers next starts behind them all. -/
structure Spaced (index : Nat) (marks : List Mark) (sys : System M) : Prop where
  increasing : (starts 0 (offers index marks)).Pairwise (· < ·)
  below : ∀ call, sys.reads[index]? = some call → call.open → call.doneRead = false →
    ∀ start ∈ starts 0 (offers index marks), start < ((offers index marks).map Prod.snd).sum
  unasked : sys.reads.length ≤ index → offers index marks = []

theorem Spaced.same {index : Nat} {marks after : List Mark} {sys next : System M}
    (spaced : Spaced index marks sys) (none_ : offers index after = [])
    (before : ∀ call, next.reads[index]? = some call → call.open → call.doneRead = false →
      offers index marks = [] ∨
        ∃ call, sys.reads[index]? = some call ∧ call.open ∧ call.doneRead = false)
    (longer : sys.reads.length ≤ next.reads.length) : Spaced index (marks ++ after) next := by
  obtain ⟨increasing, below, unasked⟩ := spaced
  have same : offers index (marks ++ after) = offers index marks := by
    rw [offers_append, none_, List.append_nil]
  refine ⟨by rw [same]; exact increasing, ?_, ?_⟩
  · intro call found stillOpen busy
    rw [same]
    rcases before call found stillOpen busy with nothing | ⟨call', found', open', busy'⟩
    · rw [nothing]
      intro start member
      cases member
    · exact below call' found' open' busy'
  · intro beyond
    rw [same]
    exact unasked (Nat.le_trans longer beyond)

theorem Spaced.offer {index count : Nat} {offered : Bytes} {marks after : List Mark} {sys next : System M}
    (spaced : Spaced index marks sys) (one : offers index after = [(offered, count)]) {call : ReadCall M}
    (found : sys.reads[index]? = some call) (stillOpen : call.open) (busy : call.doneRead = false)
    (takes : ∀ call, next.reads[index]? = some call → call.open → call.doneRead = false → offered ≠ [] →
      0 < count)
    (known : index < next.reads.length) : Spaced index (marks ++ after) next := by
  obtain ⟨increasing, below, _⟩ := spaced
  have earlier := below call found stillOpen busy
  have more : starts 0 (offers index (marks ++ after)) = starts 0 (offers index marks) ++
      if offered = [] then [] else [((offers index marks).map Prod.snd).sum] := by
    rw [offers_append, one, starts_append, starts, starts, List.append_nil, Nat.zero_add]
  have sum : ((offers index (marks ++ after)).map Prod.snd).sum =
      ((offers index marks).map Prod.snd).sum + count := by
    rw [offers_append, one, List.map_append, List.sum_append]
    simp
  refine ⟨?_, ?_, fun beyond => by omega⟩
  · rw [more, List.pairwise_append]
    refine ⟨increasing, ?_, ?_⟩
    · split <;> simp
    · intro first early last late
      split at late
      · cases late
      · rw [List.mem_singleton.mp late]
        exact earlier first early
  · intro call' found' open' busy' start member
    rw [sum]
    rw [more, List.mem_append] at member
    rcases member with early | late
    · exact Nat.lt_of_lt_of_le (earlier start early) (Nat.le_add_right _ _)
    · split at late
      · cases late
      · rename_i some_
        rw [List.mem_singleton.mp late]
        exact Nat.lt_add_of_pos_right (takes call' found' open' busy' some_)

theorem count_events (index : Nat) (events : List Event) :
    (events.map Mark.event).count (.round index) = 0 := by
  rw [List.count_eq_zero]
  simp

theorem roundMarks_outside (index : Nat) {conn : Connection} {call : ReadCall M}
    (outside : call.point ≠ .drain) : roundMarks index conn call = [] := by
  simp [roundMarks, outside]

theorem roundMarks_nothing (index : Nat) {conn : Connection} {call : ReadCall M}
    (nothing : conn.readBuffer.contents = []) : roundMarks index conn call = [] := by
  simp [roundMarks, (StaticBuffer.empty_iff _).mpr nothing]

theorem roundMarks_drain (index : Nat) {conn : Connection} {call : ReadCall M}
    (point : call.point = .drain) (offered : conn.readBuffer.contents ≠ []) :
    roundMarks index conn call = [.round index] := by
  simp [roundMarks, point, (StaticBuffer.empty_eq_false_iff _).mpr offered]

theorem Advances.takes {outcome : Option (Reply × M)} {count : Nat} {msg : M}
    (advances : Advances outcome) (reply : outcome = some ((none, false, count), msg)) : 0 < count := by
  obtain ⟨err, complete, taken, after, same, progress⟩ := advances
  rw [reply] at same
  cases same
  simpa using progress

theorem count_rounds (index position : Nat) (conn : Connection) (call : ReadCall M) :
    (roundMarks position conn call).count (.round index) =
      if position = index then (roundMarks index conn call).length else 0 := by
  rw [roundMarks, roundMarks]
  split <;> split <;> simp_all

variable [MessageLike M]

/-- Messages that advance exactly where it is permitted. -/
structure Advancing (fresh : M → Prop) (state : Phase → M → Prop)
    (permits : Phase → M → Bytes → Prop) : Prop where
  start : ∀ msg, fresh msg → state .header msg
  advances : ∀ phase msg data, state phase msg → data ≠ [] →
    (Advances (consumeSome phase msg data) ↔ permits phase msg data)
  header : ∀ msg data complete count msg', state .header msg → data ≠ [] →
    MessageLike.consumeHeaderSome msg data = some ((none, complete, count), msg') →
      0 < count ∧ count ≤ data.length ∧ state (if complete then .body else .header) msg'
  body : ∀ msg data count msg', state .body msg →
    MessageLike.consumeBodySome msg data = some ((none, false, count), msg') →
      count ≤ data.length ∧ state .body msg'

/-- A step with its marks: it starts a read, or has nothing to do with reads, or moves one. -/
inductive MarkedMove (fresh : M → Prop) (permits : Phase → M → Bytes → Prop) (sys : System M) :
    List Mark → System M → Prop
  | start {msg} : fresh msg → sys.idle = true →
      MarkedMove fresh permits sys (((sys.conn.read msg).2.2.map (Event.read sys.reads.length)).map .event)
        { sys with conn := (sys.conn.read msg).1, reads := sys.reads ++ [(sys.conn.read msg).2.1] }
  | write {next : System M} {index : Nat} {events : List WriteEvent} : next.reads = sys.reads →
      next.conn.readBuffer = sys.conn.readBuffer → next.conn.readState = sys.conn.readState →
      MarkedMove fresh permits sys ((events.map (Event.write index)).map .event) next
  | move {index call conn call' events} : sys.reads[index]? = some call →
      ReadMove sys.conn call conn call' events →
      (∀ phase, Pending sys.conn call phase → sys.conn.readBuffer.contents ≠ [] →
        permits phase call.msg sys.conn.readBuffer.contents) →
      MarkedMove fresh permits sys
        (roundMarks index sys.conn call ++ (events.map (Event.read index)).map .event)
        { sys with conn := conn, reads := sys.reads.set index call' }

/-- Each choice meets the condition in the state it is made in. -/
def System.Meets (condition : System M → Choice M → Prop) : System M → List (Choice M) → Prop
  | _, [] => True
  | sys, choice :: rest => condition sys choice ∧
      ∀ next events, sys.step choice = some (next, events) → Meets condition next rest

theorem System.meets_of_always {condition : System M → Choice M → Prop} {choices : List (Choice M)}
    (always : ∀ choice ∈ choices, ∀ state, condition state choice) (sys : System M) :
    sys.Meets condition choices := by
  induction choices generalizing sys with
  | nil => trivial
  | cons choice rest ih =>
      refine ⟨always choice List.mem_cons_self sys, fun next _ _ => ?_⟩
      exact ih (fun other member => always other (List.mem_cons_of_mem choice member)) next

theorem System.exec_marked {condition : System M → Choice M → Prop} {choices : List (Choice M)}
    {sys last : System M} {events : List Event} (met : sys.Meets condition choices)
    (done : sys.exec choices = some (last, events)) :
    ∃ marks, Run (MarkedStep condition) sys marks last ∧
      ∀ index, offers index marks = offers index (events.map .event) := by
  induction choices generalizing sys events with
  | nil =>
      cases done
      exact ⟨[], .refl, fun _ => rfl⟩
  | cons choice rest ih =>
      simp only [System.exec, Option.bind_eq_some_iff, Option.map_eq_some_iff] at done
      obtain ⟨⟨next, head⟩, taken, ⟨last', later⟩, remaining, result⟩ := done
      cases result
      obtain ⟨first, others⟩ := met
      obtain ⟨marks, run, same⟩ := ih (others next head taken) remaining
      refine ⟨_, (Run.single ⟨choice, head, first, taken, rfl⟩).trans run, ?_⟩
      intro index
      rw [offers_append, offers_append, offers_rounds, List.nil_append, same, List.map_append,
        offers_append]

theorem System.exec_checked_marks {condition : System M → Choice M → Prop} {choices : List (Choice M)}
    {sys : System M} (check : System M → List (Bytes × Nat) → Bool) (met : sys.Meets condition choices)
    (checked : (sys.exec choices).any (fun after => check after.1 (offers 0 (after.2.map .event))) = true) :
    ∃ marks last, Run (MarkedStep condition) sys marks last ∧ check last (offers 0 marks) = true := by
  cases done : sys.exec choices with
  | none => simp [done] at checked
  | some outcome =>
      obtain ⟨last, events⟩ := outcome
      obtain ⟨marks, run, same⟩ := System.exec_marked met done
      refine ⟨marks, last, run, ?_⟩
      rw [same]
      simpa [done] using checked

theorem markedStep_move {fresh : M → Prop} {permits : Phase → M → Bytes → Prop} {sys next : System M}
    {marks : List Mark} (taken : MarkedStep (readsOf fresh permits) sys marks next) :
    MarkedMove fresh permits sys marks next := by
  obtain ⟨choice, events, met, stepped, rfl⟩ := taken
  cases choice with
  | startRead msg =>
      cases System.step_move stepped with
      | startRead idle => exact .start met idle
      | moveRead chosen | moveWrite chosen => simp at chosen
  | startWrite msg =>
      cases System.step_move stepped with
      | startWrite idle =>
          refine .write ?_ ?_ ?_
          · rfl
          · exact Connection.write_readBuffer sys.conn msg
          · exact Connection.write_readState sys.conn msg
      | moveRead chosen | moveWrite chosen => simp at chosen
  | stepRead index =>
      simp only [System.step, Option.bind_eq_some_iff, Option.map_eq_some_iff] at stepped
      obtain ⟨call, found, after, moved, result⟩ := stepped
      cases result
      simp only [System.rounds, found]
      exact .move found (readStep_move moved) fun phase => met call phase found
  | completeRead index result =>
      simp only [System.step, Option.ite_none_right_eq_some, Option.bind_eq_some_iff,
        Option.map_eq_some_iff] at stepped
      obtain ⟨_, call, found, after, moved, result⟩ := stepped
      cases result
      obtain ⟨span, point⟩ := completeRead_suspended moved
      have none_ : roundMarks index sys.conn call = [] := roundMarks_outside index (by simp [point])
      simp only [System.rounds]
      rw [← none_]
      refine .move found (completeRead_move moved) ?_
      rintro (_ | _) ⟨at_, _⟩ <;> simp [point] at at_
  | stepWrite index | completeWrite index result =>
      cases System.step_move stepped with
      | moveWrite _ _ moved =>
          refine .write ?_ ?_ ?_
          · rfl
          · exact moved.reads.1
          · exact moved.reads.2
      | moveRead chosen => simp at chosen

section Runs

variable {fresh : M → Prop} {state : Phase → M → Prop} {permits : Phase → M → Bytes → Prop}
  {conn conn' : Connection} {call call' : ReadCall M} {events : List ReadEvent}

def InPhase (state : Phase → M → Prop) (conn : Connection) (msg : M) : Prop :=
  (conn.readState = .readHeader → state .header msg) ∧ (conn.readState = .readBody → state .body msg)

theorem ReadMove.inPhase (advancing : Advancing fresh state permits)
    (move : ReadMove conn call conn' call' events) (held : InPhase state conn call.msg)
    (remains : call'.open) : InPhase state conn' call'.msg := by
  cases move with
  | finish | headerRefused | bodyRefused | ended => exact (remains _ rfl).elim
  | request | enter | leave | headerSkipped | bodySkipped | received => exact held
  | @headerConsumed complete _ _ _ offered heading reply =>
      obtain ⟨_, _, next⟩ := advancing.header _ _ _ _ _ (held.1 heading) offered reply
      cases complete with
      | false => exact ⟨fun _ => next, fun reading => by simp [heading] at reading⟩
      | true => exact ⟨fun heading' => by simp at heading', fun _ => next⟩
  | bodyPart _ reading reply =>
      obtain ⟨_, next⟩ := advancing.body _ _ _ _ (held.2 reading) reply
      exact ⟨fun heading => by simp [reading] at heading, fun _ => next⟩
  | bodyComplete => exact ⟨fun heading => by simp at heading, fun reading => by simp at reading⟩

/-- A move offers what is buffered once or not at all, and takes some of it unless it
is the last of its call. -/
theorem ReadMove.offered (advancing : Advancing fresh state permits)
    (move : ReadMove conn call conn' call' events) (owner : ReadOwner conn call)
    (held : InPhase state conn call.msg)
    (met : ∀ phase, Pending conn call phase → conn.readBuffer.contents ≠ [] →
      permits phase call.msg conn.readBuffer.contents) :
    (events.filterMap ReadEvent.offer = [] ∧ (call'.doneRead = false → call.doneRead = false)) ∨
      ∃ count, events.filterMap ReadEvent.offer = [(conn.readBuffer.contents, count)] ∧
        call.doneRead = false ∧
        (call'.open → call'.doneRead = false → conn.readBuffer.contents ≠ [] → 0 < count) := by
  cases move with
  | finish | request | enter | leave | headerSkipped | bodySkipped | ended | received =>
      exact Or.inl ⟨rfl, fun open_ => open_⟩
  | headerRefused point | bodyRefused point =>
      exact Or.inr ⟨0, rfl, (owner.busy point (by simp)).1, fun remains => (remains _ rfl).elim⟩
  | headerConsumed point offered heading reply =>
      obtain ⟨some_, _⟩ := advancing.header _ _ _ _ _ (held.1 heading) offered reply
      exact Or.inr ⟨_, rfl, (owner.busy point (by simp)).1, fun _ _ _ => some_⟩
  | bodyComplete point =>
      exact Or.inr ⟨_, rfl, (owner.busy point (by simp)).1, fun _ no => by cases no⟩
  | bodyPart point reading reply =>
      refine Or.inr ⟨_, rfl, (owner.busy point (by simp)).1, ?_⟩
      intro _ _ offered
      have advances :=
        (advancing.advances .body _ _ (held.2 reading) offered).mpr (met .body ⟨point, reading⟩ offered)
      exact advances.takes reply

/-- The rounds so far and the bytes left make no more than the bound. In the middle of
a round the byte that it is to take is still there. -/
def RoomLeft (bound rounds : Nat) (conn : Connection) (call : ReadCall M) : Prop :=
  rounds + conn.readBuffer.contents.length ≤ bound ∨
    (rounds + conn.readBuffer.contents.length ≤ bound + 1 ∧ conn.readBuffer.contents ≠ [] ∧
      call.point = .body ∧ conn.readState = .readBody)

theorem ReadMove.roomLeft (advancing : Advancing fresh state permits)
    (move : ReadMove conn call conn' call' events) (owner : ReadOwner conn call)
    (held : InPhase state conn call.msg)
    (met : ∀ phase, Pending conn call phase → conn.readBuffer.contents ≠ [] →
      permits phase call.msg conn.readBuffer.contents)
    (quiet : ∀ bytes, .received bytes ∉ events) {bound rounds : Nat} (index : Nat) (below : rounds ≤ bound)
    (room : call.doneRead = false → RoomLeft bound rounds conn call) :
    rounds + (roundMarks index conn call).length ≤ bound ∧
      (call'.open → call'.doneRead = false →
        RoomLeft bound (rounds + (roundMarks index conn call).length) conn' call') := by
  have outside : call.point ≠ .drain → (roundMarks index conn call).length = 0 := by
    intro other
    rw [roundMarks_outside index other, List.length_nil]
  have inside : call.point = .drain → conn.readBuffer.contents ≠ [] →
      (roundMarks index conn call).length = 1 := by
    intro point offered
    rw [roundMarks_drain index point offered, List.length_singleton]
  have whole : call.point ≠ .body → call.doneRead = false →
      rounds + conn.readBuffer.contents.length ≤ bound := by
    intro other busy
    rcases room busy with enough | ⟨_, _, point, _⟩
    · exact enough
    · exact (other point).elim
  have rest : ∀ count, count ≤ conn.readBuffer.contents.length →
      (conn.readBuffer.consume count).contents.length = conn.readBuffer.contents.length - count := by
    intro count within
    rw [StaticBuffer.consume_offered (by decide) _ within, List.length_drop]
  cases move with
  | finish point done =>
      rw [outside (by simp [point])]
      exact ⟨below, fun remains => (remains _ rfl).elim⟩
  | request point busy | enter point busy =>
      rw [outside (by simp [point])]
      exact ⟨below, fun _ _ => Or.inl (whole (by simp [point]) busy)⟩
  | leave point nothing =>
      rw [roundMarks_nothing index nothing]
      exact ⟨below, fun _ busy => Or.inl (whole (by simp [point]) busy)⟩
  | headerRefused point offered =>
      have enough := whole (by simp [point]) (owner.busy point (by simp)).1
      have := List.length_pos_iff.mpr offered
      rw [inside point offered]
      exact ⟨by omega, fun remains => (remains _ rfl).elim⟩
  | @headerConsumed _ count _ point offered heading reply =>
      have enough := whole (by simp [point]) (owner.busy point (by simp)).1
      obtain ⟨some_, within, _⟩ := advancing.header _ _ _ _ _ (held.1 heading) offered reply
      rw [inside point offered]
      refine ⟨by omega, fun _ _ => Or.inl ?_⟩
      simp only [rest count within]
      omega
  | headerSkipped point offered other =>
      have busy := owner.busy point (by simp)
      have enough := whole (by simp [point]) busy.1
      have := List.length_pos_iff.mpr offered
      have reading : conn.readState = .readBody := by
        cases phase : conn.readState with
        | start => exact (busy.2 phase).elim
        | readHeader => exact (other phase).elim
        | readBody => rfl
      rw [inside point offered]
      exact ⟨by omega, fun _ _ => Or.inr ⟨by omega, offered, rfl, reading⟩⟩
  | bodyRefused point =>
      rw [outside (by simp [point])]
      exact ⟨below, fun remains => (remains _ rfl).elim⟩
  | @bodyPart count _ point reading reply =>
      obtain ⟨within, _⟩ := advancing.body _ _ _ _ (held.2 reading) reply
      rw [outside (by simp [point])]
      refine ⟨below, fun _ busy => Or.inl ?_⟩
      simp only [rest count within]
      rcases room busy with enough | ⟨enough, offered, _⟩
      · omega
      · have advances :=
          (advancing.advances .body _ _ (held.2 reading) offered).mpr (met .body ⟨point, reading⟩ offered)
        have some_ : 0 < count := advances.takes reply
        omega
  | bodyComplete point =>
      rw [outside (by simp [point])]
      exact ⟨below, fun _ no => by cases no⟩
  | bodySkipped point other =>
      rw [outside (by simp [point])]
      refine ⟨below, fun _ busy => Or.inl ?_⟩
      rcases room busy with enough | ⟨_, _, _, reading⟩
      · exact enough
      · exact (other reading).elim
  | ended point =>
      rw [outside (by simp [point])]
      exact ⟨below, fun remains => (remains _ rfl).elim⟩
  | received => exact (quiet _ (List.mem_singleton.mpr rfl)).elim

structure Held (state : Phase → M → Prop) (sys : System M) : Prop where
  owned : ReadsOwned sys
  phases : ∀ (index : Nat) (call : ReadCall M), sys.reads[index]? = some call → call.open →
    InPhase state sys.conn call.msg

variable {sys next : System M} {marks after : List Mark} {index : Nat}

theorem Held.step (advancing : Advancing fresh state permits) (held : Held state sys)
    (taken : MarkedStep (readsOf fresh permits) sys marks next) : Held state next := by
  have owned : ReadsOwned next := by
    obtain ⟨_, _, _, stepped, _⟩ := taken
    exact (System.step_move stepped).readsOwned held.owned
  refine ⟨owned, ?_⟩
  intro index call found stillOpen
  cases markedStep_move taken with
  | @start msg new idle =>
      rcases getElem?_append_one found with old | ⟨_, rfl⟩
      · simp only [held.owned.read_same idle old stillOpen msg]
        exact held.phases index call old stillOpen
      · by_cases ready : sys.conn.readState = .start
        · simp only [Connection.read, ready, ne_eq, not_true_eq_false, ↓reduceIte]
          exact ⟨fun _ => advancing.start msg new, fun reading => by simp at reading⟩
        · refine (stillOpen (some .invalidState) ?_).elim
          simp [Connection.read, ready]
  | write reads _ readState =>
      rw [reads] at found
      rw [InPhase, readState]
      exact held.phases index call found stillOpen
  | @move position before _ _ _ found' moved =>
      rcases getElem?_set_cases found with ⟨rfl, rfl⟩ | ⟨different, old⟩
      · exact moved.inPhase advancing (held.phases _ before found' moved.opened) stillOpen
      · exact (different (held.owned.unique index position call before old stillOpen found'
          moved.opened)).elim

theorem Spaced.step (advancing : Advancing fresh state permits) (held : Held state sys)
    (spaced : Spaced index marks sys) (taken : MarkedStep (readsOf fresh permits) sys after next) :
    Spaced index (marks ++ after) next := by
  cases markedStep_move taken with
  | start =>
      refine spaced.same ?_ ?_ (by simp)
      · rw [offers_read, read_unoffered, ite_self]
      · intro call found stillOpen busy
        rcases getElem?_append_one found with old | ⟨here, _⟩
        · exact Or.inr ⟨call, old, stillOpen, busy⟩
        · exact Or.inl (spaced.unasked (Nat.le_of_eq here.symm))
  | write reads =>
      refine spaced.same (offers_write _ _ _) ?_ (Nat.le_of_eq (by rw [reads]))
      intro call found stillOpen busy
      rw [reads] at found
      exact Or.inr ⟨call, found, stillOpen, busy⟩
  | @move position call conn call' events found moved met =>
      have shape : offers index (roundMarks position sys.conn call ++
          (events.map (Event.read position)).map Mark.event) =
            if position = index then events.filterMap ReadEvent.offer else [] := by
        rw [offers_append, offers_round, List.nil_append, offers_read]
      by_cases mine : position = index
      · subst mine
        rw [if_pos rfl] at shape
        have bound := (List.getElem?_eq_some_iff.mp found).1
        have set_ : ∀ other, (sys.reads.set position call')[position]? = some other → other = call' := by
          intro other found'
          rcases getElem?_set_cases found' with ⟨_, same⟩ | ⟨no, _⟩
          · exact same
          · exact (no rfl).elim
        rcases moved.offered advancing (held.owned.owner _ _ found moved.opened)
          (held.phases _ _ found moved.opened) met with ⟨none_, kept⟩ | ⟨count, one, busy, takes⟩
        · refine spaced.same (shape.trans none_) ?_ (by simp)
          intro other found' _ busy
          rw [set_ other found'] at busy
          exact Or.inr ⟨call, found, moved.opened, kept busy⟩
        · refine spaced.offer (shape.trans one) found moved.opened busy ?_ (by simpa using bound)
          intro other found' open' busy'
          rw [set_ other found'] at open' busy'
          exact takes open' busy'
      · rw [if_neg mine] at shape
        refine spaced.same shape ?_ (by simp)
        intro other found' open' busy'
        rcases getElem?_set_cases found' with ⟨same, _⟩ | ⟨_, old⟩
        · exact (mine same.symm).elim
        · exact Or.inr ⟨other, old, open', busy'⟩

/-- The rounds of a call in a stretch of a run, and what is left for more of them. -/
structure Bounded (index bound : Nat) (marks : List Mark) (sys : System M) : Prop where
  known : index < sys.reads.length
  count : marks.count (.round index) ≤ bound
  room : ∀ call, sys.reads[index]? = some call → call.open → call.doneRead = false →
    RoomLeft bound (marks.count (.round index)) sys.conn call

theorem Bounded.step (advancing : Advancing fresh state permits) (held : Held state sys) {bound : Nat}
    (bounded : Bounded index bound marks sys) (taken : MarkedStep (readsOf fresh permits) sys after next)
    (unfed : ∀ mark ∈ after, mark.delivers = false) : Bounded index bound (marks ++ after) next := by
  obtain ⟨known, count, room⟩ := bounded
  cases markedStep_move taken with
  | @start msg _ idle =>
      have same : List.count (.round index) (marks ++
          ((sys.conn.read msg).2.2.map (Event.read sys.reads.length)).map Mark.event) =
            marks.count (.round index) := by
        rw [List.count_append, count_events, Nat.add_zero]
      refine ⟨?_, same ▸ count, ?_⟩
      · simp only [List.length_append]
        omega
      · intro call found stillOpen busy
        rw [same]
        rcases getElem?_append_one found with old | ⟨here, _⟩
        · simp only [held.owned.read_same idle old stillOpen msg]
          exact room call old stillOpen busy
        · omega
  | @write _ position events reads buffer readState =>
      have same : List.count (.round index)
          (marks ++ (events.map (Event.write position)).map Mark.event) = marks.count (.round index) := by
        rw [List.count_append, count_events, Nat.add_zero]
      refine ⟨reads ▸ known, same ▸ count, ?_⟩
      intro call found stillOpen busy
      rw [reads] at found
      rw [same, RoomLeft, buffer, readState]
      exact room call found stillOpen busy
  | @move position call conn call' events found moved met =>
      have sum : List.count (.round index) (marks ++ (roundMarks position sys.conn call ++
          (events.map (Event.read position)).map Mark.event)) = marks.count (.round index) +
            if position = index then (roundMarks index sys.conn call).length else 0 := by
        rw [List.count_append, List.count_append, count_events, Nat.add_zero, count_rounds]
      by_cases mine : position = index
      · subst mine
        have quiet : ∀ bytes, .received bytes ∉ events := by
          intro bytes member
          have delivers := unfed (.event (.read position (.received bytes)))
            (List.mem_append_right _ (List.mem_map_of_mem (List.mem_map_of_mem member)))
          cases delivers
        obtain ⟨count', room'⟩ := moved.roomLeft advancing (held.owned.owner _ _ found moved.opened)
          (held.phases _ _ found moved.opened) met quiet position count (room call found moved.opened)
        rw [if_pos rfl] at sum
        refine ⟨by simpa using known, sum ▸ count', ?_⟩
        intro other found' open' busy'
        rcases getElem?_set_cases found' with ⟨_, rfl⟩ | ⟨no, _⟩
        · rw [sum]
          exact room' open' busy'
        · exact (no rfl).elim
      · rw [if_neg mine, Nat.add_zero] at sum
        refine ⟨by simpa using known, sum ▸ count, ?_⟩
        intro other found' open' _
        rcases getElem?_set_cases found' with ⟨same, _⟩ | ⟨_, old⟩
        · exact (mine same.symm).elim
        · exact (mine (held.owned.unique position index call other found moved.opened old open')).elim

theorem Held.run (advancing : Advancing fresh state permits)
    (run : Run (MarkedStep (readsOf fresh permits)) System.init marks sys) : Held state sys :=
  run.stateInvariant ⟨readsOwned_init, by simp [System.init]⟩ fun _ _ _ held taken => held.step advancing taken

theorem Spaced.run (advancing : Advancing fresh state permits)
    (run : Run (MarkedStep (readsOf fresh permits)) System.init marks sys) (index : Nat) :
    Spaced index marks sys := by
  have start : Spaced index [] (System.init : System M) :=
    ⟨List.Pairwise.nil, by simp [System.init], fun _ => rfl⟩
  refine (Run.invariant (fun marks sys => Held state sys ∧ Spaced index marks sys)
    ⟨⟨readsOwned_init, by simp [System.init]⟩, start⟩ ?_ run).2
  rintro before sys after next ⟨held, spaced⟩ taken
  exact ⟨held.step advancing taken, spaced.step advancing held taken⟩

theorem Bounded.run (advancing : Advancing fresh state permits) {mid : System M} (held : Held state mid)
    (known : index < mid.reads.length)
    (run : Run (MarkedStep (readsOf fresh permits)) mid marks sys)
    (unfed : ∀ mark ∈ marks, mark.delivers = false) :
    Bounded index mid.conn.readBuffer.contents.length marks sys := by
  have start : Bounded index mid.conn.readBuffer.contents.length [] mid :=
    ⟨known, Nat.zero_le _, fun _ _ _ _ => Or.inl (Nat.le_of_eq (Nat.zero_add _))⟩
  refine (Run.invariant (fun marks sys => Held state sys ∧ ((∀ mark ∈ marks, mark.delivers = false) →
    Bounded index mid.conn.readBuffer.contents.length marks sys)) ⟨held, fun _ => start⟩ ?_ run).2 unfed
  rintro before sys after next ⟨held', bounded⟩ taken
  refine ⟨held'.step advancing taken, fun quiet => ?_⟩
  exact (bounded fun mark member => quiet mark (List.mem_append_left _ member)).step advancing held' taken
    fun mark member => quiet mark (List.mem_append_right _ member)

omit [MessageLike M] in
theorem Pending.unique {phase phase' : Phase} (pending : Pending conn call phase)
    (pending' : Pending conn call phase') : phase = phase' := by
  cases phase <;> cases phase' <;> simp_all [Pending]

theorem reads_progress (advancing : Advancing fresh state permits)
    (run : Run (MarkedStep (readsOf fresh permits)) System.init marks sys) :
    ReadsProgress (readsOf fresh permits) marks sys := by
  have held := Held.run advancing run
  refine ⟨?_, fun index => (Spaced.run advancing run index).increasing, ?_⟩
  · intro index call phase found pending offered
    have stillOpen : call.open := by
      intro err returned
      cases phase <;> simp_all [Pending]
    have phases := held.phases index call found stillOpen
    have here : state phase call.msg := by
      cases phase with
      | header => exact phases.1 pending.2
      | body => exact phases.2 pending.2
    rw [advancing.advances phase _ _ here offered]
    constructor
    · intro permitted call' phase' found' pending' _
      rw [found] at found'
      cases found'
      rw [← pending.unique pending']
      exact permitted
    · intro met
      exact met call phase found pending offered
  · intro before stretch mid front back unfed index known
    exact (Bounded.run advancing (Held.run advancing front) known back unfed).count

end Runs

end CoServer
