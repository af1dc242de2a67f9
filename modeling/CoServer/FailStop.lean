import CoServer.Msgpack
import CoServer.SystemMoves

/-!
A direction that has failed stays failed: reading in every run, writing in every
run whose failures strike a write before its last flush and while no other write
is open.
-/

namespace CoServer

open Transition

def ReadFailed (events : List Event) : Prop :=
  ∃ index code, .read index (.returned (some code)) ∈ events ∧ code ≠ .invalidState

def WriteFailed (events : List Event) : Prop :=
  ∃ index code, .write index (.returned (some code)) ∈ events ∧ code ≠ .invalidState

variable {M : Type}

structure ReadDead (sys : System M) : Prop where
  closed : ∀ (index : Nat) (call : ReadCall M), sys.reads[index]? = some call → ¬ call.open
  busy : sys.conn.readState ≠ .start

structure WriteDead (sys : System M) : Prop where
  closed : ∀ (index : Nat) (call : WriteCall M), sys.writes[index]? = some call → ¬ call.open
  busy : sys.conn.writeState ≠ .start

variable [MessageLike M]

theorem ReadDead.step {sys next : System M} {choice : Choice M} {events : List Event}
    (dead : ReadDead sys) (move : SystemMove sys choice next events) :
    ReadDead next ∧ ∀ index event, .read index event ∈ events →
      event = .returned (some .invalidState) := by
  cases move with
  | startRead idle =>
      rw [read_busy dead.busy]
      exact ⟨⟨fun _ _ found stillOpen => dead.closed _ _ (ReadCall.open_earlier found stillOpen) stillOpen,
        dead.busy⟩, by simp⟩
  | startWrite idle => exact ⟨⟨dead.closed, by simpa using dead.busy⟩, by simp⟩
  | moveRead _ found moved => exact (dead.closed _ _ found moved.opened).elim
  | moveWrite _ _ moved =>
      exact ⟨⟨dead.closed, by simpa only [moved.reads] using dead.busy⟩, by simp⟩

theorem WriteDead.step {sys next : System M} {choice : Choice M} {events : List Event}
    (dead : WriteDead sys) (move : SystemMove sys choice next events) :
    WriteDead next ∧ ∀ index event, .write index event ∈ events →
      event = .returned (some .invalidState) := by
  cases move with
  | startRead idle => exact ⟨⟨dead.closed, by simpa using dead.busy⟩, by simp⟩
  | startWrite idle =>
      rw [write_busy dead.busy]
      exact ⟨⟨fun _ _ found stillOpen => dead.closed _ _ (WriteCall.open_earlier found stillOpen) stillOpen,
        dead.busy⟩, by simp⟩
  | moveRead _ _ moved =>
      exact ⟨⟨dead.closed, by simpa only [moved.writes] using dead.busy⟩, by simp⟩
  | moveWrite _ found moved => exact (dead.closed _ _ found moved.opened).elim

theorem ReadMove.returned_event {conn conn' : Connection} {call call' : ReadCall M} {events err}
    (move : ReadMove conn call conn' call' events) (returned : .returned err ∈ events) :
    call'.point = .returned err := by
  cases move <;> simp_all

theorem WriteMove.returned_event {conn conn' : Connection} {call call' : WriteCall M} {events err}
    (move : WriteMove conn call conn' call' events) (returned : .returned err ∈ events) :
    call'.point = .returned err := by
  cases move <;> simp_all

theorem SystemMove.readFails {sys next : System M} {choice : Choice M} {events : List Event}
    (owned : ReadsOwned sys) (move : SystemMove sys choice next events)
    (failed : ReadFailed events) : ReadDead next := by
  obtain ⟨index, code, member, notInvalid⟩ := failed
  cases move with
  | startRead idle =>
      simp only [Connection.read] at member
      split at member <;> simp_all
  | startWrite idle => simp at member
  | @moveRead _ position call conn call' moves _ found moved =>
      obtain ⟨inner, innerMember, same⟩ := List.mem_map.mp member
      cases same
      have point := moved.returned_event innerMember
      have owner := owned.owner index call found moved.opened
      refine ⟨?_, ?_⟩
      · intro index' other found' stillOpen
        rcases getElem?_set_cases found' with ⟨_, rfl⟩ | ⟨different, old⟩
        · exact stillOpen _ point
        · exact different (owned.unique index' index other call old stillOpen found moved.opened)
      · intro ready
        simpa using (moved.returned_state owner point).mpr ready
  | moveWrite _ _ _ => simp at member

/-- The message reports an error for the span it is given next. -/
def Refuses (conn : Connection) (call : WriteCall M) : Prop :=
  ∃ code complete numBytes out msg,
    (call.point = .fill ∧ MessageLike.produceHeaderSome call.msg
        (conn.writeBuffer.load conn.writeBuffer.writableSpan) =
      some ((some code, complete, numBytes), out, msg)) ∨
    (call.point = .fillBody ∧ MessageLike.produceBodySome call.msg
        (conn.writeBuffer.load conn.writeBuffer.writableSpan) =
      some ((some code, complete, numBytes), out, msg))

/-- The socket or its message makes the write fail. -/
def WriteFails (sys : System M) (choice : Choice M) (index : Nat) (call : WriteCall M) : Prop :=
  sys.writes[index]? = some call ∧
    ((∃ result, choice = .completeWrite index result ∧ (result.failed = true ∨ result.count = 0)) ∨
      (choice = .stepWrite index ∧ Refuses sys.conn call))

/-- A write fails only before its last flush, and only while it is alone. -/
def WriteFailureSafe (sys : System M) (choice : Choice M) : Prop :=
  ∀ index call, WriteFails sys choice index call →
    call.doneWrite = false ∧
      ∀ (other : Nat) (call' : WriteCall M), sys.writes[other]? = some call' → call'.open →
        other = index

theorem writeStep_refuses {conn conn' : Connection} {call call' : WriteCall M} {events code}
    (taken : conn.writeStep call = some (conn', call', events))
    (returned : .returned (some code) ∈ events) : Refuses conn call := by
  have move : WriteMove conn call conn' call' events := writeStep_move taken
  cases move with
  | headerRefused point _ _ reply => exact ⟨_, _, _, _, _, Or.inl ⟨point, reply⟩⟩
  | bodyRefused point _ reply => exact ⟨_, _, _, _, _, Or.inr ⟨point, reply⟩⟩
  | failed point | sent point => simp [Connection.writeStep, point] at taken
  | finish | again | headerProduced | headerSkipped | full | bodyPart | bodyComplete | bodySkipped
  | flushed | hand => simp at returned

omit [MessageLike M] in
theorem completeWrite_fails {conn conn' : Connection} {call call' : WriteCall M} {events code}
    {result : SocketWrite} (taken : conn.completeWrite call result = some (conn', call', events))
    (returned : .returned (some code) ∈ events) : result.failed = true ∨ result.count = 0 := by
  simp only [Connection.completeWrite] at taken
  split at taken
  · split at taken
    · split at taken
      · rename_i failed
        simpa using failed
      · cases taken
        simp at returned
    · simp at taken
  · simp at taken

theorem WriteMove.failed_state {conn conn' : Connection} {call call' : WriteCall M} {events code}
    (move : WriteMove conn call conn' call' events) (returned : .returned (some code) ∈ events) :
    conn'.writeState = conn.writeState := by
  cases move with
  | finish | headerRefused | bodyRefused | failed | again | headerSkipped | full | bodyPart
  | bodySkipped | flushed | hand | sent => rfl
  | headerProduced | bodyComplete => simp at returned

theorem SystemMove.writeFails {sys next : System M} {choice : Choice M} {events : List Event}
    (owned : WritesOwned sys) (safe : WriteFailureSafe sys choice)
    (move : SystemMove sys choice next events) (failed : WriteFailed events) : WriteDead next := by
  obtain ⟨index, code, member, notInvalid⟩ := failed
  cases move with
  | startRead idle => simp at member
  | startWrite idle =>
      simp only [Connection.write] at member
      split at member <;> simp_all
  | moveRead _ _ _ => simp at member
  | @moveWrite _ position call conn call' moves how found moved =>
      obtain ⟨inner, innerMember, same⟩ := List.mem_map.mp member
      cases same
      have point := moved.returned_event innerMember
      have fails : WriteFails sys choice index call := by
        refine ⟨found, ?_⟩
        rcases how with ⟨rfl, taken⟩ | ⟨result, rfl, taken⟩
        · exact Or.inr ⟨rfl, writeStep_refuses taken innerMember⟩
        · exact Or.inl ⟨result, rfl, completeWrite_fails taken innerMember⟩
      obtain ⟨notDone, alone⟩ := safe index call fails
      refine ⟨?_, ?_⟩
      · intro index' other found' stillOpen
        rcases getElem?_set_cases found' with ⟨_, rfl⟩ | ⟨different, old⟩
        · exact stillOpen _ point
        · exact different (alone index' other old stillOpen)
      · rw [moved.failed_state innerMember]
        exact (owned.owner index call found moved.opened).busy notDone

/-- What the events of a run say about the state it reached. -/
structure FailureTrace (events : List Event) (sys : System M) : Prop where
  reads : ReadsOwned sys
  writes : WritesOwned sys
  readDead : ReadFailed events → ReadDead sys
  writeDead : WriteFailed events → WriteDead sys

theorem FailureTrace.run {events : List Event} {sys : System M}
    (run : Run (System.Step WriteFailureSafe) System.init events sys) : FailureTrace events sys := by
  refine Run.invariant FailureTrace ⟨readsOwned_init, writesOwned_init, ?_, ?_⟩ ?_ run
  · rintro ⟨_, _, member, _⟩
    simp at member
  · rintro ⟨_, _, member, _⟩
    simp at member
  · rintro before state after next trace ⟨choice, safe, taken⟩
    have move := System.step_move taken
    refine ⟨move.readsOwned trace.reads, move.writesOwned trace.writes, ?_, ?_⟩
    · rintro ⟨index, code, member, notInvalid⟩
      rcases List.mem_append.mp member with old | new
      · exact ((trace.readDead ⟨index, code, old, notInvalid⟩).step move).1
      · exact move.readFails trace.reads ⟨index, code, new, notInvalid⟩
    · rintro ⟨index, code, member, notInvalid⟩
      rcases List.mem_append.mp member with old | new
      · exact ((trace.writeDead ⟨index, code, old, notInvalid⟩).step move).1
      · exact move.writeFails trace.writes safe ⟨index, code, new, notInvalid⟩

theorem ReadDead.run {condition : System M → Choice M → Prop} {sys last : System M} {events}
    (dead : ReadDead sys) (run : Run (System.Step condition) sys events last) :
    ReadDead last ∧ ∀ index event, .read index event ∈ events →
      event = .returned (some .invalidState) := by
  refine Run.invariant (fun events state => ReadDead state ∧ ∀ index event,
    .read index event ∈ events → event = .returned (some .invalidState)) ⟨dead, by simp⟩ ?_ run
  rintro before state after next ⟨still, quiet⟩ ⟨choice, _, taken⟩
  obtain ⟨still', quiet'⟩ := still.step (System.step_move taken)
  refine ⟨still', fun index event member => ?_⟩
  rcases List.mem_append.mp member with old | new
  · exact quiet index event old
  · exact quiet' index event new

theorem WriteDead.run {condition : System M → Choice M → Prop} {sys last : System M} {events}
    (dead : WriteDead sys) (run : Run (System.Step condition) sys events last) :
    WriteDead last ∧ ∀ index event, .write index event ∈ events →
      event = .returned (some .invalidState) := by
  refine Run.invariant (fun events state => WriteDead state ∧ ∀ index event,
    .write index event ∈ events → event = .returned (some .invalidState)) ⟨dead, by simp⟩ ?_ run
  rintro before state after next ⟨still, quiet⟩ ⟨choice, _, taken⟩
  obtain ⟨still', quiet'⟩ := still.step (System.step_move taken)
  refine ⟨still', fun index event member => ?_⟩
  rcases List.mem_append.mp member with old | new
  · exact quiet index event old
  · exact quiet' index event new

/-- After the failures among `events`, the later events of a failed direction are
rejections, and a call started in the state reached is rejected untouched. -/
structure FailStop (events later : List Event) (sys : System M) : Prop where
  reads : ReadFailed events →
    (∀ index event, .read index event ∈ later → event = .returned (some .invalidState)) ∧
    ∀ msg : M, sys.conn.read msg = (sys.conn, ⟨msg, false, .returned (some .invalidState)⟩,
      [.returned (some .invalidState)])
  writes : WriteFailed events →
    (∀ index event, .write index event ∈ later → event = .returned (some .invalidState)) ∧
    ∀ msg : M, sys.conn.write msg = (sys.conn, ⟨msg, false, .returned (some .invalidState)⟩,
      [.returned (some .invalidState)])

theorem failed_direction_stops (events later : List Event) (sys last : System M)
    (run : Run (System.Step WriteFailureSafe) System.init events sys)
    (rest : Run (System.Step WriteFailureSafe) sys later last) : FailStop events later last := by
  have trace := FailureTrace.run run
  constructor
  · intro failed
    obtain ⟨dead, quiet⟩ := (trace.readDead failed).run rest
    exact ⟨quiet, read_busy dead.busy⟩
  · intro failed
    obtain ⟨dead, quiet⟩ := (trace.writeDead failed).run rest
    exact ⟨quiet, write_busy dead.busy⟩

theorem failed_direction_stops_read : ∃ events later, ∃ last : System (BinaryMessage Blob),
    ReadFailed events ∧ later = [.read 1 (.returned (some .invalidState))] ∧
      FailStop events later last := by
  let first : List (Choice (BinaryMessage Blob)) :=
    [.startRead (.ofValue 0 ⟨[]⟩), .stepRead 0, .completeRead 0 ⟨false, []⟩]
  let second : List (Choice (BinaryMessage Blob)) := [.startRead (.ofValue 0 ⟨[]⟩)]
  have checked : (System.init.exec first).any (fun outcome =>
      decide (.read 0 (.returned (some .connectionEnded)) ∈ outcome.2) &&
        (outcome.1.exec second).any fun outcome' =>
          outcome'.2 == [.read 1 (.returned (some .invalidState))]) = true := by decide
  have safe : ∀ choice ∈ first ++ second, ∀ sys, WriteFailureSafe sys choice := by
    intro choice member sys index call fails
    rcases fails.2 with ⟨result, rfl, _⟩ | ⟨rfl, _⟩ <;> simp [first, second] at member
  obtain ⟨events, sys, run, passed⟩ := System.exec_checked WriteFailureSafe
    (fun choice member => safe choice (List.mem_append_left second member)) checked
  rw [Bool.and_eq_true, decide_eq_true_iff] at passed
  obtain ⟨later, last, rest, rejected⟩ := System.exec_checked WriteFailureSafe
    (fun choice member => safe choice (List.mem_append_right first member)) passed.2
  exact ⟨events, later, last, ⟨0, .connectionEnded, passed.1, by decide⟩, by simpa using rejected,
    failed_direction_stops events later sys last run rest⟩

/-- A write fails in its last flush, and the next one is accepted and sends what
the first has left. -/
theorem failed_write_resumed : ∃ events later, ∃ sys last : System (BinaryMessage Blob),
    Run (System.Step System.anyChoice) System.init events sys ∧
      Run (System.Step System.anyChoice) sys later last ∧ ¬ FailStop events later last := by
  let msg (byte : UInt8) : BinaryMessage Blob := ((BinaryMessage.ofValue 0 ⟨[byte]⟩).pack).2
  let first : List (Choice (BinaryMessage Blob)) :=
    [.startWrite (msg 1), .stepWrite 0, .stepWrite 0, .stepWrite 0, .stepWrite 0,
      .completeWrite 0 ⟨true, 0⟩]
  let second : List (Choice (BinaryMessage Blob)) :=
    [.startWrite (msg 2), .stepWrite 1, .stepWrite 1, .stepWrite 1, .stepWrite 1]
  have checked : (System.init.exec first).any (fun outcome =>
      decide (.write 0 (.returned (some .connectionEnded)) ∈ outcome.2) &&
        (outcome.1.exec second).any fun outcome' =>
          decide (.write 1 (.handed ⟨0, 22⟩) ∈ outcome'.2)) = true := by decide +kernel
  obtain ⟨events, sys, run, passed⟩ :=
    System.exec_checked System.anyChoice (fun _ _ _ => trivial) checked
  rw [Bool.and_eq_true, decide_eq_true_iff] at passed
  obtain ⟨later, last, rest, resumed⟩ :=
    System.exec_checked System.anyChoice (fun _ _ _ => trivial) passed.2
  refine ⟨events, later, sys, last, run, rest, ?_⟩
  intro stopped
  have rejected := (stopped.writes ⟨0, .connectionEnded, passed.1, by decide⟩).1
  have wrong := rejected 1 _ (of_decide_eq_true resumed)
  cases wrong

end CoServer
