import CoServer.Msgpack
import CoServer.SystemMoves

/-!
Reading conserves the stream: in every run, with any interleaving of calls, what
the messages acknowledged followed by what is buffered is what the socket
delivered.
-/

namespace CoServer

open Transition

def ReadEvent.acknowledged : ReadEvent → Bytes
  | .consumed _ offered numBytes => offered.take numBytes
  | _ => []

def ReadEvent.delivered : ReadEvent → Bytes
  | .received bytes => bytes
  | _ => []

def acknowledgedBytes (events : List Event) : Bytes :=
  events.flatMap fun
    | .read _ event => event.acknowledged
    | .write _ _ => []

def deliveredBytes (events : List Event) : Bytes :=
  events.flatMap fun
    | .read _ event => event.delivered
    | .write _ _ => []

/-- The event is an acknowledgement by the given call in the given phase. -/
def Event.Acks (event : Event) (index : Nat) (phase : Phase) : Prop :=
  ∃ offered numBytes, event = .read index (.consumed phase offered numBytes)

@[simp] theorem acknowledgedBytes_append (before after : List Event) :
    acknowledgedBytes (before ++ after) = acknowledgedBytes before ++ acknowledgedBytes after := by
  simp [acknowledgedBytes]

@[simp] theorem deliveredBytes_append (before after : List Event) :
    deliveredBytes (before ++ after) = deliveredBytes before ++ deliveredBytes after := by
  simp [deliveredBytes]

@[simp] theorem acknowledgedBytes_read (index : Nat) (events : List ReadEvent) :
    acknowledgedBytes (events.map (Event.read index)) = events.flatMap ReadEvent.acknowledged := by
  simp [acknowledgedBytes, List.flatMap_map]

@[simp] theorem deliveredBytes_read (index : Nat) (events : List ReadEvent) :
    deliveredBytes (events.map (Event.read index)) = events.flatMap ReadEvent.delivered := by
  simp [deliveredBytes, List.flatMap_map]

@[simp] theorem acknowledgedBytes_write (index : Nat) (events : List WriteEvent) :
    acknowledgedBytes (events.map (Event.write index)) = [] := by
  simp [acknowledgedBytes]

@[simp] theorem deliveredBytes_write (index : Nat) (events : List WriteEvent) :
    deliveredBytes (events.map (Event.write index)) = [] := by
  simp [deliveredBytes]

theorem not_acks_write {index position : Nat} {phase : Phase} {events : List WriteEvent}
    {event : Event} (member : event ∈ events.map (Event.write position)) :
    ¬ event.Acks index phase := by
  rintro ⟨offered, numBytes, rfl⟩
  simp at member

variable {M : Type}

/-- What holds of the events of a run and the state it reached. -/
structure ReadTrace (events : List Event) (sys : System M) : Prop where
  owned : ReadsOwned sys
  balance : acknowledgedBytes events ++ sys.conn.readBuffer.contents = deliveredBytes events
  known : ∀ index phase event, event ∈ events → event.Acks index phase → index < sys.reads.length
  inBody : ∀ (index : Nat) (call : ReadCall M) (event : Event), sys.reads[index]? = some call →
    call.open → event ∈ events → event.Acks index .body → sys.conn.readState ≠ .readHeader
  ordered : events.Pairwise fun earlier later =>
    ∀ index, earlier.Acks index .body → ¬ later.Acks index .header
  whole : ∀ index span, .read index (.requested span) ∈ events → span = ⟨0, 4096⟩

theorem ReadTrace.start : ReadTrace [] (System.init : System M) :=
  ⟨readsOwned_init, by simp [System.init, Connection.init, acknowledgedBytes, deliveredBytes],
    by simp, by simp, List.Pairwise.nil, by simp⟩

theorem ReadTrace.quiet {before after : List Event} {sys next : System M}
    (trace : ReadTrace before sys) (owned : ReadsOwned next)
    (nothing : acknowledgedBytes after = [] ∧ deliveredBytes after = [])
    (silent : ∀ event ∈ after, ∀ index phase, ¬ event.Acks index phase)
    (unasked : ∀ index span, .read index (.requested span) ∉ after)
    (contents : next.conn.readBuffer = sys.conn.readBuffer)
    (fewer : sys.reads.length ≤ next.reads.length)
    (open_ : ∀ (index : Nat) (call : ReadCall M), next.reads[index]? = some call → call.open →
      index < sys.reads.length →
      sys.reads[index]? = some call ∧ next.conn.readState = sys.conn.readState) :
    ReadTrace (before ++ after) next := by
  refine ⟨owned, ?_, ?_, ?_, ?_, ?_⟩
  · simpa [nothing.1, nothing.2, contents] using trace.balance
  · intro index phase event member acks
    rcases List.mem_append.mp member with old | new
    · exact Nat.lt_of_lt_of_le (trace.known index phase event old acks) fewer
    · exact (silent event new index phase acks).elim
  · intro index call event found stillOpen member acks
    rcases List.mem_append.mp member with old | new
    · obtain ⟨found', state⟩ := open_ index call found stillOpen (trace.known _ _ _ old acks)
      rw [state]
      exact trace.inBody index call event found' stillOpen old acks
    · exact (silent event new index _ acks).elim
  · refine List.pairwise_append.mpr ⟨trace.ordered, ?_, ?_⟩
    · refine List.pairwise_of_forall_mem_list fun earlier member _ _ index acks => ?_
      exact (silent earlier member index _ acks).elim
    · intro _ _ later member index _ acks
      exact silent later member index _ acks
  · intro index span member
    rcases List.mem_append.mp member with old | new
    · exact trace.whole index span old
    · exact (unasked index span new).elim

variable [MessageLike M]

/-- Both consume functions report at most as many bytes as they were offered. -/
def ConsumesWithin (M : Type) [MessageLike M] : Prop :=
  ∀ (msg msg' : M) (offered : Bytes) (err : Error) (complete : Bool) (numBytes : Nat),
    MessageLike.consumeHeaderSome msg offered = some ((err, complete, numBytes), msg') ∨
      MessageLike.consumeBodySome msg offered = some ((err, complete, numBytes), msg') →
    numBytes ≤ offered.length

theorem BinaryMessage.consumesWithin (T : Type) : ConsumesWithin (BinaryMessage T) := by
  intro msg msg' offered err complete numBytes reply
  rcases reply with reply | reply
  · cases reply
    exact Nat.min_le_left _ _
  · simp only [MessageLike.consumeBodySome] at reply
    split at reply
    · obtain ⟨buffer, _, same⟩ := Option.map_eq_some_iff.mp reply
      cases same
      exact Nat.min_le_left _ _
    · cases reply

theorem ReadMove.balance {conn conn' : Connection} {call call' : ReadCall M} {events}
    (honest : ConsumesWithin M) (move : ReadMove conn call conn' call' events)
    (owner : ReadOwner conn call) (settled : conn.readBuffer.Settled) :
    conn.readBuffer.contents ++ events.flatMap ReadEvent.delivered =
      events.flatMap ReadEvent.acknowledged ++ conn'.readBuffer.contents := by
  have taken : ∀ numBytes, numBytes ≤ conn.readBuffer.contents.length →
      conn.readBuffer.contents =
        conn.readBuffer.contents.take numBytes ++ (conn.readBuffer.consume numBytes).contents := by
    intro numBytes within
    rw [StaticBuffer.consume_offered (by decide) _ within, List.take_append_drop]
  cases move with
  | finish | request | enter | leave | headerRefused | headerSkipped | bodyRefused | bodySkipped =>
      simp [ReadEvent.acknowledged, ReadEvent.delivered]
  | headerConsumed _ _ _ reply =>
      simpa [ReadEvent.acknowledged, ReadEvent.delivered] using
        taken _ (honest _ _ _ _ _ _ (Or.inl reply))
  | bodyPart _ _ reply | bodyComplete _ _ reply =>
      simpa [ReadEvent.acknowledged, ReadEvent.delivered] using
        taken _ (honest _ _ _ _ _ _ (Or.inr reply))
  | ended point =>
      have waiting := owner.waiting _ point
      simp [ReadEvent.acknowledged, ReadEvent.delivered, waiting.2, StaticBuffer.fill_contents]
  | received point within =>
      have waiting := owner.waiting _ point
      rw [waiting.2] at within ⊢
      have start := settled waiting.1
      simp only [List.flatMap_cons, List.flatMap_nil, ReadEvent.delivered, ReadEvent.acknowledged,
        List.append_nil, List.nil_append]
      exact (StaticBuffer.commit_readable (by simpa [StaticBuffer.writableSpan] using within)).symm

theorem ReadMove.phases {conn conn' : Connection} {call call' : ReadCall M} {events}
    (move : ReadMove conn call conn' call' events) :
    (∀ offered numBytes, .consumed .header offered numBytes ∈ events →
      conn.readState = .readHeader ∧ ∀ offered' numBytes', .consumed .body offered' numBytes' ∉ events) ∧
    (∀ offered numBytes, .consumed .body offered numBytes ∈ events →
      conn'.readState ≠ .readHeader) ∧
    (conn.readState ≠ .readHeader → conn'.readState ≠ .readHeader) := by
  cases move <;> simp_all

theorem ReadMove.requested_whole {conn conn' : Connection} {call call' : ReadCall M} {events span}
    (move : ReadMove conn call conn' call' events) (settled : conn.readBuffer.Settled)
    (requested : .requested span ∈ events) : span = ⟨0, 4096⟩ := by
  cases move with
  | request _ _ nothing =>
      simp only [List.mem_singleton, ReadEvent.requested.injEq] at requested
      simp [requested, StaticBuffer.writableSpan, settled nothing]
  | finish | enter | leave | headerRefused | headerConsumed | headerSkipped | bodyRefused | bodyPart
  | bodyComplete | bodySkipped | ended | received => simp at requested

omit [MessageLike M] in
theorem ReadTrace.startRead {before : List Event} {sys : System M} {msg : M}
    (trace : ReadTrace before sys) (idle : sys.idle = true)
    (owned : ReadsOwned
      { sys with conn := (sys.conn.read msg).1, reads := sys.reads ++ [(sys.conn.read msg).2.1] }) :
    ReadTrace (before ++ (sys.conn.read msg).2.2.map (Event.read sys.reads.length))
      { sys with conn := (sys.conn.read msg).1, reads := sys.reads ++ [(sys.conn.read msg).2.1] } := by
  have events : ∀ event ∈ (sys.conn.read msg).2.2, ∃ err, event = .returned err := by
    intro event member
    simp only [Connection.read] at member
    split at member <;> simp_all
  refine trace.quiet owned ?_ ?_ ?_ (Connection.read_readBuffer sys.conn msg) (by simp) ?_
  · simp only [acknowledgedBytes_read, deliveredBytes_read, List.flatMap_eq_nil_iff]
    constructor <;> intro event member <;> obtain ⟨err, rfl⟩ := events event member <;> rfl
  · rintro event member index phase ⟨offered, numBytes, rfl⟩
    obtain ⟨inner, innerMember, same⟩ := List.mem_map.mp member
    obtain ⟨err, rfl⟩ := events inner innerMember
    simp at same
  · intro index span member
    obtain ⟨inner, innerMember, same⟩ := List.mem_map.mp member
    obtain ⟨err, rfl⟩ := events inner innerMember
    simp at same
  · intro index call found stillOpen bound
    rcases getElem?_append_one found with old | ⟨same, _⟩
    · exact ⟨old, by rw [trace.owned.read_same idle old stillOpen msg]⟩
    · omega

theorem ReadTrace.moveRead {before : List Event} {sys : System M} {index : Nat} {call call' : ReadCall M}
    {conn : Connection} {events : List ReadEvent} (honest : ConsumesWithin M)
    (trace : ReadTrace before sys) (found : sys.reads[index]? = some call)
    (moved : ReadMove sys.conn call conn call' events)
    (owned : ReadsOwned { sys with conn := conn, reads := sys.reads.set index call' }) :
    ReadTrace (before ++ events.map (Event.read index))
      { sys with conn := conn, reads := sys.reads.set index call' } := by
  have owner := trace.owned.owner index call found moved.opened
  have phases := moved.phases
  have bound : index < sys.reads.length := (List.getElem?_eq_some_iff.mp found).1
  -- an acknowledgement among the new events comes from the moving call
  have mine : ∀ position phase event, event ∈ events.map (Event.read index) →
      event.Acks position phase →
      position = index ∧ ∃ offered numBytes, .consumed phase offered numBytes ∈ events := by
    rintro position phase event member ⟨offered, numBytes, rfl⟩
    obtain ⟨inner, innerMember, same⟩ := List.mem_map.mp member
    cases same
    exact ⟨rfl, offered, numBytes, innerMember⟩
  refine ⟨owned, ?_, ?_, ?_, ?_, ?_⟩
  · have balance := moved.balance honest owner trace.owned.settled
    simp only [acknowledgedBytes_append, deliveredBytes_append, acknowledgedBytes_read,
      deliveredBytes_read, List.append_assoc]
    rw [← balance, ← List.append_assoc, trace.balance]
  · intro position phase event member acks
    rw [List.length_set]
    rcases List.mem_append.mp member with old | new
    · exact trace.known position phase event old acks
    · rw [(mine position phase event new acks).1]
      exact bound
  · intro position other event found' stillOpen member acks
    rcases getElem?_set_cases found' with ⟨rfl, rfl⟩ | ⟨different, old⟩
    · rcases List.mem_append.mp member with old | new
      · exact phases.2.2 (trace.inBody _ call event found moved.opened old acks)
      · obtain ⟨offered, numBytes, inner⟩ := (mine _ _ event new acks).2
        exact phases.2.1 offered numBytes inner
    · exact (different (trace.owned.unique position index other call old stillOpen found
        moved.opened)).elim
  · refine List.pairwise_append.mpr ⟨trace.ordered, ?_, ?_⟩
    · refine List.pairwise_of_forall_mem_list ?_
      intro earlier member later member' position acks acks'
      obtain ⟨_, offered, numBytes, inner⟩ := mine _ _ _ member acks
      obtain ⟨_, offered', numBytes', inner'⟩ := mine _ _ _ member' acks'
      exact (phases.1 offered' numBytes' inner').2 offered numBytes inner
    · intro earlier member later member' position acks acks'
      obtain ⟨rfl, offered, numBytes, inner⟩ := mine _ _ _ member' acks'
      exact trace.inBody _ call earlier found moved.opened member acks
        (phases.1 offered numBytes inner).1
  · intro position span member
    rcases List.mem_append.mp member with old | new
    · exact trace.whole position span old
    · obtain ⟨inner, innerMember, same⟩ := List.mem_map.mp new
      cases same
      exact moved.requested_whole trace.owned.settled innerMember

theorem ReadTrace.step {before after : List Event} {sys next : System M} {choice : Choice M}
    (honest : ConsumesWithin M) (trace : ReadTrace before sys)
    (taken : sys.step choice = some (next, after)) : ReadTrace (before ++ after) next := by
  have move := System.step_move taken
  have owned := move.readsOwned trace.owned
  cases move with
  | startRead idle => exact trace.startRead idle owned
  | @startWrite msg idle =>
      exact trace.quiet owned ⟨by simp, by simp⟩
        (fun event member _ _ => not_acks_write member)
        (by simp) (Connection.write_readBuffer sys.conn msg) (Nat.le_refl _)
        (fun index call found _ _ => ⟨found, Connection.write_readState sys.conn msg⟩)
  | @moveWrite _ index call conn call' events _ found moved =>
      exact trace.quiet owned ⟨by simp, by simp⟩
        (fun event member _ _ => not_acks_write member)
        (by simp) moved.reads.1 (Nat.le_refl _) (fun _ _ found' _ _ => ⟨found', moved.reads.2⟩)
  | moveRead _ found moved => exact trace.moveRead honest found moved owned

theorem ReadTrace.run {events : List Event} {sys : System M} (honest : ConsumesWithin M)
    (run : Run (System.Step System.anyChoice) System.init events sys) : ReadTrace events sys := by
  refine Run.invariant ReadTrace ReadTrace.start ?_ run
  rintro before state after next trace ⟨choice, _, taken⟩
  exact trace.step honest taken

/-- The stream conservation of a reached state: nothing lost, duplicated or
reordered, header before body, whole buffers only, and exclusive calls. -/
structure StreamConserved (events : List Event) (sys : System M) : Prop where
  balance : acknowledgedBytes events ++ sys.conn.readBuffer.contents = deliveredBytes events
  headerFirst : events.Pairwise fun earlier later =>
    ∀ index, earlier.Acks index .body → ¬ later.Acks index .header
  whole : ∀ index span, .read index (.requested span) ∈ events → span = ⟨0, 4096⟩
  waiting : ∀ (index : Nat) (call : ReadCall M) span, sys.reads[index]? = some call →
    call.point = .suspended span → sys.conn.readBuffer.contents = [] ∧ span = ⟨0, 4096⟩
  exclusive : ∀ (index : Nat) (call : ReadCall M) span (msg : M),
    sys.reads[index]? = some call → call.point = .suspended span →
    sys.conn.read msg = (sys.conn, ⟨msg, false, .returned (some .invalidState)⟩,
      [.returned (some .invalidState)])

theorem read_conserves_stream (honest : ConsumesWithin M) (events : List Event) (sys : System M)
    (run : Run (System.Step System.anyChoice) System.init events sys) :
    StreamConserved events sys := by
  have trace := ReadTrace.run honest run
  refine ⟨trace.balance, trace.ordered, trace.whole, ?_, ?_⟩
  · intro index call span found point
    have waiting := (trace.owned.owner index call found (by simp [ReadCall.open, point])).waiting _ point
    refine ⟨waiting.1, ?_⟩
    simp [waiting.2, StaticBuffer.writableSpan, trace.owned.settled waiting.1]
  · intro index call span msg found point
    have owner := trace.owned.owner index call found (by simp [ReadCall.open, point])
    simp [Connection.read, (owner.busy point (by simp)).2]

/-- A second read while the first is suspended, and a byte left for a third. -/
theorem read_conserves_stream_overlap : ∃ events, ∃ sys : System (BinaryMessage Blob),
    acknowledgedBytes events = [0, 0, 0, 0, 0, 0, 0, 1, 7] ∧
      deliveredBytes events = [0, 0, 0, 0, 0, 0, 0, 1, 7, 9] ∧ StreamConserved events sys := by
  let choices : List (Choice (BinaryMessage Blob)) :=
    [.startRead (.ofValue 0 ⟨[]⟩), .stepRead 0, .startRead (.ofValue 0 ⟨[]⟩),
      .completeRead 0 ⟨false, [0, 0, 0, 0, 0, 0, 0, 1, 7, 9]⟩, .stepRead 0, .stepRead 0, .stepRead 0]
  have checked : (System.init.exec choices).any (fun outcome =>
      acknowledgedBytes outcome.2 == [0, 0, 0, 0, 0, 0, 0, 1, 7] &&
        deliveredBytes outcome.2 == [0, 0, 0, 0, 0, 0, 0, 1, 7, 9]) = true := by decide
  obtain ⟨events, sys, run, passed⟩ :=
    System.exec_checked System.anyChoice (fun _ _ _ => trivial) checked
  rw [Bool.and_eq_true, beq_iff_eq, beq_iff_eq] at passed
  exact ⟨events, sys, passed.1, passed.2,
    read_conserves_stream (BinaryMessage.consumesWithin Blob) events sys run⟩

end CoServer
