import CoServer.FailStop

/-!
Mutual exclusion of writes and the stream they make, in every run in which no
write starts during the last flush of another.
-/

namespace CoServer

open Transition

def WriteEvent.producedBytes : WriteEvent → Bytes
  | .produced _ bytes => bytes
  | _ => []

def sentBytes (events : List Event) : Bytes :=
  events.flatMap fun
    | .read _ _ => []
    | .write _ event => event.sentBytes

def producedBy (index : Nat) (events : List Event) : Bytes :=
  events.flatMap fun
    | .read _ _ => []
    | .write position event => if position = index then event.producedBytes else []

@[simp] theorem sentBytes_append (before after : List Event) :
    sentBytes (before ++ after) = sentBytes before ++ sentBytes after := by
  simp [sentBytes]

@[simp] theorem producedBy_append (index : Nat) (before after : List Event) :
    producedBy index (before ++ after) = producedBy index before ++ producedBy index after := by
  simp [producedBy]

@[simp] theorem sentBytes_read (index : Nat) (events : List ReadEvent) :
    sentBytes (events.map (Event.read index)) = [] := by
  simp [sentBytes]

@[simp] theorem sentBytes_write (index : Nat) (events : List WriteEvent) :
    sentBytes (events.map (Event.write index)) = events.flatMap WriteEvent.sentBytes := by
  simp [sentBytes, List.flatMap_map]

@[simp] theorem producedBy_read (index position : Nat) (events : List ReadEvent) :
    producedBy index (events.map (Event.read position)) = [] := by
  simp [producedBy]

theorem producedBy_write (index position : Nat) (events : List WriteEvent) :
    producedBy index (events.map (Event.write position)) =
      if position = index then events.flatMap WriteEvent.producedBytes else [] := by
  by_cases same : position = index
  · simp [producedBy, List.flatMap_map, same]
  · simp [producedBy, same]

theorem producedBy_unknown {index : Nat} {events : List Event}
    (unknown : ∀ event, .write index event ∉ events) : producedBy index events = [] := by
  rw [producedBy, List.flatMap_eq_nil_iff]
  intro event member
  cases event with
  | read _ _ => rfl
  | write position event =>
      have different : position ≠ index := by
        rintro rfl
        exact unknown event member
      simp [different]

theorem flatMap_range_extend {α : Type} (blocks blocks' : Nat → List α) (more : List α)
    (index count : Nat) (bound : index < count) (mine : blocks' index = blocks index ++ more)
    (others : ∀ position, position ≠ index → blocks' position = blocks position)
    (later : ∀ position, index < position → blocks position = []) :
    (List.range count).flatMap blocks' = (List.range count).flatMap blocks ++ more := by
  induction count with
  | zero => omega
  | succ count ih =>
      simp only [List.range_succ, List.flatMap_append, List.flatMap_cons, List.flatMap_nil,
        List.append_nil]
      by_cases last : index = count
      · subst last
        have before : (List.range index).flatMap blocks' = (List.range index).flatMap blocks := by
          refine List.flatMap_congr fun position member => others position ?_
          exact Nat.ne_of_lt (List.mem_range.mp member)
        rw [before, mine, List.append_assoc]
      · rw [ih (by omega), others count (fun same => last same.symm), later count (by omega)]
        simp

variable {M : Type}

/-- No write starts while another is in its last flush. -/
def StartsAlone (sys : System M) : Choice M → Prop
  | .startWrite _ => ∀ (index : Nat) (call : WriteCall M), sys.writes[index]? = some call →
      call.open → call.doneWrite = false
  | _ => True

def SocketAccepts : Choice M → Prop
  | .completeWrite _ result => result.failed = false ∧ 0 < result.count
  | _ => True

def ExclusiveStep (sys : System M) (choice : Choice M) : Prop :=
  StartsAlone sys choice ∧ SocketAccepts choice

/-- The state a write keeps at each of its points when no other is open. -/
structure SoleWriter (conn : Connection) (call : WriteCall M) : Prop where
  owner : WriteOwner conn call
  flag : call.doneWrite = true → conn.writeState = .start
  waiting : ∀ span, call.point = .suspended span → span = conn.writeBuffer.readableSpan
  looping : call.point = .loop → conn.writeBuffer.contents = []

variable [MessageLike M]

theorem WriteMove.soleWriter {conn conn' : Connection} {call call' : WriteCall M} {events}
    (move : WriteMove conn call conn' call' events) (sole : SoleWriter conn call)
    (remains : call'.open) : SoleWriter conn' call' := by
  refine ⟨move.owner sole.owner remains, ?_, ?_, ?_⟩
  · intro done
    cases move with
    | headerProduced point => simp [sole.owner.filling (Or.inl point)] at done
    | bodyComplete => rfl
    | finish | again | headerRefused | headerSkipped | full | bodyRefused | bodyPart | bodySkipped
    | flushed | hand | failed | sent => exact sole.flag done
  · intro span point
    cases move <;> simp_all
  · intro point
    cases move <;> simp_all

theorem WriteMove.balance {conn conn' : Connection} {call call' : WriteCall M} {events}
    (move : WriteMove conn call conn' call' events) (sole : SoleWriter conn call)
    (accepted : ∀ code, .returned (some code) ∈ events → ∃ phase, .refused phase ∈ events) :
    conn.writeBuffer.contents ++ events.flatMap WriteEvent.producedBytes =
      events.flatMap WriteEvent.sentBytes ++ conn'.writeBuffer.contents := by
  cases move with
  | finish | again | headerSkipped | full | bodySkipped | flushed | hand =>
      simp [WriteEvent.producedBytes, WriteEvent.sentBytes]
  | headerRefused | bodyRefused =>
      simp [WriteEvent.producedBytes, WriteEvent.sentBytes, StaticBuffer.fill_contents]
  | headerProduced | bodyPart | bodyComplete =>
      simp [WriteEvent.producedBytes, WriteEvent.sentBytes, StaticBuffer.fill_contents,
        StaticBuffer.commit_contents]
  | failed =>
      obtain ⟨phase, impossible⟩ := accepted _ (List.mem_cons_of_mem _ (List.mem_singleton.mpr rfl))
      simp at impossible
  | @sent span result point within =>
      have waiting := sole.waiting span point
      have fits : result.count ≤ conn.writeBuffer.size := by
        simpa [waiting, StaticBuffer.readableSpan, StaticBuffer.size] using within
      have front : conn.writeBuffer.load ⟨span.position, result.count⟩ =
          conn.writeBuffer.contents.take result.count := by
        rw [StaticBuffer.contents, StaticBuffer.load, StaticBuffer.load, Splice.window_take, waiting]
        congr 1
        simp only [StaticBuffer.readableSpan, StaticBuffer.size] at fits ⊢
        omega
      simp [WriteEvent.producedBytes, WriteEvent.sentBytes, front,
        StaticBuffer.consume_contents (by decide) _ fits]

/-- What holds of the events of an exclusive run and the state it reached. When no
write is open the buffer is empty, unless a message has reported an error. -/
structure WriteTrace (events : List Event) (sys : System M) : Prop where
  sole : ∀ (index : Nat) (call : WriteCall M), sys.writes[index]? = some call → call.open →
    SoleWriter sys.conn call
  unique : ∀ (first second : Nat) (call other : WriteCall M), sys.writes[first]? = some call →
    call.open → sys.writes[second]? = some other → other.open → first = second
  rest : (∀ (index : Nat) (call : WriteCall M), sys.writes[index]? = some call → ¬ call.open) →
    (sys.conn.writeState = .start ∧ sys.conn.writeBuffer.contents = []) ∨
      (sys.conn.writeState ≠ .start ∧ ∃ index phase, .write index (.refused phase) ∈ events ∧
        sys.conn.writeBuffer.contents.length ≤ (producedBy index events).length)
  known : ∀ index event, .write index event ∈ events → index < sys.writes.length
  last : ∀ (index : Nat) (call : WriteCall M), sys.writes[index]? = some call → call.open →
    ∀ position, index < position → producedBy position events = []
  within : ∀ (index : Nat) (call : WriteCall M), sys.writes[index]? = some call → call.open →
    sys.conn.writeBuffer.contents.length ≤ (producedBy index events).length
  balance : sentBytes events ++ sys.conn.writeBuffer.contents =
    (List.range sys.writes.length).flatMap fun index => producedBy index events
  failed : ∀ (index : Nat) (call : WriteCall M) code, sys.writes[index]? = some call →
    call.point = .returned (some code) →
    producedBy index events = [] ∨ ∃ phase, .write index (.refused phase) ∈ events

omit [MessageLike M] in
theorem WriteTrace.start : WriteTrace [] (System.init : System M) := by
  constructor <;> simp [System.init, Connection.init, sentBytes]

omit [MessageLike M] in
theorem WriteTrace.quiet {before : List Event} {sys next : System M} {index : Nat}
    {moves : List ReadEvent} (trace : WriteTrace before sys)
    (half : next.conn.writeBuffer = sys.conn.writeBuffer ∧
      next.conn.writeState = sys.conn.writeState)
    (same : next.writes = sys.writes) :
    WriteTrace (before ++ moves.map (Event.read index)) next := by
  have member : ∀ position event, .write position event ∈ before ++ moves.map (Event.read index) ↔
      .write position event ∈ before := by
    simp
  constructor
  · intro position call found stillOpen
    have sole := trace.sole position call (same ▸ found) stillOpen
    exact ⟨⟨by simpa only [half] using sole.owner.busy, sole.owner.done⟩,
      by simpa only [half] using sole.flag, by simpa only [half] using sole.waiting,
      by simpa only [half] using sole.looping⟩
  · simpa only [same] using trace.unique
  · simpa only [same, half, member, producedBy_append, producedBy_read, List.append_nil] using
      trace.rest
  · simpa only [same, member] using trace.known
  · simpa only [same, producedBy_append, producedBy_read, List.append_nil] using trace.last
  · simpa only [same, half, producedBy_append, producedBy_read, List.append_nil] using trace.within
  · simpa only [same, half, producedBy_append, producedBy_read, List.append_nil, sentBytes_append,
      sentBytes_read] using trace.balance
  · simpa only [same, member, producedBy_append, producedBy_read, List.append_nil] using trace.failed

omit [MessageLike M] in
theorem WriteTrace.fresh {events : List Event} {sys : System M} (trace : WriteTrace events sys) :
    producedBy sys.writes.length events = [] :=
  producedBy_unknown fun _ member => Nat.lt_irrefl _ (trace.known _ _ member)

omit [MessageLike M] in
theorem WriteTrace.accept {before : List Event} {sys : System M} {msg : M}
    (trace : WriteTrace before sys) (alone : StartsAlone sys (.startWrite msg))
    (ready : sys.conn.writeState = .start) :
    WriteTrace before
      { sys with
        conn := { sys.conn with writeState := .writeHeader }
        writes := sys.writes ++ [⟨msg, false, .loop⟩] } := by
  have closed : ∀ (index : Nat) (call : WriteCall M), sys.writes[index]? = some call →
      ¬ call.open := by
    intro index call found stillOpen
    exact (trace.sole index call found stillOpen).owner.busy
      (alone index call found stillOpen) ready
  have nothing : sys.conn.writeBuffer.contents = [] := by
    rcases trace.rest closed with rest | rest
    · exact rest.2
    · exact (rest.1 ready).elim
  have newest : ∀ (index : Nat) (call : WriteCall M),
      (sys.writes ++ [(⟨msg, false, .loop⟩ : WriteCall M)])[index]? = some call → call.open →
      index = sys.writes.length ∧ call = ⟨msg, false, .loop⟩ := by
    intro index call found stillOpen
    rcases getElem?_append_one found with old | new
    · exact (closed index call old stillOpen).elim
    · exact new
  constructor
  · intro index call found stillOpen
    obtain ⟨_, rfl⟩ := newest index call found stillOpen
    exact ⟨⟨by simp, by simp⟩, by simp, by simp, fun _ => nothing⟩
  · intro first second call other found stillOpen found' stillOpen'
    rw [(newest _ _ found stillOpen).1, (newest _ _ found' stillOpen').1]
  · intro none
    exact (none sys.writes.length ⟨msg, false, .loop⟩ (by simp) (by simp [WriteCall.open])).elim
  · intro index event member
    have bound := trace.known index event member
    simp only [List.length_append, List.length_singleton]
    omega
  · intro index call found stillOpen position later
    obtain ⟨rfl, _⟩ := newest index call found stillOpen
    refine producedBy_unknown fun event member => ?_
    have bound := trace.known _ _ member
    omega
  · intro index call found stillOpen
    simp [nothing]
  · simpa [List.range_succ, trace.fresh] using trace.balance
  · intro index call code found point
    rcases getElem?_append_one found with old | ⟨_, rfl⟩
    · exact trace.failed index call code old point
    · simp at point

omit [MessageLike M] in
theorem WriteTrace.reject {before : List Event} {sys : System M} {msg : M}
    (trace : WriteTrace before sys) (busy : sys.conn.writeState ≠ .start) :
    WriteTrace (before ++ [.write sys.writes.length (.returned (some .invalidState))])
      { sys with writes := sys.writes ++ [⟨msg, false, .returned (some .invalidState)⟩] } := by
  have silent : ∀ index, producedBy index
      [.write sys.writes.length (.returned (some .invalidState))] = [] := by
    simp [producedBy, WriteEvent.producedBytes]
  constructor
  · intro index call found stillOpen
    exact trace.sole index call (WriteCall.open_earlier found stillOpen) stillOpen
  · intro first second call other found stillOpen found' stillOpen'
    exact trace.unique first second call other (WriteCall.open_earlier found stillOpen) stillOpen
      (WriteCall.open_earlier found' stillOpen') stillOpen'
  · intro closed
    refine Or.inr ⟨busy, ?_⟩
    rcases trace.rest fun index call found => closed index call (by
        rw [List.getElem?_append_left (List.getElem?_eq_some_iff.mp found).1]
        exact found) with rest | ⟨_, index, phase, member, bound⟩
    · exact (busy rest.1).elim
    · exact ⟨index, phase, List.mem_append_left _ member, by simpa [silent] using bound⟩
  · intro index event member
    simp only [List.length_append, List.length_singleton]
    rcases List.mem_append.mp member with before | after
    · have bound := trace.known index event before
      omega
    · simp at after
      omega
  · intro index call found stillOpen position later
    simpa [silent] using
      trace.last index call (WriteCall.open_earlier found stillOpen) stillOpen position later
  · intro index call found stillOpen
    simpa [silent] using trace.within index call (WriteCall.open_earlier found stillOpen) stillOpen
  · have balance := trace.balance
    have unsent : sentBytes [.write sys.writes.length (.returned (some .invalidState))] = [] := rfl
    simpa [silent, List.range_succ, trace.fresh, unsent] using balance
  · intro index call code found point
    rcases getElem?_append_one found with old | ⟨rfl, rfl⟩
    · rcases trace.failed index call code old point with nothing | ⟨phase, member⟩
      · exact Or.inl (by simpa [silent] using nothing)
      · exact Or.inr ⟨phase, List.mem_append_left _ member⟩
    · exact Or.inl (by simp [silent, trace.fresh])

omit [MessageLike M] in
theorem WriteTrace.startWrite {before : List Event} {sys : System M} {msg : M}
    (trace : WriteTrace before sys) (alone : StartsAlone sys (.startWrite msg)) :
    WriteTrace (before ++ (sys.conn.write msg).2.2.map (Event.write sys.writes.length))
      { sys with
        conn := (sys.conn.write msg).1
        writes := sys.writes ++ [(sys.conn.write msg).2.1] } := by
  by_cases ready : sys.conn.writeState = .start
  · simp only [Connection.write, ready, ne_eq, not_true_eq_false, ↓reduceIte, List.map_nil,
      List.append_nil]
    exact trace.accept alone ready
  · rw [write_busy ready]
    exact trace.reject ready

theorem WriteMove.refused_event {conn conn' : Connection} {call call' : WriteCall M} {events code}
    (move : WriteMove conn call conn' call' events)
    (accepted : ∀ code, .returned (some code) ∈ events → ∃ phase, .refused phase ∈ events)
    (point : call'.point = .returned (some code)) : ∃ phase, .refused phase ∈ events := by
  refine accepted code ?_
  cases move <;> simp_all

theorem WriteMove.rest {conn conn' : Connection} {call call' : WriteCall M} {events err}
    (move : WriteMove conn call conn' call' events) (sole : SoleWriter conn call)
    (point : call'.point = .returned err) :
    (err = none ∧ conn'.writeState = .start ∧ conn'.writeBuffer.contents = []) ∨
      ((∃ code, err = some code) ∧ (conn'.writeState ≠ .start ∨ call.doneWrite = true)) := by
  cases move with
  | finish loop done =>
      cases point
      exact Or.inl ⟨rfl, sole.flag done, sole.looping loop⟩
  | headerRefused filling =>
      cases point
      exact Or.inr ⟨⟨_, rfl⟩, Or.inl (sole.owner.busy (sole.owner.filling (Or.inl filling)))⟩
  | bodyRefused filling =>
      cases point
      exact Or.inr ⟨⟨_, rfl⟩, Or.inl (sole.owner.busy (sole.owner.filling (Or.inr filling)))⟩
  | failed =>
      cases point
      by_cases done : call.doneWrite = true
      · exact Or.inr ⟨⟨_, rfl⟩, Or.inr done⟩
      · exact Or.inr ⟨⟨_, rfl⟩, Or.inl (sole.owner.busy (by simpa using done))⟩
  | again | headerProduced | headerSkipped | full | bodyPart | bodyComplete | bodySkipped | flushed
  | hand | sent => simp at point

theorem WriteMove.refused_filling {conn conn' : Connection} {call call' : WriteCall M}
    {events phase} (move : WriteMove conn call conn' call' events)
    (refused : .refused phase ∈ events) :
    (call.point = .fill ∨ call.point = .fillBody) ∧
      events.flatMap WriteEvent.producedBytes = [] ∧ events.flatMap WriteEvent.sentBytes = [] := by
  cases move with
  | headerRefused point =>
      exact ⟨Or.inl point, by simp [WriteEvent.producedBytes], by simp [WriteEvent.sentBytes]⟩
  | bodyRefused point =>
      exact ⟨Or.inr point, by simp [WriteEvent.producedBytes], by simp [WriteEvent.sentBytes]⟩
  | finish | again | headerProduced | headerSkipped | full | bodyPart | bodyComplete | bodySkipped
  | flushed | hand | failed | sent => simp at refused

theorem WriteTrace.moveWrite {before : List Event} {sys : System M} {index : Nat}
    {call call' : WriteCall M} {conn : Connection} {events : List WriteEvent}
    (trace : WriteTrace before sys) (found : sys.writes[index]? = some call)
    (moved : WriteMove sys.conn call conn call' events)
    (accepted : ∀ code, .returned (some code) ∈ events → ∃ phase, .refused phase ∈ events) :
    WriteTrace (before ++ events.map (Event.write index))
      { sys with conn := conn, writes := sys.writes.set index call' } := by
  have sole := trace.sole index call found moved.opened
  have bound : index < sys.writes.length := (List.getElem?_eq_some_iff.mp found).1
  have balance := moved.balance sole accepted
  have mine : producedBy index (before ++ events.map (Event.write index)) =
      producedBy index before ++ events.flatMap WriteEvent.producedBytes := by
    rw [producedBy_append, producedBy_write, if_pos rfl]
  have others : ∀ position, position ≠ index →
      producedBy position (before ++ events.map (Event.write index)) = producedBy position before := by
    intro position different
    rw [producedBy_append, producedBy_write, if_neg (Ne.symm different), List.append_nil]
  have onlyMine : ∀ (position : Nat) (other : WriteCall M),
      (sys.writes.set index call')[position]? = some other → other.open →
      position = index ∧ other = call' := by
    intro position other found' stillOpen
    rcases getElem?_set_cases found' with ⟨rfl, rfl⟩ | ⟨different, old⟩
    · exact ⟨rfl, rfl⟩
    · exact (different (trace.unique position index other call old stillOpen found
        moved.opened)).elim
  have buffered : conn.writeBuffer.contents.length ≤
      (producedBy index (before ++ events.map (Event.write index))).length := by
    have held := trace.within index call found moved.opened
    have lengths := congrArg List.length balance
    simp only [mine, List.length_append] at lengths ⊢
    omega
  constructor
  · intro position other found' stillOpen
    obtain ⟨rfl, rfl⟩ := onlyMine position other found' stillOpen
    exact moved.soleWriter sole stillOpen
  · intro first second one other found' stillOpen found'' stillOpen'
    rw [(onlyMine _ _ found' stillOpen).1, (onlyMine _ _ found'' stillOpen').1]
  · intro closed
    have here : (sys.writes.set index call')[index]? = some call' := by simp [bound]
    have returned : ∃ err, call'.point = .returned err := by
      by_contra stillOpen
      exact closed index call' here (fun err point => stillOpen ⟨err, point⟩)
    obtain ⟨err, point⟩ := returned
    rcases moved.rest sole point with ⟨_, state, nothing⟩ | ⟨⟨code, rfl⟩, state⟩
    · exact Or.inl ⟨state, nothing⟩
    · obtain ⟨phase, refused⟩ := moved.refused_event accepted point
      have notDone := sole.owner.filling (moved.refused_filling refused).1
      refine Or.inr ⟨state.resolve_right (by simp [notDone]), index, phase, ?_, buffered⟩
      exact List.mem_append_right _ (List.mem_map.mpr ⟨_, refused, rfl⟩)
  · intro position event member
    rw [List.length_set]
    rcases List.mem_append.mp member with old | new
    · exact trace.known position event old
    · obtain ⟨inner, _, same⟩ := List.mem_map.mp new
      cases same
      exact bound
  · intro position other found' stillOpen later above
    obtain ⟨rfl, rfl⟩ := onlyMine position other found' stillOpen
    rw [others later (by omega)]
    exact trace.last position call found moved.opened later above
  · intro position other found' stillOpen
    obtain ⟨rfl, rfl⟩ := onlyMine position other found' stillOpen
    exact buffered
  · simp only [List.length_set]
    rw [flatMap_range_extend (fun position => producedBy position before) _
      (events.flatMap WriteEvent.producedBytes) index _ bound mine others
      (fun position above => trace.last index call found moved.opened position above),
      ← trace.balance, List.append_assoc, balance, sentBytes_append, sentBytes_write,
      List.append_assoc]
  · intro position other code found' point
    rcases getElem?_set_cases found' with ⟨rfl, rfl⟩ | ⟨different, old⟩
    · obtain ⟨phase, refused⟩ := moved.refused_event accepted point
      exact Or.inr ⟨phase, List.mem_append_right _ (List.mem_map.mpr ⟨_, refused, rfl⟩)⟩
    · rw [others position different]
      rcases trace.failed position other code old point with nothing | ⟨phase, member⟩
      · exact Or.inl nothing
      · exact Or.inr ⟨phase, List.mem_append_left _ member⟩

theorem accepted_refused {sys : System M} {choice : Choice M} {index : Nat}
    {call call' : WriteCall M} {conn : Connection} {events : List WriteEvent}
    (accepts : SocketAccepts choice)
    (how : (choice = .stepWrite index ∧ sys.conn.writeStep call = some (conn, call', events)) ∨
      (∃ result, choice = .completeWrite index result ∧
        sys.conn.completeWrite call result = some (conn, call', events)))
    (code : ErrorCode) (returned : .returned (some code) ∈ events) :
    ∃ phase, .refused phase ∈ events := by
  rcases how with ⟨rfl, taken⟩ | ⟨result, rfl, taken⟩
  · have move : WriteMove sys.conn call conn call' events := writeStep_move taken
    cases move with
    | headerRefused => exact ⟨.header, by simp⟩
    | bodyRefused => exact ⟨.body, by simp⟩
    | failed point => simp [Connection.writeStep, point] at taken
    | finish | again | headerProduced | headerSkipped | full | bodyPart | bodyComplete
    | bodySkipped | flushed | hand | sent => simp at returned
  · rcases completeWrite_fails taken returned with failed | nothing
    · simp [accepts.1] at failed
    · have count := accepts.2
      omega

theorem WriteTrace.run {events : List Event} {sys : System M}
    (run : Run (System.Step ExclusiveStep) System.init events sys) : WriteTrace events sys := by
  refine Run.invariant WriteTrace WriteTrace.start ?_ run
  rintro before state after next trace ⟨choice, ⟨alone, accepts⟩, taken⟩
  have move := System.step_move taken
  cases move with
  | @startRead msg idle =>
      refine trace.quiet ?_ rfl
      simp only [Connection.read]
      split <;> exact ⟨rfl, rfl⟩
  | startWrite idle => exact trace.startWrite alone
  | moveRead _ _ moved => exact trace.quiet moved.writes rfl
  | moveWrite how found moved =>
      exact trace.moveWrite found moved (fun code => accepted_refused accepts how code)

/-- The produced bytes of the writes that have returned success, in start order. -/
def writtenBytes (sys : System M) (events : List Event) : Bytes :=
  (List.range sys.writes.length).flatMap fun index =>
    if (sys.writes[index]?).map WriteCall.point = some (.returned none) then
      producedBy index events
    else []

/-- Mutual exclusion of the writes, and the stream they make. -/
structure WritesExclusive (events : List Event) (sys : System M) : Prop where
  exclusive : ∀ (index : Nat) (call : WriteCall M) (msg : M), sys.writes[index]? = some call →
    call.open → StartsAlone sys (.startWrite msg) →
    sys.conn.write msg = (sys.conn, ⟨msg, false, .returned (some .invalidState)⟩,
      [.returned (some .invalidState)])
  ordered : sentBytes events ++ sys.conn.writeBuffer.contents =
    (List.range sys.writes.length).flatMap fun index => producedBy index events
  written : (∀ index phase, .write index (.refused phase) ∈ events → producedBy index events = []) →
    (∀ (index : Nat) (call : WriteCall M), sys.writes[index]? = some call → ¬ call.open) →
    sentBytes events = writtenBytes sys events

theorem guarded_writes_exclusive (events : List Event) (sys : System M)
    (run : Run (System.Step ExclusiveStep) System.init events sys) : WritesExclusive events sys := by
  have trace := WriteTrace.run run
  refine ⟨?_, trace.balance, ?_⟩
  · intro index call msg found stillOpen alone
    exact write_busy ((trace.sole index call found stillOpen).owner.busy
      (alone index call found stillOpen)) msg
  · intro clean closed
    have nothing : sys.conn.writeBuffer.contents = [] := by
      rcases trace.rest closed with rest | ⟨_, index, phase, member, bound⟩
      · exact rest.2
      · rw [clean index phase member] at bound
        simpa using bound
    have balance := trace.balance
    rw [nothing, List.append_nil] at balance
    rw [balance, writtenBytes]
    refine List.flatMap_congr fun index member => ?_
    have bound : index < sys.writes.length := List.mem_range.mp member
    obtain ⟨call, found⟩ : ∃ call, sys.writes[index]? = some call :=
      ⟨_, List.getElem?_eq_getElem bound⟩
    have returned : ∃ err, call.point = .returned err := by
      by_contra stillOpen
      exact closed index call found (fun err point => stillOpen ⟨err, point⟩)
    obtain ⟨err, point⟩ := returned
    cases err with
    | none => simp [found, point]
    | some code =>
        simp only [found, point, Option.map_some, Option.some.injEq, WritePoint.returned.injEq,
          reduceCtorEq, ↓reduceIte]
        rcases trace.failed index call code found point with nothing | ⟨phase, refused⟩
        · exact nothing
        · exact clean index phase refused

/-- A write whose frame leaves in two parts. -/
theorem guarded_writes_exclusive_parts : ∃ events, ∃ sys : System (BinaryMessage Blob),
    sentBytes events = [0, 0, 0, 0, 0, 0, 0, 3, 0xc4, 1, 5] ∧ WritesExclusive events sys := by
  let msg : BinaryMessage Blob := ((BinaryMessage.ofValue 0 ⟨[5]⟩).pack).2
  let opened : System (BinaryMessage Blob) :=
    ⟨{ Connection.init with writeState := .writeHeader }, [], [⟨msg, false, .loop⟩]⟩
  let choices : List (Choice (BinaryMessage Blob)) :=
    [.stepWrite 0, .stepWrite 0, .stepWrite 0, .stepWrite 0, .completeWrite 0 ⟨false, 9⟩,
      .stepWrite 0, .completeWrite 0 ⟨false, 2⟩]
  have start : Run (System.Step ExclusiveStep) System.init [] opened :=
    Run.single ⟨.startWrite msg, ⟨by simp [StartsAlone, System.init], trivial⟩, rfl⟩
  have checked : (opened.exec choices).any (fun outcome =>
      sentBytes outcome.2 == [0, 0, 0, 0, 0, 0, 0, 3, 0xc4, 1, 5]) = true := by decide +kernel
  have met : ∀ choice ∈ choices, ∀ sys, ExclusiveStep sys choice := by
    simp [choices, ExclusiveStep, StartsAlone, SocketAccepts]
  obtain ⟨events, sys, run, passed⟩ := System.exec_checked ExclusiveStep met checked
  exact ⟨events, sys, by simpa using passed,
    guarded_writes_exclusive events sys (by simpa using start.trans run)⟩

/-- A write that starts in the last flush of another is accepted: both succeed, and
each frame is sent twice. -/
theorem last_flush_overlapped : ∃ events, ∃ sys : System (BinaryMessage Blob),
    Run (System.Step fun _ => SocketAccepts) System.init events sys ∧
      (∀ call ∈ sys.writes, call.point = .returned none) ∧
      sentBytes events ≠ writtenBytes sys events := by
  let msg (byte : UInt8) : BinaryMessage Blob := ((BinaryMessage.ofValue 0 ⟨[byte]⟩).pack).2
  let choices : List (Choice (BinaryMessage Blob)) :=
    [.startWrite (msg 1), .stepWrite 0, .stepWrite 0, .stepWrite 0, .stepWrite 0,
      .startWrite (msg 2), .stepWrite 1, .stepWrite 1, .stepWrite 1, .stepWrite 1,
      .completeWrite 0 ⟨false, 11⟩, .stepWrite 0,
      .completeWrite 1 ⟨false, 22⟩, .stepWrite 1, .stepWrite 1,
      .completeWrite 0 ⟨false, 11⟩, .stepWrite 0, .stepWrite 0]
  have checked : (System.init.exec choices).any (fun outcome =>
      outcome.1.writes.all (fun call => call.point == .returned none) &&
        sentBytes outcome.2 != writtenBytes outcome.1 outcome.2) = true := by decide +kernel
  have met : ∀ choice ∈ choices, ∀ _ : System (BinaryMessage Blob), SocketAccepts choice := by
    simp [choices, SocketAccepts]
  obtain ⟨events, sys, run, passed⟩ :=
    System.exec_checked (fun _ => SocketAccepts) met checked
  simp only [Bool.and_eq_true, List.all_eq_true, beq_iff_eq, bne_iff_ne] at passed
  exact ⟨events, sys, run, passed.1, passed.2⟩

end CoServer
