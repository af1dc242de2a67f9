import CoServer.ReadMoves
import CoServer.WriteMoves

/-!
What one step of the system does to its calls, and the invariants of both
directions that hold in every run: at most one read is open, and at most one
write that has not produced its whole message.
-/

namespace CoServer

variable {M : Type}

theorem read_busy {conn : Connection} (busy : conn.readState ≠ .start) (msg : M) :
    conn.read msg = (conn, ⟨msg, false, .returned (some .invalidState)⟩,
      [.returned (some .invalidState)]) := by
  simp [Connection.read, busy]

theorem write_busy {conn : Connection} (busy : conn.writeState ≠ .start) (msg : M) :
    conn.write msg = (conn, ⟨msg, false, .returned (some .invalidState)⟩,
      [.returned (some .invalidState)]) := by
  simp [Connection.write, busy]

@[simp] theorem Connection.read_readBuffer (conn : Connection) (msg : M) :
    (conn.read msg).1.readBuffer = conn.readBuffer := by
  rw [read]
  split <;> rfl

@[simp] theorem Connection.read_writeState (conn : Connection) (msg : M) :
    (conn.read msg).1.writeState = conn.writeState := by
  rw [read]
  split <;> rfl

@[simp] theorem Connection.write_readBuffer (conn : Connection) (msg : M) :
    (conn.write msg).1.readBuffer = conn.readBuffer := by
  rw [write]
  split <;> rfl

@[simp] theorem Connection.write_readState (conn : Connection) (msg : M) :
    (conn.write msg).1.readState = conn.readState := by
  rw [write]
  split <;> rfl

theorem System.idle_read {sys : System M} (idle : sys.idle = true)
    {index : Nat} {call : ReadCall M} (found : sys.reads[index]? = some call) (stillOpen : call.open) :
    ∃ span, call.point = .suspended span := by
  simp only [System.idle, Bool.and_eq_true, List.all_eq_true, Bool.not_eq_true'] at idle
  have stopped := idle.1 call (List.mem_of_getElem? found)
  cases point : call.point with
  | suspended span => exact ⟨span, rfl⟩
  | returned err => exact (stillOpen err point).elim
  | loop | drain | body => simp [ReadCall.running, point] at stopped

theorem getElem?_append_one {α : Type} {items : List α} {item found : α} {index : Nat}
    (here : (items ++ [item])[index]? = some found) :
    items[index]? = some found ∨ (index = items.length ∧ found = item) := by
  rw [List.getElem?_append] at here
  split at here
  · exact Or.inl here
  · obtain ⟨bound, value⟩ := List.getElem?_eq_some_iff.mp here
    simp only [List.length_singleton] at bound
    refine Or.inr ⟨by omega, ?_⟩
    simpa using value.symm

theorem getElem?_set_cases {α : Type} {items : List α} {item found : α} {index position : Nat}
    (here : (items.set position item)[index]? = some found) :
    (index = position ∧ found = item) ∨ (index ≠ position ∧ items[index]? = some found) := by
  rw [List.getElem?_set] at here
  split at here
  · rename_i same
    split at here
    · exact Or.inl ⟨same.symm, by simpa using here.symm⟩
    · simp at here
  · rename_i different
    exact Or.inr ⟨fun same => different same.symm, here⟩

theorem ReadCall.open_earlier {calls : List (ReadCall M)} {msg : M} {err : Error} {index : Nat}
    {call : ReadCall M} (found : (calls ++ [⟨msg, false, .returned err⟩])[index]? = some call)
    (stillOpen : call.open) : calls[index]? = some call := by
  rcases getElem?_append_one found with old | ⟨_, rfl⟩
  · exact old
  · exact (stillOpen err rfl).elim

theorem WriteCall.open_earlier {calls : List (WriteCall M)} {msg : M} {err : Error} {index : Nat}
    {call : WriteCall M} (found : (calls ++ [⟨msg, false, .returned err⟩])[index]? = some call)
    (stillOpen : call.open) : calls[index]? = some call := by
  rcases getElem?_append_one found with old | ⟨_, rfl⟩
  · exact old
  · exact (stillOpen err rfl).elim

/-- Reading invariant of the system. -/
structure ReadsOwned (sys : System M) : Prop where
  settled : sys.conn.readBuffer.Settled
  owner : ∀ (index : Nat) (call : ReadCall M), sys.reads[index]? = some call → call.open →
    ReadOwner sys.conn call
  unique : ∀ (first second : Nat) (call other : ReadCall M), sys.reads[first]? = some call → call.open →
    sys.reads[second]? = some other → other.open → first = second

theorem ReadsOwned.free {sys : System M} (owned : ReadsOwned sys) (idle : sys.idle = true)
    (ready : sys.conn.readState = .start) {index : Nat} {call : ReadCall M}
    (found : sys.reads[index]? = some call) : ¬ call.open := by
  intro stillOpen
  obtain ⟨span, point⟩ := System.idle_read idle found stillOpen
  exact ((owned.owner index call found stillOpen).busy point (by simp)).2 ready

/-- While a read is open, starting another is rejected and changes nothing. -/
theorem ReadsOwned.read_same {sys : System M} (owned : ReadsOwned sys) (idle : sys.idle = true)
    {index : Nat} {call : ReadCall M} (found : sys.reads[index]? = some call) (stillOpen : call.open)
    (msg : M) : (sys.conn.read msg).1 = sys.conn := by
  obtain ⟨span, point⟩ := System.idle_read idle found stillOpen
  have busy := (owned.owner index call found stillOpen).busy point (by simp)
  rw [read_busy busy.2]

theorem readsOwned_init : ReadsOwned (System.init : System M) :=
  ⟨StaticBuffer.init_settled 4096, by simp [System.init], by simp [System.init]⟩

/-- Writing invariant of the system: a second open write can exist only when the
first has produced its whole message. -/
structure WritesOwned (sys : System M) : Prop where
  owner : ∀ (index : Nat) (call : WriteCall M), sys.writes[index]? = some call → call.open →
    WriteOwner sys.conn call
  unique : ∀ (first second : Nat) (call other : WriteCall M), sys.writes[first]? = some call → call.open →
    call.doneWrite = false → sys.writes[second]? = some other → other.open →
    other.doneWrite = false → first = second

theorem writesOwned_init : WritesOwned (System.init : System M) :=
  ⟨by simp [System.init], by simp [System.init]⟩

variable [MessageLike M]

/-- A step starts a call or moves one. -/
inductive SystemMove (sys : System M) : Choice M → System M → List Event → Prop
  | startRead {msg : M} : sys.idle = true →
      SystemMove sys (.startRead msg)
        { sys with
          conn := (sys.conn.read msg).1
          reads := sys.reads ++ [(sys.conn.read msg).2.1] }
        ((sys.conn.read msg).2.2.map (Event.read sys.reads.length))
  | startWrite {msg : M} : sys.idle = true →
      SystemMove sys (.startWrite msg)
        { sys with
          conn := (sys.conn.write msg).1
          writes := sys.writes ++ [(sys.conn.write msg).2.1] }
        ((sys.conn.write msg).2.2.map (Event.write sys.writes.length))
  | moveRead {choice : Choice M} {index : Nat} {call conn call' events} :
      choice = .stepRead index ∨ (∃ result, choice = .completeRead index result) →
      sys.reads[index]? = some call → ReadMove sys.conn call conn call' events →
      SystemMove sys choice { sys with conn := conn, reads := sys.reads.set index call' }
        (events.map (Event.read index))
  | moveWrite {choice : Choice M} {index : Nat} {call conn call' events} :
      (choice = .stepWrite index ∧ sys.conn.writeStep call = some (conn, call', events)) ∨
        (∃ result, choice = .completeWrite index result ∧
          sys.conn.completeWrite call result = some (conn, call', events)) →
      sys.writes[index]? = some call → WriteMove sys.conn call conn call' events →
      SystemMove sys choice { sys with conn := conn, writes := sys.writes.set index call' }
        (events.map (Event.write index))

theorem System.step_move {sys next : System M} {choice events}
    (taken : sys.step choice = some (next, events)) : SystemMove sys choice next events := by
  cases choice with
  | startRead msg =>
      simp only [System.step] at taken
      split at taken
      · cases taken
        exact SystemMove.startRead (by assumption)
      · simp at taken
  | startWrite msg =>
      simp only [System.step] at taken
      split at taken
      · cases taken
        exact SystemMove.startWrite (by assumption)
      · simp at taken
  | stepRead index =>
      simp only [System.step, Option.bind_eq_some_iff, Option.map_eq_some_iff] at taken
      obtain ⟨call, found, after, moved, result⟩ := taken
      cases result
      exact SystemMove.moveRead (Or.inl rfl) found (readStep_move moved)
  | completeRead index result =>
      simp only [System.step, Option.ite_none_right_eq_some, Option.bind_eq_some_iff,
        Option.map_eq_some_iff] at taken
      obtain ⟨_, call, found, after, moved, result⟩ := taken
      cases result
      exact SystemMove.moveRead (Or.inr ⟨_, rfl⟩) found (completeRead_move moved)
  | stepWrite index =>
      simp only [System.step, Option.bind_eq_some_iff, Option.map_eq_some_iff] at taken
      obtain ⟨call, found, after, moved, result⟩ := taken
      cases result
      exact SystemMove.moveWrite (Or.inl ⟨rfl, moved⟩) found (writeStep_move moved)
  | completeWrite index result =>
      simp only [System.step, Option.ite_none_right_eq_some, Option.bind_eq_some_iff,
        Option.map_eq_some_iff] at taken
      obtain ⟨_, call, found, after, moved, result⟩ := taken
      cases result
      exact SystemMove.moveWrite (Or.inr ⟨_, rfl, moved⟩) found (completeWrite_move moved)

theorem SystemMove.readsOwned {sys next : System M} {choice events}
    (move : SystemMove sys choice next events) (owned : ReadsOwned sys) : ReadsOwned next := by
  cases move with
  | @startRead msg idle =>
      by_cases ready : sys.conn.readState = .start
      · have none : ∀ (index : Nat) (call : ReadCall M), sys.reads[index]? = some call →
            ¬ call.open := fun _ _ found => owned.free idle ready found
        simp only [Connection.read, ready, ne_eq, not_true_eq_false, ↓reduceIte]
        refine ⟨owned.settled, ?_, ?_⟩
        · intro index call found stillOpen
          rcases getElem?_append_one found with old | ⟨_, rfl⟩
          · exact (none _ _ old stillOpen).elim
          · exact ⟨by simp, by simp, by simp⟩
        · intro first second call other found stillOpen found' stillOpen'
          rcases getElem?_append_one found with old | ⟨rfl, _⟩
          · exact (none _ _ old stillOpen).elim
          · rcases getElem?_append_one found' with old | ⟨rfl, _⟩
            · exact (none _ _ old stillOpen').elim
            · rfl
      · rw [read_busy ready]
        refine ⟨owned.settled, ?_, ?_⟩
        · intro index call found stillOpen
          exact owned.owner index call (ReadCall.open_earlier found stillOpen) stillOpen
        · intro first second call other found stillOpen found' stillOpen'
          exact owned.unique first second call other (ReadCall.open_earlier found stillOpen) stillOpen
            (ReadCall.open_earlier found' stillOpen') stillOpen'
  | startWrite idle =>
      refine ⟨?_, ?_, owned.unique⟩
      · rw [Connection.write_readBuffer]
        exact owned.settled
      · intro index call found stillOpen
        have owner := owned.owner index call found stillOpen
        exact ⟨by simpa using owner.flag, owner.done, by simpa using owner.waiting⟩
  | @moveRead _ index call conn call' _ _ found moved =>
      have owner := owned.owner index call found moved.opened
      have others : ∀ (position : Nat) (other : ReadCall M),
          (sys.reads.set index call')[position]? = some other → other.open → position = index := by
        intro position other found' stillOpen
        rcases getElem?_set_cases found' with ⟨same, _⟩ | ⟨_, old⟩
        · exact same
        · exact owned.unique position index other call old stillOpen found moved.opened
      refine ⟨moved.settled owner owned.settled, ?_, ?_⟩
      · intro position other found' stillOpen
        rcases getElem?_set_cases found' with ⟨_, rfl⟩ | ⟨different, _⟩
        · exact moved.owner owner stillOpen
        · exact (different (others position other found' stillOpen)).elim
      · intro first second _ _ found' stillOpen found'' stillOpen'
        rw [others first _ found' stillOpen, others second _ found'' stillOpen']
  | moveWrite _ _ moved =>
      refine ⟨?_, ?_, owned.unique⟩
      · simp only [moved.reads]
        exact owned.settled
      · intro position call found stillOpen
        have owner := owned.owner position call found stillOpen
        exact ⟨by simpa only [moved.reads] using owner.flag, owner.done,
          by simpa only [moved.reads] using owner.waiting⟩

theorem SystemMove.writesOwned {sys next : System M} {choice events}
    (move : SystemMove sys choice next events) (owned : WritesOwned sys) : WritesOwned next := by
  cases move with
  | startRead idle =>
      refine ⟨?_, owned.unique⟩
      intro index call found stillOpen
      have owner := owned.owner index call found stillOpen
      exact ⟨by simpa using owner.busy, owner.done⟩
  | @startWrite msg idle =>
      by_cases ready : sys.conn.writeState = .start
      · have flushing : ∀ (index : Nat) (call : WriteCall M), sys.writes[index]? = some call →
            call.open → call.doneWrite = true := by
          intro index call found stillOpen
          by_contra notDone
          exact (owned.owner index call found stillOpen).busy (by simpa using notDone) ready
        simp only [Connection.write, ready, ne_eq, not_true_eq_false, ↓reduceIte]
        refine ⟨?_, ?_⟩
        · intro index call found stillOpen
          rcases getElem?_append_one found with old | ⟨_, rfl⟩
          · exact ⟨by simp [flushing _ _ old stillOpen], (owned.owner _ _ old stillOpen).done⟩
          · exact ⟨by simp, by simp⟩
        · intro first second call other found stillOpen notDone found' stillOpen' notDone'
          rcases getElem?_append_one found with old | ⟨rfl, _⟩
          · simp [flushing _ _ old stillOpen] at notDone
          · rcases getElem?_append_one found' with old | ⟨rfl, _⟩
            · simp [flushing _ _ old stillOpen'] at notDone'
            · rfl
      · rw [write_busy ready]
        refine ⟨?_, ?_⟩
        · intro index call found stillOpen
          exact owned.owner index call (WriteCall.open_earlier found stillOpen) stillOpen
        · intro first second call other found stillOpen notDone found' stillOpen' notDone'
          exact owned.unique first second call other (WriteCall.open_earlier found stillOpen) stillOpen
            notDone (WriteCall.open_earlier found' stillOpen') stillOpen' notDone'
  | moveRead _ _ moved =>
      refine ⟨?_, owned.unique⟩
      intro index call found stillOpen
      have owner := owned.owner index call found stillOpen
      exact ⟨by simpa only [moved.writes] using owner.busy, owner.done⟩
  | @moveWrite _ index call conn call' _ _ found moved =>
      have owner := owned.owner index call found moved.opened
      have notDoneBefore : call'.doneWrite = false → call.doneWrite = false := by
        intro notDone
        by_contra done
        rw [moved.keeps_done (by simpa using done)] at notDone
        simp at notDone
      refine ⟨?_, ?_⟩
      · intro position other found' stillOpen
        rcases getElem?_set_cases found' with ⟨_, rfl⟩ | ⟨different, old⟩
        · exact moved.owner owner stillOpen
        · have other_ := owned.owner position other old stillOpen
          refine ⟨fun notDone => ?_, other_.done⟩
          exact moved.keeps_busy (fun filling => different (owned.unique position index other call
            old stillOpen notDone found moved.opened filling)) (other_.busy notDone) owner
      · intro first second one other found' stillOpen notDone found'' stillOpen' notDone'
        have indexOf : ∀ (position : Nat) (item : WriteCall M),
            (sys.writes.set index call')[position]? = some item → item.open →
            item.doneWrite = false → ∃ before, sys.writes[position]? = some before ∧
              before.open ∧ before.doneWrite = false := by
          intro position item here itemOpen itemNotDone
          rcases getElem?_set_cases here with ⟨rfl, rfl⟩ | ⟨_, old⟩
          · exact ⟨call, found, moved.opened, notDoneBefore itemNotDone⟩
          · exact ⟨item, old, itemOpen, itemNotDone⟩
        obtain ⟨before, old, oldOpen, oldNotDone⟩ := indexOf _ _ found' stillOpen notDone
        obtain ⟨before', old', oldOpen', oldNotDone'⟩ := indexOf _ _ found'' stillOpen' notDone'
        exact owned.unique _ _ _ _ old oldOpen oldNotDone old' oldOpen' oldNotDone'

end CoServer
