import CoServer.Connection
import CoServer.Foundation.Transition

/-!
One connection with any number of read and write coroutines on it. The executor
is single threaded: a coroutine runs until it suspends or returns, and a call is
started or resumed only while none is running. Calls are numbered in the order
in which they start, reads and writes separately.
-/

namespace CoServer

variable {M : Type}

structure System (M : Type) where
  conn : Connection
  reads : List (ReadCall M)
  writes : List (WriteCall M)

def System.init : System M := ⟨Connection.init, [], []⟩

inductive Choice (M : Type)
  | startRead (msg : M)
  | startWrite (msg : M)
  | stepRead (index : Nat)
  | stepWrite (index : Nat)
  | completeRead (index : Nat) (result : SocketRead)
  | completeWrite (index : Nat) (result : SocketWrite)

inductive Event
  | read (index : Nat) (event : ReadEvent)
  | write (index : Nat) (event : WriteEvent)
  deriving DecidableEq

def ReadCall.running (call : ReadCall M) : Bool :=
  match call.point with
  | .suspended _ | .returned _ => false
  | _ => true

def WriteCall.running (call : WriteCall M) : Bool :=
  match call.point with
  | .suspended _ | .returned _ => false
  | _ => true

def ReadCall.open (call : ReadCall M) : Prop := ∀ err, call.point ≠ .returned err

def WriteCall.open (call : WriteCall M) : Prop := ∀ err, call.point ≠ .returned err

namespace System

def idle (sys : System M) : Bool :=
  sys.reads.all (fun call => !call.running) && sys.writes.all (fun call => !call.running)

def putRead (sys : System M) (index : Nat) (after : Connection × ReadCall M × List ReadEvent) :
    System M × List Event :=
  ({ sys with conn := after.1, reads := sys.reads.set index after.2.1 },
    after.2.2.map (Event.read index))

def putWrite (sys : System M) (index : Nat) (after : Connection × WriteCall M × List WriteEvent) :
    System M × List Event :=
  ({ sys with conn := after.1, writes := sys.writes.set index after.2.1 },
    after.2.2.map (Event.write index))

def step [MessageLike M] (sys : System M) (choice : Choice M) : Option (System M × List Event) :=
  match choice with
  | .startRead msg =>
      if sys.idle then
        let after := sys.conn.read msg
        some ({ sys with conn := after.1, reads := sys.reads ++ [after.2.1] },
          after.2.2.map (Event.read sys.reads.length))
      else none
  | .startWrite msg =>
      if sys.idle then
        let after := sys.conn.write msg
        some ({ sys with conn := after.1, writes := sys.writes ++ [after.2.1] },
          after.2.2.map (Event.write sys.writes.length))
      else none
  | .stepRead index =>
      (sys.reads[index]?).bind fun call => (sys.conn.readStep call).map (sys.putRead index)
  | .stepWrite index =>
      (sys.writes[index]?).bind fun call => (sys.conn.writeStep call).map (sys.putWrite index)
  | .completeRead index result =>
      if sys.idle then
        (sys.reads[index]?).bind fun call =>
          (sys.conn.completeRead call result).map (sys.putRead index)
      else none
  | .completeWrite index result =>
      if sys.idle then
        (sys.writes[index]?).bind fun call =>
          (sys.conn.completeWrite call result).map (sys.putWrite index)
      else none

/-- The steps of the system whose choices meet a condition. -/
def Step [MessageLike M] (condition : System M → Choice M → Prop) (sys : System M)
    (events : List Event) (next : System M) : Prop :=
  ∃ choice, condition sys choice ∧ sys.step choice = some (next, events)

def anyChoice (_ : System M) (_ : Choice M) : Prop := True

def exec [MessageLike M] (sys : System M) : List (Choice M) → Option (System M × List Event)
  | [] => some (sys, [])
  | choice :: rest =>
      (sys.step choice).bind fun (next, events) =>
        (next.exec rest).map fun (last, later) => (last, events ++ later)

theorem exec_run [MessageLike M] {condition : System M → Choice M → Prop}
    {choices : List (Choice M)} {sys last : System M} {events}
    (met : ∀ choice ∈ choices, ∀ state, condition state choice)
    (done : sys.exec choices = some (last, events)) :
    Transition.Run (Step condition) sys events last := by
  induction choices generalizing sys events with
  | nil =>
      cases done
      exact Transition.Run.refl
  | cons choice rest ih =>
      simp only [exec, Option.bind_eq_some_iff, Option.map_eq_some_iff] at done
      obtain ⟨⟨next, head⟩, taken, ⟨last', later⟩, remaining, result⟩ := done
      cases result
      have opening : Step condition sys head next := ⟨choice, met choice (by simp) sys, taken⟩
      refine (Transition.Run.single opening).trans (ih ?_ remaining)
      intro other member
      exact met other (List.mem_cons_of_mem choice member)

theorem exec_checked [MessageLike M] (condition : System M → Choice M → Prop)
    {choices : List (Choice M)} {sys : System M} {check : System M × List Event → Bool}
    (met : ∀ choice ∈ choices, ∀ state, condition state choice)
    (checked : (sys.exec choices).any check = true) :
    ∃ events last, Transition.Run (Step condition) sys events last ∧ check (last, events) = true := by
  cases done : sys.exec choices with
  | none => simp [done] at checked
  | some outcome =>
      obtain ⟨last, events⟩ := outcome
      exact ⟨events, last, exec_run met done, by simpa [done] using checked⟩

end System

end CoServer
