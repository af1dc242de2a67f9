import CoServer.BinaryFraming
import CoServer.Http.ResponseDraining
import CoServer.WriteClient
import CoServer.WriteMoves
import Mathlib.Data.List.Forall2

/-!
Writing responses and packed messages one after another puts exactly their
headers and bodies on the wire, and leaves the connection as it was. A response
whose length no body can have is an exception of its write.
-/

namespace CoServer

open Http Transition

/-- A message of either kind; the packed messages may have different value types. -/
inductive WireMessage {Kind : Type} (T : Kind → Type) : Type
  | response (res : Response)
  | binary (kind : Kind) (msg : BinaryMessage (T kind))

namespace WireMessage

variable {Kind : Type} {T : Kind → Type}

instance : MessageLike (WireMessage T) where
  consumeHeaderSome
    | .response res, data =>
        (MessageLike.consumeHeaderSome res data).map fun after => (after.1, .response after.2)
    | .binary kind msg, data =>
        (MessageLike.consumeHeaderSome msg data).map fun after => (after.1, .binary kind after.2)
  consumeBodySome
    | .response res, data =>
        (MessageLike.consumeBodySome res data).map fun after => (after.1, .response after.2)
    | .binary kind msg, data =>
        (MessageLike.consumeBodySome msg data).map fun after => (after.1, .binary kind after.2)
  produceHeaderSome
    | .response res, out =>
        (MessageLike.produceHeaderSome res out).map fun after =>
          (after.1, after.2.1, .response after.2.2)
    | .binary kind msg, out =>
        (MessageLike.produceHeaderSome msg out).map fun after =>
          (after.1, after.2.1, .binary kind after.2.2)
  produceBodySome
    | .response res, out =>
        (MessageLike.produceBodySome res out).map fun after =>
          (after.1, after.2.1, .response after.2.2)
    | .binary kind msg, out =>
        (MessageLike.produceBodySome msg out).map fun after =>
          (after.1, after.2.1, .binary kind after.2.2)

/-- A message that is ready to be written, with the header and the body it stands
for. A message that has been written is ready again. -/
inductive Ready [∀ kind, Packable (T kind)] : Bytes → Bytes → WireMessage T → Prop
  | response {constructor : Response.Constructor} {version : Bytes} {uninitialized : Bool}
      {calls : List Call} {res : Response} :
      constructor.Valid → constructor.build version uninitialized = some res → Storable calls →
      Ready (plainHeader constructor.statusText constructor.reasonText version calls)
        (plainBody calls) (.response (calls.foldl Call.apply res))
  | responseAgain {header body : Bytes} {res : Response} :
      Response.Rewound header (some body) res → Ready header body (.response res)
  | binary {kind : Kind} {value : T kind} {payload : Bytes} (uninitialized : Nat) :
      Packable.packer value = (payload, true) →
      Ready (BinaryMessage.lengthHeader payload.length) payload
        (.binary kind (BinaryMessage.ofValue uninitialized value).pack.2)
  | binaryAgain {kind : Kind} {payload : Bytes} {msg : BinaryMessage (T kind)} :
      BinaryMessage.Rewound payload msg →
      Ready (BinaryMessage.lengthHeader payload.length) payload (.binary kind msg)

theorem response_sendable {header body : Bytes} {res : Response}
    (pending : Response.HeaderPending header (some body) header res) :
    WriteClient.Sendable header body (.response res : WireMessage T) := by
  have head := ((Response.emitsHeader header (some body)).weaken
    fun _ => Response.Rewound.bodyPending).embed
      (.response : Response → WireMessage T) MessageLike.produceHeaderSome
      fun _ _ => rfl
  have rest := (Response.emitsBody header body).embed
      (.response : Response → WireMessage T) MessageLike.produceBodySome
      fun _ _ => rfl
  exact ⟨_, _, _, ⟨head, rest⟩, res, rfl, pending⟩

theorem binary_sendable {payload : Bytes} {kind : Kind} {msg : BinaryMessage (T kind)}
    (pending : BinaryMessage.HeaderPending payload (BinaryMessage.lengthHeader payload.length) msg) :
    WriteClient.Sendable (BinaryMessage.lengthHeader payload.length) payload
      (.binary kind msg : WireMessage T) := by
  have head := ((BinaryMessage.emitsHeader payload).weaken
    fun _ => BinaryMessage.Rewound.bodyPending).embed
      (.binary kind : BinaryMessage (T kind) → WireMessage T)
      MessageLike.produceHeaderSome fun _ _ => rfl
  have rest := (BinaryMessage.emitsBody payload).embed
      (.binary kind : BinaryMessage (T kind) → WireMessage T)
      MessageLike.produceBodySome fun _ _ => rfl
  exact ⟨_, _, _, ⟨head, rest⟩, msg, rfl, pending⟩

theorem Ready.sendable [∀ kind, Packable (T kind)] {header body : Bytes} {msg : WireMessage T}
    (ready : Ready header body msg) : WriteClient.Sendable header body msg := by
  cases ready with
  | response valid built storable =>
      obtain ⟨res, built', fresh, atBody, start⟩ := Response.constructor_written valid _ _
      rw [built, Option.some.injEq] at built'
      subst built'
      obtain ⟨fresh', atBody'⟩ := Response.calls_fresh _ fresh atBody
      have pending := Response.Written.pending (start.append _) fresh' atBody'
      rw [List.nil_append, if_pos storable] at pending
      exact response_sendable pending
  | responseAgain rewound => exact response_sendable rewound.headerPending
  | binary uninitialized packs =>
      exact binary_sendable (BinaryMessage.pack_ready uninitialized packs)
  | binaryAgain rewound => exact binary_sendable rewound.headerPending

end WireMessage

open WireMessage

theorem writes_exactly {Kind : Type} {T : Kind → Type} [∀ kind, Packable (T kind)]
    (messages : List (WireMessage T)) (contents : List (Bytes × Bytes))
    (ready : List.Forall₂ (fun content msg => Ready content.1 content.2 msg) contents messages) :
    Inevitably WriteClient.Step
      (fun client => client.queue = [] ∧ client.current = none ∧
        client.sent = contents.flatMap (fun content => content.1 ++ content.2) ∧
        client.reports = List.replicate messages.length ⟨none, .start, true, 4096⟩)
      (WriteClient.start Connection.init messages) := by
  have sendable := ready.imp fun _ _ => Ready.sendable
  have written := WriteClient.writesAll sendable Connection.init rfl
    (StaticBuffer.init_settled 4096) (StaticBuffer.init_contents 4096) [] []
  simpa only [List.nil_append, WriteClient.clean, WriteClient.start] using written

theorem writes_exactly_both : Inevitably WriteClient.Step
    (fun client => client.queue = [] ∧ client.current = none ∧
      client.sent = plainHeader (ascii "200") (ascii "OK") (ascii "1.1") [] ++
        ([0, 0, 0, 0, 0, 0, 0, 3] ++ [0xc4, 1, 5]) ∧
      client.reports = [⟨none, .start, true, 4096⟩, ⟨none, .start, true, 4096⟩])
    (WriteClient.start Connection.init
      [.response (Response.ofStatus .ok (ascii "1.1") [] false),
        .binary () (BinaryMessage.ofValue 7 (⟨[5]⟩ : Blob)).pack.2] :
      WriteClient (WireMessage fun _ : Unit => Blob)) := by
  have head : Ready (plainHeader (ascii "200") (ascii "OK") (ascii "1.1") []) []
      (.response (Response.ofStatus .ok (ascii "1.1") [] false) :
        WireMessage fun _ : Unit => Blob) :=
    @Ready.response _ _ _ (.status .ok []) (ascii "1.1") false [] _ trivial rfl (by decide)
  have packed : Ready [0, 0, 0, 0, 0, 0, 0, 3] [0xc4, 1, 5]
      (.binary () (BinaryMessage.ofValue 7 (⟨[5]⟩ : Blob)).pack.2 :
        WireMessage fun _ : Unit => Blob) :=
    @Ready.binary _ (fun _ : Unit => Blob) _ () (⟨[5]⟩ : Blob) [0xc4, 1, 5] 7 rfl
  have written := writes_exactly
    [.response (Response.ofStatus .ok (ascii "1.1") [] false),
      .binary () (BinaryMessage.ofValue 7 (⟨[5]⟩ : Blob)).pack.2]
    [(plainHeader (ascii "200") (ascii "OK") (ascii "1.1") [], []),
      ([0, 0, 0, 0, 0, 0, 0, 3], [0xc4, 1, 5])] (.cons head (.cons packed .nil))
  simpa only [List.flatMap_cons, List.flatMap_nil, List.append_nil, List.length_cons,
    List.length_nil, List.replicate_succ, List.replicate_zero] using written

namespace WriteClient

variable {M : Type} [MessageLike M]

/-- The client is writing a message whose body no call produces. -/
def Stuck (headerPending : Bytes → M → Prop) (bodiless : M → Prop) (client : WriteClient M) : Prop :=
  ∃ call, client.current = some call ∧ call.open ∧ call.doneWrite = false ∧
    ((client.conn.writeState = .writeHeader ∧ ∃ header, headerPending header call.msg) ∨
      (client.conn.writeState = .writeBody ∧ bodiless call.msg))

theorem Stuck.step {headerPending : Bytes → M → Prop} {bodiless : M → Prop}
    (header : Emits MessageLike.produceHeaderSome headerPending bodiless)
    (body : ∀ msg, bodiless msg → ∀ out, MessageLike.produceBodySome msg out = none)
    {client next : WriteClient M} {events : List Nat} (stuck : Stuck headerPending bodiless client)
    (taken : Step client events next) : Stuck headerPending bodiless next := by
  obtain ⟨call, current, open_, running, half⟩ := stuck
  obtain ⟨count, _, taken⟩ := taken
  cases point : call.point with
  | returned err => exact (open_ err point).elim
  | suspended span =>
      simp only [WriteClient.step, current, point] at taken
      split at taken
      · rename_i accepted
        have some_ : (count == 0) = false := by
          rw [beq_eq_false_iff_ne]
          omega
        simp only [Connection.completeWrite, point, accepted.2, ↓reduceIte, some_, Bool.or_false,
          Bool.false_eq_true, Option.map_some, Option.some.injEq] at taken
        subst taken
        exact ⟨_, rfl, by simp [WriteCall.open], running, half⟩
      · cases taken
  | loop | fill | fillBody | flush =>
      simp only [WriteClient.step, current, point, Option.map_eq_some_iff] at taken
      obtain ⟨⟨conn, call', events'⟩, stepped, rfl⟩ := taken
      cases writeStep_move stepped with
      | finish _ done => rw [running] at done; cases done
      | again | headerSkipped | full | bodySkipped | flushed | hand =>
          exact ⟨_, rfl, by simp [WriteCall.open], running, half⟩
      | headerRefused _ _ heading reply =>
          rcases half with ⟨_, content, pending⟩ | ⟨other, _⟩
          · obtain ⟨out, msg, produced, _⟩ := header content call.msg _ pending
            rw [produced] at reply
            cases reply
          · rw [heading] at other
            cases other
      | headerProduced _ _ heading reply =>
          rcases half with ⟨_, content, pending⟩ | ⟨other, _⟩
          · obtain ⟨out, msg, produced, _, after⟩ := header content call.msg _ pending
            rw [produced] at reply
            cases reply
            refine ⟨_, rfl, by simp [WriteCall.open], running, ?_⟩
            split at after
            · rename_i fits
              exact Or.inr ⟨by simp [resume, fits], after⟩
            · rename_i short
              exact Or.inl ⟨by simp [resume, short, heading], _, after⟩
          · rw [heading] at other
            cases other
      | bodyRefused _ writing reply | bodyPart _ writing reply | bodyComplete _ writing reply =>
          rcases half with ⟨other, _⟩ | ⟨_, bodiless_⟩
          · rw [writing] at other
            cases other
          · rw [body _ bodiless_] at reply
            cases reply
      | failed waiting | sent waiting => rw [point] at waiting; cases waiting

theorem never_written {headerPending : Bytes → M → Prop} {bodiless : M → Prop}
    (header : Emits MessageLike.produceHeaderSome headerPending bodiless)
    (body : ∀ msg, bodiless msg → ∀ out, MessageLike.produceBodySome msg out = none)
    {msg : M} {content : Bytes} (pending : headerPending content msg) (rest : List M) :
    ¬ Inevitably Step (fun client => client.queue = [] ∧ client.current = none)
      (start Connection.init (msg :: rest)) := by
  apply not_inevitably_next
  · rintro ⟨empty, _⟩
    cases empty
  · rintro events next ⟨count, _, taken⟩
    cases taken
    refine not_inevitably (Stuck headerPending bodiless)
      ⟨_, rfl, by rintro err ⟨⟩, rfl, Or.inl ⟨rfl, content, pending⟩⟩
      (fun _ _ _ => Stuck.step header body) ?_
    rintro client ⟨call, current, _⟩ ⟨_, idle⟩
    rw [current] at idle
    cases idle

end WriteClient

namespace WireMessage

variable {Kind : Type} {T : Kind → Type}

theorem response_never_written {header : Bytes} {res : Response}
    (pending : Response.HeaderPending header none header res) (rest : List (WireMessage T)) :
    ¬ Inevitably WriteClient.Step (fun client => client.queue = [] ∧ client.current = none)
      (WriteClient.start Connection.init (.response res :: rest)) := by
  have head := (Response.emitsHeader header none).embed
      (.response : Response → WireMessage T) MessageLike.produceHeaderSome
      fun _ _ => rfl
  refine WriteClient.never_written head ?_ ⟨res, rfl, pending⟩ rest
  rintro _ ⟨res, rfl, rewound⟩ out
  exact congrArg (Option.map _) (Response.produceBodySome_throws rewound.1.body out)

end WireMessage

/-- A length above `max_size` is set, and the write does not return. -/
theorem writes_exactly_long :
    ¬ Inevitably WriteClient.Step (fun client => client.queue = [] ∧ client.current = none)
      (WriteClient.start Connection.init
        [.response (overlong.foldl Call.apply (Response.ofStatusAllocated .ok (ascii "1.1") false))] :
        WriteClient (WireMessage fun _ : Unit => Blob)) := by
  obtain ⟨res, built, fresh, atBody, start⟩ :=
    @Response.constructor_written (.statusAllocated .ok) trivial (ascii "1.1") false
  cases built
  obtain ⟨fresh', atBody'⟩ := Response.calls_fresh overlong fresh atBody
  have pending := Response.Written.pending (start.append overlong) fresh' atBody'
  rw [List.nil_append, if_neg (by decide)] at pending
  exact response_never_written pending []

end CoServer
