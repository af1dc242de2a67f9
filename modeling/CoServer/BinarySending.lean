import CoServer.BinaryFraming
import CoServer.Foundation.Transition

/-!
What is sent by a `BinaryMessage` over its whole life: each drain hands out the
frame of the last pack, however often it is drained, and the empty frame when the
packer did not return.
-/

namespace CoServer

open Transition

inductive SendEvent (T : Type)
  | assigned (value : T)
  | packed (before after : T) (err : Error)
  | drained (bytes : Bytes)

namespace BinaryMessage

variable {T : Type}

/-- The message as the next body call finds it after its resize. -/
def resized (msg : BinaryMessage T) : BinaryMessage T := { msg with buffer := bodyBuffer msg }

theorem resized_produceHeaderSome (msg : BinaryMessage T) (out : Bytes) :
    MessageLike.produceHeaderSome msg.resized out =
      (MessageLike.produceHeaderSome msg out).map fun after =>
        (after.1, after.2.1, after.2.2.resized) := rfl

theorem bodyBuffer_again (msg : BinaryMessage T) (index : Nat) :
    bodyBuffer { msg with buffer := bodyBuffer msg, bodyIdx := index } = bodyBuffer msg :=
  bodyBuffer_whole (bodyBuffer_length msg)

theorem resized_produceBodySome (msg : BinaryMessage T) (out : Bytes) (resizable : Resizable msg) :
    MessageLike.produceBodySome msg.resized out =
      (MessageLike.produceBodySome msg out).map fun after =>
        (after.1, after.2.1, after.2.2.resized) := by
  have again : bodyBuffer msg.resized = bodyBuffer msg := bodyBuffer_again msg msg.bodyIdx
  by_cases inside : msg.bodyIdx ≤ msg.length
  · have whole : InBody msg.resized := ⟨inside, Or.inl (bodyBuffer_length msg)⟩
    rw [produceBodySome_taken whole out _ rfl, produceBodySome_taken ⟨inside, resizable⟩ out _ rfl, again]
    simp only [resized, bodyBuffer_again, Option.map_some]
    rfl
  · have beyond : ¬ InBody msg.resized := fun inBody => inside inBody.inside
    rw [produceBodySome_none beyond, produceBodySome_none fun inBody => inside inBody.inside,
      Option.map_none]

theorem produceBodySome_resizable (msg : BinaryMessage T) (out : Bytes) (after) (_ : Resizable msg)
    (produced : MessageLike.produceBodySome msg out = some after) : Resizable after.2.2 := by
  by_cases inBody : InBody msg
  · rw [produceBodySome_taken inBody out _ rfl] at produced
    cases produced
    exact Or.inl (bodyBuffer_length msg)
  · rw [produceBodySome_none inBody] at produced
    cases produced

inductive Sends [Packable T] : BinaryMessage T → List (SendEvent T) → BinaryMessage T → Prop
  | assign {msg : BinaryMessage T} (value : T) :
      Sends msg [.assigned value] { msg with value := value }
  | pack {msg : BinaryMessage T} :
      Sends msg [.packed msg.value msg.pack.2.value msg.pack.1] msg.pack.2
  | drain {msg headed drained : BinaryMessage T} {headSpans bodySpans : List Bytes}
      {header body : Bytes} :
      drain MessageLike.produceHeaderSome headSpans msg = some (header, headed) →
      drain MessageLike.produceBodySome bodySpans headed = some (body, drained) →
      Sends msg [.drained (header ++ body)] drained

/-- The payload after an event: what the packer has appended if it returned, and
nothing if it did not. -/
def payloadAfter [Packable T] (before : Option Bytes) : SendEvent T → Option Bytes
  | .packed value _ err => some (if err.isNone then (Packable.packer value).1 else [])
  | _ => before

def lastPayload [Packable T] (events : List (SendEvent T)) : Option Bytes :=
  events.foldl payloadAfter none

def frame (payload : Bytes) : Bytes := lengthHeader payload.length ++ payload

example : frame [] = List.replicate 8 0 := by decide

/-- A message between two drains, at the start of the frame of a payload. -/
def Holds (payload : Bytes) (msg : BinaryMessage T) : Prop :=
  Resizable msg ∧ Rewound payload msg.resized

theorem pack_holds [Packable T] (msg : BinaryMessage T) :
    Holds (if msg.pack.1.isNone then (Packable.packer msg.value).1 else []) msg.pack.2 := by
  cases packs : Packable.packer msg.value with
  | mk packed completed =>
      cases completed with
      | true =>
          simp only [pack, packs, ↓reduceIte, Option.isNone_none]
          exact ⟨Or.inl rfl, ⟨rfl, bodyBuffer_whole rfl⟩, rfl, rfl⟩
      | false =>
          simp only [pack, packs, Bool.false_eq_true, ↓reduceIte, Option.isNone_some]
          exact ⟨Or.inr (Nat.zero_le _), ⟨rfl, List.length_eq_zero_iff.mp (bodyBuffer_length _)⟩, rfl,
            rfl⟩

theorem emits_resizedHeader (payload : Bytes) :
    Emits (M := BinaryMessage T) MessageLike.produceHeaderSome
      (fun content msg => Resizable msg ∧ HeaderPending payload content msg.resized)
      (Holds payload) := by
  refine (emitsHeader payload).along resized Resizable (fun msg out _ => resized_produceHeaderSome msg out) ?_
  intro msg out after resizable produced
  cases produced
  exact resizable

theorem emits_resizedBody (payload : Bytes) :
    Emits (M := BinaryMessage T) MessageLike.produceBodySome
      (fun content msg => Resizable msg ∧ BodyPending payload content msg.resized) (Holds payload) :=
  (emitsBody payload).along resized Resizable resized_produceBodySome produceBodySome_resizable

theorem Holds.drained {payload header body : Bytes} {msg headed last : BinaryMessage T}
    {headSpans bodySpans : List Bytes} (holds : Holds payload msg)
    (headDrained : drain MessageLike.produceHeaderSome headSpans msg = some (header, headed))
    (bodyDrained : drain MessageLike.produceBodySome bodySpans headed = some (body, last)) :
    header ++ body = frame payload ∧ Holds payload last := by
  obtain ⟨rfl, between⟩ := (emits_resizedHeader payload).drained
    ⟨holds.1, holds.2.headerPending⟩ headDrained
  obtain ⟨rfl, after⟩ := (emits_resizedBody payload).drained
    ⟨between.1, between.2.bodyPending⟩ bodyDrained
  exact ⟨rfl, after⟩

theorem Holds.drains {payload : Bytes} {msg : BinaryMessage T} {headSpans bodySpans : List Bytes}
    (holds : Holds payload msg) (headRoom : 8 ≤ (headSpans.map List.length).sum)
    (some_ : bodySpans ≠ []) (bodyRoom : payload.length ≤ (bodySpans.map List.length).sum) :
    ∃ headed last, drain MessageLike.produceHeaderSome headSpans msg =
        some (lengthHeader payload.length, headed) ∧
      drain MessageLike.produceBodySome bodySpans headed = some (payload, last) := by
  have some' : headSpans ≠ [] := by
    rintro rfl
    simp at headRoom
  obtain ⟨headed, headDrained, between⟩ := (emits_resizedHeader payload).drains headSpans
    ⟨holds.1, holds.2.headerPending⟩ some' (by rw [lengthHeader_length]; exact headRoom)
  obtain ⟨last, bodyDrained, _⟩ :=
    (emits_resizedBody payload).drains bodySpans ⟨between.1, between.2.bodyPending⟩ some_
      bodyRoom
  exact ⟨headed, last, headDrained, bodyDrained⟩

/-- What holds of the events of a run and the message it has reached: the frames that
were drained behind a pack, and those that any further drain yields. -/
structure SendsExactly [Packable T] (events : List (SendEvent T)) (msg : BinaryMessage T) : Prop where
  packs : ∀ before after err, .packed before after err ∈ events →
    (err = none ↔ (Packable.packer before).2 = true) ∧ (err ≠ none → after = before)
  frames : ∀ front bytes back payload, events = front ++ .drained bytes :: back →
    lastPayload front = some payload → bytes = frame payload
  drains : ∀ payload headSpans bodySpans, lastPayload events = some payload →
    8 ≤ (headSpans.map List.length).sum → bodySpans ≠ [] →
    payload.length ≤ (bodySpans.map List.length).sum →
    ∃ headed last, drain MessageLike.produceHeaderSome headSpans msg =
        some (lengthHeader payload.length, headed) ∧
      drain MessageLike.produceBodySome bodySpans headed = some (payload, last)

theorem lastPayload_snoc [Packable T] (events : List (SendEvent T)) (event : SendEvent T) :
    lastPayload (events ++ [event]) = payloadAfter (lastPayload events) event := by
  rw [lastPayload, List.foldl_append, List.foldl_cons, List.foldl_nil, ← lastPayload]

theorem sends_holds [Packable T] {events : List (SendEvent T)} {first msg : BinaryMessage T}
    (run : Run Sends first events msg) (payload : Bytes) (last : lastPayload events = some payload) :
    Holds payload msg := by
  induction run generalizing payload with
  | refl => cases last
  | snoc _ taken ih =>
      cases taken with
      | assign value =>
          rw [lastPayload_snoc] at last
          obtain ⟨resizable, ⟨length, buffer⟩, atHead, atBody⟩ := ih payload last
          exact ⟨resizable, ⟨length, buffer⟩, atHead, atBody⟩
      | pack =>
          rw [lastPayload_snoc, payloadAfter, Option.some.injEq] at last
          subst last
          exact pack_holds _
      | drain headDrained bodyDrained =>
          rw [lastPayload_snoc] at last
          exact ((ih payload last).drained headDrained bodyDrained).2

theorem pack_reports [Packable T] (msg : BinaryMessage T) :
    (msg.pack.1 = none ↔ (Packable.packer msg.value).2 = true) ∧
      (msg.pack.1 ≠ none → msg.pack.2.value = msg.value) := by
  cases packs : Packable.packer msg.value with
  | mk packed completed => cases completed <;> simp [pack, packs]

theorem sends_one [Packable T] (msg : BinaryMessage T) (events : List (SendEvent T))
    (next : BinaryMessage T) (taken : Sends msg events next) : ∃ event, events = [event] := by
  cases taken <;> exact ⟨_, rfl⟩

theorem sends_exactly [Packable T] (first msg : BinaryMessage T) (events : List (SendEvent T))
    (run : Run Sends first events msg) : SendsExactly events msg := by
  refine ⟨?_, ?_, ?_⟩
  · intro before after err member
    obtain ⟨front, back, rfl⟩ := List.append_of_mem member
    obtain ⟨_, _, _, taken, _⟩ := run.cut sends_one
    cases taken
    exact pack_reports _
  · rintro front bytes back payload rfl last
    obtain ⟨_, _, earlier, taken, _⟩ := run.cut sends_one
    cases taken with
    | drain headDrained bodyDrained =>
        exact ((sends_holds earlier payload last).drained headDrained bodyDrained).1
  · intro payload headSpans bodySpans last headRoom some_ bodyRoom
    exact (sends_holds run payload last).drains headRoom some_ bodyRoom

/-- A vector of one byte is packed and drained twice, with an empty span and a cut
inside the length. -/
theorem sends_exactly_again : ∃ events, ∃ msg : BinaryMessage Blob,
    lastPayload events = some [0xc4, 1, 5] ∧ SendsExactly events msg := by
  have packed := Run.single (@Sends.pack Blob _ (ofValue 9 ⟨[5]⟩))
  have drained := packed.snoc
    (@Sends.drain Blob _ _ _ _ [[], [0, 0, 0], [0, 0, 0, 0, 0, 0]] [[0], [0, 0]] _ _ rfl rfl)
  have again := drained.snoc
    (@Sends.drain Blob _ _ _ _ [[0, 0, 0, 0, 0, 0, 0, 0]] [[], [0, 0, 0, 0]] _ _ rfl rfl)
  exact ⟨_, _, rfl, sends_exactly _ _ _ again⟩

end BinaryMessage

end CoServer
