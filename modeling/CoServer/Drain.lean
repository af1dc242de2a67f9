import CoServer.Connection
import Mathlib.Algebra.GroupWithZero.Nat

/-!
Draining a produce function into a sequence of spans, and feeding a consume
function from a sequence of chunks, each until it reports complete. `Emits` says
of a produce function that it hands out a pending content span by span.
-/

namespace CoServer

variable {M : Type}

def drain (produce : M → Bytes → Option (Reply × Bytes × M)) : List Bytes → M → Option (Bytes × M)
  | [], _ => none
  | out :: rest, msg =>
      match produce msg out with
      | some ((none, true, numBytes), out', msg') => some (out'.take numBytes, msg')
      | some ((none, false, numBytes), out', msg') =>
          (drain produce rest msg').map fun tail => (out'.take numBytes ++ tail.1, tail.2)
      | _ => none

/-- Each chunk is cut from what is left of the input, and what a call does not
take is offered again. -/
def feed (consume : M → Bytes → Option (Reply × M)) : List Nat → Bytes → M → Option (Nat × M)
  | [], _, _ => none
  | size :: rest, input, msg =>
      match consume msg (input.take size) with
      | some ((none, true, numBytes), msg') => some (numBytes, msg')
      | some ((none, false, numBytes), msg') =>
          (feed consume rest (input.drop numBytes) msg').map fun tail =>
            (numBytes + tail.1, tail.2)
      | _ => none

theorem feed_complete {consume : M → Bytes → Option (Reply × M)} {size numBytes : Nat}
    {input : Bytes} {msg msg' : M} (rest : List Nat)
    (reply : consume msg (input.take size) = some ((none, true, numBytes), msg')) :
    feed consume (size :: rest) input msg = some (numBytes, msg') := by
  simp only [feed, reply]

theorem feed_more {consume : M → Bytes → Option (Reply × M)} {size numBytes : Nat}
    {input : Bytes} {msg msg' : M} (rest : List Nat)
    (reply : consume msg (input.take size) = some ((none, false, numBytes), msg')) :
    feed consume (size :: rest) input msg =
      (feed consume rest (input.drop numBytes) msg').map fun tail =>
        (numBytes + tail.1, tail.2) := by
  simp only [feed, reply]

theorem feed_last {consume : M → Bytes → Option (Reply × M)} {holds : M → Prop}
    (keep : ∀ msg chunk count msg', holds msg → consume msg chunk = some ((none, false, count), msg') →
      holds msg')
    {sizes : List Nat} {input : Bytes} {msg last : M} {count : Nat} (start : holds msg)
    (completed : feed consume sizes input msg = some (count, last)) :
    ∃ before chunk taken, holds before ∧ consume before chunk = some ((none, true, taken), last) := by
  induction sizes generalizing input msg count with
  | nil => cases completed
  | cons size rest ih =>
      simp only [feed] at completed
      split at completed
      · rename_i numBytes msg' reply
        cases completed
        exact ⟨msg, _, _, start, reply⟩
      · rename_i numBytes msg' reply
        rw [Option.map_eq_some_iff] at completed
        obtain ⟨⟨more, last'⟩, remaining, same⟩ := completed
        cases same
        exact ih (keep _ _ _ _ start reply) remaining
      · cases completed

/-- With a content pending, a call stores what fits of it into the span, and it is
complete exactly when the whole content fits. -/
def Emits (produce : M → Bytes → Option (Reply × Bytes × M)) (pending : Bytes → M → Prop)
    (done : M → Prop) : Prop :=
  ∀ content msg out, pending content msg → ∃ out' msg',
    produce msg out = some ((none, decide (content.length ≤ out.length),
      min out.length content.length), out', msg') ∧
    out'.take (min out.length content.length) = content.take out.length ∧
    if content.length ≤ out.length then done msg' else pending (content.drop out.length) msg'

variable {produce : M → Bytes → Option (Reply × Bytes × M)} {pending : Bytes → M → Prop}
  {done : M → Prop}

theorem Emits.drained (emits : Emits produce pending done) {spans : List Bytes} {content bytes : Bytes}
    {msg last : M} (start : pending content msg)
    (drained : drain produce spans msg = some (bytes, last)) : bytes = content ∧ done last := by
  induction spans generalizing content msg bytes with
  | nil => cases drained
  | cons out rest ih =>
      obtain ⟨out', msg', reply, stored, after⟩ := emits content msg out start
      by_cases fits : content.length ≤ out.length
      · simp only [drain, reply, fits, decide_true, Option.some.injEq, Prod.mk.injEq] at drained
        rw [if_pos fits] at after
        obtain ⟨rfl, rfl⟩ := drained
        exact ⟨by rw [stored, List.take_of_length_le fits], after⟩
      · simp only [drain, reply, fits, decide_false, Option.map_eq_some_iff, Prod.mk.injEq] at drained
        rw [if_neg fits] at after
        obtain ⟨⟨more, last'⟩, remaining, rfl, rfl⟩ := drained
        obtain ⟨rfl, finished⟩ := ih after remaining
        exact ⟨by rw [stored, List.take_append_drop], finished⟩

theorem Emits.drains (emits : Emits produce pending done) (spans : List Bytes) {content : Bytes}
    {msg : M} (start : pending content msg) (some_ : spans ≠ [])
    (room : content.length ≤ (spans.map List.length).sum) :
    ∃ last, drain produce spans msg = some (content, last) ∧ done last := by
  induction spans generalizing content msg with
  | nil => exact (some_ rfl).elim
  | cons out rest ih =>
      obtain ⟨out', msg', reply, stored, after⟩ := emits content msg out start
      simp only [List.map_cons, List.sum_cons] at room
      by_cases fits : content.length ≤ out.length
      · rw [if_pos fits] at after
        refine ⟨msg', ?_, after⟩
        simp only [drain, reply, fits, decide_true, stored, List.take_of_length_le fits]
      · rw [if_neg fits] at after
        have others : rest ≠ [] := by
          rintro rfl
          simp only [List.map_nil, List.sum_nil] at room
          omega
        obtain ⟨last, remaining, finished⟩ := ih after others (by rw [List.length_drop]; omega)
        refine ⟨last, ?_, finished⟩
        simp only [drain, reply, fits, decide_false, remaining, Option.map_some, stored,
          List.take_append_drop]

theorem Emits.weaken {done' : M → Prop} (emits : Emits produce pending done)
    (imply : ∀ msg, done msg → done' msg) : Emits produce pending done' := by
  intro content msg out start
  obtain ⟨out', msg', reply, stored, after⟩ := emits content msg out start
  refine ⟨out', msg', reply, stored, ?_⟩
  by_cases fits : content.length ≤ out.length
  · rw [if_pos fits] at after ⊢
    exact imply msg' after
  · rw [if_neg fits] at after ⊢
    exact after

theorem Emits.embed {N : Type} (embed : M → N)
    (produceEmbedded : N → Bytes → Option (Reply × Bytes × N))
    (same : ∀ msg out, produceEmbedded (embed msg) out =
      (produce msg out).map fun after => (after.1, after.2.1, embed after.2.2))
    (emits : Emits produce pending done) :
    Emits produceEmbedded (fun content whole => ∃ msg, whole = embed msg ∧ pending content msg)
      (fun whole => ∃ msg, whole = embed msg ∧ done msg) := by
  rintro content _ out ⟨msg, rfl, start⟩
  obtain ⟨out', msg', reply, stored, after⟩ := emits content msg out start
  refine ⟨out', embed msg', by rw [same, reply, Option.map_some], stored, ?_⟩
  by_cases fits : content.length ≤ out.length
  · rw [if_pos fits] at after ⊢
    exact ⟨msg', rfl, after⟩
  · rw [if_neg fits] at after ⊢
    exact ⟨msg', rfl, after⟩

theorem Emits.along {N : Type} {produce' : N → Bytes → Option (Reply × Bytes × N)}
    {pending' : Bytes → N → Prop} {done' : N → Prop} (image : M → N) (holds : M → Prop)
    (same : ∀ msg out, holds msg → produce' (image msg) out =
      (produce msg out).map fun after => (after.1, after.2.1, image after.2.2))
    (keep : ∀ msg out after, holds msg → produce msg out = some after → holds after.2.2)
    (emits : Emits produce' pending' done') :
    Emits produce (fun content msg => holds msg ∧ pending' content (image msg))
      (fun msg => holds msg ∧ done' (image msg)) := by
  rintro content msg out ⟨held, start⟩
  obtain ⟨out', image', reply, stored, after⟩ := emits content (image msg) out start
  rw [same msg out held, Option.map_eq_some_iff] at reply
  obtain ⟨⟨answer, out'', msg'⟩, produced, shape⟩ := reply
  simp only [Prod.mk.injEq] at shape
  obtain ⟨rfl, rfl, rfl⟩ := shape
  have held' := keep _ _ _ held produced
  refine ⟨out'', msg', produced, stored, ?_⟩
  by_cases fits : content.length ≤ out.length
  · rw [if_pos fits] at after ⊢
    exact ⟨held', after⟩
  · rw [if_neg fits] at after ⊢
    exact ⟨held', after⟩

end CoServer
