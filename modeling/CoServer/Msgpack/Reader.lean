import CoServer.Foundation.Format
import CoServer.Msgpack.Unpacker

/-!
The overloads of the unpacker as readers of the format: what a value that was there
before holds after an exception is left out.
-/

namespace CoServer.Msgpack

open Format

inductive Failure
  | exception
  | undefined
  deriving DecidableEq

def Unpacked.result {α : Type} : Unpacked α → Except Failure (α × Bytes)
  | .returned value rest => .ok (value, rest)
  | .thrown _ => .error .exception
  | .undefined => .error .undefined

def fetched {α : Type} (read : Bytes → Option (α × Bytes)) : Reader UInt8 Failure α := fun data =>
  match read data with
  | some after => .ok after
  | none => .error .exception

def Schema.reader (type : Schema) (left : type.Value) : Reader UInt8 Failure type.Value :=
  fun data => (type.unpack left data).result

section Outcomes

variable {α β : Type}

theorem Unpacked.result_eq_ok {outcome : Unpacked α} {value : α} {rest : Bytes} :
    outcome.result = .ok (value, rest) ↔ outcome = .returned value rest := by
  cases outcome <;> simp [result]

theorem Unpacked.result_eq_undefined {outcome : Unpacked α} :
    outcome.result = .error .undefined ↔ outcome = .undefined := by
  cases outcome <;> simp [result]

theorem Unpacked.result_eq_given {outcome : Unpacked α} {restored : Option α} {rest : Bytes} :
    outcome.result = given .undefined rest restored ↔
      outcome = restored.elim .undefined fun value => .returned value rest := by
  cases restored with
  | none => exact result_eq_undefined
  | some value => exact result_eq_ok

theorem Unpacked.result_assign (left : α) (convert : β → α) (read : Bytes → Option (β × Bytes))
    (data : Bytes) :
    (Unpacked.assign left convert (read data)).result = (fetched read).as convert data := by
  rw [Reader.as, fetched]
  cases read data <;> rfl

theorem fetched_then {read : Bytes → Option (α × Bytes)} {data rest : Bytes} {value : α}
    (reads : read data = some (value, rest)) (next : α → Reader UInt8 Failure β) :
    (fetched read).then_ next data = next value rest := by
  rw [Reader.then_, fetched, reads]
  rfl

theorem result_unpackPair (unpackFirst : α → Bytes → Unpacked α)
    (unpackSecond : β → Bytes → Unpacked β) (pair : α × β) (data : Bytes) :
    (unpackPair unpackFirst unpackSecond pair data).result =
      Reader.then_ (fun data => (unpackFirst pair.1 data).result)
        (fun first => Reader.as (fun data => (unpackSecond pair.2 data).result)
          fun second => (first, second)) data := by
  rw [unpackPair, Reader.then_]
  cases unpackFirst pair.1 data with
  | thrown left => rfl
  | undefined => rfl
  | returned first rest =>
      change _ = Reader.as (fun data => (unpackSecond pair.2 data).result)
        (fun second => (first, second)) rest
      rw [Reader.as]
      dsimp only
      cases unpackSecond pair.2 rest <;> rfl

theorem result_unpackLoop (unpackItem : Bytes → Unpacked α) (add : β → α → β) (count : Nat)
    (filled : β) (data : Bytes) :
    (unpackLoop unpackItem add count filled data).result =
      Reader.repeated (fun data => (unpackItem data).result) add count filled data := by
  induction count generalizing filled data with
  | zero => rfl
  | succ count ih =>
      rw [unpackLoop, Reader.repeated, Reader.then_]
      cases unpackItem data with
      | thrown left => rfl
      | undefined => rfl
      | returned item rest => exact ih (add filled item) rest

/-- A loop whose counter is an `int`. -/
def counted (item : Reader UInt8 Failure α) (add : β → α → β) (filled : β) (count : Nat) :
    Reader UInt8 Failure β :=
  if count < 2 ^ 31 then item.repeated add count filled
  else (item.repeated add (2 ^ 31) filled).then_ fun _ _ => .error .undefined

theorem result_unpackSized (unpackItem : Bytes → Unpacked α) (add : β → α → β)
    (header : Bytes → Option (Nat × Bytes)) (filled : β) (data : Bytes) :
    (unpackSized unpackItem add header filled data).result =
      (fetched header).then_ (counted (fun data => (unpackItem data).result) add filled) data := by
  rw [unpackSized, Reader.then_, fetched]
  cases header data with
  | none => rfl
  | some after =>
      change _ = counted _ add filled after.1 after.2
      dsimp only
      rw [unpackCounted, counted]
      split
      · exact result_unpackLoop unpackItem add _ filled _
      · rw [Reader.then_, ← result_unpackLoop]
        cases unpackLoop unpackItem add (2 ^ 31) filled after.2 <;> rfl

def copied {size : Nat} (array : { items : List α // items.length = size }) (items : List α) :
    Reader UInt8 Failure { items : List α // items.length = size } := fun rest =>
  if fits : items.length ≤ size then .ok (copiedOver array items fits, rest)
  else .error .undefined

theorem result_unpackArray {size : Nat} (unpackItem : Bytes → Unpacked α)
    (array : { items : List α // items.length = size }) (data : Bytes) :
    (unpackArray unpackItem array data).result =
      Reader.then_ (fun data => (unpackCollection unpackItem [] data).result) (copied array)
        data := by
  rw [unpackArray, Reader.then_]
  cases unpackCollection unpackItem [] data with
  | thrown left => rfl
  | undefined => rfl
  | returned items rest =>
      change _ = copied array items rest
      rw [copied]
      dsimp only
      split <;> rfl

def counts (parts : Int × Int) : Reader UInt8 Failure Int64 := fun rest =>
  match toCount parts.1 parts.2 with
  | some count => .ok (count, rest)
  | none => .error .undefined

theorem result_unpackTimePoint (left : Int64) (data : Bytes) :
    (unpackTimePoint left data).result = (fetched readTimePoint).then_ counts data := by
  rw [unpackTimePoint, Reader.then_, fetched]
  cases readTimePoint data with
  | none => rfl
  | some after =>
      change _ = counts after.1 after.2
      rw [counts]
      dsimp only
      cases toCount after.1.1 after.1.2 <;> rfl

def held {last : Nat} {α : Fin (last + 1) → Type} (alternative : ∀ index, Reader UInt8 Failure (α index))
    (header : Nat × Int) : Reader UInt8 Failure (Σ index, α index) :=
  if header.2 < 0 ∨ header.2 > signed 1 last then fun _ => .error .exception
  else if inside : header.2.toNat < last + 1 then
    ((alternative ⟨header.2.toNat, inside⟩).as (Sigma.mk _)).within header.1 .undefined
  else Reader.within header.1 .undefined fun _ => .error .exception

theorem result_unpackVariant {last : Nat} {α : Fin (last + 1) → Type}
    (unpackFresh : ∀ index, Bytes → Unpacked (α index)) (left : Σ index, α index) (data : Bytes) :
    (unpackVariant unpackFresh left data).result =
      (fetched unpackVariantHeader).then_ (held fun index data => (unpackFresh index data).result)
        data := by
  rw [unpackVariant, Reader.then_, fetched]
  cases unpackVariantHeader data with
  | none => rfl
  | some after =>
      obtain ⟨⟨size, index⟩, rest⟩ := after
      change _ = held (fun index data => (unpackFresh index data).result) (size, index) rest
      rw [held]
      dsimp only
      split
      · rfl
      · split
        · rename_i long
          split
          · rename_i inside
            rw [Reader.within, if_pos long, Reader.as]
            cases unpackFresh ⟨index.toNat, inside⟩ (rest.take size) <;> rfl
          · rw [Reader.within, if_pos long]
            rfl
        · rename_i short
          split
          · rw [Reader.within, if_neg short]
            rfl
          · rw [Reader.within, if_neg short]
            rfl

end Outcomes

end CoServer.Msgpack
