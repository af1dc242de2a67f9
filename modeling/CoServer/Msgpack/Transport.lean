import CoServer.BinaryStream
import CoServer.Msgpack.Kept

/-!
The value types of the packer and the unpacker as those of `BinaryMessage`, and what
comes of their values over a connection.
-/

namespace CoServer.Msgpack

open Format Transition

-- A call whose behavior is undefined does not return.
instance (type : Schema) : Packable type.Value where
  empty := type.fresh
  packer := type.pack
  unpacker left data :=
    match type.unpack left data with
    | .returned value _ => (value, true)
    | .thrown left => (left, false)
    | .undefined => (left, false)

theorem unpackSized_blob (value : Blob) (width : Nat) (rest : Bytes) :
    value.unpackSized width rest =
      ((readIntegral width rest).bind fun size => readBytes size.1 size.2).elim (value, false)
        fun after => (⟨after.1⟩, true) := by
  rw [Blob.unpackSized]
  cases readIntegral width rest with
  | none => rfl
  | some after =>
      simp only [Option.bind_some, readBytes]
      by_cases short : after.2.length < after.1
      · rw [if_pos short, if_neg (by omega), Option.elim_none]
      · rw [if_neg short, if_pos (by omega), Option.elim_some]

/-- The unpacker of one byte vector is that of a type whose only member it is. -/
theorem unpackBinary_blob (value : Blob) (data : Bytes) :
    value.unpack data = (unpackBinary data).elim (value, false) fun after => (⟨after.1⟩, true) := by
  cases data with
  | nil => rfl
  | cons constant rest =>
      simp only [Blob.unpack, unpackBinary, unpackSized_blob]
      split
      · rfl
      · split
        · rfl
        · split
          · rfl
          · rfl

theorem Schema.unpacker_iff (type : Schema) {value : type.Value} {bytes : Bytes}
    (packed : Packable.packer value = (bytes, true)) :
    Packable.unpacker (Packable.empty : type.Value) bytes = (value, true) ↔ type.Kept value := by
  have reads := Unpacked.result_eq_given.mp
    (type.restores type.fresh value bytes (Packed.text_eq.mpr packed) [])
  rw [List.append_nil] at reads
  rw [← type.restored_same_iff]
  change (match type.unpack type.fresh bytes with
    | .returned value _ => (value, true)
    | .thrown left => (left, false)
    | .undefined => (type.fresh, false)) = (value, true) ↔ _
  rw [reads]
  cases type.restored type.fresh value <;> simp

/-- Values of a packable type are written on a connection and read from another one. Their
frames are sent as they are, and all values arrive exactly where each length comes in order
and each value is one that is kept. -/
theorem Schema.transmits_iff (type : Schema) (parcels : List (Parcel type.Value)) :
    Inevitably WriteClient.Step
      (fun client => client.queue = [] ∧ client.current = none ∧
        client.sent = Parcel.streamOf parcels ∧
        client.reports = List.replicate parcels.length ⟨none, .start, true, 4096⟩ ∧
        ∀ segments : List Bytes,
          (∀ segment ∈ segments, 1 ≤ segment.length ∧ segment.length ≤ 4096) →
          segments.flatten = client.sent →
          (Inevitably ReadClient.Step (Collected Parcel.Delivers parcels)
              (ReadClient.start (parcels.map Parcel.receiver) segments) ↔
            ∀ before parcel after, parcels = before ++ parcel :: after →
              parcel.LengthInOrder segments (Parcel.streamOf before) ∧ type.Kept parcel.value))
      (WriteClient.start Connection.init (parcels.map Parcel.sender)) := by
  refine (Parcel.transmits parcels).bind ?_
  rintro client ⟨asked, idle, sent, reports, arrives⟩
  refine .here ⟨asked, idle, sent, reports, ?_⟩
  intro segments sized same
  rw [arrives segments sized same]
  simp only [type.unpacker_iff (Parcel.packs _)]

def Schema.texts : Parcel (collection string).Value where
  value := [[0x61], []]
  payload := [0x92, 0xa1, 0x61, 0xa0]
  packs := by decide
  storable := by decide
  sent := 0
  received := 2 ^ 63
  old := []

example : Schema.texts.LengthInOrder [[0, 0, 0, 0, 0, 0, 0, 4, 0x92], [0xa1, 0x61, 0xa0]] [] := by
  decide

example : ¬ Schema.texts.LengthInOrder [[0, 0, 0, 0, 0, 0, 0], [4, 0x92, 0xa1, 0x61, 0xa0]] [] := by
  decide

end CoServer.Msgpack
