import CoServer.Msgpack.TimePoint

/-!
What the unpacker makes of a packed value, whatever follows it: the value itself but
for what the format of an integer or of a time point loses, and nothing that the
language defines for what it cannot count.
-/

namespace CoServer.Msgpack

open FormatConstants
open Blob (readIntegral_emplace)
open Format

def Packed.text (packed : Packed) : Option Bytes := if packed.2 then some packed.1 else none

theorem Packed.text_eq {packed : Packed} {bytes : Bytes} :
    packed.text = some bytes ↔ packed = (bytes, true) := by
  obtain ⟨front, completed⟩ := packed
  cases completed <;> simp [text]

theorem Packed.text_andThen (first next : Packed) :
    (first.andThen next).text =
      first.text.bind fun front => next.text.map fun back => front ++ back := by
  obtain ⟨front, completed⟩ := first
  obtain ⟨back, completed'⟩ := next
  cases completed <;> cases completed' <;> rfl

theorem text_packItems {α : Type} (pack : α → Packed) (items : List α) :
    (packItems pack items).text = writeAll (fun item => (pack item).text) items := by
  induction items with
  | nil => rfl
  | cons item rest ih => rw [packItems, Packed.text_andThen, ih, writeAll]

/-- The loop over so many items ends, so its `int` counter does not overflow. -/
def countable {α β : Type} (items : List α) (restored : Option β) : Option β :=
  if items.length < 2 ^ 31 then restored else none

/-- What unpacking a packed value leaves in one that is there already, if that is defined. -/
def Schema.restored : (type : Schema) → type.Value → type.Value → Option type.Value
  | .int8, _, value | .int16, _, value | .uint8, _, value | .uint16, _, value
  | .uint32, _, value | .uint64, _, value | .nullptr, _, value | .bool, _, value
  | .float, _, value | .double, _, value | .string, _, value | .binary, _, value
  | .nothing, _, value => some value
  | .int32, _, (value : Int32) => some (Int32.ofInt (unextended value.toInt))
  | .int64, _, (value : Int64) => some (Int64.ofInt (unextended value.toInt))
  | .timePoint, _, value => restoredCount value
  | .pair first second, left, value =>
      backBoth (first.restored left.1) (second.restored left.2) value
  | .collection item, (left : List item.Value), (items : List item.Value) =>
      countable items ((backAll (item.restored item.fresh) items).map fun results =>
        (left ++ results : List item.Value))
  | .array size item, _, items =>
      countable items.1 ((backAll (item.restored item.fresh) items.1).bind fun results =>
        if whole : results.length = size then some ⟨results, whole⟩ else none)
  | .map key value, left, entries =>
      countable entries.list
        ((backAll (backBoth (key.restored key.fresh) (value.restored value.fresh)) entries.list).map
          fun results => results.foldl (fun map entry => map.insertOrAssign entry.1 entry.2) left)
  | .variant _ _ alternative, _, ⟨index, value⟩ =>
      ((alternative index).restored (alternative index).fresh value).map (Sigma.mk index)

theorem countable_some_iff {α β : Type} {items : List α} {restored : Option β} {result : β} :
    countable items restored = some result ↔ items.length < 2 ^ 31 ∧ restored = some result := by
  rw [countable]
  split
  · rename_i short
    exact ⟨fun same => ⟨short, same⟩, fun same => same.2⟩
  · rename_i long
    exact ⟨fun none => (Option.some_ne_none _ none.symm).elim, fun same => absurd same.1 long⟩

section Shapes

variable {α β : Type}

theorem restores_scalar {pack : α → Packed} {read : Bytes → Option (β × Bytes)} {made : α → β}
    {convert : β → α} (left : α) (final : α → α) (same : ∀ value, convert (made value) = final value)
    (reads : ∀ value bytes, pack value = (bytes, true) → ∀ rest,
      read (bytes ++ rest) = some (made value, rest)) :
    Restores (fun value => (pack value).text) Failure.undefined
      (fun data => (Unpacked.assign left convert (read data)).result)
      fun value => some (final value) := by
  intro value text written rest
  dsimp only
  rw [reads value text (Packed.text_eq.mp written), ← same]
  rfl

theorem restores_returns {pack : α → Bytes} {read : Bytes → Option (β × Bytes)} {made : α → β}
    {convert : β → α} (left : α) (final : α → α) (same : ∀ value, convert (made value) = final value)
    (reads : ∀ value rest, read (pack value ++ rest) = some (made value, rest)) :
    Restores (fun value => (returns (pack value)).text) Failure.undefined
      (fun data => (Unpacked.assign left convert (read data)).result)
      fun value => some (final value) := by
  apply restores_scalar left final same
  intro value bytes packed rest
  cases packed
  exact reads value rest

variable {pack : α → Packed} {unpackItem : Bytes → Unpacked β} {back : α → Option β}

theorem restores_pair {α β : Type} {packFirst : α → Packed} {packSecond : β → Packed}
    {unpackFirst : α → Bytes → Unpacked α} {unpackSecond : β → Bytes → Unpacked β}
    {back : α → Option α} {back' : β → Option β} {left : α × β}
    (first : Restores (fun value => (packFirst value).text) Failure.undefined
      (fun data => (unpackFirst left.1 data).result) back)
    (second : Restores (fun value => (packSecond value).text) Failure.undefined
      (fun data => (unpackSecond left.2 data).result) back') :
    Restores (fun value => ((packFirst value.1).andThen (packSecond value.2)).text)
      Failure.undefined (fun data => (unpackPair unpackFirst unpackSecond left data).result)
      (backBoth back back') := by
  intro value text written rest
  dsimp only at written ⊢
  rw [Packed.text_andThen] at written
  rw [result_unpackPair]
  exact first.both second value text written rest

theorem restores_counted {header : Nat → Packed} {unpackHeader : Bytes → Option (Nat × Bytes)}
    {γ : Type} (add : γ → β → γ) (filled : γ)
    (sized : ∀ size bytes, header size = (bytes, true) → ∀ rest,
      unpackHeader (bytes ++ rest) = some (size, rest))
    (restores : Restores (fun value => (pack value).text) Failure.undefined
      (fun data => (unpackItem data).result) back) :
    Restores (fun items : List α => ((header items.length).andThen (packItems pack items)).text)
      Failure.undefined
      (fun data => (unpackSized unpackItem add unpackHeader filled data).result)
      (fun items => countable items ((backAll back items).map fun results =>
        results.foldl add filled)) := by
  intro items text written rest
  dsimp only at written ⊢
  rw [Packed.text_andThen, text_packItems] at written
  obtain ⟨front, head, written'⟩ := Option.bind_eq_some_iff.mp written
  obtain ⟨last, all, rfl⟩ := Option.map_eq_some_iff.mp written'
  rw [result_unpackSized, List.append_assoc, fetched_then (sized _ _ (Packed.text_eq.mp head) _),
    counted, countable]
  by_cases short : items.length < 2 ^ 31
  · rw [if_pos short, if_pos short]
    exact restores.all add items filled all rest
  · rw [if_neg short, if_neg short]
    rw [← List.take_append_drop (2 ^ 31) items] at all
    obtain ⟨front', last', all', rfl⟩ := writeAll_append all
    have reads := restores.all add (items.take (2 ^ 31)) filled all' (last' ++ rest)
    rw [List.length_take_of_le (by omega)] at reads
    rw [Reader.then_, List.append_assoc, reads]
    cases backAll back (items.take (2 ^ 31)) <;> rfl

theorem restores_collection (left : List β)
    (restores : Restores (fun value => (pack value).text) Failure.undefined
      (fun data => (unpackItem data).result) back) :
    Restores
      (fun items : List α => ((packArrayHeader items.length).andThen (packItems pack items)).text)
      Failure.undefined (fun data => (unpackCollection unpackItem left data).result)
      (fun items => countable items ((backAll back items).map fun results => left ++ results)) := by
  have all := restores_counted (fun items item => items ++ [item]) left
    (fun _ _ => unpackArrayHeader_pack) restores
  have whole : ∀ results : List β,
      results.foldl (fun items item => items ++ [item]) left = left ++ results := by
    intro results
    rw [List.foldl_append_eq_append, ← List.flatMap_def, List.flatMap_singleton']
  simpa only [unpackCollection, whole] using all

theorem overwrites {size : Nat} (left : { items : List β // items.length = size })
    (restores : Restores (fun value => (pack value).text) Failure.undefined
      (fun data => (unpackItem data).result) back) {items : List α} {bytes : Bytes}
    (packed : (packArrayHeader items.length).andThen (packItems pack items) = (bytes, true))
    (rest : Bytes) :
    (size < items.length → unpackArray unpackItem left (bytes ++ rest) = .undefined) ∧
      ∀ results, countable items (backAll back items) = some results → items.length ≤ size →
        ∃ filled, unpackArray unpackItem left (bytes ++ rest) = .returned filled rest ∧
          filled.1 = results ++ left.1.drop items.length := by
  have read := restores_collection [] restores items bytes (Packed.text_eq.mpr packed) rest
  have whole := result_unpackArray unpackItem left (bytes ++ rest)
  simp only [List.nil_append, Option.map_id'] at read
  rw [Reader.then_, read] at whole
  constructor
  · intro long
    apply Unpacked.result_eq_undefined.mp
    rw [whole]
    cases outcome : countable items (backAll back items) with
    | none => rfl
    | some results =>
        have length := (backAll_some_iff.mp (countable_some_iff.mp outcome).2).length_eq
        change copied left results rest = _
        rw [copied, dif_neg (by omega)]
  · intro results restored short
    have length := (backAll_some_iff.mp (countable_some_iff.mp restored).2).length_eq
    have fits : results.length ≤ size := by omega
    refine ⟨⟨results ++ left.1.drop results.length, by simp [left.2, fits]⟩, ?_, by rw [length]⟩
    apply Unpacked.result_eq_ok.mp
    rw [whole, restored]
    change copied left results rest = _
    rw [copied, dif_pos fits]

theorem restores_array {size : Nat} (left : { items : List β // items.length = size })
    (restores : Restores (fun value => (pack value).text) Failure.undefined
      (fun data => (unpackItem data).result) back) :
    Restores
      (fun items : { items : List α // items.length = size } =>
        ((packArrayHeader items.1.length).andThen (packItems pack items.1)).text)
      Failure.undefined (fun data => (unpackArray unpackItem left data).result)
      (fun items => countable items.1 ((backAll back items.1).bind fun results =>
        if whole : results.length = size then some ⟨results, whole⟩ else none)) := by
  intro items text written rest
  have all := restores_collection [] restores items.1 text written rest
  dsimp only at all ⊢
  rw [result_unpackArray, Reader.then_, all, countable, countable]
  split
  · cases outcome : backAll back items.1 with
    | none => rfl
    | some results =>
        have length := (backAll_some_iff.mp outcome).length_eq
        rw [items.2] at length
        change copied left ([] ++ results) rest = given Failure.undefined rest (dite _ _ _)
        rw [copied, dif_pos length.symm, dif_pos (by simp [length])]
        simp [given, length, left.2]
  · rfl

theorem restores_map {κ ν : Type} {same : κ → κ → Bool} {pack : κ × ν → Packed}
    {unpackEntry : Bytes → Unpacked (κ × ν)} {back : κ × ν → Option (κ × ν)} (left : Entries same ν)
    (restores : Restores (fun entry => (pack entry).text) Failure.undefined
      (fun data => (unpackEntry data).result) back) :
    Restores
      (fun entries : Entries same ν =>
        ((packMapHeader entries.list.length).andThen (packItems pack entries.list)).text)
      Failure.undefined (fun data => (unpackMap unpackEntry left data).result)
      (fun entries => countable entries.list ((backAll back entries.list).map fun results =>
        results.foldl (fun map entry => map.insertOrAssign entry.1 entry.2) left)) := by
  intro entries text written rest
  have all := restores_counted (fun map entry => map.insertOrAssign entry.1 entry.2) left
    (fun _ _ => unpackMapHeader_pack) restores
  exact all entries.list text written rest

theorem packVariant_eq {index : Nat} (few : index < 128) {held : Packed} {bytes : Bytes}
    (packed : packVariant index held = (bytes, true)) :
    ∃ inner header, held = (inner, true) ∧ packVariantHeader inner.length = (header, true) ∧
      bytes = header ++ UInt8.ofNat index :: inner := by
  obtain ⟨inner, completed⟩ := held
  cases completed with
  | false => cases packed
  | true =>
      rw [packVariant, if_pos rfl, signed_index few, if_neg (by omega)] at packed
      obtain ⟨header, back, head, last, rfl⟩ := Packed.andThen_eq.mp packed
      cases last
      exact ⟨inner, header, rfl, head, rfl⟩

theorem restores_variant {last : Nat} (few : last < 128) {α : Fin (last + 1) → Type}
    {pack : ∀ index, α index → Packed} {unpackFresh : ∀ index, Bytes → Unpacked (α index)}
    {back : ∀ index, α index → Option (α index)} (left : Σ index, α index)
    (restores : ∀ index, Restores (fun value => (pack index value).text) Failure.undefined
      (fun data => (unpackFresh index data).result) (back index)) :
    Restores (fun held : Σ index, α index => (packVariant held.1 (pack held.1 held.2)).text)
      Failure.undefined (fun data => (unpackVariant unpackFresh left data).result)
      fun held => (back held.1 held.2).map (Sigma.mk held.1) := by
  rintro ⟨index, value⟩ text written rest
  have inside := index.isLt
  obtain ⟨inner, header, packed, head, rfl⟩ :=
    packVariant_eq (by omega) (Packed.text_eq.mp written)
  dsimp only
  rw [result_unpackVariant, List.append_assoc, List.cons_append,
    fetched_then (unpackVariantHeader_pack (by omega) head _), held, signed_index few,
    if_neg (by omega), dif_pos (by simp only [Int.toNat_natCast, inside])]
  exact ((restores index).as (Sigma.mk index)).within .undefined (Packed.text_eq.mpr packed) rest

end Shapes

theorem unpackNullptr_pack (rest : Bytes) : unpackNullptr ([nil] ++ rest) = some ((), rest) := rfl

theorem unpackBool_pack (value : Bool) (rest : Bytes) :
    unpackBool (packBool value ++ rest) = some (value, rest) := by
  cases value <;> rfl

theorem unpackFloating_pack {format : UInt8} {width value : Nat} (bound : value < 256 ^ width)
    (rest : Bytes) :
    unpackFloating format width (emplaceCombined format width value ++ rest) = some (value, rest) := by
  rw [emplaceCombined, List.cons_append, unpackFloating, if_pos rfl, readIntegral_emplace bound]

theorem Schema.restores : (type : Schema) → (left : type.Value) →
    Restores (fun value => (type.pack value).text) .undefined (type.reader left)
      (type.restored left)
  | .int8, left => restores_returns left (fun value => value) Int8.ofInt_toInt
      fun value => unpackInt8_pack value.le_toInt value.toInt_lt
  | .int16, left => restores_returns left (fun value => value) Int16.ofInt_toInt
      fun value => unpackInt16_pack value.le_toInt value.toInt_lt
  | .int32, left => restores_returns left (fun value => Int32.ofInt (unextended value.toInt))
      (fun _ => rfl) fun value => unpackInt32_pack value.le_toInt value.toInt_lt
  | .int64, left => restores_returns left (fun value => Int64.ofInt (unextended value.toInt))
      (fun _ => rfl) fun value => unpackInt64_pack value.le_toInt value.toInt_lt
  | .uint8, left => restores_returns left (fun value => value) (fun _ => UInt8.ofNat_toNat)
      fun value => unpackUInt8_pack value.toNat_lt
  | .uint16, left => restores_returns left (fun value => value) (fun _ => UInt16.ofNat_toNat)
      fun value => unpackUInt16_pack value.toNat_lt
  | .uint32, left => restores_returns left (fun value => value) (fun _ => UInt32.ofNat_toNat)
      fun value => unpackUInt32_pack value.toNat_lt
  | .uint64, left => restores_returns left (fun value => value) (fun _ => UInt64.ofNat_toNat)
      fun value => unpackUInt64_pack value.toNat_lt
  | .nullptr, left => restores_returns left (fun value => value) (fun _ => rfl)
      fun _ => unpackNullptr_pack
  | .bool, left => restores_returns left (fun value => value) (fun _ => rfl) unpackBool_pack
  | .float, left => restores_returns left (fun value => value) (fun _ => UInt32.ofNat_toNat)
      fun value => unpackFloating_pack value.toNat_lt
  | .double, left => restores_returns left (fun value => value) (fun _ => UInt64.ofNat_toNat)
      fun value => unpackFloating_pack value.toNat_lt
  | .string, left => restores_scalar left (fun value => value) (fun _ => rfl)
      fun _ _ => unpackString_pack
  | .binary, left => restores_scalar left (fun value => value) (fun _ => rfl)
      fun _ _ => unpackBinary_pack
  | .timePoint, left => by
      intro value text written rest
      cases written
      exact unpackTimePoint_pack left value rest
  | .nothing, left => by
      intro value text written rest
      cases written
      rfl
  | .pair first second, left => restores_pair (first.restores left.1) (second.restores left.2)
  | .collection item, left => restores_collection left (item.restores item.fresh)
  | .array _ item, left => restores_array left (item.restores item.fresh)
  | .map key value, left =>
      restores_map left (restores_pair (key.restores key.fresh) (value.restores value.fresh))
  | .variant _ few alternative, left =>
      restores_variant few left fun index => (alternative index).restores (alternative index).fresh

/-- What has been packed is unpacked without an exception, whatever follows it. -/
theorem Schema.unpack_packed (type : Schema) {value : type.Value} {bytes : Bytes}
    (packed : type.pack value = (bytes, true)) (left : type.Value) (rest : Bytes) :
    type.unpack left (bytes ++ rest) =
      (type.restored left value).elim .undefined fun result => .returned result rest :=
  Unpacked.result_eq_given.mp (type.restores left value bytes (Packed.text_eq.mpr packed) rest)

/-- A negative number of one byte comes back 256 above it. -/
theorem Schema.unpack_packed_negative :
    (pair int32 timePoint).unpack ((0 : Int32), (0 : Int64)) [0xff, fixext4, 0xff, 0, 0, 0, 1, 7] =
      .returned ((255 : Int32), (1000000000 : Int64)) [7] :=
  (@unpack_packed (pair int32 timePoint) ((-1 : Int32), (1000000000 : Int64))
    [0xff, fixext4, 0xff, 0, 0, 0, 1] (by decide) ((0 : Int32), (0 : Int64)) [7]).trans (by decide)

/-- A negative zero is the key of the entry of the positive one. -/
example : (Schema.map .float .uint8).unpack
    ⟨[((0 : UInt32), (1 : UInt8))], List.pairwise_singleton _ _⟩ [0x81, 0xca, 0x80, 0, 0, 0, 2] =
      .returned ⟨[((0 : UInt32), (2 : UInt8))], List.pairwise_singleton _ _⟩ [] := by
  decide

/-- A packed collection that is longer than an array is copied beyond its end; one that
is not leaves the items behind it as they were. -/
theorem Schema.unpack_array_packed (item : Schema) {items : List item.Value} {bytes : Bytes}
    (packed : (collection item).pack items = (bytes, true)) {size : Nat}
    (left : (array size item).Value) (rest : Bytes) :
    (size < items.length → (array size item).unpack left (bytes ++ rest) = .undefined) ∧
      ∀ results, countable items (backAll (item.restored item.fresh) items) = some results →
        items.length ≤ size →
          ∃ filled, (array size item).unpack left (bytes ++ rest) = .returned filled rest ∧
            filled.1 = results ++ left.1.drop items.length :=
  overwrites left (item.restores item.fresh) packed rest

theorem Schema.unpack_array_packed_longer :
    (array 1 uint8).unpack ⟨[(9 : UInt8)], rfl⟩ [0x92, 1, 2] = .undefined :=
  (@unpack_array_packed uint8 [(1 : UInt8), (2 : UInt8)] [0x92, 1, 2] (by decide) 1
    ⟨[(9 : UInt8)], rfl⟩ []).1 (by decide)

end CoServer.Msgpack
