import CoServer.Msgpack.Truncation
import Mathlib.Algebra.GroupWithZero.Nat

/-!
Unpacking what nobody has packed: what the value that is built can own is bounded by
the bytes that it is built from, and for the types without a time point, an array and
a variant every outcome is defined.
-/

namespace CoServer.Msgpack

open FormatConstants
open Format

namespace Schema

/-- So many bytes are taken at least. -/
def least : Schema → Nat
  | nothing => 0
  | pair first second => first.least + second.least
  | _ => 1

/-- An item of a collection and an entry of a map take a byte at least. -/
def Metered : Schema → Prop
  | pair first second => first.Metered ∧ second.Metered
  | collection item | array _ item => item.Metered ∧ 0 < item.least
  | map key value => key.Metered ∧ value.Metered ∧ 0 < key.least + value.least
  | variant _ _ alternative => ∀ index, (alternative index).Metered
  | _ => True

/-- The characters, items and entries that a value owns. -/
def extent : (type : Schema) → type.Value → Nat
  | string, (value : Bytes) | binary, (value : Bytes) => value.length
  | pair first second, value => first.extent value.1 + second.extent value.2
  | collection item, (items : List item.Value) =>
      (items.map fun value => item.extent value + 1).sum
  | array _ item, items => (items.1.map item.extent).sum
  | map key value, entries =>
      (entries.list.map fun entry => key.extent entry.1 + value.extent entry.2 + 1).sum
  | variant _ _ alternative, held => (alternative held.1).extent held.2
  | _, _ => 0

theorem extent_fresh : (type : Schema) → type.extent type.fresh = 0
  | int8 | int16 | int32 | int64 | uint8 | uint16 | uint32 | uint64 | nullptr | bool | float | double
  | string | binary | timePoint | nothing | collection _ | map _ _ => rfl
  | pair first second => by
      change first.extent first.fresh + second.extent second.fresh = 0
      rw [extent_fresh first, extent_fresh second]
  | array size item => by
      change ((List.replicate size item.fresh).map item.extent).sum = 0
      rw [List.map_replicate, extent_fresh item, List.sum_replicate_nat, Nat.mul_zero]
  | variant _ _ alternative => extent_fresh (alternative 0)

end Schema

section Costs

variable {α β : Type}

theorem charged_assign {read : Bytes → Option (β × Bytes)} {cost : β → Nat} {convert : β → α}
    {cost' : α → Nat} (left : α) (credit : Nat) (charged : Charged (fetched read) cost 0)
    (cheaper : ∀ value, cost' (convert value) ≤ credit + cost value) :
    Charged (fun data => (Unpacked.assign left convert (read data)).result) cost' credit := by
  simp only [Unpacked.result_assign]
  exact charged.as cheaper

theorem Headed.charged {read : Bytes → Option (β × Bytes)} (headed : Headed read) {convert : β → α}
    (left : α) : Charged (fun data => (Unpacked.assign left convert (read data)).result)
      (fun _ => 1) 0 :=
  charged_assign left 0 headed.strict.charged fun _ => Nat.le_refl _

theorem charged_readBytes (size : Nat) :
    Charged (fetched (readBytes size)) (fun value => value.length) 0 := by
  intro data value rest reads
  rw [fetched, readBytes] at reads
  split at reads
  · rename_i long
    split at long
    · rename_i enough
      cases long
      cases reads
      dsimp only
      rw [List.length_take_of_le enough, List.length_drop]
      omega
    · cases long
  · cases reads

theorem charged_bytes {header : Bytes → Option (Nat × Bytes)} (local_ : Local (fetched header)) :
    Charged (fetched fun data => (header data).bind fun after => readBytes after.1 after.2)
      (fun value => value.length) 0 := by
  rw [fetched_bind]
  exact (local_.charged.then_ fun size => charged_readBytes size : Charged _ _ (0 + 0))

theorem charged_behind {read : Bytes → Option (Bytes × Bytes)} (nothing : read [] = none)
    (charged : ∀ byte, Charged (fetched fun rest => read (byte :: rest))
      (fun value => value.length) 0) :
    Charged (fetched read) (fun value => value.length + 1) 0 := by
  intro data value rest reads
  cases data with
  | nil =>
      rw [fetched, nothing] at reads
      cases reads
  | cons byte data =>
      have paid := charged byte data value rest reads
      simp only [List.length_cons] at paid ⊢
      omega

theorem charged_unpackString : Charged (fetched unpackString) (fun value => value.length + 1) 0 :=
  charged_behind rfl fun _ => charged_bytes
    (local_ite (local_readIntegral 4)
      (local_ite (local_readIntegral 2) (local_ite (local_readIntegral 1) (local_value _))))

theorem charged_unpackBinary : Charged (fetched unpackBinary) (fun value => value.length + 1) 0 :=
  charged_behind rfl fun _ => charged_bytes
    (local_ite (local_readIntegral 4)
      (local_ite (local_readIntegral 2) (local_ite (local_readIntegral 1) local_nothing)))

theorem charged_counted {item : Reader UInt8 Failure α} {cost : α → Nat} {add : β → α → β}
    {total : β → Nat} (charged : Charged item cost 0)
    (sum : ∀ filled value, total (add filled value) ≤ total filled + cost value) (filled : β)
    (count : Nat) : Charged (counted item add filled count) total (total filled) := by
  rw [counted]
  split
  · exact charged.repeated sum count filled
  · exact ((charged.repeated sum (2 ^ 31) filled).then_ fun _ =>
      charged_error Failure.undefined total _ : Charged _ _ (total filled + 0))

theorem charged_sized {unpackItem : Bytes → Unpacked α} {header : Bytes → Option (Nat × Bytes)}
    {cost : α → Nat} (add : β → α → β) (total : β → Nat) (headed : Headed header)
    (charged : Charged (fun data => (unpackItem data).result) cost 0)
    (sum : ∀ filled value, total (add filled value) ≤ total filled + cost value) (filled : β) :
    Charged (fun data => (unpackSized unpackItem add header filled data).result)
      (fun value => total value + 1) (total filled) := by
  simp only [result_unpackSized]
  have counts : ∀ count, Charged (counted (fun data => (unpackItem data).result) add filled count)
      (fun value => total value + 1) (1 + total filled) := by
    intro count data value rest reads
    have paid := charged_counted charged sum filled count data value rest reads
    dsimp only
    omega
  rw [← Nat.zero_add (total filled)]
  exact headed.strict.charged.then_ counts

theorem charged_pair (unpackFirst : α → Bytes → Unpacked α) (unpackSecond : β → Bytes → Unpacked β)
    (pair : α × β) {cost : α → Nat} {cost' : β → Nat} {credit credit' : Nat}
    (charged : Charged (fun data => (unpackFirst pair.1 data).result) cost credit)
    (charged' : Charged (fun data => (unpackSecond pair.2 data).result) cost' credit') :
    Charged (fun data => (unpackPair unpackFirst unpackSecond pair data).result)
      (fun pair => cost pair.1 + cost' pair.2) (credit + credit') := by
  simp only [result_unpackPair]
  exact charged.then_ fun first => charged'.as fun second => Nat.le_refl _

theorem assign_sum {κ ν : Type} (same : κ → κ → Bool) (cost : κ → Nat) (cost' : ν → Nat) (key : κ)
    (value : ν) (list : List (κ × ν)) :
    ((Entries.assign same key value list).map fun entry => cost entry.1 + cost' entry.2 + 1).sum ≤
      (list.map fun entry => cost entry.1 + cost' entry.2 + 1).sum + (cost key + cost' value + 1) := by
  induction list with
  | nil => simp [Entries.assign]
  | cons first rest ih =>
      rw [Entries.assign]
      split
      · simp only [List.map_cons, List.sum_cons]
        omega
      · simp only [List.map_cons, List.sum_cons]
        omega

theorem charged_collection {unpackItem : Bytes → Unpacked α} {cost : α → Nat} (left : List α)
    (charged : Charged (fun data => (unpackItem data).result) (fun value => cost value + 1) 0) :
    Charged (fun data => (unpackCollection unpackItem left data).result)
      (fun items => (items.map fun value => cost value + 1).sum + 1)
      (left.map fun value => cost value + 1).sum := by
  refine charged_sized _ (fun items => (items.map fun value => cost value + 1).sum)
    (headed_unpackHeader array16 array32) charged ?_ left
  intro filled value
  simp

theorem charged_map {κ ν : Type} {same : κ → κ → Bool} {unpackEntry : Bytes → Unpacked (κ × ν)}
    {cost : κ → Nat} {cost' : ν → Nat} (left : Entries same ν)
    (charged : Charged (fun data => (unpackEntry data).result)
      (fun entry => cost entry.1 + cost' entry.2 + 1) 0) :
    Charged (fun data => (unpackMap unpackEntry left data).result)
      (fun map => (map.list.map fun entry => cost entry.1 + cost' entry.2 + 1).sum + 1)
      (left.list.map fun entry => cost entry.1 + cost' entry.2 + 1).sum := by
  refine charged_sized _
    (fun map => (map.list.map fun entry => cost entry.1 + cost' entry.2 + 1).sum)
    (headed_unpackHeader map16 map32) charged ?_ left
  intro filled entry
  exact assign_sum same cost cost' entry.1 entry.2 filled.list

theorem charged_array {size : Nat} {unpackItem : Bytes → Unpacked α} {cost : α → Nat}
    (array : { items : List α // items.length = size })
    (charged : Charged (fun data => (unpackItem data).result) (fun value => cost value + 1) 0) :
    Charged (fun data => (unpackArray unpackItem array data).result)
      (fun array => (array.1.map cost).sum + 1) ((array.1.map cost).sum) := by
  simp only [result_unpackArray]
  have items := charged_sized (fun items item => items ++ [item])
    (fun items => (items.map cost).sum) (headed_unpackHeader array16 array32) charged
    (fun filled value => by simp) []
  have copies : ∀ items, Charged (copied array items) (fun array => (array.1.map cost).sum + 1)
      ((items.map cost).sum + 1 + (array.1.map cost).sum) := by
    intro items data value rest reads
    rw [copied] at reads
    split at reads
    · cases reads
      have parts := congrArg (fun items => (items.map cost).sum)
        (List.take_append_drop items.length array.1)
      simp only [List.map_append, List.sum_append] at parts ⊢
      omega
    · cases reads
  have all := items.then_ copies
  rwa [List.map_nil, List.sum_nil, Nat.zero_add] at all

theorem charged_variant {last : Nat} {α : Fin (last + 1) → Type}
    {unpackFresh : ∀ index, Bytes → Unpacked (α index)} (cost : ∀ index, α index → Nat)
    (left : Σ index, α index) (credit : Nat)
    (charged : ∀ index, Charged (fun data => (unpackFresh index data).result) (cost index) 0) :
    Charged (fun data => (unpackVariant unpackFresh left data).result)
      (fun held => cost held.1 held.2 + 1) credit := by
  simp only [result_unpackVariant]
  have alternatives : ∀ header, Charged (held (fun index data => (unpackFresh index data).result) header)
      (fun held => cost held.1 held.2 + 1) (1 + credit) := by
    intro header
    rw [held]
    split
    · exact charged_error Failure.exception _ _
    · split
      · exact ((charged _).as fun value => by
          change cost _ value + 1 ≤ 1 + credit + cost _ value
          omega).within _ _
      · exact (charged_error Failure.exception _ _).within _ _
  rw [← Nat.zero_add credit]
  exact headed_unpackVariantHeader.strict.charged.then_ alternatives

theorem charged_timePoint (left : Int64) :
    Charged (fun data => (unpackTimePoint left data).result) (fun _ => 1) 0 := by
  have behind : ∀ parts, Charged (counts parts) (fun _ => 1) (1 + 0) := by
    intro parts data value rest reads
    have shorter := (local_counts parts).shorter reads
    exact Nat.add_le_add_left shorter 1
  simp only [result_unpackTimePoint]
  exact headed_readTimePoint.strict.charged.then_ behind

end Costs

theorem Schema.charged : (type : Schema) → type.Metered → (left : type.Value) →
    Charged (type.reader left) (fun value => type.extent value + type.least) (type.extent left)
  | .int8, _, left => headed_unpackInt8.charged left
  | .int16, _, left => headed_unpackInt16.charged left
  | .int32, _, left => headed_unpackInt32.charged left
  | .int64, _, left => headed_unpackInt64.charged left
  | .uint8, _, left => headed_unpackUInt8.charged left
  | .uint16, _, left => headed_unpackUInt16.charged left
  | .uint32, _, left => headed_unpackUInt32.charged left
  | .uint64, _, left => headed_unpackUInt64.charged left
  | .nullptr, _, left => headed_unpackNullptr.charged left
  | .bool, _, left => headed_unpackBool.charged left
  | .float, _, left => (headed_unpackFloating float32 4).charged left
  | .double, _, left => (headed_unpackFloating float64 8).charged left
  | .string, _, left =>
      charged_assign left _ charged_unpackString fun _ => Nat.le_add_left _ _
  | .binary, _, left =>
      charged_assign left _ charged_unpackBinary fun _ => Nat.le_add_left _ _
  | .timePoint, _, left => charged_timePoint left
  | .nothing, _, left => charged_ok left fun _ => 0
  | .pair first second, metered, left =>
      (charged_pair first.unpack second.unpack left (charged first metered.1 left.1)
        (charged second metered.2 left.2)).cheaper fun value => by
          change first.extent value.1 + second.extent value.2 + (first.least + second.least) ≤ _
          omega
  | .collection item, metered, left => by
      have each := charged item metered.1 item.fresh
      rw [extent_fresh] at each
      exact charged_collection left (each.cheaper fun value => Nat.add_le_add_left metered.2 _)
  | .array _ item, metered, left => by
      have each := charged item metered.1 item.fresh
      rw [extent_fresh] at each
      exact charged_array left (each.cheaper fun value => Nat.add_le_add_left metered.2 _)
  | .map key value, metered, left => by
      have each := charged_pair key.unpack value.unpack (key.fresh, value.fresh)
        (charged key metered.1 key.fresh) (charged value metered.2.1 value.fresh)
      rw [extent_fresh, extent_fresh] at each
      have positive := metered.2.2
      exact charged_map left (each.cheaper fun entry => by omega)
  | .variant _ _ alternative, metered, left => by
      refine charged_variant (fun index => (alternative index).extent) left _ fun index => ?_
      have each := charged (alternative index) (metered index) (alternative index).fresh
      rw [extent_fresh] at each
      exact each.cheaper fun value => Nat.le_add_right _ _

/-- A value that is unpacked owns no more than the bytes that are taken pay for. -/
theorem Schema.unpack_extent (type : Schema) (metered : type.Metered) {left value : type.Value}
    {data rest : Bytes} (unpacked : type.unpack left data = .returned value rest) :
    type.extent value + type.least + rest.length ≤ type.extent left + data.length :=
  type.charged metered left data value rest (Unpacked.result_eq_ok.mpr unpacked)

theorem Schema.unpack_extent_list :
    (collection string).extent [[0x61], []] + 1 + 1 ≤ 0 + 5 :=
  @unpack_extent (collection string) ⟨trivial, by decide⟩ [] ([[0x61], []] : List Bytes)
    [0x92, 0xa1, 0x61, 0xa0, 7] [7] (by decide)

theorem never_fetched {α : Type} (read : Bytes → Option (α × Bytes)) (limit : Nat) :
    Never Failure.undefined limit (fetched read) := by
  intro data _ fails
  rw [fetched] at fails
  split at fails <;> cases fails

theorem never_assign {α β : Type} {read : Bytes → Option (β × Bytes)} {convert : β → α} {limit : Nat}
    (left : α) : Never Failure.undefined limit
      fun data => (Unpacked.assign left convert (read data)).result := by
  simp only [Unpacked.result_assign]
  exact (never_fetched read limit).as convert

theorem never_counted {α β : Type} {limit : Nat} {item : Reader UInt8 Failure α}
    (never : Never Failure.undefined limit item) (strict : Strict item) (short : limit < 2 ^ 31)
    (add : β → α → β) (filled : β) (count : Nat) :
    Never Failure.undefined limit (counted item add filled count) := by
  have shorter : Charged item (fun _ => 0) 0 := strict.charged.cheaper fun _ => Nat.zero_le 1
  have loop := fun count => never.repeated shorter add count filled
  rw [counted]
  split
  · exact loop count
  · intro data few fails
    cases outcome : item.repeated add (2 ^ 31) filled data with
    | error reason =>
        rw [Reader.then_, outcome] at fails
        cases fails
        exact loop (2 ^ 31) data few outcome
    | ok after =>
        have taken := strict.repeated outcome
        omega

theorem never_sized {α β : Type} {limit : Nat} {unpackItem : Bytes → Unpacked α}
    {header : Bytes → Option (Nat × Bytes)} (headed : Headed header)
    (never : Never Failure.undefined limit fun data => (unpackItem data).result)
    (strict : Strict fun data => (unpackItem data).result) (short : limit < 2 ^ 31)
    (add : β → α → β) (filled : β) :
    Never Failure.undefined limit
      fun data => (unpackSized unpackItem add header filled data).result := by
  simp only [result_unpackSized]
  exact (never_fetched header limit).then_ headed.local_.charged (never_counted never strict short add filled)

theorem never_pair {α β : Type} {limit : Nat} (unpackFirst : α → Bytes → Unpacked α)
    (unpackSecond : β → Bytes → Unpacked β) (pair : α × β)
    (never : Never Failure.undefined limit fun data => (unpackFirst pair.1 data).result)
    (shorter : Charged (fun data => (unpackFirst pair.1 data).result) (fun _ => 0) 0)
    (never' : Never Failure.undefined limit fun data => (unpackSecond pair.2 data).result) :
    Never Failure.undefined limit
      fun data => (unpackPair unpackFirst unpackSecond pair data).result := by
  simp only [result_unpackPair]
  exact never.then_ shorter fun _ => never'.as _

namespace Schema

/-- The types that nothing in the data can make undefined. -/
def Guarded : Schema → Prop
  | timePoint | array _ _ | variant _ _ _ => False
  | pair first second => first.Guarded ∧ second.Guarded
  | collection item => item.Guarded
  | map key value => key.Guarded ∧ value.Guarded
  | _ => True

theorem strict_fresh (type : Schema) (metered : type.Metered) (positive : 0 < type.least) :
    Strict (type.reader type.fresh) := by
  have charged := type.charged metered type.fresh
  rw [extent_fresh] at charged
  exact charged.strict fun value => Nat.add_pos_right _ positive

theorem never_undefined {limit : Nat} (short : limit < 2 ^ 31) : (type : Schema) → type.Guarded →
    type.Metered → (left : type.Value) → Never Failure.undefined limit (type.reader left)
  | int8, _, _, left | int16, _, _, left | int32, _, _, left | int64, _, _, left
  | uint8, _, _, left | uint16, _, _, left | uint32, _, _, left | uint64, _, _, left
  | nullptr, _, _, left | bool, _, _, left | float, _, _, left | double, _, _, left
  | string, _, _, left | binary, _, _, left => never_assign left
  | nothing, _, _, left => by
      intro data _ fails
      cases fails
  | pair first second, guarded, metered, left =>
      never_pair first.unpack second.unpack left
        (never_undefined short first guarded.1 metered.1 left.1)
        (first.local_ left.1).charged
        (never_undefined short second guarded.2 metered.2 left.2)
  | collection item, guarded, metered, left =>
      never_sized (headed_unpackHeader array16 array32)
        (never_undefined short item guarded metered.1 item.fresh)
        (item.strict_fresh metered.1 metered.2) short _ left
  | map key value, guarded, metered, left =>
      never_sized (headed_unpackHeader map16 map32)
        (never_pair key.unpack value.unpack (key.fresh, value.fresh)
          (never_undefined short key guarded.1 metered.1 key.fresh)
          (key.local_ key.fresh).charged
          (never_undefined short value guarded.2 metered.2.1 value.fresh))
        ((pair key value).strict_fresh ⟨metered.1, metered.2.1⟩ metered.2.2) short _ left

/-- Whatever the data, the types without a time point, an array and a variant are
unpacked or an exception is thrown, as long as no loop can count `2 ^ 31` items. -/
theorem unpack_defined (type : Schema) (guarded : type.Guarded) (metered : type.Metered)
    (left : type.Value) {data : Bytes} (short : data.length < 2 ^ 31) :
    type.unpack left data ≠ .undefined := by
  intro undefined
  exact type.never_undefined short guarded metered left data (Nat.le_refl _)
    (Unpacked.result_eq_undefined.mpr undefined)

theorem unpack_defined_map :
    (map string (collection int8)).unpack Entries.empty [map32, 0xff, 0xff, 0xff, 0xff] ≠
      .undefined :=
  (map string (collection int8)).unpack_defined ⟨trivial, trivial⟩
    ⟨trivial, ⟨trivial, by decide⟩, by decide⟩ Entries.empty (by decide)

end Schema

end CoServer.Msgpack
