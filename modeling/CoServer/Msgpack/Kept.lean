import CoServer.Msgpack.RoundTrip

/-!
The values that come back from a round trip as they were.
-/

namespace CoServer.Msgpack

open Format

/-- The values that are the same after a round trip. -/
def Schema.Kept : (type : Schema) → type.Value → Prop
  | .int32, (value : Int32) => ¬(-2 ^ 5 ≤ value.toInt ∧ value.toInt < 0)
  | .int64, (value : Int64) => ¬(-2 ^ 5 ≤ value.toInt ∧ value.toInt < 0)
  | .timePoint, (value : Int64) =>
      -9223372036 * 10 ^ 9 ≤ value.toInt ∧ (value.toInt < 2 ^ 32 * 10 ^ 9 ∨ value.toInt % 10 ^ 9 ≠ 0)
  | .pair first second, value => first.Kept value.1 ∧ second.Kept value.2
  | .collection item, (items : List item.Value) =>
      items.length < 2 ^ 31 ∧ ∀ value ∈ items, item.Kept value
  | .array _ item, items => items.1.length < 2 ^ 31 ∧ ∀ value ∈ items.1, item.Kept value
  | .map key value, entries =>
      entries.list.length < 2 ^ 31 ∧ ∀ entry ∈ entries.list, key.Kept entry.1 ∧ value.Kept entry.2
  | .variant _ _ alternative, held => (alternative held.1).Kept held.2
  | _, _ => True

theorem unextended_same_iff {value : Int} :
    unextended value = value ↔ ¬(-2 ^ 5 ≤ value ∧ value < 0) := by
  rw [unextended]
  split
  · rename_i fix
    constructor
    · intro same
      omega
    · intro other
      exact absurd fix other
  · rename_i other
    exact iff_of_true rfl other

namespace Entries

variable {κ ν : Type} {same : κ → κ → Bool}

theorem assign_length (same : κ → κ → Bool) (key : κ) (value : ν) (list : List (κ × ν)) :
    (assign same key value list).length ≤ list.length + 1 := by
  by_cases present : ∃ other ∈ list.map Prod.fst, same other key = true
  · have kept := congrArg List.length
      (assign_present present : (assign same key value list).map Prod.fst = _)
    rw [List.length_map, List.length_map] at kept
    omega
  · rw [assign_absent (absent_of_not present)]
    simp

abbrev inserted (entries : Entries same ν) (list : List (κ × ν)) : Entries same ν :=
  list.foldl (fun map entry => map.insertOrAssign entry.1 entry.2) entries

theorem inserted_length (entries : Entries same ν) (list : List (κ × ν)) :
    (entries.inserted list).list.length ≤ entries.list.length + list.length := by
  induction list generalizing entries with
  | nil => simp
  | cons first rest ih =>
      have step := assign_length same first.1 first.2 entries.list
      have later := ih (entries.insertOrAssign first.1 first.2)
      simp only [inserted, List.foldl_cons, List.length_cons, insertOrAssign] at step later ⊢
      omega

theorem inserted_apart (entries : Entries same ν) (list : List (κ × ν))
    (apart : ((entries.list ++ list).map Prod.fst).Pairwise fun key other => same key other = false) :
    (entries.inserted list).list = entries.list ++ list := by
  induction list generalizing entries with
  | nil => simp
  | cons first rest ih =>
      have absent : ∀ other ∈ entries.list.map Prod.fst, same other first.1 = false := by
        intro other present
        rw [List.map_append, List.map_cons] at apart
        exact (List.pairwise_append.mp apart).2.2 other present _ List.mem_cons_self
      have added : (entries.insertOrAssign first.1 first.2).list = entries.list ++ [first] :=
        assign_absent absent
      rw [inserted, List.foldl_cons, ih _ (by simpa [added] using apart), added]
      simp

/-- Entries that are inserted one after another are all there, if as many are there. -/
theorem inserted_whole (entries : Entries same ν) (list : List (κ × ν))
    (whole : (entries.inserted list).list.length = entries.list.length + list.length) :
    (entries.inserted list).list = entries.list ++ list := by
  induction list generalizing entries with
  | nil => simp
  | cons first rest ih =>
      have later := inserted_length (entries.insertOrAssign first.1 first.2) rest
      rw [inserted, List.foldl_cons, List.length_cons] at whole
      by_cases present : ∃ other ∈ entries.list.map Prod.fst, same other first.1 = true
      · have kept := congrArg List.length
          (assign_present present : (assign same first.1 first.2 entries.list).map Prod.fst = _)
        simp only [List.length_map, inserted, insertOrAssign] at kept later whole
        omega
      · have added : (entries.insertOrAssign first.1 first.2).list = entries.list ++ [first] :=
          assign_absent (absent_of_not present)
        rw [inserted, List.foldl_cons, ih _ (by rw [whole, added]; simp; omega), added]
        simp

end Entries

theorem appended_same_iff {α : Type} {back : α → Option α} {items : List α} :
    ((backAll back items).map fun results => [] ++ results) = some items ↔
      ∀ item ∈ items, back item = some item := by
  rw [← backAll_same_iff]
  cases backAll back items <;> simp

theorem sized_same_iff {α : Type} {size : Nat} {back : α → Option α}
    {items : { items : List α // items.length = size }} :
    ((backAll back items.1).bind fun results =>
        if whole : results.length = size then some ⟨results, whole⟩ else none) = some items ↔
      ∀ item ∈ items.1, back item = some item := by
  rw [← backAll_same_iff]
  cases backAll back items.1 with
  | none => simp
  | some results =>
      rw [Option.bind_some, Option.some.injEq]
      constructor
      · intro same
        split at same
        · rw [← Option.some.inj same]
        · cases same
      · rintro rfl
        rw [dif_pos items.2]

theorem inserted_same_iff {κ ν : Type} {same : κ → κ → Bool} {back : κ × ν → Option (κ × ν)}
    {entries : Entries same ν} :
    ((backAll back entries.list).map fun results => Entries.empty.inserted results) = some entries ↔
      ∀ entry ∈ entries.list, back entry = some entry := by
  rw [← backAll_same_iff]
  cases outcome : backAll back entries.list with
  | none => simp
  | some results =>
      have length := (backAll_some_iff.mp outcome).length_eq
      rw [Option.map_some, Option.some.injEq, Option.some.injEq]
      constructor
      · intro same
        have whole := Entries.inserted_whole Entries.empty results (by
          rw [same, length]
          exact (Nat.zero_add _).symm)
        rw [same] at whole
        exact whole.symm
      · rintro rfl
        exact Entries.list_inj (Entries.inserted_apart Entries.empty entries.list entries.unique)

theorem held_same_iff {ι : Type} {α : ι → Type} {held : Σ index, α index}
    {restored : Option (α held.1)} :
    restored.map (Sigma.mk held.1) = some held ↔ restored = some held.2 := by
  obtain ⟨index, value⟩ := held
  cases restored <;> simp

theorem Schema.restored_same_iff : (type : Schema) → {value : type.Value} →
    (type.restored type.fresh value = some value ↔ type.Kept value)
  | .int8, _ | .int16, _ | .uint8, _ | .uint16, _ | .uint32, _ | .uint64, _ | .nullptr, _ | .bool, _
  | .float, _ | .double, _ | .string, _ | .binary, _ | .nothing, _ => iff_of_true rfl trivial
  | .int32, (value : Int32) => by
      have low := value.le_toInt
      have high := value.toInt_lt
      refine Iff.trans ?_ (unextended_same_iff : unextended value.toInt = value.toInt ↔ _)
      have back : (Int32.ofInt (unextended value.toInt)).toInt = unextended value.toInt := by
        apply Int32.toInt_ofInt_of_le
        · rw [unextended]
          split <;> omega
        · rw [unextended]
          split <;> omega
      change some (Int32.ofInt (unextended value.toInt)) = some value ↔ _
      rw [Option.some.injEq, ← Int32.toInt_inj, back]
  | .int64, (value : Int64) => by
      have low := value.le_toInt
      have high := value.toInt_lt
      refine Iff.trans ?_ (unextended_same_iff : unextended value.toInt = value.toInt ↔ _)
      have back : (Int64.ofInt (unextended value.toInt)).toInt = unextended value.toInt := by
        apply Int64.toInt_ofInt_of_le
        · rw [unextended]
          split <;> omega
        · rw [unextended]
          split <;> omega
      change some (Int64.ofInt (unextended value.toInt)) = some value ↔ _
      rw [Option.some.injEq, ← Int64.toInt_inj, back]
  | .timePoint, value => restoredCount_same_iff
  | .pair first second, value =>
      backBoth_some_iff.trans (and_congr first.restored_same_iff second.restored_same_iff)
  | .collection item, _ =>
      countable_some_iff.trans (and_congr_right fun _ =>
        appended_same_iff.trans (forall₂_congr fun _ _ => item.restored_same_iff))
  | .array _ item, _ =>
      countable_some_iff.trans (and_congr_right fun _ =>
        sized_same_iff.trans (forall₂_congr fun _ _ => item.restored_same_iff))
  | .map key value, _ =>
      countable_some_iff.trans (and_congr_right fun _ =>
        inserted_same_iff.trans (forall₂_congr fun _ _ =>
          backBoth_some_iff.trans (and_congr key.restored_same_iff value.restored_same_iff)))
  | .variant _ _ alternative, held => held_same_iff.trans (alternative held.1).restored_same_iff

theorem Schema.unpack_same_iff (type : Schema) {value : type.Value} {bytes : Bytes}
    (packed : type.pack value = (bytes, true)) (rest : Bytes) :
    type.unpack type.fresh (bytes ++ rest) = .returned value rest ↔ type.Kept value := by
  have reads := type.restores type.fresh value bytes (Packed.text_eq.mpr packed) rest
  rw [Unpacked.result_eq_given.mp reads, ← type.restored_same_iff]
  cases type.restored type.fresh value <;> simp

theorem Schema.unpack_same_iff_list :
    (collection string).unpack [] [0x92, 0xa1, 0x61, 0xa0, 7] = .returned [[0x61], []] [7] :=
  (@unpack_same_iff (collection string) ([[0x61], []] : List Bytes) [0x92, 0xa1, 0x61, 0xa0]
    (by decide) [7]).mpr ⟨by decide, fun _ _ => trivial⟩

end CoServer.Msgpack
