import CoServer.Error
import Mathlib.Data.List.Basic

/-!
The value types that the packer and the unpacker have overloads for. A type is a
`Schema`, and its values are the Lean type `Schema.Value`. A `float` or a `double`
is its bits, and a time point of the system clock its count of nanoseconds. An
enumeration is packed as its underlying type; a tuple, and a type whose `pack` and
`unpack` name its members, as its members one after another. Left out are arrays of
`std::byte`, which are read as a vector of them, and variants of more than 128
alternatives, the last of which no `int8_t` tells.
-/

namespace CoServer.Msgpack

/-- A map by its entries, no two of them with the same key, in the order of the iteration
over a map that is packed and in the order of insertion into one that is unpacked. -/
structure Entries {κ : Type} (same : κ → κ → Bool) (ν : Type) where
  list : List (κ × ν)
  unique : (list.map Prod.fst).Pairwise fun key other => same key other = false
  deriving DecidableEq

namespace Entries

variable {κ ν : Type} {same : κ → κ → Bool}

def empty : Entries same ν := ⟨[], List.Pairwise.nil⟩

theorem list_inj {entries other : Entries same ν} (equal : entries.list = other.list) :
    entries = other := by
  cases entries
  cases other
  cases equal
  rfl

def assign (same : κ → κ → Bool) (key : κ) (value : ν) : List (κ × ν) → List (κ × ν)
  | [] => [(key, value)]
  | (other, old) :: rest =>
      if same other key then (other, value) :: rest
      else (other, old) :: assign same key value rest

theorem assign_absent {key : κ} {value : ν} {list : List (κ × ν)}
    (absent : ∀ other ∈ list.map Prod.fst, same other key = false) :
    assign same key value list = list ++ [(key, value)] := by
  induction list with
  | nil => rfl
  | cons first rest ih =>
      rw [List.map_cons, List.forall_mem_cons] at absent
      rw [assign, absent.1, if_neg Bool.false_ne_true, ih absent.2, List.cons_append]

theorem assign_present {key : κ} {value : ν} {list : List (κ × ν)}
    (present : ∃ other ∈ list.map Prod.fst, same other key = true) :
    (assign same key value list).map Prod.fst = list.map Prod.fst := by
  induction list with
  | nil => simp at present
  | cons first rest ih =>
      rw [assign]
      split
      · rfl
      · rename_i other
        rw [List.map_cons, List.exists_mem_cons_iff] at present
        rw [List.map_cons, List.map_cons, ih (present.resolve_left other)]

theorem absent_of_not {key : κ} {list : List (κ × ν)}
    (absent : ¬ ∃ other ∈ list.map Prod.fst, same other key = true) :
    ∀ other ∈ list.map Prod.fst, same other key = false := by
  intro other member
  rw [← Bool.not_eq_true]
  exact fun found => absent ⟨other, member, found⟩

def insertOrAssign (entries : Entries same ν) (key : κ) (value : ν) : Entries same ν where
  list := assign same key value entries.list
  unique := by
    by_cases present : ∃ other ∈ entries.list.map Prod.fst, same other key = true
    · rw [assign_present present]
      exact entries.unique
    · have absent := absent_of_not present
      rw [assign_absent absent, List.map_append, List.pairwise_append]
      refine ⟨entries.unique, List.pairwise_singleton _ _, ?_⟩
      intro other member last only
      rw [List.map_singleton, List.mem_singleton] at only
      rw [only]
      exact absent other member

end Entries

inductive Schema
  | int8
  | int16
  | int32
  | int64
  | uint8
  | uint16
  | uint32
  | uint64
  | nullptr
  | bool
  | float
  | double
  | string
  | binary
  | timePoint
  | nothing
  | pair (first second : Schema)
  | collection (item : Schema)
  | array (size : Nat) (item : Schema)
  | map (key value : Schema)
  | variant (last : Nat) (few : last < 128) (alternative : Fin (last + 1) → Schema)

/-- A type with its `==`, by which a map tells its keys apart. A map with ordered keys
finds the same ones the same, as long as none of them is a NaN. -/
structure Compared where
  Carrier : Type
  same : Carrier → Carrier → Bool

/-- Numbers by their bits: the zeros are the same, and a NaN is the same as none. -/
def sameFloating (sign infinity bits other : Nat) : Bool :=
  decide (bits % sign ≤ infinity ∧ (bits = other ∨ bits % sign = 0 ∧ other % sign = 0))

def sameEntries {κ ν : Type} (same : κ → κ → Bool) (same' : ν → ν → Bool)
    (list other : List (κ × ν)) : Bool :=
  list.length == other.length && list.all fun entry =>
    other.any fun entry' => same entry.1 entry'.1 && same' entry.2 entry'.2

def sameHeld {ι : Type} [DecidableEq ι] {α : ι → Type} (same : ∀ index, α index → α index → Bool)
    (held other : Σ index, α index) : Bool :=
  if index : held.1 = other.1 then same other.1 (index ▸ held.2) other.2 else false

namespace Schema

def compared : Schema → Compared
  | int8 => ⟨Int8, fun value other => value == other⟩
  | int16 => ⟨Int16, fun value other => value == other⟩
  | int32 => ⟨Int32, fun value other => value == other⟩
  | int64 | timePoint => ⟨Int64, fun value other => value == other⟩
  | uint8 => ⟨UInt8, fun value other => value == other⟩
  | uint16 => ⟨UInt16, fun value other => value == other⟩
  | uint32 => ⟨UInt32, fun value other => value == other⟩
  | uint64 => ⟨UInt64, fun value other => value == other⟩
  | nullptr | nothing => ⟨Unit, fun _ _ => true⟩
  | bool => ⟨Bool, fun value other => value == other⟩
  | float => ⟨UInt32, fun value other =>
      sameFloating (2 ^ 31) 0x7F800000 value.toNat other.toNat⟩
  | double => ⟨UInt64, fun value other =>
      sameFloating (2 ^ 63) 0x7FF0000000000000 value.toNat other.toNat⟩
  | string | binary => ⟨Bytes, fun value other => value == other⟩
  | pair first second => ⟨first.compared.Carrier × second.compared.Carrier, fun value other =>
      first.compared.same value.1 other.1 && second.compared.same value.2 other.2⟩
  | collection item => ⟨List item.compared.Carrier, fun items others =>
      items.isEqv others item.compared.same⟩
  | array size item => ⟨{ items : List item.compared.Carrier // items.length = size },
      fun items others => items.1.isEqv others.1 item.compared.same⟩
  | map key value => ⟨Entries key.compared.same value.compared.Carrier, fun entries others =>
      sameEntries key.compared.same value.compared.same entries.list others.list⟩
  | variant last _ alternative => ⟨Σ index : Fin (last + 1), (alternative index).compared.Carrier,
      sameHeld fun index => (alternative index).compared.same⟩

abbrev Value (type : Schema) : Type := type.compared.Carrier

abbrev same (type : Schema) : type.Value → type.Value → Bool := type.compared.same

/-- `T{}` -/
def fresh : (type : Schema) → type.Value
  | int8 => (0 : Int8)
  | int16 => (0 : Int16)
  | int32 => (0 : Int32)
  | int64 | timePoint => (0 : Int64)
  | uint8 => (0 : UInt8)
  | uint16 => (0 : UInt16)
  | uint32 | float => (0 : UInt32)
  | uint64 | double => (0 : UInt64)
  | nullptr | nothing => ()
  | bool => false
  | string | binary => ([] : Bytes)
  | pair first second => (first.fresh, second.fresh)
  | collection item => ([] : List item.Value)
  | array size item => ⟨List.replicate size item.fresh, List.length_replicate⟩
  | map _ _ => Entries.empty
  | variant _ _ alternative => ⟨0, (alternative 0).fresh⟩

def decEq : (type : Schema) → DecidableEq type.Value
  | int8 => inferInstanceAs (DecidableEq Int8)
  | int16 => inferInstanceAs (DecidableEq Int16)
  | int32 => inferInstanceAs (DecidableEq Int32)
  | int64 | timePoint => inferInstanceAs (DecidableEq Int64)
  | uint8 => inferInstanceAs (DecidableEq UInt8)
  | uint16 => inferInstanceAs (DecidableEq UInt16)
  | uint32 | float => inferInstanceAs (DecidableEq UInt32)
  | uint64 | double => inferInstanceAs (DecidableEq UInt64)
  | nullptr | nothing => inferInstanceAs (DecidableEq Unit)
  | bool => inferInstanceAs (DecidableEq Bool)
  | string | binary => inferInstanceAs (DecidableEq Bytes)
  | pair first second =>
      have := first.decEq
      have := second.decEq
      inferInstanceAs (DecidableEq (first.Value × second.Value))
  | collection item =>
      have := item.decEq
      inferInstanceAs (DecidableEq (List item.Value))
  | array size item =>
      have := item.decEq
      inferInstanceAs (DecidableEq { items : List item.Value // items.length = size })
  | map key value =>
      have := key.decEq
      have := value.decEq
      inferInstanceAs (DecidableEq (Entries key.same value.Value))
  | variant last _ alternative =>
      have := fun index => (alternative index).decEq
      inferInstanceAs (DecidableEq (Σ index : Fin (last + 1), (alternative index).Value))

instance (type : Schema) : DecidableEq type.Value := type.decEq

end Schema

end CoServer.Msgpack
