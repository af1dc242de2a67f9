import CoServer.Msgpack.Unpacker
import Mathlib.Tactic.Linarith
import Mathlib.Tactic.SplitIfs

/-!
What the unpacker makes of one packed integer, string, byte vector, header or time
point, whatever follows it.
-/

namespace CoServer.Msgpack

open FormatConstants
open Blob (readIntegral_emplace)

section Integral

theorem readIntegral_one (byte : UInt8) (rest : Bytes) :
    readIntegral 1 (byte :: rest) = some (byte.toNat, rest) := by
  simp [readIntegral, LittleEndian.value]

theorem signed_unsigned {width : Nat} {value : Int} (low : -256 ^ width ≤ 2 * value)
    (high : 2 * value < 256 ^ width) : signed width (unsigned width value) = value := by
  have positive : (0 : Int) < 256 ^ width := by positivity
  rw [signed, unsigned, Int.toNat_of_nonneg (Int.emod_nonneg _ (by omega))]
  have same := Int.emod_bmod value (256 ^ width)
  push_cast at same ⊢
  rw [same]
  apply Int.bmod_eq_of_le_mul_two
  · push_cast
    omega
  · push_cast
    omega

theorem unsigned_lt (width : Nat) (value : Int) : unsigned width value < 256 ^ width := by
  have positive : (0 : Int) < 256 ^ width := by positivity
  have bound := Int.emod_lt_of_pos value positive
  have nonnegative := Int.emod_nonneg value (by omega : (256 : Int) ^ width ≠ 0)
  rw [unsigned]
  zify
  rw [Int.toNat_of_nonneg nonnegative]
  exact bound

end Integral

section Signed

variable {value : Int}

theorem unsigned_one_toNat (value : Int) :
    ((UInt8.ofNat (unsigned 1 value)).toNat : Int) = value % 256 := by
  have bound := unsigned_lt 1 value
  rw [UInt8.toNat_ofNat', Nat.mod_eq_of_lt (by simpa using bound), unsigned,
    Int.toNat_of_nonneg (Int.emod_nonneg _ (by decide))]
  rfl

theorem signed_byte (low : -2 ^ 7 ≤ value) (high : value < 2 ^ 7) :
    signed 1 (UInt8.ofNat (unsigned 1 value)).toNat = value := by
  have bound := unsigned_lt 1 value
  rw [UInt8.toNat_ofNat', Nat.mod_eq_of_lt (by simpa using bound)]
  exact signed_unsigned (by omega) (by omega)

/-- The values of a `positive fixint` or a `negative fixint`. -/
def Fixint (value : Int) : Prop := -2 ^ 5 ≤ value ∧ value < 2 ^ 5

instance (value : Int) : Decidable (Fixint value) := inferInstanceAs (Decidable (_ ∧ _))

theorem fixint_ne {constant : UInt8} (fix : Fixint value) (low : 0x20 ≤ constant.toNat)
    (high : constant.toNat < 0xe0) : UInt8.ofNat (unsigned 1 value) ≠ constant := by
  intro same
  have byte := unsigned_one_toNat value
  rw [same] at byte
  obtain ⟨least, most⟩ := fix
  omega

theorem packInt8_fixint (fix : Fixint value) :
    packInt8 value = [UInt8.ofNat (unsigned 1 value)] := by
  obtain ⟨least, most⟩ := fix
  rw [packInt8, if_neg (by omega), List.nil_append]

theorem packInt8_large (large : ¬Fixint value) :
    packInt8 value = [int8, UInt8.ofNat (unsigned 1 value)] := by
  rw [Fixint] at large
  rw [packInt8, if_pos (by omega), List.singleton_append]

theorem unpackInt8_pack (low : -2 ^ 7 ≤ value) (high : value < 2 ^ 7) (rest : Bytes) :
    unpackInt8 (packInt8 value ++ rest) = some (value, rest) := by
  by_cases fix : Fixint value
  · rw [packInt8_fixint fix, List.singleton_append, unpackInt8,
      if_neg (fixint_ne fix (by decide) (by decide)), takeByte]
    simp only [Option.map_some, signed_byte low high]
  · rw [packInt8_large fix]
    simp only [List.cons_append, List.nil_append, unpackInt8, if_true, takeByte, Option.map_some,
      signed_byte low high]

theorem unpackInt16_fixint (fix : Fixint value) (rest : Bytes) :
    unpackInt16 (packInt8 value ++ rest) = some (value, rest) := by
  rw [packInt8_fixint fix, List.singleton_append, unpackInt16,
    if_neg (fixint_ne fix (by decide) (by decide)), if_neg (fixint_ne fix (by decide) (by decide)),
    signed_byte (by have := fix.1; omega) (by have := fix.2; omega)]

theorem unpackInt16_pack (low : -2 ^ 15 ≤ value) (high : value < 2 ^ 15) (rest : Bytes) :
    unpackInt16 (packInt16 value ++ rest) = some (value, rest) := by
  rw [packInt16]
  split
  · rename_i narrow
    by_cases fix : Fixint value
    · exact unpackInt16_fixint fix rest
    · have inner : unpackInt8 (packInt8 value ++ rest) = some (value, rest) :=
        unpackInt8_pack (by omega) (by omega) rest
      rw [packInt8_large fix] at inner ⊢
      exact inner
  · simp only [emplaceCombined, List.cons_append, unpackInt16, if_true]
    simp only [readIntegral_emplace (unsigned_lt 2 value), Option.map_some]
    rw [signed_unsigned (by omega) (by omega)]

/-- What the two wider types make of a value: the byte of a `negative fixint` is not
extended by its sign. -/
def unextended (value : Int) : Int := if -2 ^ 5 ≤ value ∧ value < 0 then value + 2 ^ 8 else value

theorem unextended_fixint (fix : Fixint value) :
    ((UInt8.ofNat (unsigned 1 value)).toNat : Int) = unextended value := by
  obtain ⟨least, most⟩ := fix
  rw [unsigned_one_toNat, unextended]
  split <;> omega

theorem unextended_large (large : ¬Fixint value) : unextended value = value := by
  rw [Fixint] at large
  exact if_neg (by omega)

theorem packInt16_fixint (fix : Fixint value) : packInt16 value = packInt8 value := by
  obtain ⟨least, most⟩ := fix
  exact if_pos (by omega)

theorem packInt16_head (large : ¬Fixint value) :
    ∃ constant rest, packInt16 value = constant :: rest ∧ (constant = int16 ∨ constant = int8) := by
  rw [packInt16]
  split
  · exact ⟨_, _, packInt8_large large, Or.inr rfl⟩
  · exact ⟨_, _, rfl, Or.inl rfl⟩

theorem unpackInt32_eq {constant : UInt8} (narrow : constant = int16 ∨ constant = int8)
    (rest : Bytes) : unpackInt32 (constant :: rest) = unpackInt16 (constant :: rest) := by
  rcases narrow with rfl | rfl
  · rw [unpackInt32, if_neg (by decide), if_pos rfl]
  · rw [unpackInt32, if_neg (by decide), if_neg (by decide), if_pos rfl, unpackInt16,
      if_neg (by decide), if_pos rfl]

theorem unpackInt64_eq {constant : UInt8} (other : constant ≠ int64) (rest : Bytes) :
    unpackInt64 (constant :: rest) = unpackInt32 (constant :: rest) := by
  rw [unpackInt64, if_neg other]
  split
  · rfl
  · rename_i narrower
    rw [unpackInt32, if_neg narrower]

theorem unpackInt32_narrow (low : -2 ^ 15 ≤ value) (high : value < 2 ^ 15) (rest : Bytes) :
    unpackInt32 (packInt16 value ++ rest) = some (unextended value, rest) := by
  by_cases fix : Fixint value
  · rw [packInt16_fixint fix, packInt8_fixint fix, List.singleton_append, unpackInt32,
      if_neg (fixint_ne fix (by decide) (by decide)), if_neg (fixint_ne fix (by decide) (by decide)),
      if_neg (fixint_ne fix (by decide) (by decide)), unextended_fixint fix]
  · have narrow := unpackInt16_pack low high rest
    rw [unextended_large fix, ← narrow]
    obtain ⟨constant, behind, head, narrower⟩ := packInt16_head fix
    rw [head, List.cons_append, unpackInt32_eq narrower]

theorem unpackInt32_pack (low : -2 ^ 31 ≤ value) (high : value < 2 ^ 31) (rest : Bytes) :
    unpackInt32 (packInt32 value ++ rest) = some (unextended value, rest) := by
  rw [packInt32]
  split
  · exact unpackInt32_narrow (by omega) (by omega) rest
  · have large : ¬Fixint value := by
      rw [Fixint]
      omega
    simp only [emplaceCombined, List.cons_append, unpackInt32, if_true,
      readIntegral_emplace (unsigned_lt 4 value), Option.map_some, unextended_large large]
    rw [signed_unsigned (by omega) (by omega)]

theorem packInt32_fixint (fix : Fixint value) : packInt32 value = packInt8 value := by
  rw [packInt32, if_pos (by rw [Fixint] at fix; omega), packInt16_fixint fix]

theorem packInt32_head (value : Int) :
    ∃ constant rest, packInt32 value = constant :: rest ∧ constant ≠ int64 := by
  by_cases fix : Fixint value
  · exact ⟨_, [], by rw [packInt32_fixint fix, packInt8_fixint fix],
      fixint_ne fix (by decide) (by decide)⟩
  · rw [packInt32]
    split
    · obtain ⟨constant, rest, head, narrow⟩ := packInt16_head fix
      refine ⟨constant, rest, head, ?_⟩
      rcases narrow with rfl | rfl
      · decide
      · decide
    · exact ⟨_, _, rfl, by decide⟩

theorem unpackInt64_narrow (low : -2 ^ 31 ≤ value) (high : value < 2 ^ 31) (rest : Bytes) :
    unpackInt64 (packInt32 value ++ rest) = some (unextended value, rest) := by
  have narrow := unpackInt32_pack low high rest
  obtain ⟨constant, behind, head, other⟩ := packInt32_head value
  rw [head, List.cons_append] at narrow ⊢
  rw [unpackInt64_eq other, narrow]

theorem unpackInt64_pack (low : -2 ^ 63 ≤ value) (high : value < 2 ^ 63) (rest : Bytes) :
    unpackInt64 (packInt64 value ++ rest) = some (unextended value, rest) := by
  rw [packInt64]
  split
  · exact unpackInt64_narrow (by omega) (by omega) rest
  · have large : ¬Fixint value := by
      rw [Fixint]
      omega
    simp only [emplaceCombined, List.cons_append, unpackInt64, if_true,
      readIntegral_emplace (unsigned_lt 8 value), Option.map_some, unextended_large large]
    rw [signed_unsigned (by omega) (by omega)]

end Signed

section Unsigned

variable {value : Nat}

theorem unpackUInt16_eq {constant : UInt8} (other : constant ≠ uint16) (rest : Bytes) :
    unpackUInt16 (constant :: rest) = unpackUInt8 (constant :: rest) := if_neg other

theorem unpackUInt32_eq {constant : UInt8} (other : constant ≠ uint32) (rest : Bytes) :
    unpackUInt32 (constant :: rest) = unpackUInt16 (constant :: rest) := if_neg other

theorem unpackUInt64_eq {constant : UInt8} (other : constant ≠ uint64) (rest : Bytes) :
    unpackUInt64 (constant :: rest) = unpackUInt32 (constant :: rest) := if_neg other

theorem packUInt8_head (bound : value < 2 ^ 8) :
    ∃ constant rest, packUInt8 value = constant :: rest ∧ constant.toNat ≤ uint8.toNat := by
  rw [packUInt8]
  split
  · rename_i small
    refine ⟨_, _, rfl, ?_⟩
    rw [UInt8.toNat_ofNat']
    change value % 2 ^ 8 ≤ 0xcc
    omega
  · exact ⟨_, _, rfl, le_rfl⟩

theorem packUInt16_head (bound : value < 2 ^ 16) :
    ∃ constant rest, packUInt16 value = constant :: rest ∧ constant.toNat ≤ uint16.toNat := by
  rw [packUInt16]
  split
  · exact ⟨_, _, rfl, le_rfl⟩
  · obtain ⟨constant, rest, head, low⟩ := packUInt8_head (by omega : value < 2 ^ 8)
    exact ⟨constant, rest, head, Nat.le_succ_of_le low⟩

theorem packUInt32_head (bound : value < 2 ^ 32) :
    ∃ constant rest, packUInt32 value = constant :: rest ∧ constant.toNat ≤ uint32.toNat := by
  rw [packUInt32]
  split
  · exact ⟨_, _, rfl, le_rfl⟩
  · obtain ⟨constant, rest, head, low⟩ := packUInt16_head (by omega : value < 2 ^ 16)
    exact ⟨constant, rest, head, Nat.le_succ_of_le low⟩

theorem constant_ne {constant format : UInt8} (low : constant.toNat < format.toNat) :
    constant ≠ format := by
  rintro rfl
  exact Nat.lt_irrefl _ low

theorem unpackUInt8_pack (bound : value < 2 ^ 8) (rest : Bytes) :
    unpackUInt8 (packUInt8 value ++ rest) = some (value, rest) := by
  have byte : (UInt8.ofNat value).toNat = value := by
    rw [UInt8.toNat_ofNat', Nat.mod_eq_of_lt bound]
  rw [packUInt8]
  split
  · rename_i small
    have other : UInt8.ofNat value ≠ uint8 := by
      apply constant_ne
      rw [byte]
      exact Nat.lt_trans small (by decide)
    rw [List.singleton_append, unpackUInt8, if_neg other, takeByte, byte]
  · rw [List.cons_append, List.singleton_append, unpackUInt8, if_pos rfl, takeByte, byte]

theorem unpackUInt16_pack (bound : value < 2 ^ 16) (rest : Bytes) :
    unpackUInt16 (packUInt16 value ++ rest) = some (value, rest) := by
  rw [packUInt16]
  split
  · rw [emplaceCombined, List.cons_append, unpackUInt16, if_pos rfl, readIntegral_emplace bound]
  · have inner : unpackUInt8 (packUInt8 value ++ rest) = some (value, rest) :=
      unpackUInt8_pack (by omega) rest
    obtain ⟨constant, behind, head, low⟩ := packUInt8_head (by omega : value < 2 ^ 8)
    rw [head, List.cons_append] at inner ⊢
    rw [unpackUInt16_eq (constant_ne (Nat.lt_of_le_of_lt low (by decide))), inner]

theorem unpackUInt32_pack (bound : value < 2 ^ 32) (rest : Bytes) :
    unpackUInt32 (packUInt32 value ++ rest) = some (value, rest) := by
  rw [packUInt32]
  split
  · rw [emplaceCombined, List.cons_append, unpackUInt32, if_pos rfl, readIntegral_emplace bound]
  · have inner : unpackUInt16 (packUInt16 value ++ rest) = some (value, rest) :=
      unpackUInt16_pack (by omega) rest
    obtain ⟨constant, behind, head, low⟩ := packUInt16_head (by omega : value < 2 ^ 16)
    rw [head, List.cons_append] at inner ⊢
    rw [unpackUInt32_eq (constant_ne (Nat.lt_of_le_of_lt low (by decide))), inner]

theorem unpackUInt64_pack (bound : value < 2 ^ 64) (rest : Bytes) :
    unpackUInt64 (packUInt64 value ++ rest) = some (value, rest) := by
  rw [packUInt64]
  split
  · rw [emplaceCombined, List.cons_append, unpackUInt64, if_pos rfl, readIntegral_emplace bound]
  · have inner : unpackUInt32 (packUInt32 value ++ rest) = some (value, rest) :=
      unpackUInt32_pack (by omega) rest
    obtain ⟨constant, behind, head, low⟩ := packUInt32_head (by omega : value < 2 ^ 32)
    rw [head, List.cons_append] at inner ⊢
    rw [unpackUInt64_eq (constant_ne (Nat.lt_of_le_of_lt low (by decide))), inner]

end Unsigned

section Sized

theorem or_toNat (bits high : Nat) {size : Nat} {mask : UInt8} (bound : size < 2 ^ bits)
    (same : mask.toNat = 2 ^ bits * high) (fits : bits ≤ 8) :
    (UInt8.ofNat size ||| mask).toNat = 2 ^ bits * high + size := by
  have small : size < 2 ^ 8 := Nat.lt_of_lt_of_le bound (Nat.pow_le_pow_right (by decide) fits)
  rw [UInt8.toNat_or, UInt8.toNat_ofNat', Nat.mod_eq_of_lt small, same, Nat.or_comm,
    ← Nat.two_pow_add_eq_or_of_lt bound]

theorem and_toNat {size high bits : Nat} {byte mask : UInt8} (bound : size < 2 ^ bits)
    (sum : byte.toNat = 2 ^ bits * high + size) (low : mask.toNat = 2 ^ bits - 1) :
    (byte &&& mask).toNat = size := by
  rw [UInt8.toNat_and, sum, low, Nat.and_two_pow_sub_one_eq_mod, Nat.mul_add_mod,
    Nat.mod_eq_of_lt bound]

/-- The header of a collection and of a map, each with its own constants. -/
theorem unpackHeader_pack {sizeMask constant16 constant32 : UInt8} (high : Nat) {size : Nat}
    {bytes : Bytes} (mask : sizeMask.toNat = 2 ^ 4 * high)
    (apart16 : 2 ^ 4 * high + 16 ≤ constant16.toNat) (apart : constant16.toNat < constant32.toNat)
    (packed : packHeader sizeMask constant16 constant32 size = (bytes, true)) (rest : Bytes) :
    unpackHeader constant16 constant32 (bytes ++ rest) = some (size, rest) := by
  rw [packHeader] at packed
  split_ifs at packed with small bound16 bound32
  · cases packed
    have byte := or_toNat 4 high small mask (by decide)
    rw [List.singleton_append, unpackHeader, if_neg (constant_ne (by omega)),
      if_neg (constant_ne (by omega)), and_toNat small byte rfl]
  · cases packed
    rw [emplaceCombined, List.cons_append, unpackHeader, if_neg (constant_ne apart), if_pos rfl,
      readIntegral_emplace (by omega)]
  · cases packed
    rw [emplaceCombined, List.cons_append, unpackHeader, if_pos rfl, readIntegral_emplace (by omega)]
  · cases packed

theorem unpackArrayHeader_pack {size : Nat} {bytes : Bytes}
    (packed : packArrayHeader size = (bytes, true)) (rest : Bytes) :
    unpackArrayHeader (bytes ++ rest) = some (size, rest) :=
  unpackHeader_pack 9 rfl (by decide) (by decide) packed rest

theorem unpackMapHeader_pack {size : Nat} {bytes : Bytes}
    (packed : packMapHeader size = (bytes, true)) (rest : Bytes) :
    unpackMapHeader (bytes ++ rest) = some (size, rest) :=
  unpackHeader_pack 8 rfl (by decide) (by decide) packed rest

theorem readBytes_append (bytes rest : Bytes) :
    readBytes bytes.length (bytes ++ rest) = some (bytes, rest) := by
  simp [readBytes]

theorem unpackString_pack {value bytes : Bytes} (packed : packString value = (bytes, true))
    (rest : Bytes) : unpackString (bytes ++ rest) = some (value, rest) := by
  rw [packString] at packed
  split_ifs at packed with small bound8 bound16 bound32
  · cases packed
    have byte := or_toNat 5 5 small (rfl : (0xa0 : UInt8).toNat = _) (by decide)
    have size : ((UInt8.ofNat value.length ||| 0xa0) &&& 0x1f).toNat = value.length :=
      and_toNat small byte rfl
    have below : (UInt8.ofNat value.length ||| 0xa0).toNat < 0xc0 := by omega
    rw [List.cons_append, unpackString, if_neg (constant_ne (Nat.lt_trans below (by decide))),
      if_neg (constant_ne (Nat.lt_trans below (by decide))),
      if_neg (constant_ne (Nat.lt_trans below (by decide)))]
    simp only [Option.bind_some, size, readBytes_append]
  · cases packed
    have size : (UInt8.ofNat value.length).toNat = value.length := by
      rw [UInt8.toNat_ofNat', Nat.mod_eq_of_lt (by omega)]
    rw [List.cons_append, List.cons_append, unpackString, if_neg (by decide), if_neg (by decide),
      if_pos rfl, readIntegral_one]
    simp only [Option.bind_some, size, readBytes_append]
  · cases packed
    rw [emplaceCombined, List.cons_append, List.cons_append, unpackString, if_neg (by decide),
      if_pos rfl, List.append_assoc, readIntegral_emplace (by omega)]
    simp only [Option.bind_some, readBytes_append]
  · cases packed
    rw [emplaceCombined, List.cons_append, List.cons_append, unpackString, if_pos rfl,
      List.append_assoc, readIntegral_emplace (by omega)]
    simp only [Option.bind_some, readBytes_append]
  · cases packed

theorem unpackBinary_pack {value bytes : Bytes} (packed : packBinary value = (bytes, true))
    (rest : Bytes) : unpackBinary (bytes ++ rest) = some (value, rest) := by
  simp only [packBinary, Blob.pack] at packed
  split_ifs at packed with bound8 bound16 bound32
  · cases packed
    have size : (UInt8.ofNat value.length).toNat = value.length := by
      rw [UInt8.toNat_ofNat', Nat.mod_eq_of_lt (by omega)]
    rw [List.cons_append, List.cons_append, unpackBinary, if_neg (by decide), if_neg (by decide),
      if_pos rfl, readIntegral_one]
    simp only [Option.bind_some, size, readBytes_append]
  · cases packed
    rw [List.cons_append, List.cons_append, unpackBinary, if_neg (by decide),
      if_pos rfl, List.append_assoc, readIntegral_emplace (by omega)]
    simp only [Option.bind_some, readBytes_append]
  · cases packed
    rw [List.cons_append, List.cons_append, unpackBinary, if_pos rfl, List.append_assoc,
      readIntegral_emplace (by omega)]
    simp only [Option.bind_some, readBytes_append]
  · cases packed

theorem signed_index {index : Nat} (few : index < 128) : signed 1 index = index := by
  have same : unsigned 1 index = index := by
    rw [unsigned]
    omega
  have back : signed 1 (unsigned 1 index) = index := signed_unsigned (by omega) (by omega)
  rwa [same] at back

theorem unpackVariantHeader_pack {size index : Nat} {bytes : Bytes} (few : index < 128)
    (packed : packVariantHeader size = (bytes, true)) (rest : Bytes) :
    unpackVariantHeader (bytes ++ UInt8.ofNat index :: rest) = some ((size, (index : Int)), rest) := by
  have byte : signed 1 (UInt8.ofNat index).toNat = index := by
    rw [UInt8.toNat_ofNat', Nat.mod_eq_of_lt (by omega), signed_index few]
  have read : (readIntegral 1 (UInt8.ofNat index :: rest)).map
      (fun after => ((size, signed 1 after.1), after.2)) = some ((size, (index : Int)), rest) := by
    rw [readIntegral_one, Option.map_some, byte]
  have extended : ∀ width, size < 256 ^ width →
      ((readIntegral width (emplaceIntegral width size ++ UInt8.ofNat index :: rest)).bind fun after =>
        (readIntegral 1 after.2).map fun after' => ((after.1, signed 1 after'.1), after'.2)) =
        some ((size, (index : Int)), rest) := by
    intro width bound
    rw [readIntegral_emplace bound, Option.bind_some]
    exact read
  rw [packVariantHeader] at packed
  split_ifs at packed with one two four eight sixteen bound8 bound16 bound32
  · subst one
    cases packed
    exact read
  · subst two
    cases packed
    exact read
  · subst four
    cases packed
    exact read
  · subst eight
    cases packed
    exact read
  · subst sixteen
    cases packed
    exact read
  · cases packed
    exact extended 1 (by omega)
  · cases packed
    exact extended 2 (by omega)
  · cases packed
    exact extended 4 (by omega)
  · cases packed

end Sized

end CoServer.Msgpack
