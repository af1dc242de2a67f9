import CoServer.Msgpack.Reader
import CoServer.Msgpack.Scalars

/-!
Time points: the seconds and nanoseconds that are packed, the choice of the format,
and what the unpacker makes of each.
-/

namespace CoServer.Msgpack

open FormatConstants
open Blob (readIntegral_emplace)
open Format

theorem splitCount_eq (count : Int) : splitCount count = (count / 10 ^ 9, count % 10 ^ 9) := by
  have whole := Int.tmod_add_mul_tdiv count nanoSecondsPerSecond
  have low := Int.lt_tmod_of_pos count (by decide : 0 < nanoSecondsPerSecond)
  have high := Int.tmod_lt_of_pos count (by decide : 0 < nanoSecondsPerSecond)
  rw [nanoSecondsPerSecond] at whole low high
  rw [splitCount, nanoSecondsPerSecond]
  by_cases negative : count.tmod (10 ^ 9) < 0
  · simp only [negative, if_true, Prod.mk.injEq]
    omega
  · simp only [negative, if_false, Prod.mk.injEq]
    omega

theorem data64_seconds {seconds nanoSeconds : Nat} (bound : seconds < 2 ^ 34) :
    (nanoSeconds <<< 34 ||| seconds) = 2 ^ 34 * nanoSeconds + seconds := by
  rw [← Nat.shiftLeft_add_eq_or_of_lt bound, Nat.shiftLeft_eq, Nat.mul_comm]

theorem data64_mask {seconds nanoSeconds : Nat} (bound : seconds < 2 ^ 34)
    (bound' : nanoSeconds < 2 ^ 30) :
    (2 ^ 34 * nanoSeconds + seconds) &&& 0xFFFFFFFC00000000 = 2 ^ 34 * nanoSeconds := by
  have mask : 0xFFFFFFFC00000000 = 2 ^ 34 * (2 ^ 30 - 1) := by decide
  apply Nat.eq_of_testBit_eq
  intro bit
  rw [mask, Nat.testBit_and, Nat.testBit_two_pow_mul_add _ bound, Nat.testBit_two_pow_mul,
    Nat.testBit_two_pow_mul, Nat.testBit_two_pow_sub_one]
  by_cases low : bit < 34
  · simp [low, Nat.not_le.mpr low]
  · by_cases high : bit - 34 < 30
    · simp [low, high, Bool.and_comm]
    · have beyond : nanoSeconds.testBit (bit - 34) = false :=
        Nat.testBit_lt_two_pow (Nat.lt_of_lt_of_le bound' (Nat.pow_le_pow_right (by decide) (by omega)))
      simp [low, high, beyond]
/-- The count that comes back for a packed one. Whole seconds of 33 and 34 bits are
packed in 32; the lowest second that a count can begin in is not a count itself. -/
def restoredCount (count : Int64) : Option Int64 :=
  if count.toInt < -9223372036 * 10 ^ 9 then none
  else if 2 ^ 32 * 10 ^ 9 ≤ count.toInt ∧ count.toInt % 10 ^ 9 = 0 then
    some (Int64.ofInt (count.toInt % (2 ^ 32 * 10 ^ 9)))
  else some count

theorem readTimePoint_pack {count : Int} (low : -2 ^ 63 ≤ count) (high : count < 2 ^ 63)
    (rest : Bytes) :
    readTimePoint (packTimePoint count ++ rest) =
      some ((if 2 ^ 32 * 10 ^ 9 ≤ count ∧ count % 10 ^ 9 = 0 then count / 10 ^ 9 % 2 ^ 32
        else count / 10 ^ 9, count % 10 ^ 9), rest) := by
  have type : signed 1 (UInt8.ofNat (unsigned 1 (-1))).toNat = -1 := by decide
  rw [packTimePoint, splitCount_eq]
  dsimp only
  by_cases positive : 0 ≤ count
  · have short : count / 10 ^ 9 / 2 ^ 34 = 0 := by omega
    obtain ⟨seconds, second⟩ := Int.eq_ofNat_of_zero_le (by omega : 0 ≤ count / 10 ^ 9)
    obtain ⟨nanoSeconds, nano⟩ := Int.eq_ofNat_of_zero_le (by omega : 0 ≤ count % 10 ^ 9)
    have bound : seconds < 2 ^ 34 := by omega
    have bound' : nanoSeconds < 2 ^ 30 := by omega
    rw [if_pos short, second, nano]
    simp only [Int.toNat_natCast, data64_seconds bound, data64_mask bound bound']
    by_cases whole : nanoSeconds = 0
    · subst whole
      simp only [Nat.mul_zero, Nat.zero_add, if_true, List.cons_append, readTimePoint,
        expectTimeStamp, type, Option.bind_some]
      rw [readIntegral_emplace (by omega)]
      simp only [Option.map_some, Option.some.injEq, Prod.mk.injEq, and_true]
      split <;> omega
    · rw [if_neg (by omega)]
      have fields : 2 ^ 34 * nanoSeconds + seconds < 256 ^ 8 := by omega
      have first : (2 ^ 34 * nanoSeconds + seconds) &&& 0x00000003FFFFFFFF = seconds := by
        rw [show 0x00000003FFFFFFFF = 2 ^ 34 - 1 from rfl, Nat.and_two_pow_sub_one_eq_mod]
        omega
      have second : (2 ^ 34 * nanoSeconds + seconds) >>> 34 = nanoSeconds := by
        rw [Nat.shiftRight_eq_div_pow]
        omega
      rw [List.cons_append, List.cons_append, readTimePoint, if_neg (by decide), if_pos rfl]
      simp only [expectTimeStamp, type, if_true, Option.bind_some, readIntegral_emplace fields,
        Option.map_some, first, second]
      rw [if_neg (by omega)]
  · rw [if_neg (by omega)]
    have nano : (count % 10 ^ 9).toNat < 256 ^ 4 := by omega
    rw [List.cons_append, List.cons_append, List.cons_append, readTimePoint, if_neg (by decide),
      if_neg (by decide), if_pos rfl, readIntegral_one]
    simp only [expectTimeStamp, type, if_true, Option.bind_some, List.append_assoc,
      readIntegral_emplace nano, readIntegral_emplace (unsigned_lt 8 _), Option.map_some]
    rw [signed_unsigned (by omega) (by omega), if_neg (by omega), Int.toNat_of_nonneg (by omega)]

theorem counts_restored (count : Int64) (rest : Bytes) :
    counts (if 2 ^ 32 * 10 ^ 9 ≤ count.toInt ∧ count.toInt % 10 ^ 9 = 0 then
        count.toInt / 10 ^ 9 % 2 ^ 32 else count.toInt / 10 ^ 9, count.toInt % 10 ^ 9) rest =
      given .undefined rest (restoredCount count) := by
  have low := count.le_toInt
  have high := count.toInt_lt
  rw [counts, restoredCount, toCount, nanoSecondsPerSecond]
  dsimp only
  by_cases early : count.toInt < -9223372036 * 10 ^ 9
  · have before : ¬(2 ^ 32 * 10 ^ 9 ≤ count.toInt ∧ count.toInt % 10 ^ 9 = 0) := by omega
    rw [if_pos early, if_neg before, if_neg (by omega)]
    rfl
  · rw [if_neg early]
    by_cases late : 2 ^ 32 * 10 ^ 9 ≤ count.toInt ∧ count.toInt % 10 ^ 9 = 0
    · have cut : count.toInt % 10 ^ 9 + count.toInt / 10 ^ 9 % 2 ^ 32 * 10 ^ 9 =
          count.toInt % (2 ^ 32 * 10 ^ 9) := by
        omega
      rw [if_pos late, if_pos late, if_pos (by omega), cut]
      rfl
    · have whole : count.toInt % 10 ^ 9 + count.toInt / 10 ^ 9 * 10 ^ 9 = count.toInt := by omega
      rw [if_neg late, if_neg late, if_pos (by omega), whole, Int64.ofInt_toInt]
      rfl

theorem restoredCount_same_iff {count : Int64} :
    restoredCount count = some count ↔
      -9223372036 * 10 ^ 9 ≤ count.toInt ∧
        (count.toInt < 2 ^ 32 * 10 ^ 9 ∨ count.toInt % 10 ^ 9 ≠ 0) := by
  have low := count.le_toInt
  have high := count.toInt_lt
  rw [restoredCount]
  split
  · rename_i early
    simp only [reduceCtorEq, false_iff]
    omega
  · split
    · rename_i late
      have cut : (Int64.ofInt (count.toInt % (2 ^ 32 * 10 ^ 9))).toInt =
          count.toInt % (2 ^ 32 * 10 ^ 9) :=
        Int64.toInt_ofInt_of_le (by omega) (by omega)
      rw [Option.some.injEq, ← Int64.toInt_inj, cut]
      omega
    · simp only [true_iff]
      omega

theorem unpackTimePoint_pack (left count : Int64) (rest : Bytes) :
    (unpackTimePoint left (packTimePoint count.toInt ++ rest)).result =
      given .undefined rest (restoredCount count) := by
  rw [result_unpackTimePoint, fetched_then (readTimePoint_pack count.le_toInt count.toInt_lt rest)]
  exact counts_restored count rest

end CoServer.Msgpack
