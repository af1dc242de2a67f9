import Mathlib.Algebra.Group.Nat.Defs
import Mathlib.Data.List.Basic

/-!
Unsigned integers in memory, least significant byte first, and the exchange of
byte order as the reversal of that memory.
-/

namespace LittleEndian

def bytes : Nat → Nat → List UInt8
  | 0, _ => []
  | count + 1, value => UInt8.ofNat value :: bytes count (value / 256)

def value : List UInt8 → Nat
  | [] => 0
  | byte :: rest => byte.toNat + 256 * value rest

/-- The value whose memory is the reversed memory of the given one. -/
def swap (count number : Nat) : Nat := value (bytes count number).reverse

@[simp] theorem bytes_length (count number : Nat) : (bytes count number).length = count := by
  induction count generalizing number with
  | zero => rfl
  | succ count ih => simp [bytes, ih]

theorem bytes_value (memory : List UInt8) : bytes memory.length (value memory) = memory := by
  induction memory with
  | nil => rfl
  | cons byte rest ih =>
      have bound := byte.toNat_lt
      have high : (byte.toNat + 256 * value rest) / 256 = value rest := by omega
      have low : UInt8.ofNat (byte.toNat + 256 * value rest) = byte := by
        apply UInt8.toNat_inj.mp
        rw [UInt8.toNat_ofNat']
        omega
      simp only [List.length_cons, bytes, value, high, low, ih]

theorem value_bytes {count number : Nat} (bound : number < 256 ^ count) :
    value (bytes count number) = number := by
  induction count generalizing number with
  | zero =>
      simp only [Nat.pow_zero] at bound
      simp only [bytes, value]
      omega
  | succ count ih =>
      have quotient : number / 256 < 256 ^ count := by
        rw [Nat.pow_succ] at bound
        omega
      simp only [bytes, value, ih quotient, UInt8.toNat_ofNat']
      omega

theorem value_lt (memory : List UInt8) : value memory < 256 ^ memory.length := by
  induction memory with
  | nil => simp [value]
  | cons byte rest ih =>
      have bound := byte.toNat_lt
      simp only [value, List.length_cons, Nat.pow_succ]
      omega

theorem swap_lt (count number : Nat) : swap count number < 256 ^ count := by
  have bound := value_lt (bytes count number).reverse
  rwa [List.length_reverse, bytes_length] at bound

theorem bytes_swap (count number : Nat) :
    bytes count (swap count number) = (bytes count number).reverse := by
  have memory := bytes_value (bytes count number).reverse
  rwa [List.length_reverse, bytes_length] at memory

theorem bytes_swap_value {memory : List UInt8} {count : Nat} (whole : memory.length = count) :
    bytes count (swap count (value memory)) = memory.reverse := by
  subst whole
  rw [bytes_swap, bytes_value]

end LittleEndian
