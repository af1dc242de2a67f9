import Mathlib.Algebra.Group.Nat.Defs
import Mathlib.Data.List.Basic

/-!
Decimal text in ASCII: the digits of a number, most significant first, and the
number that a text of digits stands for.
-/

namespace Decimal

def isDigit (char : UInt8) : Bool := decide (48 ≤ char.toNat ∧ char.toNat < 58)

/-- One round for each unit of fuel; more than the number is enough. -/
def digits : Nat → Nat → List UInt8
  | 0, _ => []
  | fuel + 1, number =>
      (if number < 10 then [] else digits fuel (number / 10)) ++ [UInt8.ofNat (48 + number % 10)]

def text (number : Nat) : List UInt8 := digits (number + 1) number

def value (text : List UInt8) : Nat := text.foldl (fun sum char => sum * 10 + (char.toNat - 48)) 0

theorem digits_fuel {fuel other number : Nat} (enough : number < fuel) (enough' : number < other) :
    digits fuel number = digits other number := by
  induction fuel generalizing other number with
  | zero => omega
  | succ fuel ih =>
      cases other with
      | zero => omega
      | succ other =>
          by_cases small : number < 10
          · simp only [digits, small, ↓reduceIte]
          · have quotient : digits fuel (number / 10) = digits other (number / 10) :=
              ih (by omega) (by omega)
            simp only [digits, small, ↓reduceIte, quotient]

theorem text_eq (number : Nat) : text number =
    (if number < 10 then [] else text (number / 10)) ++ [UInt8.ofNat (48 + number % 10)] := by
  rw [text, digits]
  by_cases small : number < 10
  · simp only [small, ↓reduceIte]
  · have quotient : digits number (number / 10) = text (number / 10) :=
      digits_fuel (by omega) (by omega)
    rw [if_neg small, if_neg small, quotient]

theorem digit_toNat (number : Nat) : (UInt8.ofNat (48 + number % 10)).toNat = 48 + number % 10 := by
  rw [UInt8.toNat_ofNat']
  omega

theorem text_ne_nil (number : Nat) : text number ≠ [] := by
  rw [text_eq]
  simp

theorem text_isDigit (number : Nat) : ∀ char ∈ text number, isDigit char = true := by
  induction number using Nat.strongRecOn with
  | _ number ih =>
      intro char member
      rw [text_eq] at member
      rcases List.mem_append.mp member with front | last
      · by_cases small : number < 10
        · simp [small] at front
        · rw [if_neg small] at front
          exact ih (number / 10) (by omega) char front
      · rw [List.mem_singleton.mp last, isDigit, digit_toNat, decide_eq_true_iff]
        omega

theorem value_text (number : Nat) : value (text number) = number := by
  induction number using Nat.strongRecOn with
  | _ number ih =>
      rw [text_eq, value, List.foldl_append, List.foldl_cons, List.foldl_nil, digit_toNat]
      by_cases small : number < 10
      · simp only [small, ↓reduceIte, List.foldl_nil]
        omega
      · have quotient := ih (number / 10) (by omega)
        rw [value] at quotient
        rw [if_neg small, quotient]
        omega

theorem text_length {count number : Nat} (positive : 0 < count) (bound : number < 10 ^ count) :
    (text number).length ≤ count := by
  induction count generalizing number with
  | zero => omega
  | succ count ih =>
      rw [text_eq, List.length_append, List.length_singleton]
      by_cases small : number < 10
      · simp [small]
      · have more : 0 < count := by
          by_contra none
          simp only [Nat.eq_zero_of_not_pos none, Nat.zero_add, Nat.pow_one] at bound
          omega
        have quotient : number / 10 < 10 ^ count := by
          rw [Nat.pow_succ] at bound
          omega
        have shorter := ih more quotient
        rw [if_neg small]
        omega

end Decimal
