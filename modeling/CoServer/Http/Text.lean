import CoServer.Error
import CoServer.Foundation.Decimal
import CoServer.Foundation.Splice
import Mathlib.Data.List.TakeWhile

/-!
Text as bytes, the numbers and the searches in it, and the loop that splits a
path at its slashes. The router runs that loop over a registered path and the
request over its target.
-/

namespace CoServer

def ascii (text : String) : Bytes := text.toList.map fun char => UInt8.ofNat char.toNat

namespace Http

open Splice

/-- `std::to_chars` of an integer, into a buffer that is large enough. -/
def toChars : Int → Bytes
  | .ofNat number => Decimal.text number
  | .negSucc number => 0x2d :: Decimal.text (number + 1)

/-- `std::from_chars` into a `size_t`; `none` leaves the value as it was. -/
def fromChars (text : Bytes) : Option Nat :=
  let digits := text.takeWhile Decimal.isDigit
  if digits = [] then none
  else if Decimal.value digits < sizeModulus then some (Decimal.value digits) else none

def lower (text : Bytes) : Bytes :=
  text.map fun char => if 0x41 ≤ char ∧ char ≤ 0x5a then char + 0x20 else char

def slash : UInt8 := 0x2f

/-- `find` of a character, from a position on. -/
def findChar (text : Bytes) (char : UInt8) (start : Nat) : Option Nat :=
  ((text.drop start).findIdx? (· == char)).map (start + ·)

/-- One round for each unit of fuel; the length of the path is enough. -/
def splitLoop (path : Bytes) : Nat → Nat → List Span
  | 0, _ => []
  | fuel + 1, start =>
      if start < path.length then
        match findChar path slash start with
        | some found =>
            if found = start then splitLoop path fuel (start + 1)
            else ⟨start, found - start⟩ :: splitLoop path fuel (found + 1)
        | none => ⟨start, path.length - start⟩ :: splitLoop path fuel (path.length + 1)
      else []

/-- The segments of a path, with an empty one for a slash at its end; `back()` of
an empty path is undefined. -/
def splitPath (path : Bytes) : Option (List Span) :=
  match path.getLast? with
  | none => none
  | some last =>
      some (splitLoop path path.length 0 ++ if last = slash then [⟨path.length, 0⟩] else [])

/-- The pieces of a path between its slashes that are not empty, and an empty one
for a slash at its end. -/
def pieces (path : Bytes) : List Bytes :=
  (path.splitOn slash).filter (fun piece => !piece.isEmpty) ++
    if path.getLast? = some slash then [[]] else []

theorem fromChars_text {number : Nat} (bound : number < sizeModulus) :
    fromChars (Decimal.text number) = some number := by
  have digits : (Decimal.text number).takeWhile Decimal.isDigit = Decimal.text number := by
    rw [List.takeWhile_eq_self_iff]
    exact Decimal.text_isDigit number
  simp only [fromChars, digits, Decimal.text_ne_nil, ↓reduceIte, Decimal.value_text, bound]

theorem findChar_some {text : Bytes} {char : UInt8} {start found : Nat}
    (at_ : findChar text char start = some found) :
    start ≤ found ∧ found < text.length ∧ text.drop start =
      window text start (found - start) ++ char :: text.drop (found + 1) ∧
      char ∉ window text start (found - start) := by
  simp only [findChar, Option.map_eq_some_iff] at at_
  obtain ⟨index, there, rfl⟩ := at_
  obtain ⟨bound, here, before⟩ := List.findIdx?_eq_some_iff_getElem.mp there
  rw [beq_iff_eq] at here
  rw [List.length_drop] at bound
  have offset : start + index - start = index := by omega
  refine ⟨Nat.le_add_right _ _, by omega, ?_, ?_⟩
  · have rest : char :: (text.drop start).drop (index + 1) = (text.drop start).drop index := by
      rw [← here, List.getElem_cons_drop]
    rw [offset, window, Nat.add_assoc, ← List.drop_drop, rest, List.take_append_drop]
  · rw [offset, window]
    intro member
    obtain ⟨position, inside, same⟩ := List.getElem_of_mem member
    rw [List.length_take] at inside
    have different := before position (by omega)
    rw [List.getElem_take] at same
    simp [same] at different

theorem findChar_none {text : Bytes} {char : UInt8} {start : Nat}
    (nowhere : findChar text char start = none) : char ∉ text.drop start := by
  simp only [findChar, Option.map_eq_none_iff, List.findIdx?_eq_none_iff, beq_eq_false_iff_ne] at nowhere
  exact fun member => nowhere char member rfl

theorem splitLoop_pieces (path : Bytes) (fuel start : Nat) (enough : path.length ≤ start + fuel) :
    (splitLoop path fuel start).map (fun span => window path span.position span.length) =
      ((path.drop start).splitOn slash).filter (fun piece => !piece.isEmpty) := by
  induction fuel generalizing start with
  | zero =>
      rw [List.drop_of_length_le (by omega)]
      simp [splitLoop]
  | succ fuel ih =>
      by_cases inside : start < path.length
      · cases next : findChar path slash start with
        | none =>
            have whole : path.drop start ≠ [] := by
              simpa using inside
            have single : (path.drop start).splitOn slash = [path.drop start] := by
              refine List.splitOnP_eq_singleton fun char member => ?_
              rw [beq_eq_false_iff_ne]
              rintro rfl
              exact findChar_none next member
            have window_ : window path start (path.length - start) = path.drop start := by
              rw [window, List.take_of_length_le (Nat.le_of_eq List.length_drop)]
            have ended := ih (path.length + 1) (by omega)
            rw [List.drop_of_length_le (by omega)] at ended
            simp only [splitLoop, inside, ↓reduceIte, next, List.map_cons, window_, ended, single]
            simp [whole]
        | some found =>
            obtain ⟨order, bound, split, clean⟩ := findChar_some next
            have cut : (path.drop start).splitOn slash =
                window path start (found - start) :: (path.drop (found + 1)).splitOn slash := by
              rw [split]
              refine List.splitOnP_append_cons_of_forall_mem ?_ slash (by simp) _
              intro char member
              rw [beq_eq_false_iff_ne]
              rintro rfl
              exact clean member
            by_cases here : found = start
            · subst here
              simp only [splitLoop, inside, ↓reduceIte, next]
              rw [ih (found + 1) (by omega), cut]
              simp
            · have some_ : window path start (found - start) ≠ [] := by
                intro none
                have length := congrArg List.length none
                rw [window_length (by omega), List.length_nil] at length
                omega
              simp only [splitLoop, inside, ↓reduceIte, next, here, List.map_cons]
              rw [ih (found + 1) (by omega), cut]
              simp [some_]
      · rw [List.drop_of_length_le (by omega)]
        simp [splitLoop, inside]

theorem splitPath_pieces {path : Bytes} {spans : List Span} (split : splitPath path = some spans) :
    spans.map (fun span => window path span.position span.length) = pieces path := by
  cases last : path.getLast? with
  | none => simp [splitPath, last] at split
  | some char =>
      simp only [splitPath, last, Option.some.injEq] at split
      subst split
      rw [List.map_append, splitLoop_pieces path path.length 0 (by omega), List.drop_zero, pieces, last]
      by_cases trailing : char = slash
      · simp [trailing]
      · simp [trailing]

theorem splitPath_some {path : Bytes} (some_ : path ≠ []) : ∃ spans, splitPath path = some spans := by
  rw [splitPath, List.getLast?_eq_some_getLast some_]
  exact ⟨_, rfl⟩

end Http

end CoServer
