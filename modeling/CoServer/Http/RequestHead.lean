import CoServer.Http.PicoHttp

/-!
The heads that picohttpparser accepts, as a grammar: an optional empty line, the
request line, the lines of the fields, and an empty line. A line ends with CRLF or
with LF alone, and a line that starts with a blank continues the field before it.
The parser accepts exactly the texts of these heads, and reports what they hold.
-/

namespace CoServer.Http

open Scanning Scanner

inductive LineEnd
  | crlf
  | lf
  deriving DecidableEq, Repr

def LineEnd.text : LineEnd → Bytes
  | .crlf => [cr, Http.lf]
  | .lf => [Http.lf]

def isBlank (char : UInt8) : Bool := char == space || char == tab

def isControl (char : UInt8) : Bool := decide (char < 0x20 ∧ char ≠ tab ∨ char = 0x7f)

/-- `name` is none for a line that continues the field before it. -/
structure FieldLine where
  name : Option Bytes
  blanks : Bytes
  content : Bytes
  ending : LineEnd
  token : ∀ text ∈ name, text ≠ [] ∧ ∀ char ∈ text, tokenCharMap char = true
  spaced : ∀ char ∈ blanks, isBlank char = true
  plain : ∀ char ∈ content, isControl char = false
  tight : name ≠ none → ∀ char ∈ content.head?, isBlank char = false
  folded : name = none → blanks = [] ∧ ∃ char ∈ content.head?, isBlank char = true

namespace FieldLine

def start (line : FieldLine) : Bytes := (line.name.map (· ++ [0x3a])).getD [] ++ line.blanks

def text (line : FieldLine) : Bytes := line.start ++ line.content ++ line.ending.text

def header (line : FieldLine) : PhrHeader := ⟨line.name, trimBlanks line.content⟩

end FieldLine

theorem trimBlanks_prefix (value : Bytes) : ∃ blanks, value = trimBlanks value ++ blanks := by
  refine ⟨(value.reverse.takeWhile fun char => char == space || char == tab).reverse, ?_⟩
  rw [trimBlanks, ← List.reverse_append, List.takeWhile_append_dropWhile, List.reverse_reverse]

structure RequestHead where
  leading : Option LineEnd
  method : Bytes
  gap : Nat
  target : Bytes
  gap' : Nat
  digit : UInt8
  ending : LineEnd
  lines : List FieldLine
  final : LineEnd
  methodToken : method ≠ [] ∧ ∀ char ∈ method, tokenCharMap char = true
  targetChars : target ≠ [] ∧ ∀ char ∈ target, char ≠ space ∧ ¬ (char < 0x20 ∨ char = 0x7f)
  version : Decimal.isDigit digit = true
  first : ∀ line ∈ lines.head?, line.name ≠ none

namespace RequestHead

def leadingText (head : RequestHead) : Bytes := (head.leading.map LineEnd.text).getD []

def requestLine (head : RequestHead) : Bytes :=
  head.method ++ space :: List.replicate head.gap space ++ head.target ++
    space :: List.replicate head.gap' space ++ ascii "HTTP/1." ++ [head.digit] ++ head.ending.text

def text (head : RequestHead) : Bytes :=
  head.leadingText ++ head.requestLine ++ head.lines.flatMap FieldLine.text ++ head.final.text

def request (head : RequestHead) : PhrRequest :=
  ⟨head.method, head.target, head.digit.toNat - 48, head.lines.map FieldLine.header⟩

end RequestHead

variable {input rest : Bytes} {note : Nat}

theorem done_skipBlanks {blank : UInt8 → Bool} {value : Unit} :
    skipBlanks note blank input = .done value rest ↔
      ∃ blanks, input = blanks ++ rest ∧ (∀ char ∈ blanks, blank char = true) ∧
        ∃ char ∈ rest.head?, blank char = false := by
  simp only [skipBlanks, done_bind, done_scanUntil, done_pure, Bool.not_eq_false', and_true,
    Bool.not_eq_true']
  constructor
  · rintro ⟨blanks, left, ⟨rfl, inside, stops⟩, _, rfl⟩
    exact ⟨blanks, rfl, inside, stops⟩
  · rintro ⟨blanks, rfl, inside, stops⟩
    exact ⟨blanks, rest, ⟨rfl, inside, stops⟩, trivial, rfl⟩

theorem ending_iff : (∃ ending : LineEnd, input = ending.text ++ rest) ↔
    input = cr :: lf :: rest ∨ input = lf :: rest := by
  constructor
  · rintro ⟨ending, rfl⟩
    cases ending with
    | crlf => exact Or.inl rfl
    | lf => exact Or.inr rfl
  · rintro (rfl | rfl)
    · exact ⟨.crlf, rfl⟩
    · exact ⟨.lf, rfl⟩

theorem done_endLine {value : Unit} :
    endLine input = .done value rest ↔ ∃ ending : LineEnd, input = ending.text ++ rest := by
  have different : lf ≠ cr := by decide
  rw [ending_iff]
  simp only [endLine, done_bind, done_next]
  constructor
  · rintro ⟨char, left, rfl, yields⟩
    split at yields
    · rename_i same
      rw [done_expect] at yields
      exact Or.inl (by rw [same, yields])
    · split at yields
      · rename_i same
        rw [done_pure] at yields
        exact Or.inr (by rw [same, yields.2])
      · simp [done_fail] at yields
  · rintro (rfl | rfl)
    · exact ⟨cr, lf :: rest, rfl, by simp [done_expect]⟩
    · exact ⟨lf, rest, rfl, by simp [different, done_pure]⟩

theorem done_getTokenToEol {content : Bytes} :
    getTokenToEol note input = .done content rest ↔
      (∀ char ∈ content, isControl char = false) ∧
        ∃ ending : LineEnd, input = content ++ (ending.text ++ rest) := by
  have different : lf ≠ cr := by decide
  have controls : isControl cr = true ∧ isControl lf = true := by decide
  simp only [getTokenToEol, done_bind, done_scanUntil, done_next]
  constructor
  · rintro ⟨token, _, ⟨rfl, inside, _⟩, char, left, rfl, yields⟩
    have ended : token = content ∧ (char :: left = cr :: lf :: rest ∨ char :: left = lf :: rest) := by
      split at yields
      · rename_i same
        simp only [done_bind, done_expect, done_pure] at yields
        obtain ⟨_, _, rfl, rfl, rfl⟩ := yields
        exact ⟨rfl, Or.inl (by rw [same])⟩
      · split at yields
        · rename_i same
          rw [done_pure] at yields
          exact ⟨yields.1, Or.inr (by rw [same, yields.2])⟩
        · simp [done_fail] at yields
    obtain ⟨rfl, ended⟩ := ended
    obtain ⟨ending, same⟩ := ending_iff.mpr ended
    exact ⟨fun char member => (inside char member).1, ending, by rw [same]⟩
  · rintro ⟨plain, ending, rfl⟩
    refine ⟨content, ending.text ++ rest, ⟨rfl, fun char member => ⟨plain char member, trivial⟩, ?_⟩, ?_⟩
    · cases ending with
      | crlf => exact ⟨cr, rfl, controls.1⟩
      | lf => exact ⟨lf, rfl, controls.2⟩
    · cases ending with
      | crlf => exact ⟨cr, lf :: rest, rfl, by simp [done_bind, done_expect, done_pure]⟩
      | lf => exact ⟨lf, rest, rfl, by simp [different, done_pure]⟩

theorem done_skipEmptyLine {value : Unit} :
    skipEmptyLine input = .done value rest ↔
      ∃ leading : Option LineEnd, input = (leading.map LineEnd.text).getD [] ++ rest ∧
        (leading = none → ∃ char ∈ rest.head?, char ≠ cr ∧ char ≠ lf) := by
  have different : lf ≠ cr := by decide
  simp only [skipEmptyLine, done_bind, done_peek]
  constructor
  · rintro ⟨char, _, ⟨rfl, first⟩, yields⟩
    split at yields
    · rename_i same
      simp only [done_bind, done_next, done_expect] at yields
      obtain ⟨other, _, rfl, rfl⟩ := yields
      cases first
      exact ⟨some .crlf, by simp [LineEnd.text, same], by simp⟩
    · split at yields
      · rename_i same
        simp only [done_bind, done_next, done_pure] at yields
        obtain ⟨other, _, rfl, _, rfl⟩ := yields
        cases first
        exact ⟨some .lf, by simp [LineEnd.text, same], by simp⟩
      · rename_i notCr notLf
        rw [done_pure] at yields
        exact ⟨none, yields.2, fun _ => ⟨char, by rw [← yields.2]; exact first, notCr, notLf⟩⟩
  · rintro ⟨leading, rfl, open_⟩
    cases leading with
    | none =>
        obtain ⟨char, first, notCr, notLf⟩ := open_ rfl
        exact ⟨char, rest, ⟨rfl, first⟩, by simp [notCr, notLf, done_pure]⟩
    | some ending =>
        cases ending with
        | crlf => exact ⟨cr, _, ⟨rfl, rfl⟩, by simp [done_bind, done_next, done_expect, LineEnd.text]⟩
        | lf =>
            exact ⟨lf, _, ⟨rfl, rfl⟩, by simp [different, done_bind, done_next, done_pure, LineEnd.text]⟩

theorem done_parseHttpVersion {minorVersion : Nat} :
    parseHttpVersion note input = .done minorVersion rest ↔
      ∃ digit, Decimal.isDigit digit = true ∧ minorVersion = digit.toNat - 48 ∧ rest ≠ [] ∧
        input = ascii "HTTP/1." ++ digit :: rest := by
  have seven : (ascii "HTTP/1.").length = 7 := rfl
  simp only [parseHttpVersion]
  constructor
  · intro yields
    split at yields
    · cases yields
    · rename_i long
      split at yields
      · rename_i begins
        split at yields
        · cases yields
        · rename_i digit tail left
          split at yields
          · rename_i isDigit_
            cases yields
            have whole := List.take_append_drop 7 input
            rw [begins, left] at whole
            have size := congrArg List.length whole
            rw [List.length_append, List.length_cons, seven] at size
            refine ⟨digit, isDigit_, rfl, ?_, whole.symm⟩
            rintro rfl
            rw [List.length_nil] at size
            omega
          · cases yields
      · cases yields
  · rintro ⟨digit, isDigit_, rfl, some_, rfl⟩
    have positive := List.length_pos_iff.mpr some_
    have long : ¬ (ascii "HTTP/1." ++ digit :: rest).length < 9 := by
      rw [List.length_append, List.length_cons, seven]
      omega
    have front : (ascii "HTTP/1." ++ digit :: rest).take 7 = ascii "HTTP/1." := List.take_left' seven
    have back : (ascii "HTTP/1." ++ digit :: rest).drop 7 = digit :: rest := List.drop_left' seven
    simp only [long, front, back, isDigit_, ↓reduceIte]

theorem done_parseName {name : Option Bytes} :
    parseName note input = .done name rest ↔
      ∃ token blanks, name = some token ∧ input = token ++ 0x3a :: (blanks ++ rest) ∧
        token ≠ [] ∧ (∀ char ∈ token, tokenCharMap char = true) ∧
        (∀ char ∈ blanks, isBlank char = true) ∧ ∃ char ∈ rest.head?, isBlank char = false := by
  have colon : ∀ char, tokenCharMap char = true → (char == 0x3a) = false := by
    intro char allowed
    rw [beq_eq_false_iff_ne]
    rintro rfl
    exact absurd allowed (by decide)
  simp only [parseName, parseToken, done_bind, done_scanUntil]
  constructor
  · rintro ⟨token, _, ⟨rfl, inside, stop, head, stops⟩, yields⟩
    split at yields
    · simp [done_fail] at yields
    · rename_i some_
      simp only [done_bind, done_next, done_skipBlanks, done_pure] at yields
      obtain ⟨char, _, rfl, _, _, ⟨blanks, rfl, spaced, tight⟩, rfl, rfl⟩ := yields
      cases head
      rw [beq_iff_eq.mp stops]
      exact ⟨token, blanks, rfl, rfl, some_, fun char member => (inside char member).2, spaced, tight⟩
  · rintro ⟨token, blanks, rfl, rfl, some_, allowed, spaced, tight⟩
    refine ⟨token, 0x3a :: (blanks ++ rest), ⟨rfl, ?_, 0x3a, rfl, rfl⟩, ?_⟩
    · exact fun char member => ⟨colon char (allowed char member), allowed char member⟩
    · simp only [some_, ↓reduceIte, done_bind, done_next, done_skipBlanks, done_pure]
      exact ⟨0x3a, _, rfl, (), rest, ⟨blanks, rfl, spaced, tight⟩, trivial, rfl⟩

namespace FieldLine

theorem text_head (line : FieldLine) (rest : Bytes) :
    ∃ char ∈ (line.text ++ rest).head?, char ≠ cr ∧ char ≠ lf := by
  cases named : line.name with
  | some token =>
      obtain ⟨some_, allowed⟩ := line.token token named
      obtain ⟨char, more, rfl⟩ := List.exists_cons_of_ne_nil some_
      have token_ := allowed char List.mem_cons_self
      refine ⟨char, by simp [text, start, named], ?_, ?_⟩
      · rintro rfl
        exact absurd token_ (by decide)
      · rintro rfl
        exact absurd token_ (by decide)
  | none =>
      obtain ⟨none_, char, first, blank⟩ := line.folded named
      refine ⟨char, by simp [text, start, named, none_, Option.mem_def.mp first], ?_, ?_⟩
      · rintro rfl
        exact absurd blank (by decide)
      · rintro rfl
        exact absurd blank (by decide)

end FieldLine

theorem done_line {headers : List PhrHeader} {char : UInt8} {name : Option Bytes} {content : Bytes}
    (first : input.head? = some char) (open_ : char ≠ cr ∧ char ≠ lf) :
    (∃ left, (if headers ≠ [] ∧ (char = space ∨ char = tab) then pure none
          else parseName note : Parser (Option Bytes)) input = .done name left ∧
        getTokenToEol note left = .done content rest) ↔
      ∃ line : FieldLine, line.name = name ∧ line.content = content ∧
        (headers = [] → line.name ≠ none) ∧ input = line.text ++ rest := by
  have blank_iff : ∀ char, isBlank char = true ↔ char = space ∨ char = tab := by
    intro char
    rw [isBlank, Bool.or_eq_true, beq_iff_eq, beq_iff_eq]
  constructor
  · rintro ⟨left, named, valued⟩
    obtain ⟨plain, ending, rfl⟩ := done_getTokenToEol.mp valued
    split at named
    · rename_i continues
      obtain ⟨rfl, rfl⟩ := done_pure.mp named
      have begins : content.head? = some char := by
        cases content with
        | nil => cases ending <;> cases first <;> simp at open_
        | cons other more => exact first
      refine ⟨⟨none, [], content, ending, by simp, by simp, plain, by simp, ?_⟩, rfl, rfl, ?_, ?_⟩
      · exact fun _ => ⟨rfl, char, begins, (blank_iff char).mpr continues.2⟩
      · exact fun none_ => (continues.1 none_).elim
      · simp [FieldLine.text, FieldLine.start]
    · obtain ⟨token, blanks, rfl, rfl, some_, allowed, spaced, other, begins, solid⟩ :=
        done_parseName.mp named
      refine ⟨⟨some token, blanks, content, ending, ?_, spaced, plain, ?_, by simp⟩, rfl, rfl,
        by simp, by simp [FieldLine.text, FieldLine.start]⟩
      · rintro text same
        cases same
        exact ⟨some_, allowed⟩
      · intro _ char' first'
        cases content with
        | nil => cases first'
        | cons head more =>
            cases first'
            cases begins
            exact solid
  · rintro ⟨line, rfl, rfl, opening, rfl⟩
    refine ⟨line.content ++ (line.ending.text ++ rest), ?_,
      done_getTokenToEol.mpr ⟨line.plain, line.ending, rfl⟩⟩
    cases named : line.name with
    | none =>
        obtain ⟨none_, other, begins, blank⟩ := line.folded named
        have same : other = char := by
          simpa [FieldLine.text, FieldLine.start, named, none_, Option.mem_def.mp begins] using first
        subst same
        rw [if_pos ⟨fun empty => opening empty named, (blank_iff other).mp blank⟩, done_pure]
        exact ⟨rfl, by simp [FieldLine.text, FieldLine.start, named, none_]⟩
    | some token =>
        obtain ⟨some_, allowed⟩ := line.token token named
        have solid : ¬ (char = space ∨ char = tab) := by
          obtain ⟨head, more, rfl⟩ := List.exists_cons_of_ne_nil some_
          have same : head = char := by
            simpa [FieldLine.text, FieldLine.start, named] using first
          have token_ := allowed head List.mem_cons_self
          rw [same] at token_
          rintro (rfl | rfl) <;> exact absurd token_ (by decide)
        rw [if_neg fun continues => solid continues.2, done_parseName]
        refine ⟨token, line.blanks, rfl, by simp [FieldLine.text, FieldLine.start, named], some_,
          allowed, line.spaced, ?_⟩
        have tight := line.tight (by rw [named]; simp)
        cases content : line.content with
        | nil => cases line.ending <;> exact ⟨_, rfl, by decide⟩
        | cons head more => exact ⟨head, rfl, tight head (by rw [content]; rfl)⟩

theorem done_final {Headers : Type} {headers out : Headers} {char : UInt8} {more : Parser Headers}
    (first : input.head? = some char) :
    (if char = cr then do
        let _ ← next note
        expect note lf
        pure headers
      else if char = lf then do
        let _ ← next note
        pure headers
      else more : Parser Headers) input = .done out rest ↔
      (∃ final : LineEnd, input = final.text ++ rest ∧ out = headers) ∨
        (char ≠ cr ∧ char ≠ lf ∧ more input = .done out rest) := by
  have different : lf ≠ cr := by decide
  cases input with
  | nil => cases first
  | cons other tail =>
      cases first
      by_cases isCr : char = cr
      · subst isCr
        simp only [↓reduceIte, done_bind, done_next, done_expect, done_pure, ne_eq, not_true_eq_false,
          false_and, or_false]
        constructor
        · rintro ⟨_, _, whole, _, _, rfl, rfl, rfl⟩
          cases whole
          exact ⟨.crlf, rfl, rfl⟩
        · rintro ⟨final, same, rfl⟩
          cases final with
          | crlf =>
              cases same
              exact ⟨_, _, rfl, (), rest, rfl, rfl, rfl⟩
          | lf => cases same
      · by_cases isLf : char = lf
        · subst isLf
          simp only [isCr, ↓reduceIte, done_bind, done_next, done_pure, ne_eq, not_true_eq_false,
            false_and, and_false, or_false]
          constructor
          · rintro ⟨_, _, whole, rfl, rfl⟩
            cases whole
            exact ⟨.lf, rfl, rfl⟩
          · rintro ⟨final, same, rfl⟩
            cases final with
            | crlf => cases same
            | lf =>
                cases same
                exact ⟨_, _, rfl, rfl, rfl⟩
        · simp only [isCr, isLf, ↓reduceIte, ne_eq, not_false_eq_true, true_and]
          constructor
          · exact Or.inr
          · rintro (⟨final, same, _⟩ | yields)
            · cases final <;> cases same
              · exact (isCr rfl).elim
              · exact (isLf rfl).elim
            · exact yields

theorem done_parseHeaders {allowed : Nat} {headers out : List PhrHeader} :
    parseHeaders allowed headers input = .done out rest ↔
      ∃ (lines : List FieldLine) (final : LineEnd), lines.length ≤ allowed ∧
        (headers = [] → ∀ line ∈ lines.head?, line.name ≠ none) ∧
        input = lines.flatMap FieldLine.text ++ (final.text ++ rest) ∧
        out = headers ++ lines.map FieldLine.header := by
  induction allowed generalizing headers input with
  | zero =>
      rw [parseHeaders]
      simp only [done_bind, done_peek]
      constructor
      · rintro ⟨char, _, ⟨rfl, first⟩, yields⟩
        rcases (done_final first).mp yields with ⟨final, rfl, rfl⟩ | ⟨_, _, failed⟩
        · exact ⟨[], final, Nat.le_refl _, by simp, rfl, (List.append_nil _).symm⟩
        · exact (done_fail.mp failed).elim
      · rintro ⟨lines, final, few, _, rfl, rfl⟩
        obtain rfl : lines = [] := List.length_eq_zero_iff.mp (by omega)
        obtain ⟨char, first⟩ : ∃ char, (final.text ++ rest).head? = some char := by
          cases final <;> exact ⟨_, rfl⟩
        exact ⟨char, _, ⟨rfl, first⟩,
          (done_final first).mpr (Or.inl ⟨final, rfl, List.append_nil _⟩)⟩
  | succ allowed ih =>
      rw [parseHeaders]
      simp only [done_bind, done_peek]
      constructor
      · rintro ⟨char, _, ⟨rfl, first⟩, yields⟩
        rcases (done_final first).mp yields with ⟨final, rfl, rfl⟩ | ⟨notCr, notLf, yields⟩
        · exact ⟨[], final, Nat.zero_le _, by simp, rfl, (List.append_nil _).symm⟩
        · simp only [done_bind] at yields
          obtain ⟨name, left, named, content, left', valued, later⟩ := yields
          obtain ⟨line, rfl, rfl, opening, rfl⟩ :=
            (done_line first ⟨notCr, notLf⟩).mp ⟨left, named, valued⟩
          obtain ⟨lines, final, few, _, rfl, rfl⟩ := ih.mp later
          refine ⟨line :: lines, final, Nat.succ_le_succ few, ?_, ?_, ?_⟩
          · intro none_ other first'
            cases first'
            exact opening none_
          · simp
          · simp [FieldLine.header]
      · rintro ⟨lines, final, few, opening, rfl, rfl⟩
        cases lines with
        | nil =>
            obtain ⟨char, first⟩ : ∃ char, (final.text ++ rest).head? = some char := by
              cases final <;> exact ⟨_, rfl⟩
            exact ⟨char, _, ⟨rfl, first⟩,
              (done_final first).mpr (Or.inl ⟨final, rfl, List.append_nil _⟩)⟩
        | cons line lines =>
            have whole : (line :: lines).flatMap FieldLine.text ++ (final.text ++ rest) =
                line.text ++ (lines.flatMap FieldLine.text ++ (final.text ++ rest)) := by simp
            rw [whole]
            obtain ⟨char, first, open_⟩ := line.text_head (lines.flatMap FieldLine.text ++ (final.text ++ rest))
            refine ⟨char, _, ⟨rfl, first⟩, (done_final first).mpr (Or.inr ⟨open_.1, open_.2, ?_⟩)⟩
            obtain ⟨left, named, valued⟩ := (done_line first open_).mpr
              ⟨line, rfl, rfl, fun none_ => opening none_ line rfl, rfl⟩
            rw [done_bind]
            refine ⟨line.name, left, named, ?_⟩
            rw [done_bind]
            refine ⟨line.content, _, valued, ih.mpr ⟨lines, final, Nat.le_of_succ_le_succ few, by simp, rfl, ?_⟩⟩
            simp [FieldLine.header]

theorem token_solid {char : UInt8} (token : tokenCharMap char = true) :
    char ≠ space ∧ char ≠ cr ∧ char ≠ lf := by
  refine ⟨?_, ?_, ?_⟩ <;>
  · rintro rfl
    exact absurd token (by decide)

theorem done_spaces {value : Unit} :
    skipBlanks note (· == space) input = .done value rest ↔
      ∃ gap, input = List.replicate gap space ++ rest ∧ ∃ char ∈ rest.head?, char ≠ space := by
  simp only [done_skipBlanks, beq_iff_eq, beq_eq_false_iff_ne]
  constructor
  · rintro ⟨blanks, rfl, spaces, tight⟩
    exact ⟨blanks.length, by rw [← List.eq_replicate_length.mpr spaces], tight⟩
  · rintro ⟨gap, rfl, tight⟩
    exact ⟨_, rfl, fun char member => List.eq_of_mem_replicate member, tight⟩

theorem parseRequest_sound {maxHeaders : Nat} {request : PhrRequest}
    (parsed : parseRequest maxHeaders input = .done request rest) :
    ∃ head : RequestHead, head.lines.length ≤ maxHeaders ∧ input = head.text ++ rest ∧
      request = head.request := by
  simp only [parseRequest, parseToken, advanceToken, done_bind, done_skipEmptyLine, done_scanUntil,
    done_next, done_spaces] at parsed
  obtain ⟨_, _, ⟨leading, rfl, _⟩, method, _, ⟨rfl, methodToken, _, methodEnd, stop⟩, _, _, rfl, _, _,
    ⟨gap, rfl, _⟩, target, _, ⟨rfl, targetChars, _, targetEnd, stop'⟩, _, _, rfl, _, _,
    ⟨gap', rfl, _⟩, parsed⟩ := parsed
  cases methodEnd
  cases targetEnd
  rw [beq_iff_eq] at stop stop'
  subst stop stop'
  split at parsed
  · simp [done_fail] at parsed
  · rename_i some_
    rw [not_or] at some_
    simp only [done_bind, done_parseHttpVersion, done_endLine, done_parseHeaders, done_pure] at parsed
    obtain ⟨_, _, ⟨digit, version, rfl, _, rfl⟩, _, _, ⟨ending, rfl⟩, _, _,
      ⟨lines, final, few, first, rfl, rfl⟩, rfl, rfl⟩ := parsed
    refine ⟨⟨leading, method, gap, target, gap', digit, ending, lines, final, ?_, ?_, version,
      first trivial⟩, few, ?_, ?_⟩
    · exact ⟨some_.1, fun char member => (methodToken char member).2⟩
    · refine ⟨some_.2, fun char member => ?_⟩
      have plain := targetChars char member
      rw [beq_eq_false_iff_ne, Bool.not_eq_true', decide_eq_false_iff_not] at plain
      exact plain
    · simp [RequestHead.text, RequestHead.leadingText, RequestHead.requestLine]
    · simp [RequestHead.request]

theorem parseRequest_complete (head : RequestHead) {maxHeaders : Nat}
    (few : head.lines.length ≤ maxHeaders) (rest : Bytes) :
    parseRequest maxHeaders (head.text ++ rest) = .done head.request rest := by
  obtain ⟨some_, token⟩ := head.methodToken
  obtain ⟨some_', chars⟩ := head.targetChars
  obtain ⟨first, method, methodShape⟩ := List.exists_cons_of_ne_nil some_
  obtain ⟨first', target, targetShape⟩ := List.exists_cons_of_ne_nil some_'
  have solid := token_solid (token first (by rw [methodShape]; exact List.mem_cons_self))
  have solid' := chars first' (by rw [targetShape]; exact List.mem_cons_self)
  simp only [parseRequest, parseToken, advanceToken, done_bind, done_skipEmptyLine, done_scanUntil,
    done_next, done_spaces]
  refine ⟨(), _, ⟨head.leading, ?_, ?_⟩, head.method, _, ⟨rfl, ?_, space, rfl, rfl⟩, space, _, rfl, (),
    _, ⟨head.gap, rfl, ?_⟩, head.target, _, ⟨rfl, ?_, space, rfl, rfl⟩, space, _, rfl, (),
    ascii "HTTP/1." ++ head.digit ::
      (head.ending.text ++ (head.lines.flatMap FieldLine.text ++ (head.final.text ++ rest))),
    ⟨head.gap', rfl, ?_⟩, ?_⟩
  · simp [RequestHead.text, RequestHead.leadingText, RequestHead.requestLine]
  · exact fun _ => ⟨first, by simp [methodShape], solid.2⟩
  · exact fun char member => ⟨beq_eq_false_iff_ne.mpr (token_solid (token char member)).1,
      token char member⟩
  · exact ⟨first', by simp [targetShape], solid'.1⟩
  · intro char member
    have plain := chars char member
    rw [beq_eq_false_iff_ne, Bool.not_eq_true', decide_eq_false_iff_not]
    exact plain
  · exact ⟨_, rfl, by decide⟩
  · rw [if_neg (by rw [not_or]; exact ⟨some_, some_'⟩)]
    simp only [done_bind, done_parseHttpVersion, done_endLine, done_parseHeaders, done_pure]
    refine ⟨_, _, ⟨head.digit, head.version, rfl, ?_, rfl⟩, (), _, ⟨head.ending, rfl⟩, _, rest,
      ⟨head.lines, head.final, few, fun _ => head.first, rfl, rfl⟩, rfl, rfl⟩
    cases head.ending <;> simp [LineEnd.text]

theorem done_parseRequest {maxHeaders : Nat} {request : PhrRequest} :
    parseRequest maxHeaders input = .done request rest ↔
      ∃ head : RequestHead, head.lines.length ≤ maxHeaders ∧ input = head.text ++ rest ∧
        request = head.request := by
  refine ⟨parseRequest_sound, ?_⟩
  rintro ⟨head, few, rfl, rfl⟩
  exact parseRequest_complete head few rest

theorem phrParseRequest_sound {maxHeaders numHeaders : Nat} {buffer : Bytes} {ret : Int}
    {request : PhrRequest}
    (accepts : phrParseRequest buffer maxHeaders = (ret, numHeaders, some request)) :
    ∃ head : RequestHead, head.lines.length ≤ maxHeaders ∧ request = head.request := by
  rw [phrParseRequest] at accepts
  cases outcome : parseRequest maxHeaders buffer with
  | done request' rest =>
      simp only [outcome, Prod.mk.injEq, Option.some.injEq] at accepts
      obtain ⟨_, _, rfl⟩ := accepts
      obtain ⟨head, few, _, same⟩ := done_parseRequest.mp outcome
      exact ⟨head, few, same⟩
  | failed note => simp [outcome] at accepts
  | starved note => simp [outcome] at accepts

theorem phrParseRequest_head {maxHeaders : Nat} {buffer rest : Bytes} {head : RequestHead}
    (few : head.lines.length ≤ maxHeaders) (split : buffer = head.text ++ rest) :
    phrParseRequest buffer maxHeaders =
      (toInt head.text.length, head.request.headers.length, some head.request) := by
  rw [phrParseRequest, split, parseRequest_complete head few rest]
  simp only [usedBytes, List.length_append, Nat.add_sub_cancel]

theorem phrParseRequest_none {maxHeaders : Nat} {buffer : Bytes}
    (none_ : ¬ ∃ (head : RequestHead) (rest : Bytes), head.lines.length ≤ maxHeaders ∧
      buffer = head.text ++ rest) :
    ∃ ret numHeaders, phrParseRequest buffer maxHeaders = (ret, numHeaders, none) ∧ ret ≤ 0 := by
  rw [phrParseRequest]
  cases outcome : parseRequest maxHeaders buffer with
  | done request rest =>
      obtain ⟨head, few, split, _⟩ := done_parseRequest.mp outcome
      exact (none_ ⟨head, rest, few, split⟩).elim
  | failed note => exact ⟨-1, note, rfl, by decide⟩
  | starved note => exact ⟨-2, note, rfl, by decide⟩

end CoServer.Http
