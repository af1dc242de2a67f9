import CoServer.Http.HeadScan
import CoServer.Http.RequestHead
import Mathlib.Data.List.Induction

/-!
Where a head ends. A text is blank at its end when its last line is empty, in the
parser's sense: a LF with another LF behind it, or with CRLF. An accepted head is
blank at its end and nowhere before.
-/

namespace CoServer.Http

def Blank (text : Bytes) : Prop := [lf, lf] <:+ text ∨ [lf, cr, lf] <:+ text

inductive LineState
  | inside
  | begun
  | half
  | blank
  deriving DecidableEq, Repr

def lineStep (state : LineState) (char : UInt8) : LineState :=
  if char = lf then if state = .inside then .begun else .blank
  else if char = cr ∧ (state = .begun ∨ state = .blank) then .half
  else .inside

theorem snoc_suffix_snoc {front text : Bytes} {last char : UInt8} :
    front ++ [last] <:+ text ++ [char] ↔ last = char ∧ front <:+ text := by
  constructor
  · rintro ⟨more, same⟩
    rw [← List.append_assoc] at same
    obtain ⟨before, ends⟩ := List.append_inj' same rfl
    cases ends
    exact ⟨rfl, more, before⟩
  · rintro ⟨rfl, more, rfl⟩
    exact ⟨more, by simp⟩

theorem lineState_iff (text : Bytes) :
    (text.foldl lineStep .inside = .blank ↔ Blank text) ∧
      ((text.foldl lineStep .inside = .begun ∨ text.foldl lineStep .inside = .blank) ↔ [lf] <:+ text) ∧
      (text.foldl lineStep .inside = .half ↔ [lf, cr] <:+ text) := by
  have different : lf ≠ cr := by decide
  have two : ∀ first second char : UInt8, ∀ text : Bytes,
      [first, second] <:+ text ++ [char] ↔ second = char ∧ [first] <:+ text :=
    fun first second char text => @snoc_suffix_snoc [first] text second char
  have three : ∀ first second third char : UInt8, ∀ text : Bytes,
      [first, second, third] <:+ text ++ [char] ↔ third = char ∧ [first, second] <:+ text :=
    fun first second third char text => @snoc_suffix_snoc [first, second] text third char
  have one : ∀ last char : UInt8, ∀ text : Bytes, [last] <:+ text ++ [char] ↔ last = char := by
    intro last char text
    rw [show [last] = [] ++ [last] from rfl, snoc_suffix_snoc]
    simp
  induction text using List.reverseRecOn with
  | nil => simp [Blank]
  | append_singleton text char ih =>
      obtain ⟨blank, begun, half⟩ := ih
      rw [List.foldl_append, List.foldl_cons, List.foldl_nil, Blank, two, three, one, two, ← begun, ← half]
      generalize text.foldl lineStep .inside = state
      by_cases isLf : char = lf
      · subst isLf
        cases state <;> simp [lineStep, different.symm]
      · by_cases isCr : char = cr
        · subst isCr
          cases state <;> simp [lineStep, different, different.symm]
        · cases state <;> simp [lineStep, isLf, isCr, Ne.symm isLf, Ne.symm isCr]

/-- The text leads from one state to another, and is not blank on the way. -/
def Quiet (first : LineState) (text : Bytes) (last : LineState) : Prop :=
  text.foldl lineStep first = last ∧
    ∀ front back, text = front ++ back → front ≠ [] → front.foldl lineStep first ≠ .blank

theorem Quiet.nil (state : LineState) : Quiet state [] state := by
  refine ⟨rfl, ?_⟩
  intro front back split some_
  exact (some_ (List.append_eq_nil_iff.mp split.symm).1).elim

theorem Quiet.append {first middle last : LineState} {text text' : Bytes} (quiet : Quiet first text middle)
    (quiet' : Quiet middle text' last) : Quiet first (text ++ text') last := by
  refine ⟨by rw [List.foldl_append, quiet.1, quiet'.1], ?_⟩
  intro front back split some_
  rcases List.append_eq_append_iff.mp split with ⟨more, rfl, same⟩ | ⟨more, same, _⟩
  · by_cases none_ : more = []
    · subst none_
      rw [List.append_nil] at some_ ⊢
      exact quiet.2 text [] (List.append_nil _).symm some_
    · rw [List.foldl_append, quiet.1]
      exact quiet'.2 more back same none_
  · exact quiet.2 front more same some_

theorem Quiet.inside {text : Bytes} (some_ : text ≠ []) (solid : ∀ char ∈ text, char ≠ cr ∧ char ≠ lf)
    (first : LineState) : Quiet first text .inside := by
  have general : ∀ (front : Bytes) (state : LineState), front ≠ [] →
      (∀ char ∈ front, char ≠ cr ∧ char ≠ lf) → front.foldl lineStep state = .inside := by
    intro front state more clean
    obtain rfl | ⟨front, char, rfl⟩ := List.eq_nil_or_concat front
    · exact (more rfl).elim
    · rw [List.concat_eq_append] at clean ⊢
      obtain ⟨notCr, notLf⟩ := clean char (by simp)
      rw [List.foldl_append, List.foldl_cons, List.foldl_nil, lineStep, if_neg notLf,
        if_neg fun both => notCr both.1]
  refine ⟨general text first some_ solid, ?_⟩
  rintro front back rfl more
  rw [general front first more fun char member => solid char (List.mem_append_left _ member)]
  simp

theorem Quiet.ending (ending : LineEnd) : Quiet .inside ending.text .begun := by
  cases ending with
  | crlf =>
      refine ⟨by decide, ?_⟩
      intro front back split some_
      rcases front with _ | ⟨first, _ | ⟨second, _ | ⟨third, more⟩⟩⟩
      · exact (some_ rfl).elim
      · cases split
        decide
      · cases split
        decide
      · cases split
  | lf =>
      refine ⟨by decide, ?_⟩
      intro front back split some_
      rcases front with _ | ⟨first, _ | ⟨second, more⟩⟩
      · exact (some_ rfl).elim
      · cases split
        decide
      · cases split

theorem blank_ending {ending : LineEnd} {front back : Bytes} (split : ending.text = front ++ back) :
    front.foldl lineStep .begun = .blank ↔ back = [] := by
  cases ending with
  | crlf =>
      rcases front with _ | ⟨first, _ | ⟨second, _ | ⟨third, more⟩⟩⟩
      · cases split
        decide
      · cases split
        decide
      · cases split
        decide
      · cases split
  | lf =>
      rcases front with _ | ⟨first, _ | ⟨second, more⟩⟩
      · cases split
        decide
      · cases split
        decide
      · cases split

theorem FieldLine.quiet (line : FieldLine) : Quiet .begun line.text .begun := by
  have solid : ∀ char ∈ line.start ++ line.content, char ≠ cr ∧ char ≠ lf := by
    have blanks : ∀ char, isBlank char = true → char ≠ cr ∧ char ≠ lf := by
      intro char blank
      refine ⟨?_, ?_⟩ <;>
      · rintro rfl
        exact absurd blank (by decide)
    intro char member
    rw [List.mem_append] at member
    rcases member with early | late
    · rw [FieldLine.start, List.mem_append] at early
      rcases early with named | blank
      · cases name : line.name with
        | none => simp [name] at named
        | some token =>
            simp only [name, Option.map_some, Option.getD_some, List.mem_append,
              List.mem_singleton] at named
            rcases named with inside | rfl
            · exact (token_solid ((line.token token name).2 char inside)).2
            · decide
      · exact blanks char (line.spaced char blank)
    · refine ⟨?_, ?_⟩ <;>
      · rintro rfl
        exact absurd (line.plain _ late) (by decide)
  have some_ : line.start ++ line.content ≠ [] := by
    cases name : line.name with
    | some token => simp [FieldLine.start, name]
    | none =>
        obtain ⟨_, char, first, _⟩ := line.folded name
        rintro nothing
        rw [List.append_eq_nil_iff] at nothing
        rw [nothing.2] at first
        cases first
  exact (Quiet.inside some_ solid .begun).append (.ending line.ending)

namespace RequestHead

theorem lines_quiet (lines : List FieldLine) : Quiet .begun (lines.flatMap FieldLine.text) .begun := by
  induction lines with
  | nil => exact .nil .begun
  | cons line rest ih =>
      rw [List.flatMap_cons]
      exact line.quiet.append ih

theorem requestLine_quiet (head : RequestHead) (first : LineState) :
    Quiet first head.requestLine .begun := by
  refine Quiet.append (Quiet.inside ?_ ?_ first) (.ending head.ending)
  · simp [head.methodToken.1]
  · have spaces : ∀ gap, ∀ char ∈ List.replicate gap space, char ≠ cr ∧ char ≠ lf := by
      intro gap char member
      rw [List.eq_of_mem_replicate member]
      decide
    have slash_ : ∀ char ∈ ascii "HTTP/1.", char ≠ cr ∧ char ≠ lf := by
      have all : (ascii "HTTP/1.").all (fun char => decide (char ≠ cr ∧ char ≠ lf)) = true := by decide
      exact fun char member => of_decide_eq_true (List.all_eq_true.mp all char member)
    have solid : space ≠ cr ∧ space ≠ lf := by decide
    intro char member
    simp only [List.mem_append, List.mem_cons, List.not_mem_nil, or_false] at member
    rcases member with ((((method | rfl | gap) | target) | rfl | gap) | version) | rfl
    · exact (token_solid (head.methodToken.2 char method)).2
    · exact solid
    · exact spaces _ char gap
    · have plain := (head.targetChars.2 char target).2
      refine ⟨?_, ?_⟩ <;>
      · rintro rfl
        exact plain (by decide)
    · exact solid
    · exact spaces _ char gap
    · exact slash_ char version
    · refine ⟨?_, ?_⟩ <;>
      · intro same
        have digit := head.version
        rw [same] at digit
        exact absurd digit (by decide)

theorem opening_quiet (head : RequestHead) :
    Quiet .inside (head.leadingText ++ head.requestLine ++ head.lines.flatMap FieldLine.text) .begun := by
  have leading : ∃ middle, Quiet .inside head.leadingText middle := by
    rw [leadingText]
    cases head.leading with
    | none => exact ⟨_, .nil _⟩
    | some ending => exact ⟨_, .ending ending⟩
  obtain ⟨middle, leading⟩ := leading
  exact (leading.append (head.requestLine_quiet middle)).append (lines_quiet head.lines)

theorem blank_iff (head : RequestHead) {front back : Bytes} (split : head.text = front ++ back) :
    Blank front ↔ back = [] := by
  rw [← (lineState_iff front).1]
  obtain ⟨state, quiet⟩ := head.opening_quiet
  rw [text] at split
  rcases List.append_eq_append_iff.mp split with ⟨more, rfl, same⟩ | ⟨more, same, rfl⟩
  · rw [List.foldl_append, state]
    exact blank_ending same
  · constructor
    · intro blank
      by_cases none_ : front = []
      · subst none_
        cases blank
      · exact (quiet front more same none_ blank).elim
    · intro none_
      have some_ : head.final.text ≠ [] := by
        cases head.final <;> simp [LineEnd.text]
      exact (some_ (List.append_eq_nil_iff.mp none_).2).elim

theorem blank_text (head : RequestHead) : Blank head.text :=
  (head.blank_iff (List.append_nil _).symm).mpr rfl

theorem shortest (head : RequestHead) {rest front back : Bytes}
    (split : head.text ++ rest = front ++ back) (blank : Blank front) :
    ∃ more, front = head.text ++ more ∧ rest = more ++ back := by
  rcases List.append_eq_append_iff.mp split with ⟨more, same, rest_⟩ | ⟨more, same, rest_⟩
  · exact ⟨more, same, rest_⟩
  · have none_ := (head.blank_iff same).mp blank
    subst none_
    rw [List.append_nil] at same
    rw [List.nil_append] at rest_
    exact ⟨[], by rw [same, List.append_nil], rest_.symm⟩

end RequestHead

theorem blank_of_crlfs {text : Bytes} (ended : crlf ++ crlf <:+ text) : Blank text :=
  Or.inr (List.IsSuffix.trans ⟨[cr], rfl⟩ ended)

end CoServer.Http
