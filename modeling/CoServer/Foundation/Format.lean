import Mathlib.Data.List.Forall2

/-!
Formats: a value is written as a text, and a reader takes a value from the front
of its input and leaves the rest, or fails. A local reader is settled by the part
that it takes; a reader restores what is written if it takes exactly the text, with
a result that is a function of the value.
-/

namespace Format

variable {τ ε α β γ δ : Type}

abbrev Reader (τ ε α : Type) := List τ → Except ε (α × List τ)

namespace Reader

def then_ (first : Reader τ ε α) (next : α → Reader τ ε β) : Reader τ ε β := fun input =>
  (first input).bind fun after => next after.1 after.2

def as (read : Reader τ ε α) (convert : α → β) : Reader τ ε β := fun input =>
  (read input).map fun after => (convert after.1, after.2)

def repeated (read : Reader τ ε α) (add : β → α → β) : Nat → β → Reader τ ε β
  | 0, filled => fun input => .ok (filled, input)
  | count + 1, filled => read.then_ fun item => read.repeated add count (add filled item)

/-- The reader is given a block of the input, and what it leaves of that is skipped. -/
def within (size : Nat) (short : ε) (read : Reader τ ε α) : Reader τ ε α := fun input =>
  if size ≤ input.length then
    (read (input.take size)).map fun after => (after.1, input.drop size)
  else .error short

theorem within_eq_ok {size : Nat} {short : ε} {read : Reader τ ε α} {input rest : List τ} {value : α}
    (reads : read.within size short input = .ok (value, rest)) :
    size ≤ input.length ∧ rest = input.drop size ∧
      ∃ left, read (input.take size) = .ok (value, left) := by
  rw [within] at reads
  split at reads
  · rename_i long
    cases outcome : read (input.take size) with
    | error reason =>
        rw [outcome] at reads
        cases reads
    | ok after =>
        rw [outcome] at reads
        cases reads
        exact ⟨long, rfl, after.2, rfl⟩
  · cases reads

theorem then_eq_ok {first : Reader τ ε α} {next : α → Reader τ ε β} {input rest : List τ}
    {value : β} (reads : first.then_ next input = .ok (value, rest)) :
    ∃ value' middle, first input = .ok (value', middle) ∧
      next value' middle = .ok (value, rest) := by
  cases outcome : first input with
  | error reason =>
      rw [then_, outcome] at reads
      cases reads
  | ok after =>
      rw [then_, outcome] at reads
      exact ⟨after.1, after.2, rfl, reads⟩

theorem as_eq_ok {read : Reader τ ε α} {convert : α → β} {input rest : List τ} {value : β}
    (reads : read.as convert input = .ok (value, rest)) :
    ∃ value', read input = .ok (value', rest) ∧ convert value' = value := by
  cases outcome : read input with
  | error reason =>
      rw [as, outcome] at reads
      cases reads
  | ok after =>
      rw [as, outcome] at reads
      cases reads
      exact ⟨after.1, rfl, rfl⟩

end Reader

/-- The part at the front of the input that is taken settles what is read. -/
def Local (read : Reader τ ε α) : Prop :=
  ∀ input value rest, read input = .ok (value, rest) →
    ∃ taken, input = taken ++ rest ∧ ∀ more, read (taken ++ more) = .ok (value, more)

/-- Something of the input is taken. -/
def Strict (read : Reader τ ε α) : Prop :=
  ∀ input value rest, read input = .ok (value, rest) → rest.length < input.length

theorem Local.shorter {read : Reader τ ε α} (local_ : Local read) {input rest : List τ} {value : α}
    (reads : read input = .ok (value, rest)) : rest.length ≤ input.length := by
  obtain ⟨taken, rfl, _⟩ := local_ input value rest reads
  simp

theorem Local.truncated {read : Reader τ ε α} (local_ : Local read) {whole part : List τ} {value : α}
    (reads : read whole = .ok (value, [])) (front : part <+: whole) (short : part ≠ whole)
    (value' : α) (rest : List τ) : read part ≠ .ok (value', rest) := by
  intro reads'
  obtain ⟨missing, rfl⟩ := front
  obtain ⟨taken, rfl, settled⟩ := local_ part value' rest reads'
  have other := settled (rest ++ missing)
  rw [← List.append_assoc, reads, Except.ok.injEq, Prod.mk.injEq] at other
  have nothing := (List.append_eq_nil_iff.mp other.2.symm).2
  simp [nothing] at short

/-- A reader that looks at the first character, and is local behind it. -/
theorem local_head {read : Reader τ ε α} {reason : ε} (nothing : read [] = .error reason)
    (local_ : ∀ char, Local fun input => read (char :: input)) : Local read := by
  intro input value rest reads
  cases input with
  | nil =>
      rw [nothing] at reads
      cases reads
  | cons char input =>
      obtain ⟨taken, rfl, settled⟩ := local_ char input value rest reads
      exact ⟨char :: taken, rfl, settled⟩

theorem strict_head {read : Reader τ ε α} {reason : ε} (nothing : read [] = .error reason)
    (local_ : ∀ char, Local fun input => read (char :: input)) : Strict read := by
  intro input value rest reads
  cases input with
  | nil =>
      rw [nothing] at reads
      cases reads
  | cons char input =>
      have shorter := (local_ char).shorter reads
      simp only [List.length_cons]
      omega

theorem local_ok (value : α) : Local (fun input => .ok (value, input) : Reader τ ε α) := by
  intro input value' rest reads
  cases reads
  exact ⟨[], rfl, fun _ => rfl⟩

theorem local_error (reason : ε) : Local (fun _ => .error reason : Reader τ ε α) := by
  intro input value rest reads
  cases reads

theorem Local.then_ {first : Reader τ ε α} {next : α → Reader τ ε β} (local_ : Local first)
    (local' : ∀ value, Local (next value)) : Local (first.then_ next) := by
  intro input value rest reads
  obtain ⟨value', middle, front, back⟩ := Reader.then_eq_ok reads
  obtain ⟨taken, rfl, settled⟩ := local_ input value' middle front
  obtain ⟨taken', rfl, settled'⟩ := local' value' middle value rest back
  refine ⟨taken ++ taken', by rw [List.append_assoc], fun more => ?_⟩
  rw [List.append_assoc, Reader.then_, settled]
  exact settled' more

theorem Local.as {read : Reader τ ε α} (local_ : Local read) (convert : α → β) :
    Local (read.as convert) := by
  intro input value rest reads
  obtain ⟨value', front, rfl⟩ := Reader.as_eq_ok reads
  obtain ⟨taken, rfl, settled⟩ := local_ input value' rest front
  refine ⟨taken, rfl, fun more => ?_⟩
  rw [Reader.as, settled]
  rfl

theorem Local.repeated {read : Reader τ ε α} (local_ : Local read) (add : β → α → β) (count : Nat)
    (filled : β) : Local (read.repeated add count filled) := by
  induction count generalizing filled with
  | zero => exact local_ok filled
  | succ count ih => exact local_.then_ fun item => ih (add filled item)

theorem Local.within (size : Nat) (short : ε) (read : Reader τ ε α) :
    Local (read.within size short) := by
  intro input value rest reads
  obtain ⟨long, rfl, left, inner⟩ := Reader.within_eq_ok reads
  refine ⟨input.take size, (List.take_append_drop size input).symm, fun more => ?_⟩
  have length : (input.take size).length = size := List.length_take_of_le long
  rw [Reader.within, if_pos (by simp [length]), List.take_left' length, List.drop_left' length,
    inner]
  rfl

/-- What is read costs no more than the characters that are taken and a credit. -/
def Charged (read : Reader τ ε α) (cost : α → Nat) (credit : Nat) : Prop :=
  ∀ input value rest, read input = .ok (value, rest) →
    cost value + rest.length ≤ credit + input.length

theorem Local.charged {read : Reader τ ε α} (local_ : Local read) :
    Charged read (fun _ => 0) 0 := by
  intro input value rest reads
  have shorter := local_.shorter reads
  dsimp only
  omega

theorem Strict.charged {read : Reader τ ε α} (strict : Strict read) :
    Charged read (fun _ => 1) 0 := by
  intro input value rest reads
  have shorter := strict input value rest reads
  dsimp only
  omega

theorem Charged.strict {read : Reader τ ε α} {cost : α → Nat} (charged : Charged read cost 0)
    (costs : ∀ value, 0 < cost value) : Strict read := by
  intro input value rest reads
  have paid := charged input value rest reads
  have positive := costs value
  omega

theorem charged_ok (value : α) (cost : α → Nat) :
    Charged (fun input => .ok (value, input) : Reader τ ε α) cost (cost value) := by
  intro input value' rest reads
  cases reads
  exact Nat.le_refl _

theorem charged_error (reason : ε) (cost : α → Nat) (credit : Nat) :
    Charged (fun _ => .error reason : Reader τ ε α) cost credit := by
  intro input value rest reads
  cases reads

theorem Charged.then_ {first : Reader τ ε α} {next : α → Reader τ ε β} {cost : α → Nat}
    {cost' : β → Nat} {credit credit' : Nat} (charged : Charged first cost credit)
    (charged' : ∀ value, Charged (next value) cost' (cost value + credit')) :
    Charged (first.then_ next) cost' (credit + credit') := by
  intro input value rest reads
  obtain ⟨value', middle, front, back⟩ := Reader.then_eq_ok reads
  have paid := charged input value' middle front
  have paid' := charged' value' middle value rest back
  omega

theorem Charged.as {read : Reader τ ε α} {convert : α → β} {cost : α → Nat} {cost' : β → Nat}
    {credit extra : Nat} (charged : Charged read cost credit)
    (cheaper : ∀ value, cost' (convert value) ≤ extra + cost value) :
    Charged (read.as convert) cost' (extra + credit) := by
  intro input value rest reads
  obtain ⟨value', front, rfl⟩ := Reader.as_eq_ok reads
  have paid := charged input value' rest front
  have less := cheaper value'
  omega

theorem Charged.cheaper {read : Reader τ ε α} {cost cost' : α → Nat} {credit : Nat}
    (charged : Charged read cost credit) (cheaper : ∀ value, cost' value ≤ cost value) :
    Charged read cost' credit := by
  intro input value rest reads
  have paid := charged input value rest reads
  have less := cheaper value
  omega

theorem Charged.repeated {read : Reader τ ε α} {cost : α → Nat} (charged : Charged read cost 0)
    {add : β → α → β} {total : β → Nat}
    (sum : ∀ filled item, total (add filled item) ≤ total filled + cost item) (count : Nat)
    (filled : β) : Charged (read.repeated add count filled) total (total filled) := by
  induction count generalizing filled with
  | zero => exact charged_ok filled total
  | succ count ih =>
      intro input value rest reads
      obtain ⟨item, middle, front, back⟩ := Reader.then_eq_ok reads
      have paid := charged input item middle front
      have paid' := ih (add filled item) middle value rest back
      have more := sum filled item
      omega

theorem Charged.within {read : Reader τ ε α} {cost : α → Nat} {credit : Nat}
    (charged : Charged read cost credit) (size : Nat) (short : ε) :
    Charged (read.within size short) cost credit := by
  intro input value rest reads
  obtain ⟨long, rfl, left, inner⟩ := Reader.within_eq_ok reads
  have paid := charged _ value left inner
  rw [List.length_take_of_le long] at paid
  rw [List.length_drop]
  omega

theorem Strict.repeated {read : Reader τ ε α} (strict : Strict read) {add : β → α → β} {count : Nat}
    {filled value : β} {input rest : List τ}
    (reads : read.repeated add count filled input = .ok (value, rest)) :
    count + rest.length ≤ input.length := by
  induction count generalizing filled input with
  | zero =>
      cases reads
      omega
  | succ count ih =>
      obtain ⟨item, middle, front, back⟩ := Reader.then_eq_ok reads
      have shorter := strict input item middle front
      have later := ih back
      omega

/-- A failure that does not come from inputs up to so many characters. -/
def Never (reason : ε) (limit : Nat) (read : Reader τ ε α) : Prop :=
  ∀ input, input.length ≤ limit → read input ≠ .error reason

theorem Never.then_ {reason : ε} {limit : Nat} {first : Reader τ ε α} {next : α → Reader τ ε β}
    (never : Never reason limit first) (shorter : Charged first (fun _ => 0) 0)
    (never' : ∀ value, Never reason limit (next value)) :
    Never reason limit (first.then_ next) := by
  intro input short fails
  cases outcome : first input with
  | error reason' =>
      rw [Reader.then_, outcome] at fails
      cases fails
      exact never input short outcome
  | ok after =>
      rw [Reader.then_, outcome] at fails
      have less := shorter input after.1 after.2 outcome
      exact never' after.1 after.2 (by omega) fails

theorem Never.as {reason : ε} {limit : Nat} {read : Reader τ ε α} (never : Never reason limit read)
    (convert : α → β) : Never reason limit (read.as convert) := by
  intro input short fails
  cases outcome : read input with
  | error reason' =>
      rw [Reader.as, outcome] at fails
      cases fails
      exact never input short outcome
  | ok after =>
      rw [Reader.as, outcome] at fails
      cases fails

theorem Never.repeated {reason : ε} {limit : Nat} {read : Reader τ ε α}
    (never : Never reason limit read) (shorter : Charged read (fun _ => 0) 0) (add : β → α → β)
    (count : Nat) (filled : β) : Never reason limit (read.repeated add count filled) := by
  induction count generalizing filled with
  | zero =>
      intro input _ fails
      cases fails
  | succ count ih => exact never.then_ shorter fun item => ih (add filled item)

def given (bad : ε) (rest : List τ) : Option β → Except ε (β × List τ)
  | some result => .ok (result, rest)
  | none => .error bad

/-- Of whatever is written the reader takes exactly the text. What it makes of it is
`back` of the value; where that is nothing, the reader fails for a `bad` value. -/
def Restores (write : α → Option (List τ)) (bad : ε) (read : Reader τ ε β) (back : α → Option β) :
    Prop :=
  ∀ value text, write value = some text → ∀ rest, read (text ++ rest) = given bad rest (back value)

section Restores

variable {write : α → Option (List τ)} {write' : β → Option (List τ)} {bad : ε}
variable {read : Reader τ ε γ} {read' : Reader τ ε δ} {back : α → Option γ} {back' : β → Option δ}

theorem Restores.as (restores : Restores write bad read back) (convert : γ → δ) :
    Restores write bad (read.as convert) fun value => (back value).map convert := by
  intro value text written rest
  rw [Reader.as, restores value text written rest]
  dsimp only
  cases back value <;> rfl

theorem Restores.within (restores : Restores write bad read back) (short : ε) {value : α}
    {text : List τ} (written : write value = some text) (rest : List τ) :
    read.within text.length short (text ++ rest) = given bad rest (back value) := by
  have whole := restores value text written []
  rw [List.append_nil] at whole
  rw [Reader.within, if_pos (by simp), List.take_left' rfl, List.drop_left' rfl, whole]
  cases back value <;> rfl

def writeBoth (write : α → Option (List τ)) (write' : β → Option (List τ)) (pair : α × β) :
    Option (List τ) :=
  (write pair.1).bind fun text => (write' pair.2).map fun text' => text ++ text'

def backBoth (back : α → Option γ) (back' : β → Option δ) (pair : α × β) : Option (γ × δ) :=
  (back pair.1).bind fun first => (back' pair.2).map fun second => (first, second)

theorem backBoth_some_iff {pair : α × β} {result : γ × δ} :
    backBoth back back' pair = some result ↔
      back pair.1 = some result.1 ∧ back' pair.2 = some result.2 := by
  obtain ⟨first, second⟩ := result
  rw [backBoth]
  cases back pair.1 with
  | none => simp
  | some first' => simp [and_comm]

theorem Restores.both (restores : Restores write bad read back)
    (restores' : Restores write' bad read' back') :
    Restores (writeBoth write write') bad
      (read.then_ fun first => read'.as fun second => (first, second)) (backBoth back back') := by
  intro pair text written rest
  obtain ⟨front, first, written'⟩ := Option.bind_eq_some_iff.mp written
  obtain ⟨last, second, rfl⟩ := Option.map_eq_some_iff.mp written'
  rw [List.append_assoc, Reader.then_, restores pair.1 front first, backBoth]
  cases back pair.1 with
  | none => rfl
  | some result => exact (restores'.as fun second => (result, second)) pair.2 last second rest

def writeAll (write : α → Option (List τ)) : List α → Option (List τ)
  | [] => some []
  | item :: rest => (write item).bind fun text => (writeAll write rest).map fun text' => text ++ text'

theorem writeAll_append {items items' : List α} {text : List τ}
    (written : writeAll write (items ++ items') = some text) :
    ∃ front last, writeAll write items = some front ∧ text = front ++ last := by
  induction items generalizing text with
  | nil => exact ⟨[], text, rfl, rfl⟩
  | cons item items ih =>
      obtain ⟨first, head, written'⟩ := Option.bind_eq_some_iff.mp written
      obtain ⟨later, tail, rfl⟩ := Option.map_eq_some_iff.mp written'
      obtain ⟨front, last, all, rfl⟩ := ih tail
      exact ⟨first ++ front, last, by simp [writeAll, head, all], by rw [List.append_assoc]⟩

def backAll (back : α → Option γ) : List α → Option (List γ)
  | [] => some []
  | item :: rest => (back item).bind fun result => (backAll back rest).map fun results => result :: results

theorem backAll_some_iff {items : List α} {results : List γ} :
    backAll back items = some results ↔
      List.Forall₂ (fun item result => back item = some result) items results := by
  induction items generalizing results with
  | nil => simp [backAll, eq_comm]
  | cons item rest ih =>
      rw [backAll, List.forall₂_cons_left_iff]
      cases back item with
      | none => simp
      | some result => simp [← ih, eq_comm]

theorem Restores.all (restores : Restores write bad read back) (add : β → γ → β) (items : List α)
    (filled : β) {text : List τ} (written : writeAll write items = some text) (rest : List τ) :
    read.repeated add items.length filled (text ++ rest) =
      given bad rest ((backAll back items).map fun results => results.foldl add filled) := by
  induction items generalizing filled text with
  | nil =>
      cases written
      rfl
  | cons item items ih =>
      obtain ⟨front, first, written'⟩ := Option.bind_eq_some_iff.mp written
      obtain ⟨last, later, rfl⟩ := Option.map_eq_some_iff.mp written'
      rw [List.length_cons, Reader.repeated, List.append_assoc, Reader.then_,
        restores item front first, backAll]
      cases back item with
      | none => rfl
      | some result =>
          change read.repeated add items.length (add filled result) (last ++ rest) = _
          rw [ih (add filled result) later]
          cases backAll back items <;> rfl

end Restores

theorem backAll_same_iff {back : α → Option α} {items : List α} :
    backAll back items = some items ↔ ∀ item ∈ items, back item = some item := by
  rw [backAll_some_iff, List.forall₂_same]

end Format
