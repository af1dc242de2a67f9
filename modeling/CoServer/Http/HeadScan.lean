import CoServer.Http.Request

/-!
The scan for the end of a head. In a head whose line ends come in pairs and whose
only empty line is at its end, the counter is four at the end and nowhere before.
-/

namespace CoServer.Http

def crlf : Bytes := [cr, lf]

/-- Carriage returns and line feeds come in pairs only. -/
def paired : Bytes → Bool
  | [] => true
  | [char] => char != cr && char != lf
  | char :: next :: rest =>
      if char = cr then next == lf && paired rest else char != lf && paired (next :: rest)

theorem once_of_drop {head : Bytes}
    (only : ∀ index < head.length, crlf ++ crlf <+: head.drop index → head.length ≤ index + 4) :
    ∀ front back, head = front ++ (crlf ++ crlf) ++ back → back = [] := by
  rintro front back rfl
  have bound := only front.length (by simp [crlf]) (by simp)
  simp only [List.length_append, crlf, List.length_cons, List.length_nil] at bound
  exact List.length_eq_zero_iff.mp (by omega)

namespace Request

def scanState (text : Bytes) : UInt8 × UInt8 := text.foldl scanStep (0, 0)

theorem scan_state (text : Bytes) (index : Nat) (state : UInt8 × UInt8) (numRead : Nat) :
    (scan text index state numRead).1 = text.foldl scanStep state := by
  induction text generalizing index state numRead with
  | nil => rfl
  | cons char rest ih => exact ih _ _ _

theorem scan_append (front back : Bytes) (index : Nat) (state : UInt8 × UInt8) (numRead : Nat) :
    scan (front ++ back) index state numRead =
      scan back (index + front.length) (scan front index state numRead).1
        (scan front index state numRead).2 := by
  induction front generalizing index state numRead with
  | nil => rfl
  | cons char rest ih =>
      rw [List.cons_append, scan, ih, List.length_cons, scan]
      congr 1
      omega

theorem scan_found {text : Bytes} {state : UInt8 × UInt8} (some_ : text ≠ [])
    (found : (text.foldl scanStep state).2 = 4) (index numRead : Nat) :
    (scan text index state numRead).2 = index + text.length := by
  obtain rfl | ⟨front, char, rfl⟩ := List.eq_nil_or_concat text
  · exact (some_ rfl).elim
  · rw [List.concat_eq_append] at found ⊢
    rw [List.foldl_append, List.foldl_cons, List.foldl_nil] at found
    rw [scan_append, scan_state, scan, scan, if_pos found, List.length_append,
      List.length_singleton, Nat.add_assoc]

theorem scan_quiet {text : Bytes} {state : UInt8 × UInt8}
    (quiet : ∀ front back, text = front ++ back → front ≠ [] → (front.foldl scanStep state).2 ≠ 4)
    (index numRead : Nat) : (scan text index state numRead).2 = numRead := by
  induction text generalizing index state numRead with
  | nil => rfl
  | cons char rest ih =>
      have first := quiet [char] rest rfl (by simp)
      rw [List.foldl_cons, List.foldl_nil] at first
      rw [scan, if_neg first]
      refine ih ?_ _ _
      intro front back split some_
      have later := quiet (char :: front) back (by rw [split, List.cons_append]) (by simp)
      rwa [List.foldl_cons] at later

theorem scan_bounds (text : Bytes) (index : Nat) (state : UInt8 × UInt8) (numRead : Nat) :
    (scan text index state numRead).2 = numRead ∨
      (index < (scan text index state numRead).2 ∧
        (scan text index state numRead).2 ≤ index + text.length) := by
  induction text generalizing index state numRead with
  | nil => exact Or.inl rfl
  | cons char rest ih =>
      rw [scan, List.length_cons]
      rcases ih (index + 1) (scanStep state char)
        (if (scanStep state char).2 = 4 then index + 1 else numRead) with same | ⟨above, below⟩
      · rw [same]
        split
        · exact Or.inr ⟨by omega, by omega⟩
        · exact Or.inl rfl
      · exact Or.inr ⟨by omega, by omega⟩

theorem scanData_bounds (req : Request) (data : Bytes) :
    (req.scanData data).2 ≤ data.length ∧
      (req.scanData data).2 ≤ req.maxHeaderSize - req.headerBufferIdx ∧
      (data ≠ [] → req.headerBufferIdx < req.maxHeaderSize → 0 < (req.scanData data).2) := by
  simp only [scanData, ge_iff_le, ← Nat.min_def]
  have bounds := scan_bounds
    (data.take (min data.length (req.maxHeaderSize - req.headerBufferIdx))) 0
    (req.last, req.numFound) (min data.length (req.maxHeaderSize - req.headerBufferIdx))
  rw [List.length_take] at bounds
  refine ⟨by omega, by omega, ?_⟩
  intro some_ room
  have := List.length_pos_iff.mpr some_
  omega

theorem scanData_full {req : Request} (full : req.maxHeaderSize ≤ req.headerBufferIdx) (data : Bytes) :
    req.scanData data = (req, 0) := by
  have none_ : req.maxHeaderSize - req.headerBufferIdx = 0 := Nat.sub_eq_zero_of_le full
  simp only [scanData, ge_iff_le, ← Nat.min_def, none_, Nat.min_zero, List.take_zero, scan]

/-- A call that succeeds makes progress, and room is left unless it completes. -/
theorem consumeHeaderSome_count {req req' : Request} {data : Bytes} {complete : Bool} {count : Nat}
    (reply : req.consumeHeaderSome data = some ((none, complete, count), req')) :
    count ≤ data.length ∧ (data ≠ [] → req.headerBufferIdx < req.maxHeaderSize → 0 < count) ∧
      (complete = false → req'.headerBufferIdx = req.headerBufferIdx + count ∧
        req'.maxHeaderSize = req.maxHeaderSize ∧
        (req.headerBufferIdx < req.maxHeaderSize → req'.headerBufferIdx < req'.maxHeaderSize)) := by
  obtain ⟨within, room, some_⟩ := scanData_bounds req data
  obtain ⟨same, ⟨rfl, _, _⟩ | ⟨rfl, _, more, rfl⟩⟩ := consumeHeaderSome_ok reply
  · exact ⟨same ▸ within, same ▸ some_, fun incomplete => by cases incomplete⟩
  · refine ⟨same ▸ within, same ▸ some_, fun _ => ⟨rfl, rfl, ?_⟩⟩
    intro below
    show req.headerBufferIdx + count < req.maxHeaderSize
    omega

/-- What is left of a head when the scan has seen so much of its last four bytes. -/
inductive Remaining : Nat → Bytes → Prop
  | done : Remaining 4 []
  | other {seen char rest} : seen = 0 ∨ seen = 2 → char ≠ cr → char ≠ lf → Remaining 0 rest →
      Remaining seen (char :: rest)
  | cr {seen rest} : seen = 0 ∨ seen = 2 → Remaining (seen + 1) rest → Remaining seen (cr :: rest)
  | lf {seen rest} : seen = 1 ∨ seen = 3 → Remaining (seen + 1) rest → Remaining seen (lf :: rest)

/-- The state of the scan that stands for what it has seen. -/
def Seen (seen : Nat) (state : UInt8 × UInt8) : Prop :=
  state.2 = UInt8.ofNat seen ∧ (state.1 = Http.cr ↔ seen = 1 ∨ seen = 3)

theorem Remaining.scan {seen : Nat} {front back : Bytes} {state : UInt8 × UInt8}
    (remaining : Remaining seen (front ++ back)) (at_ : Seen seen state) :
    ∃ seen', Remaining seen' back ∧ Seen seen' (front.foldl scanStep state) := by
  induction front generalizing seen state with
  | nil => exact ⟨seen, remaining, at_⟩
  | cons char rest ih =>
      obtain ⟨count, last⟩ := at_
      rw [List.cons_append] at remaining
      rw [List.foldl_cons]
      cases remaining with
      | other even notCr notLf later =>
          refine ih later ⟨?_, ?_⟩
          · simp [scanStep, notCr, notLf]
          · simp [scanStep, notCr]
      | cr even later =>
          have fresh : state.1 ≠ Http.cr := fun same => by
            have := last.mp same
            omega
          refine ih later ⟨?_, ?_⟩
          · rcases even with rfl | rfl <;> simp [scanStep, fresh, count]
          · simp [scanStep]
            omega
      | lf odd later =>
          have after : state.1 = Http.cr := last.mpr odd
          have different : Http.lf ≠ Http.cr := by decide
          refine ih later ⟨?_, ?_⟩
          · rcases odd with rfl | rfl <;> simp [scanStep, after, different, count]
          · simp only [scanStep, different, false_iff]
            omega

theorem not_suffix_crlf {front : Bytes} {char : UInt8} (different : char ≠ lf) :
    ¬ crlf <:+ front ++ [char] := by
  rintro ⟨more, same⟩
  have last := congrArg List.getLast? same
  simp [crlf] at last
  exact different last.symm

theorem remaining_start {head : Bytes} (pairs : paired head = true) (ended : crlf ++ crlf <:+ head)
    (once : ∀ front back, head = front ++ (crlf ++ crlf) ++ back → back = []) :
    Remaining 0 head := by
  have general : ∀ front back seen, head = front ++ back → paired back = true →
      (seen = 0 ∧ ¬ crlf <:+ front) ∨ (seen = 2 ∧ ∃ before, front = before ++ crlf ∧ ¬ crlf <:+ before) →
      Remaining seen back := by
    intro front back
    induction back using paired.induct generalizing front with
    | case1 =>
        intro seen split _ state
        rw [List.append_nil] at split
        subst split
        rcases state with ⟨rfl, open_⟩ | ⟨rfl, before, rfl, open_⟩
        · exact (open_ ((List.suffix_append crlf crlf).trans ended)).elim
        · obtain ⟨more, same⟩ := ended
          rw [← List.append_assoc, List.append_left_inj] at same
          exact (open_ ⟨more, same⟩).elim
    | case2 char =>
        intro seen split plain state
        simp only [paired, Bool.and_eq_true, bne_iff_ne] at plain
        rw [split] at ended
        exact (not_suffix_crlf plain.2 ((List.suffix_append crlf crlf).trans ended)).elim
    | case3 next rest ih =>
        intro seen split pair state
        simp only [paired, ↓reduceIte, Bool.and_eq_true, beq_iff_eq] at pair
        obtain ⟨rfl, pairs'⟩ := pair
        rcases state with ⟨rfl, open_⟩ | ⟨rfl, before, rfl, open_⟩
        · refine .cr (Or.inl rfl) (.lf (Or.inl rfl) ?_)
          refine ih (front ++ crlf) 2 ?_ pairs' (Or.inr ⟨rfl, front, rfl, open_⟩)
          rw [split, List.append_assoc]
          rfl
        · refine .cr (Or.inr rfl) (.lf (Or.inr rfl) ?_)
          have ends := once before rest (by rw [split]; simp [crlf])
          rw [ends]
          exact .done
    | case4 char next rest other ih =>
        intro seen split plain state
        simp only [paired, other, ↓reduceIte, Bool.and_eq_true, bne_iff_ne] at plain
        refine .other ?_ other plain.1 (ih (front ++ [char]) 0 ?_ plain.2
          (Or.inl ⟨rfl, not_suffix_crlf plain.1⟩))
        · rcases state with ⟨rfl, _⟩ | ⟨rfl, _⟩
          · exact Or.inl rfl
          · exact Or.inr rfl
        · rw [split, List.append_assoc, List.singleton_append]
  exact general [] head 0 rfl pairs (Or.inl ⟨rfl, by simp [crlf]⟩)

theorem scan_head {head : Bytes} (remaining : Remaining 0 head) {front back : Bytes}
    (split : head = front ++ back) : (scanState front).2 = 4 ↔ back = [] := by
  rw [split] at remaining
  have start : Seen 0 ((0, 0) : UInt8 × UInt8) := ⟨rfl, by simp [Http.cr]⟩
  obtain ⟨seen, left, count, _⟩ := remaining.scan start
  rw [scanState, count]
  cases left with
  | done => simp
  | other even | cr even => rcases even with rfl | rfl <;> simp
  | lf odd => rcases odd with rfl | rfl <;> simp

end Request

end CoServer.Http
