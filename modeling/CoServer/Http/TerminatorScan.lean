import CoServer.Http.HeadReading
import CoServer.Http.HeadScan
import Mathlib.Data.List.Induction

/-!
What the counter and the last byte of the scan stand for. The scanned text ends
with a run of CRLFs, perhaps with a CR behind it, and the counter holds the
number of bytes of the run, modulo 256 and without the first one if the run
follows a CR.
-/

namespace CoServer.Http

def crlfs (count : Nat) : Bytes := (List.replicate count crlf).flatten

theorem crlfs_succ (count : Nat) : crlfs (count + 1) = crlfs count ++ crlf := by
  rw [crlfs, List.replicate_succ', List.flatten_append, List.flatten_singleton, crlfs]

theorem crlf_suffix_crlfs (front : Bytes) (count : Nat) : crlf <:+ front ++ crlfs (count + 1) := by
  rw [crlfs_succ, ← List.append_assoc]
  exact List.suffix_append _ _

theorem crlfs_unique {front front' : Bytes} {count count' : Nat}
    (same : front ++ crlfs count = front' ++ crlfs count') (longest : ¬ crlf <:+ front)
    (longest' : ¬ crlf <:+ front') : front = front' ∧ count = count' := by
  induction count generalizing count' with
  | zero =>
      cases count' with
      | zero => exact ⟨by simpa [crlfs] using same, rfl⟩
      | succ count' =>
          rw [show crlfs 0 = [] from rfl, List.append_nil] at same
          rw [same] at longest
          exact (longest (crlf_suffix_crlfs front' count')).elim
  | succ count ih =>
      cases count' with
      | zero =>
          rw [show crlfs 0 = [] from rfl, List.append_nil] at same
          rw [← same] at longest'
          exact (longest' (crlf_suffix_crlfs front count)).elim
      | succ count' =>
          rw [crlfs_succ, crlfs_succ, ← List.append_assoc, ← List.append_assoc,
            List.append_left_inj] at same
          obtain ⟨rfl, rfl⟩ := ih same
          exact ⟨rfl, rfl⟩

namespace Request

/-- The text ends with a run of CRLFs, and half of another one if so marked; the
counter has counted it, but for its first byte after a CR. -/
structure Scanned (text front : Bytes) (pairs : Nat) (half : Bool) (count : Nat) : Prop where
  split : text = front ++ crlfs pairs ++ if half then [cr] else []
  longest : ¬ crlf <:+ front
  counted : count + (if front.getLast? = some cr then 1 else 0) = 2 * pairs + half.toNat
  counter : (scanState text).2 = UInt8.ofNat count
  last : (scanState text).1 = cr ↔ half = true

theorem scanState_snoc (text : Bytes) (char : UInt8) :
    scanState (text ++ [char]) = scanStep (scanState text) char := by
  rw [scanState, List.foldl_append]
  rfl

theorem last_of_suffix {text : Bytes} (ended : [cr] <:+ text) : (scanState text).1 = cr := by
  obtain ⟨front, rfl⟩ := ended
  rw [scanState_snoc, scanStep]

theorem suffix_of_last {text : Bytes} (last : (scanState text).1 = cr) : [cr] <:+ text := by
  obtain rfl | ⟨front, char, rfl⟩ := List.eq_nil_or_concat text
  · simp [scanState, cr] at last
  · rw [List.concat_eq_append] at last ⊢
    rw [scanState_snoc, scanStep] at last
    rw [show char = cr from last]
    exact List.suffix_append _ _

theorem Scanned.snoc {text front : Bytes} {pairs count : Nat} {half : Bool}
    (scanned : Scanned text front pairs half count) (char : UInt8) :
    ∃ front' pairs' half' count', Scanned (text ++ [char]) front' pairs' half' count' := by
  obtain ⟨split, longest, counted, counter, last⟩ := scanned
  have different : lf ≠ cr := by decide
  by_cases isCr : char = cr
  · subst isCr
    cases half with
    | false =>
        refine ⟨front, pairs, true, count + 1, by simp [split], longest, ?_, ?_, ?_⟩
        · simp only [Bool.toNat_true, Bool.toNat_false] at counted ⊢
          omega
        · simp [scanState_snoc, scanStep, last, counter]
        · simp [scanState_snoc, scanStep]
    | true =>
        -- the counter starts anew behind the first of two CRs
        refine ⟨text, 0, true, 0, by simp [crlfs], ?_, ?_, ?_, ?_⟩
        · rw [split]
          exact not_suffix_crlf (by decide)
        · simp [split]
        · simp [scanState_snoc, scanStep, last, different.symm]
        · simp [scanState_snoc, scanStep]
  · by_cases isLf : char = lf
    · subst isLf
      cases half with
      | false =>
          refine ⟨text ++ [lf], 0, false, 0, by simp [crlfs], ?_, by simp [different], ?_, ?_⟩
          · rintro ⟨more, same⟩
            rw [crlf, show [cr, lf] = [cr] ++ [lf] from rfl, ← List.append_assoc,
              List.append_left_inj] at same
            have open_ := last.mp (last_of_suffix ⟨more, same⟩)
            cases open_
          · simp [scanState_snoc, scanStep, last, different]
          · simp [scanState_snoc, scanStep, different]
      | true =>
          refine ⟨front, pairs + 1, false, count + 1, ?_, longest, ?_, ?_, ?_⟩
          · simp [split, crlfs_succ, crlf]
          · simp only [Bool.toNat_true, Bool.toNat_false] at counted ⊢
            omega
          · simp [scanState_snoc, scanStep, last, counter, different]
          · simp [scanState_snoc, scanStep, different]
    · refine ⟨text ++ [char], 0, false, 0, by simp [crlfs], not_suffix_crlf isLf, by simp [isCr],
        ?_, ?_⟩
      · simp [scanState_snoc, scanStep, isCr, isLf]
      · simp [scanState_snoc, scanStep, isCr]

theorem exists_scanned (text : Bytes) : ∃ front pairs half count, Scanned text front pairs half count := by
  induction text using List.reverseRecOn with
  | nil => exact ⟨[], 0, false, 0, rfl, by decide, by decide, rfl, by decide⟩
  | append_singleton text char ih =>
      obtain ⟨front, pairs, half, count, scanned⟩ := ih
      exact scanned.snoc char

/-- The texts on which the counter is four: a run of CRLFs that does not follow a CR,
or one that does and has a CR behind it, of two CRLFs and any multiple of 128 more. -/
def FourCounted (text : Bytes) : Prop :=
  ∃ front pairs, pairs % 128 = 2 ∧ ¬ crlf <:+ front ∧
    ((front.getLast? ≠ some cr ∧ text = front ++ crlfs pairs) ∨
      (front.getLast? = some cr ∧ text = front ++ crlfs pairs ++ [cr]))

theorem counter_iff (count : Nat) : UInt8.ofNat count = 4 ↔ count % 256 = 4 := by
  rw [← UInt8.toNat_inj, UInt8.toNat_ofNat']
  simp

theorem numFound_iff (text : Bytes) : (scanState text).2 = 4 ↔ FourCounted text := by
  obtain ⟨front, pairs, half, count, split, longest, counted, counter, last⟩ := exists_scanned text
  rw [counter, counter_iff]
  constructor
  · intro four
    by_cases after : front.getLast? = some cr
    · rw [if_pos after] at counted
      cases half with
      | false =>
          simp only [Bool.toNat_false] at counted
          omega
      | true =>
          simp only [Bool.toNat_true] at counted
          exact ⟨front, pairs, by omega, longest, Or.inr ⟨after, split⟩⟩
    · rw [if_neg after] at counted
      cases half with
      | false =>
          simp only [Bool.toNat_false] at counted
          rw [if_neg (by decide), List.append_nil] at split
          exact ⟨front, pairs, by omega, longest, Or.inl ⟨after, split⟩⟩
      | true =>
          simp only [Bool.toNat_true] at counted
          omega
  · rintro ⟨front', pairs', two, longest', ⟨before, same⟩ | ⟨before, same⟩⟩
    · have closed : half = false := by
        rw [← Bool.not_eq_true, ← last]
        intro open_
        obtain ⟨more, ended⟩ := suffix_of_last open_
        obtain ⟨count', rfl⟩ : ∃ count', pairs' = count' + 1 := ⟨pairs' - 1, by omega⟩
        rw [same, crlfs_succ, ← List.append_assoc] at ended
        have char := congrArg List.getLast? ended
        simp [crlf, cr, lf] at char
      subst closed
      rw [if_neg (by decide), List.append_nil] at split
      obtain ⟨rfl, rfl⟩ := crlfs_unique (split.symm.trans same) longest longest'
      rw [if_neg before, Bool.toNat_false] at counted
      omega
    · have open_ : half = true := last.mp (last_of_suffix (same ▸ List.suffix_append _ _))
      subst open_
      rw [if_pos rfl] at split
      obtain ⟨rfl, rfl⟩ := crlfs_unique (List.append_cancel_right (split.symm.trans same)) longest longest'
      rw [if_pos before, Bool.toNat_true] at counted
      omega

/-- A shorter part of the text ends with an empty line. -/
def EndedBefore (text : Bytes) : Prop :=
  ∃ front back, text = front ++ back ∧ back ≠ [] ∧ crlf ++ crlf <:+ front

/-- The text ends with its first empty line. -/
def Terminated (text : Bytes) : Prop := crlf ++ crlf <:+ text ∧ ¬ EndedBefore text

theorem FourCounted.pairs {pairs : Nat} (two : pairs % 128 = 2) :
    ∃ more, crlfs pairs = crlfs more ++ (crlf ++ crlf) ∧ pairs = more + 2 := by
  obtain ⟨more, rfl⟩ : ∃ more, pairs = more + 2 := ⟨pairs - 2, by omega⟩
  exact ⟨more, by rw [crlfs_succ, crlfs_succ, List.append_assoc], rfl⟩

theorem FourCounted.ended {text : Bytes} (four : FourCounted text) :
    crlf ++ crlf <:+ text ∨ EndedBefore text := by
  obtain ⟨front, pairs, two, _, ⟨_, rfl⟩ | ⟨_, rfl⟩⟩ := four
  · obtain ⟨more, same, _⟩ := FourCounted.pairs two
    rw [same, ← List.append_assoc]
    exact Or.inl (List.suffix_append _ _)
  · obtain ⟨more, same, _⟩ := FourCounted.pairs two
    refine Or.inr ⟨front ++ crlfs pairs, [cr], rfl, by simp, ?_⟩
    rw [same, ← List.append_assoc]
    exact List.suffix_append _ _

theorem Terminated.counted {text : Bytes} (terminated : Terminated text)
    (clean : ¬ cr :: (crlf ++ crlf) <:+ text) : FourCounted text := by
  obtain ⟨⟨front, rfl⟩, first⟩ := terminated
  refine ⟨front, 2, rfl, ?_, Or.inl ⟨?_, rfl⟩⟩
  · rintro ⟨more, rfl⟩
    exact first ⟨more ++ crlf ++ crlf, crlf, by simp, by decide, ⟨more, by simp⟩⟩
  · intro after
    rw [List.getLast?_eq_some_iff] at after
    obtain ⟨more, rfl⟩ := after
    exact clean ⟨more, by simp⟩

theorem Terminated.not_counted {text : Bytes} (terminated : Terminated text)
    (after : cr :: (crlf ++ crlf) <:+ text) : ¬ FourCounted text := by
  rintro ⟨front, pairs, two, _, ⟨before, rfl⟩ | ⟨_, rfl⟩⟩
  · obtain ⟨more, same, count⟩ := FourCounted.pairs two
    cases more with
    | zero =>
        obtain ⟨more, ended⟩ := after
        rw [same, show crlfs 0 = [] from rfl, List.nil_append,
          show cr :: (crlf ++ crlf) = [cr] ++ (crlf ++ crlf) from rfl, ← List.append_assoc,
          List.append_left_inj] at ended
        exact before (by rw [← ended]; simp)
    | succ more =>
        obtain ⟨fewer, rfl⟩ : ∃ fewer, more = fewer + 1 := ⟨more - 1, by omega⟩
        refine terminated.2 ⟨front ++ crlfs (fewer + 2), crlf ++ crlf, ?_, by decide, ?_⟩
        · rw [same, List.append_assoc]
        · rw [crlfs_succ, crlfs_succ, List.append_assoc _ crlf crlf, ← List.append_assoc]
          exact List.suffix_append _ _
  · obtain ⟨more, ended⟩ := terminated.1
    have char := congrArg List.getLast? ended
    simp [crlf, cr, lf] at char

/-- The counter is four exactly where the text ends with its first empty line, but
for an empty line behind a CR, and for a run that is counted to four later. -/
theorem terminated_iff (text : Bytes) :
    ((scanState text).2 = 4 ↔ Terminated text) ↔
      ¬ (Terminated text ∧ cr :: (crlf ++ crlf) <:+ text) ∧
        ¬ (EndedBefore text ∧ FourCounted text) := by
  rw [numFound_iff]
  constructor
  · intro exact_
    refine ⟨fun ⟨terminated, after⟩ => terminated.not_counted after (exact_.mpr terminated), ?_⟩
    exact fun ⟨before, four⟩ => (exact_.mp four).2 before
  · rintro ⟨clean, first⟩
    constructor
    · intro four
      have open_ : ¬ EndedBefore text := fun before => first ⟨before, four⟩
      exact ⟨four.ended.resolve_right open_, open_⟩
    · intro terminated
      exact terminated.counted fun after => clean ⟨terminated, after⟩

/-- A request that is offered one byte a call, whatever the calls reply. -/
def offered : Bytes → Request → Option Request
  | [], req => some req
  | char :: rest, req => (req.consumeHeaderSome [char]).bind fun after => offered rest after.2

/-- The state of the scan after a text, in a request that has stored what fits of it. -/
structure Offered (limit : Nat) (text : Bytes) (req : Request) : Prop where
  size : req.maxHeaderSize = limit
  index : text.length < limit → req.headerBufferIdx = text.length
  state : (req.last, req.numFound) = scanState text

theorem scanData_single {req : Request} (room : req.headerBufferIdx < req.maxHeaderSize) (char : UInt8) :
    req.scanData [char] =
      ({ req with
          last := (scanStep (req.last, req.numFound) char).1
          numFound := (scanStep (req.last, req.numFound) char).2 }, 1) := by
  have all : min 1 (req.maxHeaderSize - req.headerBufferIdx) = 1 := by omega
  have whole : [char].take 1 = [char] := rfl
  simp only [scanData, List.length_singleton, ge_iff_le, ← Nat.min_def, all, whole, scan]
  split <;> rfl

theorem Offered.scanned {limit : Nat} {text : Bytes} {req : Request} (before : Offered limit text req)
    (room : text.length < limit) (char : UInt8) :
    req.scanData [char] =
      ({ req with
          last := (scanState (text ++ [char])).1
          numFound := (scanState (text ++ [char])).2 }, 1) := by
  rw [scanData_single (by rw [before.index room, before.size]; exact room), before.state,
    ← scanState_snoc]

theorem Offered.snoc {limit : Nat} {text : Bytes} {req req' : Request} {char : UInt8} {reply : Reply}
    (before : Offered limit text req) (room : text.length < limit)
    (replied : req.consumeHeaderSome [char] = some (reply, req')) :
    Offered limit (text ++ [char]) req' := by
  have index := before.index room
  have size := before.size
  have longer : (text ++ [char]).length = text.length + 1 := by
    rw [List.length_append, List.length_singleton]
  simp only [consumeHeaderSome, before.scanned room char] at replied
  split at replied
  · rename_i full
    cases replied
    exact ⟨size, fun below => by omega, rfl⟩
  · split at replied
    · have kept : ∀ success, (copyHeader { req with
          last := (scanState (text ++ [char])).1
          numFound := (scanState (text ++ [char])).2 } [char] 1).deserialize =
            some (success, req') → Offered limit (text ++ [char]) req' := by
        intro success read
        obtain ⟨_, limit', index', last, numFound⟩ := deserialize_keeps read
        refine ⟨limit'.trans size, fun _ => ?_, ?_⟩
        · rw [index', copyHeader, longer, index]
        · rw [last, numFound]
          rfl
      rw [acceptHeader] at replied
      split at replied
      · cases replied
      · rename_i read
        cases replied
        exact kept _ read
      · rename_i read
        cases replied
        exact kept _ read
    · cases replied
      exact ⟨size, fun _ => by rw [copyHeader, longer, index], rfl⟩

theorem Offered.run {limit : Nat} {text more : Bytes} {req req' : Request}
    (before : Offered limit text req) (room : (text ++ more).length ≤ limit)
    (ran : offered more req = some req') : Offered limit (text ++ more) req' := by
  induction more generalizing text req with
  | nil =>
      cases ran
      rwa [List.append_nil]
  | cons char rest ih =>
      rw [List.length_append, List.length_cons] at room
      rw [offered, Option.bind_eq_some_iff] at ran
      obtain ⟨⟨reply, middle⟩, replied, later⟩ := ran
      rw [← List.singleton_append, ← List.append_assoc]
      refine ih (before.snoc (by omega) replied) ?_ later
      simp only [List.length_append, List.length_singleton]
      omega

theorem offered_start (headerBuffer : Bytes) :
    Offered headerBuffer.length [] (ofBuffer headerBuffer) :=
  ⟨rfl, fun _ => rfl, rfl⟩

theorem terminator_exact_iff (headerBuffer front : Bytes) (char : UInt8) (req : Request)
    (fed : offered front (ofBuffer headerBuffer) = some req)
    (room : front.length < (ofBuffer headerBuffer).maxHeaderSize) :
    ((req.scanData [char]).1.numFound = 4 ↔ Terminated (front ++ [char])) ↔
      ¬ (Terminated (front ++ [char]) ∧ cr :: (crlf ++ crlf) <:+ front ++ [char]) ∧
        ¬ (EndedBefore (front ++ [char]) ∧ FourCounted (front ++ [char])) := by
  have before := (offered_start headerBuffer).run (Nat.le_of_lt room) fed
  rw [List.nil_append] at before
  rw [before.scanned room char]
  exact terminated_iff (front ++ [char])

/-- The last byte of an empty line behind the CR of another line end. -/
theorem terminator_exact_iff_repeated : ∃ req,
    offered (ascii "\r\r\n\r") (ofBuffer (List.replicate 8 0)) = some req ∧
      (((req.scanData [lf]).1.numFound = 4 ↔ Terminated (ascii "\r\r\n\r" ++ [lf])) ↔
        ¬ (Terminated (ascii "\r\r\n\r" ++ [lf]) ∧
            cr :: (crlf ++ crlf) <:+ ascii "\r\r\n\r" ++ [lf]) ∧
          ¬ (EndedBefore (ascii "\r\r\n\r" ++ [lf]) ∧ FourCounted (ascii "\r\r\n\r" ++ [lf]))) := by
  obtain ⟨req, fed⟩ := Option.isSome_iff_exists.mp
    (by decide +kernel : (offered (ascii "\r\r\n\r") (ofBuffer (List.replicate 8 0))).isSome)
  exact ⟨req, fed, terminator_exact_iff _ _ lf req fed (by decide)⟩

/-- The text ends with its first empty line, and the counter is three; it is four at
the next CR. -/
theorem terminator_missed :
    Terminated (ascii "\r\r\n\r\n") ∧ ¬ Terminated (ascii "\r\r\n\r\n\r") ∧
      (offered (ascii "\r\r\n\r") (ofBuffer (List.replicate 8 0))).map
          (fun req => (req.scanData [lf]).1.numFound) = some 3 ∧
      (offered (ascii "\r\r\n\r\n") (ofBuffer (List.replicate 8 0))).map
          (fun req => (req.scanData [cr]).1.numFound) = some 4 := by
  refine ⟨⟨by decide, ?_⟩, ?_, by decide +kernel, by decide +kernel⟩
  · rintro ⟨front, back, split, some_, ⟨more, rfl⟩⟩
    have size := congrArg List.length split
    have positive := List.length_pos_iff.mpr some_
    have whole : (ascii "\r\r\n\r\n").length = 5 := by decide
    have four : (crlf ++ crlf).length = 4 := rfl
    rw [List.length_append, List.length_append, whole, four] at size
    obtain rfl : more = [] := List.length_eq_zero_iff.mp (by omega)
    simp [ascii, crlf, cr, lf] at split
  · rintro ⟨⟨more, same⟩, _⟩
    have char := congrArg List.getLast? same
    simp [ascii, crlf, cr, lf] at char

end Request

end CoServer.Http
