import CoServer.Foundation.Scanner
import CoServer.Http.Text

/-!
The request parser of picohttpparser, as a scanner over the bytes between `buf`
and `buf_end`. It fails where the parser returns -1 and starves where it returns
-2; the note that goes with both is the number of headers parsed so far, which
the caller sees in either case.
-/

namespace CoServer.Http

open Scanning Scanner

def space : UInt8 := 0x20

def tab : UInt8 := 0x09

def cr : UInt8 := 0x0d

def lf : UInt8 := 0x0a

def tokenCharMap (char : UInt8) : Bool :=
  decide (char = 0x21 ∨ 0x23 ≤ char ∧ char ≤ 0x27 ∨ char = 0x2a ∨ char = 0x2b ∨ char = 0x2d ∨
    char = 0x2e ∨ 0x30 ≤ char ∧ char ≤ 0x39 ∨ 0x41 ≤ char ∧ char ≤ 0x5a ∨
    0x5e ≤ char ∧ char ≤ 0x7a ∨ char = 0x7c ∨ char = 0x7e)

/-- `name` is null for a line that continues the header before it. -/
structure PhrHeader where
  name : Option Bytes
  value : Bytes
  deriving DecidableEq, Repr

structure PhrRequest where
  method : Bytes
  path : Bytes
  minorVersion : Nat
  headers : List PhrHeader
  deriving DecidableEq, Repr

abbrev Parser (α : Type) := Scanner UInt8 Nat α

def parseToken (note : Nat) (nextChar : UInt8) : Parser Bytes :=
  scanUntil note (· == nextChar) tokenCharMap

def advanceToken (note : Nat) : Parser Bytes :=
  scanUntil note (· == space) fun char => !decide (char < 0x20 ∨ char = 0x7f)

def skipBlanks (note : Nat) (blank : UInt8 → Bool) : Parser Unit := do
  let _ ← scanUntil note (fun char => !blank char) fun _ => true

/-- The rest of a line up to its first control character but a tab. -/
def getTokenToEol (note : Nat) : Parser Bytes := do
  let token ← scanUntil note
    (fun char => decide (char < 0x20 ∧ char ≠ tab ∨ char = 0x7f)) fun _ => true
  let char ← next note
  if char = cr then do
    expect note lf
    pure token
  else if char = lf then pure token
  else fail note

def parseHttpVersion (note : Nat) : Parser Nat := fun input =>
  if input.length < 9 then .starved note
  else if input.take 7 = ascii "HTTP/1." then
    match input.drop 7 with
    | [] => .starved note
    | digit :: rest =>
        if Decimal.isDigit digit then .done (digit.toNat - 48) rest else .failed note
  else .failed note

def trimBlanks (value : Bytes) : Bytes :=
  (value.reverse.dropWhile fun char => char == space || char == tab).reverse

def parseName (note : Nat) : Parser (Option Bytes) := do
  let name ← parseToken note 0x3a
  if name = [] then fail note
  else do
    let _ ← next note
    skipBlanks note fun char => char == space || char == tab
    pure (some name)

/-- `allowed` is what is left of `max_headers`. -/
def parseHeaders : Nat → List PhrHeader → Parser (List PhrHeader)
  | allowed, headers => do
      let char ← peek headers.length
      if char = cr then do
        let _ ← next headers.length
        expect headers.length lf
        pure headers
      else if char = lf then do
        let _ ← next headers.length
        pure headers
      else
        match allowed with
        | 0 => fail headers.length
        | allowed + 1 => do
            let name ←
              (if headers ≠ [] ∧ (char = space ∨ char = tab) then pure none
                else parseName headers.length : Parser (Option Bytes))
            let value ← getTokenToEol headers.length
            parseHeaders allowed (headers ++ [⟨name, trimBlanks value⟩])

def skipEmptyLine : Parser Unit := do
  let char ← peek 0
  if char = cr then do
    let _ ← next 0
    expect 0 lf
  else if char = lf then do
    let _ ← next 0
    pure ()
  else pure ()

def endLine : Parser Unit := do
  let char ← next 0
  if char = cr then expect 0 lf
  else if char = lf then pure ()
  else fail 0

def parseRequest (maxHeaders : Nat) : Parser PhrRequest := do
  skipEmptyLine
  let method ← parseToken 0 space
  let _ ← next 0
  skipBlanks 0 (· == space)
  let path ← advanceToken 0
  let _ ← next 0
  skipBlanks 0 (· == space)
  if method = [] ∨ path = [] then fail 0
  else do
    let minorVersion ← parseHttpVersion 0
    endLine
    let headers ← parseHeaders maxHeaders []
    pure ⟨method, path, minorVersion, headers⟩

/-- A number of bytes as the `int` it is returned in. -/
def toInt (count : Nat) : Int := (count : Int).bmod (2 ^ 32)

def usedBytes (input rest : Bytes) : Int := toInt (input.length - rest.length)

/-- The return value, `num_headers`, and the request when there is one. -/
def phrParseRequest (buf : Bytes) (maxHeaders : Nat) : Int × Nat × Option PhrRequest :=
  match parseRequest maxHeaders buf with
  | .done request rest => (usedBytes buf rest, request.headers.length, some request)
  | .failed numHeaders => (-1, numHeaders, none)
  | .starved numHeaders => (-2, numHeaders, none)

theorem stable_skipBlanks (note : Nat) (blank : UInt8 → Bool) : Stable (skipBlanks note blank) :=
  stable_bind (stable_scanUntil _ _ _) fun _ => stable_pure _

theorem stable_getTokenToEol (note : Nat) : Stable (getTokenToEol note) := by
  refine stable_bind (stable_scanUntil _ _ _) fun token => ?_
  refine stable_bind (stable_next _) fun char => ?_
  refine stable_ite ?_ (stable_ite (stable_pure _) (stable_fail _))
  exact stable_bind (stable_expect _ _) fun _ => stable_pure _

theorem stable_parseHttpVersion (note : Nat) : Stable (parseHttpVersion note) := by
  intro input value rest extra yields
  simp only [parseHttpVersion] at yields ⊢
  by_cases short : input.length < 9
  · simp [short] at yields
  · have long : ¬ (input ++ extra).length < 9 := by
      rw [List.length_append]
      omega
    have front : (input ++ extra).take 7 = input.take 7 :=
      List.take_append_of_le_length (by omega)
    have back : (input ++ extra).drop 7 = input.drop 7 ++ extra :=
      List.drop_append_of_le_length (by omega)
    rw [if_neg short] at yields
    rw [if_neg long, front, back]
    split at yields
    · rename_i begins
      rw [if_pos begins]
      cases left : input.drop 7 with
      | nil => simp [left] at yields
      | cons digit tail =>
          simp only [left, List.cons_append] at yields ⊢
          split at yields
          · rename_i digit_
            cases yields
            rw [if_pos digit_]
          · cases yields
    · cases yields

theorem stable_parseName (note : Nat) : Stable (parseName note) := by
  refine stable_bind (stable_scanUntil _ _ _) fun name => ?_
  refine stable_ite (stable_fail _) (stable_bind (stable_next _) fun _ => ?_)
  exact stable_bind (stable_skipBlanks _ _) fun _ => stable_pure _

theorem stable_parseHeaders (allowed : Nat) (headers : List PhrHeader) :
    Stable (parseHeaders allowed headers) := by
  induction allowed generalizing headers with
  | zero =>
      unfold parseHeaders
      refine stable_bind (stable_peek _) fun char => ?_
      refine stable_ite ?_ (stable_ite ?_ (stable_fail _))
      · exact stable_bind (stable_next _) fun _ =>
          stable_bind (stable_expect _ _) fun _ => stable_pure _
      · exact stable_bind (stable_next _) fun _ => stable_pure _
  | succ allowed ih =>
      unfold parseHeaders
      refine stable_bind (stable_peek _) fun char => ?_
      refine stable_ite ?_ (stable_ite ?_ ?_)
      · exact stable_bind (stable_next _) fun _ =>
          stable_bind (stable_expect _ _) fun _ => stable_pure _
      · exact stable_bind (stable_next _) fun _ => stable_pure _
      · refine stable_bind (stable_ite (stable_pure _) (stable_parseName _)) fun name => ?_
        exact stable_bind (stable_getTokenToEol _) fun value => ih _

theorem stable_skipEmptyLine : Stable skipEmptyLine := by
  refine stable_bind (stable_peek _) fun char => ?_
  refine stable_ite ?_ (stable_ite ?_ (stable_pure _))
  · exact stable_bind (stable_next _) fun _ => stable_expect _ _
  · exact stable_bind (stable_next _) fun _ => stable_pure _

theorem stable_endLine : Stable endLine := by
  refine stable_bind (stable_next _) fun char => ?_
  exact stable_ite (stable_expect _ _) (stable_ite (stable_pure _) (stable_fail _))

theorem phrParseRequest_count {buf : Bytes} {maxHeaders : Nat} {ret : Int} {numHeaders : Nat}
    {request : PhrRequest} (accepts : phrParseRequest buf maxHeaders = (ret, numHeaders, some request)) :
    numHeaders = request.headers.length := by
  rw [phrParseRequest] at accepts
  cases parsed : parseRequest maxHeaders buf with
  | done request' rest =>
      simp only [parsed, Prod.mk.injEq, Option.some.injEq] at accepts
      rw [← accepts.2.1, accepts.2.2]
  | failed note => simp [parsed] at accepts
  | starved note => simp [parsed] at accepts

theorem stable_parseRequest (maxHeaders : Nat) : Stable (parseRequest maxHeaders) := by
  refine stable_bind stable_skipEmptyLine fun _ => ?_
  refine stable_bind (stable_scanUntil _ _ _) fun method => ?_
  refine stable_bind (stable_next _) fun _ => stable_bind (stable_skipBlanks _ _) fun _ => ?_
  refine stable_bind (stable_scanUntil _ _ _) fun path => ?_
  refine stable_bind (stable_next _) fun _ => stable_bind (stable_skipBlanks _ _) fun _ => ?_
  refine stable_ite (stable_fail _) ?_
  refine stable_bind (stable_parseHttpVersion _) fun minorVersion => ?_
  refine stable_bind stable_endLine fun _ => ?_
  exact stable_bind (stable_parseHeaders _ _) fun headers => stable_pure _

theorem usedBytes_append (input rest extra : Bytes) :
    usedBytes (input ++ extra) (rest ++ extra) = usedBytes input rest := by
  have same : (input ++ extra).length - (rest ++ extra).length = input.length - rest.length := by
    rw [List.length_append, List.length_append, Nat.add_sub_add_right]
  rw [usedBytes, usedBytes, same]

theorem phrParseRequest_append {buf : Bytes} {maxHeaders : Nat} {ret : Int} {numHeaders : Nat}
    {request : PhrRequest} (extra : Bytes)
    (accepts : phrParseRequest buf maxHeaders = (ret, numHeaders, some request)) :
    phrParseRequest (buf ++ extra) maxHeaders = (ret, numHeaders, some request) := by
  rw [phrParseRequest] at accepts ⊢
  cases parsed : parseRequest maxHeaders buf with
  | done request' rest =>
      simp only [parsed] at accepts
      simp only [stable_parseRequest maxHeaders _ _ _ extra parsed, usedBytes_append, accepts]
  | failed note => simp [parsed] at accepts
  | starved note => simp [parsed] at accepts

end CoServer.Http
