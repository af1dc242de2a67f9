import CoServer.Http.RequestHead

/-!
Where in the buffer the tokens of a head lie. The parser is given once more with the
positions of its tokens, which are where it starts to read them.
-/

namespace CoServer.Http

open Scanning Scanner Splice

structure Token where
  position : Nat
  text : Bytes
  deriving DecidableEq, Repr

structure HeaderTokens where
  name : Option Token
  value : Token
  deriving DecidableEq, Repr

structure RequestTokens where
  method : Token
  path : Token
  minorVersion : Nat
  headers : List HeaderTokens
  deriving DecidableEq, Repr

def HeaderTokens.header (tokens : HeaderTokens) : PhrHeader := ⟨tokens.name.map Token.text, tokens.value.text⟩

def RequestTokens.request (tokens : RequestTokens) : PhrRequest :=
  ⟨tokens.method.text, tokens.path.text, tokens.minorVersion, tokens.headers.map HeaderTokens.header⟩

def tokenAt (size : Nat) (parser : Parser Bytes) : Parser Token := do
  let start ← position size
  let text ← parser
  pure ⟨start, text⟩

def parseNameAt (size note : Nat) : Parser (Option Token) := do
  let start ← position size
  let name ← parseName note
  pure (name.map fun text => ⟨start, text⟩)

def parseHeadersAt (size : Nat) : Nat → List HeaderTokens → Parser (List HeaderTokens)
  | allowed, headers => do
      let char ← peek headers.length
      if char = cr then do
        let _ ← next headers.length
        expect headers.length lf
        pure headers
      else if char = lf then do
        let _ ← next headers.length
        pure headers
      else
        match allowed with
        | 0 => fail headers.length
        | allowed + 1 => do
            let name ←
              (if headers ≠ [] ∧ (char = space ∨ char = tab) then pure none
                else parseNameAt size headers.length : Parser (Option Token))
            let value ← tokenAt size (getTokenToEol headers.length)
            parseHeadersAt size allowed
              (headers ++ [⟨name, ⟨value.position, trimBlanks value.text⟩⟩])

def parseRequestAt (size maxHeaders : Nat) : Parser RequestTokens := do
  skipEmptyLine
  let method ← tokenAt size (parseToken 0 space)
  let _ ← next 0
  skipBlanks 0 (· == space)
  let path ← tokenAt size (advanceToken 0)
  let _ ← next 0
  skipBlanks 0 (· == space)
  if method.text = [] ∨ path.text = [] then fail 0
  else do
    let minorVersion ← parseHttpVersion 0
    endLine
    let headers ← parseHeadersAt size maxHeaders []
    pure ⟨method, path, minorVersion, headers⟩

theorem erases_tokenAt (size : Nat) (parser : Parser Bytes) :
    Erases Token.text (tokenAt size parser) parser :=
  erases_position fun _ => erases_added parser fun _ => rfl

theorem erases_parseNameAt (size note : Nat) :
    Erases (Option.map Token.text) (parseNameAt size note) (parseName note) := by
  refine erases_position fun start => erases_added (parseName note) fun name => ?_
  cases name <;> rfl

theorem erases_parseHeadersAt (size allowed : Nat) (headers : List HeaderTokens) :
    Erases (List.map HeaderTokens.header) (parseHeadersAt size allowed headers)
      (parseHeaders allowed (headers.map HeaderTokens.header)) := by
  induction allowed generalizing headers with
  | zero =>
      rw [parseHeadersAt, parseHeaders, List.length_map]
      refine erases_same _ fun char => erases_ite ?_ (erases_ite ?_ ?_)
      · exact erases_same _ fun _ => erases_same _ fun _ => erases_pure rfl
      · exact erases_same _ fun _ => erases_pure rfl
      · exact erases_fail _ _
  | succ allowed ih =>
      rw [parseHeadersAt, parseHeaders, List.length_map]
      refine erases_same _ fun char => erases_ite ?_ (erases_ite ?_ ?_)
      · exact erases_same _ fun _ => erases_same _ fun _ => erases_pure rfl
      · exact erases_same _ fun _ => erases_pure rfl
      · refine erases_bind (show Erases (Option.map Token.text) _ _ from ?_) fun name => ?_
        · simp only [ne_eq, List.map_eq_nil_iff]
          exact erases_ite (erases_pure rfl) (erases_parseNameAt size _)
        · refine erases_bind (erases_tokenAt size _) fun value => ?_
          have later := ih (headers ++ [⟨name, ⟨value.position, trimBlanks value.text⟩⟩])
          rw [List.map_append] at later
          exact later

theorem erases_parseRequestAt (size maxHeaders : Nat) :
    Erases RequestTokens.request (parseRequestAt size maxHeaders) (parseRequest maxHeaders) := by
  refine erases_same _ fun _ => erases_bind (erases_tokenAt size _) fun method => ?_
  refine erases_same _ fun _ => erases_same _ fun _ => erases_bind (erases_tokenAt size _) fun path => ?_
  refine erases_same _ fun _ => erases_same _ fun _ => erases_ite (erases_fail _ _) ?_
  refine erases_same _ fun minorVersion => erases_same _ fun _ => ?_
  refine erases_bind (erases_parseHeadersAt size maxHeaders []) fun headers => ?_
  exact erases_pure rfl

/-- The token is in the buffer where it says, before what is left to read. -/
def Token.Placed (buffer rest : Bytes) (token : Token) : Prop :=
  ∃ front back, buffer = front ++ token.text ++ back ++ rest ∧ token.position = front.length

def HeaderTokens.Placed (buffer rest : Bytes) (tokens : HeaderTokens) : Prop :=
  (∀ token ∈ tokens.name, token.Placed buffer rest) ∧ tokens.value.Placed buffer rest

theorem Token.Placed.later {buffer read rest : Bytes} {token : Token}
    (placed : token.Placed buffer (read ++ rest)) : token.Placed buffer rest := by
  obtain ⟨front, back, split, at_⟩ := placed
  exact ⟨front, back ++ read, by simp [split], at_⟩

theorem HeaderTokens.Placed.later {buffer read rest : Bytes} {tokens : HeaderTokens}
    (placed : tokens.Placed buffer (read ++ rest)) : tokens.Placed buffer rest :=
  ⟨fun token member => (placed.1 token member).later, placed.2.later⟩

theorem placed_start {before text back rest : Bytes} {buffer : Bytes} {start : Nat}
    (split : buffer = before ++ (text ++ (back ++ rest)))
    (at_ : start = buffer.length - (text ++ (back ++ rest)).length) :
    Token.Placed buffer rest ⟨start, text⟩ := by
  refine ⟨before, back, by simp [split], ?_⟩
  show start = before.length
  rw [at_, split, List.length_append]
  omega

theorem done_tokenAt {size : Nat} {parser : Parser Bytes} {input rest : Bytes} {token : Token} :
    tokenAt size parser input = .done token rest ↔
      token.position = size - input.length ∧ parser input = .done token.text rest := by
  simp only [tokenAt, done_bind, done_position, done_pure]
  constructor
  · rintro ⟨start, _, ⟨rfl, rfl⟩, text, _, yields, rfl, rfl⟩
    exact ⟨rfl, yields⟩
  · rintro ⟨at_, yields⟩
    exact ⟨_, input, ⟨rfl, rfl⟩, token.text, rest, yields, by rw [← at_], rfl⟩

theorem done_parseNameAt {size note : Nat} {input rest : Bytes} {name : Option Token} :
    parseNameAt size note input = .done name rest ↔ ∃ token, name = some token ∧
      token.position = size - input.length ∧ parseName note input = .done (some token.text) rest := by
  simp only [parseNameAt, done_bind, done_position, done_pure]
  constructor
  · rintro ⟨start, _, ⟨rfl, rfl⟩, text, _, yields, rfl, rfl⟩
    obtain ⟨token, _, rfl, _⟩ := done_parseName.mp yields
    exact ⟨_, rfl, rfl, yields⟩
  · rintro ⟨token, rfl, at_, yields⟩
    exact ⟨_, input, ⟨rfl, rfl⟩, some token.text, rest, yields, by rw [← at_]; rfl, rfl⟩

theorem line_placed {buffer before input left rest : Bytes} {continues : Prop} [Decidable continues]
    {note : Nat} {name : Option Token} {value : Token} (split : buffer = before ++ input)
    (named : (if continues then pure none else parseNameAt buffer.length note :
      Parser (Option Token)) input = .done name left)
    (valued : tokenAt buffer.length (getTokenToEol note) left = .done value rest) :
    (∃ read, input = read ++ rest) ∧
      HeaderTokens.Placed buffer rest ⟨name, ⟨value.position, trimBlanks value.text⟩⟩ := by
  obtain ⟨at_, content⟩ := done_tokenAt.mp valued
  obtain ⟨_, ending, rfl⟩ := done_getTokenToEol.mp content
  obtain ⟨blanks, trimmed⟩ := trimBlanks_prefix value.text
  have shape : value.text ++ (ending.text ++ rest) =
      trimBlanks value.text ++ ((blanks ++ ending.text) ++ rest) := by
    conv_lhs => rw [trimmed]
    simp
  split at named
  · obtain ⟨rfl, rfl⟩ := done_pure.mp named
    rw [shape] at split at_
    exact ⟨⟨value.text ++ ending.text, by simp⟩, by simp, placed_start split at_⟩
  · obtain ⟨token, rfl, at_', named⟩ := done_parseNameAt.mp named
    obtain ⟨text, spaces, same, rfl, _⟩ := done_parseName.mp named
    cases same
    refine ⟨⟨token.text ++ 0x3a :: (spaces ++ value.text ++ ending.text), by simp⟩, ?_, ?_⟩
    · rintro token' same
      cases same
      have split' : buffer = before ++ (token.text ++
          ((0x3a :: spaces ++ value.text ++ ending.text) ++ rest)) := by
        rw [split]
        simp
      exact placed_start split' (by rw [at_']; simp)
    · have split' : buffer = (before ++ (token.text ++ 0x3a :: spaces)) ++
          (trimBlanks value.text ++ ((blanks ++ ending.text) ++ rest)) := by
        rw [← shape, split]
        simp
      rw [shape] at at_
      exact placed_start split' at_

theorem final_placed {buffer input rest : Bytes} {headers : List HeaderTokens} {final : LineEnd}
    (whole : input = final.text ++ rest) (placed : ∀ tokens ∈ headers, tokens.Placed buffer input) :
    (∃ read, input = read ++ rest) ∧ ∀ tokens ∈ headers, tokens.Placed buffer rest := by
  subst whole
  exact ⟨⟨_, rfl⟩, fun tokens member => (placed tokens member).later⟩

theorem parseHeadersAt_placed {buffer before input rest : Bytes} {allowed : Nat}
    {headers out : List HeaderTokens} (split : buffer = before ++ input)
    (yields : parseHeadersAt buffer.length allowed headers input = .done out rest)
    (placed : ∀ tokens ∈ headers, tokens.Placed buffer input) :
    (∃ read, input = read ++ rest) ∧ ∀ tokens ∈ out, tokens.Placed buffer rest := by
  induction allowed generalizing before input headers with
  | zero =>
      rw [parseHeadersAt] at yields
      simp only [done_bind, done_peek] at yields
      obtain ⟨char, _, ⟨rfl, first⟩, yields⟩ := yields
      rcases (done_final first).mp yields with ⟨final, whole, rfl⟩ | ⟨_, _, failed⟩
      · exact final_placed whole placed
      · exact (done_fail.mp failed).elim
  | succ allowed ih =>
      rw [parseHeadersAt] at yields
      simp only [done_bind, done_peek] at yields
      obtain ⟨char, _, ⟨rfl, first⟩, yields⟩ := yields
      rcases (done_final first).mp yields with ⟨final, whole, rfl⟩ | ⟨_, _, yields⟩
      · exact final_placed whole placed
      · simp only [done_bind] at yields
        obtain ⟨name, left, named, value, left', valued, later⟩ := yields
        obtain ⟨⟨read, rfl⟩, line⟩ := line_placed split named valued
        have placed' : ∀ tokens ∈ headers ++ [⟨name, ⟨value.position, trimBlanks value.text⟩⟩],
            tokens.Placed buffer left' := by
          intro tokens member
          rcases List.mem_append.mp member with before_ | last
          · exact (placed tokens before_).later
          · rw [List.mem_singleton.mp last]
            exact line
        have split' : buffer = (before ++ read) ++ left' := by rw [split, List.append_assoc]
        obtain ⟨⟨read', rfl⟩, all⟩ := ih split' later placed'
        exact ⟨⟨read ++ read', (List.append_assoc _ _ _).symm⟩, all⟩

theorem parseRequestAt_placed {buffer rest : Bytes} {maxHeaders : Nat} {tokens : RequestTokens}
    (yields : parseRequestAt buffer.length maxHeaders buffer = .done tokens rest) :
    tokens.method.Placed buffer rest ∧ tokens.path.Placed buffer rest ∧
      ∀ header ∈ tokens.headers, header.Placed buffer rest := by
  simp only [parseRequestAt, parseToken, advanceToken, done_bind, done_skipEmptyLine, done_tokenAt,
    done_scanUntil, done_next, done_spaces] at yields
  obtain ⟨_, _, ⟨leading, shape, _⟩, method, _, ⟨at_, rfl, _⟩, first, _, rfl, _, _, ⟨gap, rfl, _⟩,
    path, _, ⟨at_', rfl, _⟩, second, _, rfl, _, _, ⟨gap', rfl, _⟩, yields⟩ := yields
  split at yields
  · simp [done_fail] at yields
  · simp only [done_bind, done_parseHttpVersion, done_endLine, done_pure] at yields
    obtain ⟨_, _, ⟨digit, _, rfl, _, rfl⟩, _, left, ⟨ending, rfl⟩, headers, rest, later, rfl,
      rfl⟩ := yields
    have split : buffer = ((leading.map LineEnd.text).getD [] ++ (method.text ++ first ::
        (List.replicate gap space ++ (path.text ++ second :: (List.replicate gap' space ++
          (ascii "HTTP/1." ++ digit :: ending.text)))))) ++ left := by
      conv_lhs => rw [shape]
      simp
    obtain ⟨⟨read, rfl⟩, placed⟩ := parseHeadersAt_placed split later (by simp)
    refine ⟨?_, ?_, placed⟩
    · have back : method.text ++ first :: (List.replicate gap space ++ (path.text ++ second ::
          (List.replicate gap' space ++ (ascii "HTTP/1." ++ digit :: (ending.text ++ (read ++ rest)))))) =
          method.text ++ ((first :: (List.replicate gap space ++ (path.text ++ second ::
            (List.replicate gap' space ++ (ascii "HTTP/1." ++ digit :: (ending.text ++ read)))))) ++ rest) := by
        simp
      rw [back] at shape at_
      exact placed_start shape at_
    · have back : path.text ++ second :: (List.replicate gap' space ++ (ascii "HTTP/1." ++ digit ::
            (ending.text ++ (read ++ rest)))) =
          path.text ++ ((second :: (List.replicate gap' space ++ (ascii "HTTP/1." ++ digit ::
            (ending.text ++ read)))) ++ rest) := by
        simp
      have shape' : buffer = ((leading.map LineEnd.text).getD [] ++ (method.text ++ first ::
          List.replicate gap space)) ++ (path.text ++ ((second :: (List.replicate gap' space ++
            (ascii "HTTP/1." ++ digit :: (ending.text ++ read)))) ++ rest)) := by
        conv_lhs => rw [shape]
        simp
      rw [back] at at_'
      exact placed_start shape' at_'

end CoServer.Http
