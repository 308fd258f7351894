import Lox.Token.Lexer
/-!
The scanner over the bytes of a source, as the program runs it. It keeps two byte offsets into the
UTF-8 text, `start` at the first byte of the lexeme being read and `curr` after the last byte read,
and the line. Each call of `next` skips blanks and comments and yields one item: a token, a lexing
error, or at the end the one end-of-input token. A line comment is skipped by searching its bytes
for the next newline, a block comment by searching for the next star or newline (`memchr`), and a
character that starts no lexeme by stepping over the whole code point.

Two things would stop the program instead of scanning on (`Panic`): reading a byte past the end
of the text (`advance` reads without a check of its own), and slicing the text anywhere but
between two character boundaries in order. `Token.scan`, the scanner the rest of the library
reads, agrees with this one on every source, and neither stop ever happens there.
-/
namespace Lox

/-- Why the program would stop while scanning: a byte read or a byte slice at an offset past the
end of the text, or a slice of the text from `a` to `b` that is reversed or does not start and
end at character boundaries. -/
inductive Panic where
  | index (i : Nat)
  | slice (a b : Nat)
  deriving DecidableEq, Repr

/-- The scanner's place in a text: the first byte of the lexeme being read, the byte after the
last one read, the line, and the kind of the token the lexeme made, if it made one. -/
structure Scanner where
  start : Nat
  curr : Nat
  line : Nat
  pending : Option TokenKind

/-- A bound computation succeeds exactly when its first part does and the rest succeeds on what
it gave. -/
theorem Except.bind_eq_ok {ε α β : Type} {x : Except ε α} {f : α → Except ε β} {b : β} :
    x >>= f = .ok b ↔ ∃ a, x = .ok a ∧ f a = .ok b := by
  cases x <;> simp [bind, Except.bind]

namespace Scanner

/-- The character a byte spells on its own: itself for an ASCII byte. -/
def char (b : UInt8) : Char := Char.ofNat b.toNat

/-- The value of a number lexeme: its digits read as one decimal, with as many places after the
point as follow it. -/
def numberValue (lexeme : List Char) : Float :=
  match lexeme.span (· != '.') with
  | (whole, _ :: frac) => Float.ofScientific (Lexer.digitsValue (whole ++ frac)) true frac.length
  | (whole, []) => Float.ofScientific (Lexer.digitsValue whole) false 0

section Bytes

variable (text : String)

/-- The byte at an offset; reading past the end of the text stops the program. -/
def byteAt (i : Nat) : Except Panic UInt8 :=
  if h : (⟨i⟩ : String.Pos.Raw) < text.rawEndPos then .ok (text.getUTF8Byte ⟨i⟩ h) else .error (.index i)

/-- The text between two byte offsets, which must be in order and at character boundaries. -/
def slice (a b : Nat) : Except Panic String :=
  if h : a ≤ b ∧ (⟨a⟩ : String.Pos.Raw).IsValid text ∧ (⟨b⟩ : String.Pos.Raw).IsValid text then
    .ok (text.extract ⟨⟨a⟩, h.2.1⟩ ⟨⟨b⟩, h.2.2⟩)
  else .error (.slice a b)

/-- The first offset at or after `i` whose byte is one of `needles`. -/
def findByte (needles : List UInt8) (i : Nat) : Option Nat :=
  if h : (⟨i⟩ : String.Pos.Raw) < text.rawEndPos then
    if needles.contains (text.getUTF8Byte ⟨i⟩ h) then some i else findByte needles (i + 1)
  else none
termination_by text.utf8ByteSize - i
decreasing_by
  have : i < text.utf8ByteSize := h
  omega

/-- How far past `origin` the first of the `needles` lies in the bytes from `origin` on; taking
those bytes stops the program when `origin` is past the end. -/
def memchr (needles : List UInt8) (origin : Nat) : Except Panic (Option Nat) :=
  if origin ≤ text.utf8ByteSize then .ok ((findByte text needles origin).map (· - origin))
  else .error (.index origin)

/-- Whether every byte has been read. -/
def isAtEnd (s : Scanner) : Bool := text.utf8ByteSize ≤ s.curr

/-- The next byte, without reading it; `0` at the end. -/
def peek (s : Scanner) : UInt8 :=
  if h : (⟨s.curr⟩ : String.Pos.Raw) < text.rawEndPos then text.getUTF8Byte ⟨s.curr⟩ h else 0

/-- The byte after the next; `0` past the end. -/
def peekNext (s : Scanner) : UInt8 :=
  if h : (⟨s.curr + 1⟩ : String.Pos.Raw) < text.rawEndPos then text.getUTF8Byte ⟨s.curr + 1⟩ h else 0

/-- Reads the next byte, with no check that there is one. -/
def advance (s : Scanner) : Except Panic (UInt8 × Scanner) := do
  let b ← byteAt text s.curr
  return (b, { s with curr := s.curr + 1 })

/-- A read succeeds only inside the text, and moves one byte on. -/
theorem advance_ok {s s' : Scanner} {b : UInt8} (read : advance text s = .ok (b, s')) :
    s.curr < text.utf8ByteSize ∧ s' = { s with curr := s.curr + 1 } := by
  unfold advance byteAt at read
  split at read
  · rename_i inside
    cases read
    exact ⟨inside, rfl⟩
  · cases read

/-- Reads the next byte if it is `expected`. -/
def matchByte (expected : Char) (s : Scanner) : Except Panic (Bool × Scanner) :=
  if isAtEnd text s || char (peek text s) != expected then .ok (false, s)
  else do
    let (_, s) ← advance text s
    return (true, s)

/-- A byte that is not there or not the one expected is left unread; the one expected is read. -/
theorem matchByte_ok {expected : Char} {s s' : Scanner} {found : Bool}
    (read : matchByte text expected s = .ok (found, s')) :
    (found = false ∧ s' = s) ∨ (found = true ∧ s.curr < text.utf8ByteSize ∧ s' = { s with curr := s.curr + 1 }) := by
  unfold matchByte at read
  split at read
  · cases read
    exact .inl ⟨rfl, rfl⟩
  · cases advanced : advance text s with
    | error e => simp [advanced, bind, Except.bind] at read
    | ok r =>
      obtain ⟨b, t⟩ := r
      obtain ⟨inside, rfl⟩ := advance_ok text advanced
      simp only [advanced, bind, Except.bind, pure, Except.pure, Except.ok.injEq, Prod.mk.injEq] at read
      obtain ⟨rfl, rfl⟩ := read
      exact .inr ⟨rfl, inside, rfl⟩

/-- The lexeme read so far. -/
def lexeme (s : Scanner) : Except Panic String := slice text s.start s.curr

/-- Notes the kind of token the lexeme makes. -/
def emit (k : TokenKind) (s : Scanner) : Except Panic (Option LexError × Scanner) :=
  .ok (none, { s with pending := some k })

/-- A one-byte token, or the two-byte one if `second` follows. -/
def select (second : Char) (matched single : TokenKind) (s : Scanner) : Except Panic (Option LexError × Scanner) := do
  let (found, s) ← matchByte text second s
  emit (if found then matched else single) s

/-- Reads on while the next byte spells a character `p` accepts; the end reads as `0`, which none
of the scanner's tests accepts. -/
def advanceWhile (p : Char → Bool) (s : Scanner) : Except Panic Scanner :=
  if p (char (peek text s)) then
    match h : advance text s with
    | .ok (_, s') => advanceWhile p s'
    | .error e => .error e
  else .ok s
termination_by text.utf8ByteSize - s.curr
decreasing_by
  obtain ⟨inside, rfl⟩ := advance_ok text h
  simp only
  omega

/-- A block comment after its opening star-slash: searches for the next star or newline, counts a
newline, and ends after a star followed by a slash. -/
def skipBlockComment (s : Scanner) : Except Panic (Option LexError × Scanner) :=
  match memchr text ['*'.toUInt8, '\n'.toUInt8] s.curr with
  | .error e => .error e
  | .ok none => .ok (some ⟨s.line, .unterminatedComment⟩, { s with curr := text.utf8ByteSize })
  | .ok (some pos) =>
    match h : advance text { s with curr := s.curr + pos } with
    | .error e => .error e
    | .ok (b, s') =>
      if char b = '\n' then skipBlockComment { s' with line := s'.line + 1 }
      else
        match h' : matchByte text '/' s' with
        | .error e => .error e
        | .ok (true, s'') => .ok (none, s'')
        | .ok (false, s'') => skipBlockComment s''
termination_by text.utf8ByteSize - s.curr
decreasing_by
  all_goals
    obtain ⟨inside, rfl⟩ := advance_ok text h
    simp only at inside
  · simp only
    omega
  · rcases matchByte_ok text h' with ⟨-, rfl⟩ | ⟨absurd, -⟩
    · simp only
      omega
    · cases absurd

/-- A string literal after its opening quote: reads to the closing quote, counting newlines; its
contents are the text between the quotes. -/
def string (s : Scanner) : Except Panic (Option LexError × Scanner) := do
  let s ← stringBody s
  if isAtEnd text s then pure (some ⟨s.line, .unterminatedString⟩, s)
  else
    let (_, s) ← advance text s
    let contents ← slice text (s.start + 1) (s.curr - 1)
    emit (.string contents) s
where
  /-- The bytes up to the closing quote or the end. -/
  stringBody (s : Scanner) : Except Panic Scanner :=
    if !isAtEnd text s && char (peek text s) != '"' then
      match h : advance text s with
      | .ok (b, s') => stringBody (if char b = '\n' then { s' with line := s'.line + 1 } else s')
      | .error e => .error e
    else .ok s
  termination_by text.utf8ByteSize - s.curr
  decreasing_by
    obtain ⟨inside, rfl⟩ := advance_ok text h
    split <;> simp only <;> omega

/-- A number: digits, then a point and more digits only if a digit follows the point. -/
def number (s : Scanner) : Except Panic (Option LexError × Scanner) := do
  let s ← advanceWhile text Char.isDigit s
  let s ← fraction s
  let word ← lexeme text s
  emit (.number (numberValue word.toList)) s
where
  /-- The point and the digits after it, when a digit follows the point. -/
  fraction (s : Scanner) : Except Panic Scanner :=
    if char (peek text s) = '.' && (char (peekNext text s)).isDigit then do
      let (_, s) ← advance text s
      advanceWhile text Char.isDigit s
    else pure s

/-- A word: letters, digits and underscores, a keyword if it spells one. -/
def identifier (s : Scanner) : Except Panic (Option LexError × Scanner) := do
  let s ← advanceWhile text Lexer.isWordChar s
  let word ← lexeme text s
  emit (TokenKind.ofWord word) s

/-- A character that starts no lexeme: the scanner steps over its whole code point. -/
def unexpected (s : Scanner) : Except Panic (Option LexError × Scanner) := do
  let rest ← slice text s.start text.utf8ByteSize
  let c := rest.toList.headD '\uFFFD'
  return (some ⟨s.line, .unexpected c⟩, { s with curr := s.start + c.utf8Size })

/-- After a slash: a line comment, skipped to the newline that ends it; a block comment; or a
slash. -/
def slash (s : Scanner) : Except Panic (Option LexError × Scanner) := do
  let (line, s) ← matchByte text '/' s
  if line then
    match ← memchr text ['\n'.toUInt8] s.curr with
    | some pos => pure (none, { s with curr := s.curr + pos })
    | none => pure (none, { s with curr := text.utf8ByteSize })
  else
    let (block, s) ← matchByte text '*' s
    if block then skipBlockComment text s else emit .slash s

/-- Reads one lexeme from `start`; a blank or a comment leaves no kind noted. -/
def scanToken (s : Scanner) : Except Panic (Option LexError × Scanner) := do
  let (b, s) ← advance text s
  match char b with
  | '(' => emit .leftParen s
  | ')' => emit .rightParen s
  | '{' => emit .leftBrace s
  | '}' => emit .rightBrace s
  | ',' => emit .comma s
  | '.' => emit .dot s
  | '-' => emit .minus s
  | '+' => emit .plus s
  | ';' => emit .semicolon s
  | '*' => emit .star s
  | '!' => select text '=' .bangEqual .bang s
  | '=' => select text '=' .equalEqual .equal s
  | '<' => select text '=' .lessEqual .less s
  | '>' => select text '=' .greaterEqual .greater s
  | ' ' => pure (none, s)
  | '\r' => pure (none, s)
  | '\t' => pure (none, s)
  | '\n' => pure (none, { s with line := s.line + 1 })
  | '/' => slash text s
  | '"' => string text s
  | c =>
    if c.isDigit then number text s
    else if c.isAlpha || c == '_' then identifier text s
    else unexpected text s

/-! ### The scanner only moves forward -/

theorem advanceWhile_forward {p : Char → Bool} {s s' : Scanner} (read : advanceWhile text p s = .ok s') :
    s.curr ≤ s'.curr := by
  fun_induction advanceWhile text p s with
  | case1 s accepts b s₁ advanced ih =>
    obtain ⟨-, rfl⟩ := advance_ok text advanced
    have := ih read
    simp only at this
    omega
  | case2 => cases read
  | case3 => cases read; exact Nat.le_refl _

theorem memchr_within {needles : List UInt8} {origin : Nat} {found : Option Nat}
    (searched : memchr text needles origin = .ok found) : origin ≤ text.utf8ByteSize := by
  unfold memchr at searched
  split at searched
  · assumption
  · cases searched

theorem skipBlockComment_forward {s s' : Scanner} {r : Option LexError}
    (read : skipBlockComment text s = .ok (r, s')) : s.curr ≤ s'.curr := by
  fun_induction skipBlockComment text s with
  | case2 s searched =>
    cases read
    exact memchr_within text searched
  | case4 s pos _ b s₁ advanced _ ih =>
    obtain ⟨-, rfl⟩ := advance_ok text advanced
    have := ih read
    simp only at this
    omega
  | case6 s pos _ b s₁ advanced _ s₂ matched =>
    cases read
    obtain ⟨-, rfl⟩ := advance_ok text advanced
    rcases matchByte_ok text matched with ⟨absurd, -⟩ | ⟨-, -, rfl⟩
    · cases absurd
    · simp only
      omega
  | case7 s pos _ b s₁ advanced _ s₂ matched ih =>
    obtain ⟨-, rfl⟩ := advance_ok text advanced
    rcases matchByte_ok text matched with ⟨-, rfl⟩ | ⟨absurd, -⟩
    · have := ih read
      simp only at this
      omega
    · cases absurd
  | _ => cases read

theorem stringBody_forward {s s' : Scanner} (read : string.stringBody text s = .ok s') : s.curr ≤ s'.curr := by
  fun_induction string.stringBody text s with
  | case1 s _ b s₁ advanced ih =>
    obtain ⟨-, rfl⟩ := advance_ok text advanced
    have := ih read
    split at this <;> simp only at this <;> omega
  | case2 => cases read
  | case3 =>
    cases read
    exact Nat.le_refl _

theorem string_forward {s s' : Scanner} {r : Option LexError} (read : string text s = .ok (r, s')) :
    s.curr ≤ s'.curr := by
  obtain ⟨s₁, body, rest⟩ := Except.bind_eq_ok.1 read
  have walked := stringBody_forward text body
  split at rest
  · cases rest
    exact walked
  · obtain ⟨⟨b, s₂⟩, advanced, rest⟩ := Except.bind_eq_ok.1 rest
    obtain ⟨-, rfl⟩ := advance_ok text advanced
    obtain ⟨contents, -, rest⟩ := Except.bind_eq_ok.1 rest
    cases rest
    simp only
    omega

theorem number_forward {s s' : Scanner} {r : Option LexError} (read : number text s = .ok (r, s')) :
    s.curr ≤ s'.curr := by
  obtain ⟨s₁, whole, rest⟩ := Except.bind_eq_ok.1 read
  obtain ⟨s₂, point, rest⟩ := Except.bind_eq_ok.1 rest
  obtain ⟨word, -, rest⟩ := Except.bind_eq_ok.1 rest
  cases rest
  have := advanceWhile_forward text whole
  unfold number.fraction at point
  split at point
  · obtain ⟨⟨b, s₃⟩, advanced, fraction⟩ := Except.bind_eq_ok.1 point
    obtain ⟨-, rfl⟩ := advance_ok text advanced
    have := advanceWhile_forward text fraction
    simp only at this ⊢
    omega
  · cases point
    exact this

theorem identifier_forward {s s' : Scanner} {r : Option LexError} (read : identifier text s = .ok (r, s')) :
    s.curr ≤ s'.curr := by
  obtain ⟨s₁, word, rest⟩ := Except.bind_eq_ok.1 read
  obtain ⟨w, -, rest⟩ := Except.bind_eq_ok.1 rest
  cases rest
  have := advanceWhile_forward text word
  exact this

theorem slash_forward {s s' : Scanner} {r : Option LexError} (read : slash text s = .ok (r, s')) :
    s.curr ≤ s'.curr := by
  obtain ⟨⟨line, s₁⟩, matched, rest⟩ := Except.bind_eq_ok.1 read
  have first : s.curr ≤ s₁.curr := by
    rcases matchByte_ok text matched with ⟨-, rfl⟩ | ⟨-, -, rfl⟩
    · exact Nat.le_refl _
    · exact Nat.le_succ _
  dsimp only at rest
  split at rest
  · obtain ⟨found, searched, rest⟩ := Except.bind_eq_ok.1 rest
    have := memchr_within text searched
    split at rest <;> cases rest <;> simp only <;> omega
  · obtain ⟨⟨block, s₂⟩, matched, rest⟩ := Except.bind_eq_ok.1 rest
    have second : s₁.curr ≤ s₂.curr := by
      rcases matchByte_ok text matched with ⟨-, rfl⟩ | ⟨-, -, rfl⟩
      · exact Nat.le_refl _
      · exact Nat.le_succ _
    dsimp only at rest
    split at rest
    · have := skipBlockComment_forward text rest
      omega
    · cases rest
      simp only
      omega

theorem select_forward {second : Char} {matched single : TokenKind} {s s' : Scanner} {r : Option LexError}
    (read : select text second matched single s = .ok (r, s')) : s.curr ≤ s'.curr := by
  obtain ⟨⟨found, s₁⟩, matchedByte, rest⟩ := Except.bind_eq_ok.1 read
  cases rest
  rcases matchByte_ok text matchedByte with ⟨-, rfl⟩ | ⟨-, -, rfl⟩
  · exact Nat.le_refl _
  · exact Nat.le_succ _

/-- Every lexeme read from its start takes at least one byte: the one `scanToken` reads first, and
every branch after it only reads on. -/
theorem scanToken_advances {s s' : Scanner} {r : Option LexError} (fresh : s.start = s.curr)
    (read : scanToken text s = .ok (r, s')) : s.curr < s'.curr := by
  obtain ⟨⟨b, s₁⟩, advanced, rest⟩ := Except.bind_eq_ok.1 read
  obtain ⟨-, rfl⟩ := advance_ok text advanced
  suffices s.curr + 1 ≤ s'.curr by omega
  simp only at rest
  split at rest
  all_goals first
    | (cases rest; exact Nat.le_refl _)
    | exact select_forward text rest
    | exact slash_forward text rest
    | exact string_forward text rest
    | skip
  split at rest
  · exact number_forward text rest
  split at rest
  · exact identifier_forward text rest
  · -- an unexpected character: the scanner steps over its code point, at least one byte
    obtain ⟨rest', -, made⟩ := Except.bind_eq_ok.1 rest
    cases made
    have := (rest'.toList.headD '\uFFFD').utf8Size_pos
    simp only [fresh]
    omega

/-! ### Items -/

/-- The next item. At the end of the text it is the end-of-input token, after which the scanner
sits past the end and yields nothing more. Otherwise lexemes are read from the current byte until
one makes a token or an error; the token's lexeme is the text it was read from. -/
def next (s : Scanner) : Except Panic (Option (Except LexError Token) × Scanner) :=
  if s.curr ≤ text.utf8ByteSize then
    if s.curr = text.utf8ByteSize then .ok (some (.ok ⟨.eof, "", s.line⟩), { s with curr := s.curr + 1 })
    else
      match h : scanToken text { s with start := s.curr, pending := none } with
      | .error e => .error e
      | .ok (some e, s') => .ok (some (.error e), s')
      | .ok (none, s') =>
        match s'.pending with
        | some k => do
          let word ← lexeme text s'
          pure (some (.ok ⟨k, word, s'.line⟩), { s' with pending := none })
        | none => next s'
  else .ok (none, s)
termination_by text.utf8ByteSize + 1 - s.curr
decreasing_by
  have := scanToken_advances text rfl h
  simp only at this
  omega

/-- An item comes only from within the text or at its end, and leaves the scanner further on. -/
theorem next_advances {s s' : Scanner} {i : Except LexError Token} (read : next text s = .ok (some i, s')) :
    s.curr ≤ text.utf8ByteSize ∧ s.curr < s'.curr := by
  fun_induction next text s with
  | case1 s within atEnd =>
    cases read
    exact ⟨within, Nat.lt_succ_self _⟩
  | case3 s within notEnd e s₁ scanned =>
    cases read
    have := scanToken_advances text rfl scanned
    exact ⟨within, this⟩
  | case4 s within notEnd s₁ scanned k noted =>
    obtain ⟨word, -, made⟩ := Except.bind_eq_ok.1 read
    cases made
    have := scanToken_advances text rfl scanned
    exact ⟨within, this⟩
  | case5 s within notEnd s₁ scanned blank ih =>
    have := scanToken_advances text rfl scanned
    have := ih read
    simp only at *
    omega
  | _ => cases read

/-- Every item, in order, until the scanner yields nothing. -/
def items (s : Scanner) : Except Panic (List (Except LexError Token)) :=
  match h : next text s with
  | .error e => .error e
  | .ok (none, _) => .ok []
  | .ok (some i, s') => do return i :: (← items s')
termination_by text.utf8ByteSize + 2 - s.curr
decreasing_by
  have := next_advances text h
  omega

/-- What a caller sees that calls `next` `n` times in a row: the item of each call, or nothing. -/
def calls (n : Nat) (s : Scanner) : Except Panic (List (Option (Except LexError Token))) :=
  match n with
  | 0 => .ok []
  | n + 1 => do
    let (i, s) ← next text s
    return i :: (← calls n s)

end Bytes

/-- Everything the scanner yields from a text, from its first byte on line 1. -/
def scan (text : String) : Except Panic (List (Except LexError Token)) := items text ⟨0, 0, 1, none⟩

end Scanner

end Lox
