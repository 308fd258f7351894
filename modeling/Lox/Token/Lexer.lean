import Lox.Token
/-!
Reading Lox source text into tokens. The scanner takes one lexeme at a time, longest first:
blanks and comments yield nothing, a bad character or an unclosed string or comment yields a
`LexError` and scanning goes on after it, and the end of the text yields one `eof` token. Each
step returns a strictly shorter rest of the text, so the scan ends.
-/
namespace Lox

/-- What went wrong while reading a lexeme. -/
inductive LexFault where
  /-- A character that starts no lexeme; it is skipped as a whole code point. -/
  | unexpected (c : Char)
  /-- A string whose closing quote never comes. -/
  | unterminatedString
  /-- A block comment whose closing star-slash never comes. -/
  | unterminatedComment
  deriving DecidableEq, Repr

/-- A lexing error and the line the scanner had reached. -/
structure LexError where
  line : Nat
  fault : LexFault
  deriving DecidableEq, Repr

/-- The text of a lexing fault. -/
def LexFault.message : LexFault → String
  | .unexpected c => "Unexpected character: " ++ String.singleton c
  | .unterminatedString => "Unterminated string."
  | .unterminatedComment => "Unterminated block comment."

/-- A lexing error as reported: `[line N] Error: MESSAGE`. -/
def LexError.message (e : LexError) : String :=
  "[line " ++ Nat.repr e.line ++ "] Error: " ++ e.fault.message

namespace Lexer

theorem length_dropWhile_le (p : Char → Bool) (l : List Char) :
    (l.dropWhile p).length ≤ l.length := by
  have h := congrArg List.length (List.takeWhile_append_dropWhile (p := p) (l := l))
  simp only [List.length_append] at h
  omega

/-- Letters, digits and the underscore continue a word; all ASCII. -/
def isWordChar (c : Char) : Bool := c.isAlphanum || c == '_'

/-- The value of a list of decimal digits. -/
def digitsValue (ds : List Char) : Nat :=
  ds.foldl (fun n d => 10 * n + (d.toNat - 48)) 0

/-- One step of the scanner on a text of length `bound`: what it yields (nothing for blanks and
comments), the line after it, and the rest of the text, which is shorter. -/
structure Step (bound : Nat) where
  item : Option (Except LexError Token)
  line : Nat
  rest : List Char
  shorter : rest.length < bound

/-- Skips a block comment's body through the first star-slash, counting lines; if the text ends
first, the line reached at its end. -/
def skipComment : (cs : List Char) → Nat → Except Nat { p : List Char × Nat // p.1.length ≤ cs.length }
  | [], line => .error line
  | '*' :: '/' :: r, line => .ok ⟨(r, line), by simp; omega⟩
  | c :: r, line =>
    match skipComment r (if c = '\n' then line + 1 else line) with
    | .ok ⟨p, h⟩ => .ok ⟨p, by simp; omega⟩
    | .error l => .error l

/-- A token made of the characters read. -/
def token (kind : TokenKind) (read : List Char) (line : Nat) : Except LexError Token :=
  .ok ⟨kind, String.ofList read, line⟩

/-- A one-character token, or the two-character one if `=` follows. -/
def withEqual (line : Nat) (c : Char) (r : List Char) (single double : TokenKind) : Step (r.length + 1) :=
  match r with
  | '=' :: r' =>
    ⟨some (token double [c, '='] line), line, r', by simp only [List.length_cons]; omega⟩
  | r => ⟨some (token single [c] line), line, r, Nat.lt_add_one _⟩

/-- A string literal after its opening quote: the contents up to the next quote, which may span
lines; the error is reported at the line where the text ends. -/
def stringLit (line : Nat) (r : List Char) : Step (r.length + 1) :=
  let contents := r.takeWhile (· != '"')
  let line' := line + contents.count '\n'
  match h : r.dropWhile (· != '"') with
  | [] => ⟨some (.error ⟨line', .unterminatedString⟩), line', [], Nat.succ_pos _⟩
  | _ :: r' =>
    ⟨some (.ok ⟨.string (String.ofList contents), String.ofList ('"' :: contents ++ ['"']), line'⟩),
      line', r', by
        have := length_dropWhile_le (· != '"') r
        rw [h] at this
        simp at this ⊢
        omega⟩

/-- A number literal from its first digit: more digits, then a point and digits only if a digit
follows the point. Its value is the double nearest the decimal. -/
def numberLit (line : Nat) (c : Char) (r : List Char) : Step (r.length + 1) :=
  let whole := c :: r.takeWhile Char.isDigit
  match h : r.dropWhile Char.isDigit with
  | '.' :: d :: r2 =>
    if d.isDigit then
      let frac := d :: r2.takeWhile Char.isDigit
      let value := Float.ofScientific (digitsValue (whole ++ frac)) true frac.length
      ⟨some (token (.number value) (whole ++ '.' :: frac) line), line, r2.dropWhile Char.isDigit, by
        have h1 := length_dropWhile_le Char.isDigit r
        have h2 := length_dropWhile_le Char.isDigit r2
        rw [h] at h1
        simp only [List.length_cons] at h1
        omega⟩
    else
      ⟨some (token (.number (Float.ofScientific (digitsValue whole) false 0)) whole line), line,
        '.' :: d :: r2, by
        have h1 := length_dropWhile_le Char.isDigit r
        rw [h] at h1
        simp only [List.length_cons] at h1 ⊢
        omega⟩
  | rest =>
    ⟨some (token (.number (Float.ofScientific (digitsValue whole) false 0)) whole line), line, rest, by
      have h1 := length_dropWhile_le Char.isDigit r
      rw [h] at h1
      omega⟩

/-- A word from its first letter or underscore: a keyword if it spells one, else an identifier. -/
def word (line : Nat) (c : Char) (r : List Char) : Step (r.length + 1) :=
  let w := c :: r.takeWhile isWordChar
  ⟨some (token (TokenKind.ofWord (String.ofList w)) w line), line, r.dropWhile isWordChar,
    Nat.lt_add_one_of_le (length_dropWhile_le isWordChar r)⟩

/-- One step of the scanner at character `c` followed by `r`. -/
def step (line : Nat) (c : Char) (r : List Char) : Step (r.length + 1) :=
  let single (k : TokenKind) : Step (r.length + 1) := ⟨some (token k [c] line), line, r, Nat.lt_add_one _⟩
  let skip (line' : Nat) : Step (r.length + 1) := ⟨none, line', r, Nat.lt_add_one _⟩
  match c with
  | '(' => single .leftParen
  | ')' => single .rightParen
  | '{' => single .leftBrace
  | '}' => single .rightBrace
  | ',' => single .comma
  | '.' => single .dot
  | '-' => single .minus
  | '+' => single .plus
  | ';' => single .semicolon
  | '*' => single .star
  | '!' => withEqual line c r .bang .bangEqual
  | '=' => withEqual line c r .equal .equalEqual
  | '<' => withEqual line c r .less .lessEqual
  | '>' => withEqual line c r .greater .greaterEqual
  | ' ' => skip line
  | '\r' => skip line
  | '\t' => skip line
  | '\n' => skip (line + 1)
  | '/' =>
    match r with
    | '/' :: r' => ⟨none, line, r'.dropWhile (· != '\n'), by
        have := length_dropWhile_le (· != '\n') r'
        simp
        omega⟩
    | '*' :: r' =>
      match skipComment r' line with
      | .ok ⟨(rest, line'), h⟩ => ⟨none, line', rest, by simp at h ⊢; omega⟩
      | .error line' => ⟨some (.error ⟨line', .unterminatedComment⟩), line', [], Nat.succ_pos _⟩
    | r => ⟨some (token .slash ['/'] line), line, r, Nat.lt_add_one _⟩
  | '"' => stringLit line r
  | c =>
    if c.isDigit then numberLit line c r
    else if c.isAlpha || c == '_' then word line c r
    else ⟨some (.error ⟨line, .unexpected c⟩), line, r, Nat.lt_add_one _⟩

/-- Scans the rest of the text from a line, after the items already yielded. -/
def scanFrom (line : Nat) (cs : List Char) (acc : Array (Except LexError Token)) :
    Array (Except LexError Token) :=
  match cs with
  | [] => acc.push (.ok ⟨.eof, "", line⟩)
  | c :: r =>
    let s := step line c r
    match s.item with
    | some i => scanFrom s.line s.rest (acc.push i)
    | none => scanFrom s.line s.rest acc
termination_by cs.length
decreasing_by all_goals exact (step line c r).shorter

end Lexer

/-- Everything the scanner yields from a source text, in order: tokens and lexing errors, ending
with the single end-of-input token. -/
def Token.scan (source : String) : List (Except LexError Token) :=
  (Lexer.scanFrom 1 source.toList #[]).toList

/-- The tokens and the lexing errors of a source text, each in order. -/
def Token.scanAll (source : String) : List Token × List LexError :=
  (Token.scan source).foldr
    (fun item acc => match item with
      | .ok t => (t :: acc.1, acc.2)
      | .error e => (acc.1, e :: acc.2))
    ([], [])

end Lox
