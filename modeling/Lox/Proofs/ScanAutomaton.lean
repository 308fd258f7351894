import Mathlib.Data.List.Induction
import Mathlib.Data.Nat.Digits.Defs
import Lox.Token.Lexer
/-!
The scanner against a lexer that reads one character at a time. `Automaton.step` consumes exactly
one character and looks at no other: it either extends the lexeme being read, whose kind its
`Mode` records, or ends it, yields what it made and begins the next lexeme at that character. A
lexeme that one more character may still change (`1.`, `!`, `/`, a `*` inside a comment) waits in
a mode of its own. `Automaton.scan` folds the step over a text, then yields what the last mode
still holds and the end of input. A number's value is the double nearest its numeral, read with
the library's decimal conversion from the numeral's digits (`Automaton.numeral`).

The main statement, `Token.scan_eq_automaton`, is that the scanner, whose steps take the longest
lexeme with up to two characters of look-ahead and skip comments whole, yields exactly what the
automaton yields, lines included, for every text. It rests on one lemma per kind of lexeme, each
saying what the automaton does over the characters the scanner's step takes
(`run_word`, `run_integer`, `run_string`, `run_blockComment`, ...), assembled in `run_begin`.
-/
namespace Lox

namespace Automaton

/-- What the scanner yields: tokens and lexing errors. -/
abbrev Item := Except LexError Token

/-- What the automaton is in the middle of reading. -/
inductive Mode where
  /-- Between lexemes. -/
  | start
  /-- After a `/` that may open a comment. -/
  | slash
  /-- Inside a `//` comment. -/
  | lineComment
  /-- Inside a block comment. -/
  | blockComment
  /-- Inside a block comment, just after a `*` that may close it. -/
  | blockStar
  /-- After `!`, `=`, `<` or `>`, which an `=` extends. -/
  | operator (c : Char) (single double : TokenKind)
  /-- Inside a string, with its contents so far. -/
  | string (contents : List Char)
  /-- In the digits of a number. -/
  | integer (digits : List Char)
  /-- After a number's digits and a point, which only a digit makes part of the number. -/
  | point (digits : List Char)
  /-- In the digits after a number's point. -/
  | fraction (whole digits : List Char)
  /-- In a word. -/
  | word (text : List Char)

/-- The automaton's state: its mode, the line it has reached and what it has yielded so far. -/
structure State where
  mode : Mode
  line : Nat
  items : List Item

/-- The value of a decimal numeral. -/
def numeral (digits : List Char) : Nat :=
  Nat.ofDigits 10 (digits.reverse.map fun d => d.toNat - '0'.toNat)

/-- A number token of the digits `whole`, and `places` more after a point. -/
def number (whole places : List Char) (text : List Char) (line : Nat) : Item :=
  match places with
  | [] => Lexer.token (.number (Float.ofScientific (numeral whole) false 0)) text line
  | _ => Lexer.token (.number (Float.ofScientific (numeral (whole ++ places)) true places.length)) text line

/-- What a mode yields when its lexeme ends, at a character that cannot extend it or at the end of
the text: a comment or string that has not been closed is an error there. -/
def Mode.pending (line : Nat) : Mode → List Item
  | .start | .lineComment => []
  | .slash => [Lexer.token .slash ['/'] line]
  | .blockComment | .blockStar => [.error ⟨line, .unterminatedComment⟩]
  | .operator c single _ => [Lexer.token single [c] line]
  | .string _ => [.error ⟨line, .unterminatedString⟩]
  | .integer digits => [number digits [] digits line]
  | .point digits => [number digits [] digits line, Lexer.token .dot ['.'] line]
  | .fraction whole digits => [number whole digits (whole ++ '.' :: digits) line]
  | .word text => [Lexer.token (TokenKind.ofWord (String.ofList text)) text line]

/-- Reads the first character of a lexeme, after the items yielded so far. -/
def begin (line : Nat) (items : List Item) (c : Char) : State :=
  let yield (k : TokenKind) : State := ⟨.start, line, items ++ [Lexer.token k [c] line]⟩
  let enter (m : Mode) : State := ⟨m, line, items⟩
  match c with
  | '(' => yield .leftParen
  | ')' => yield .rightParen
  | '{' => yield .leftBrace
  | '}' => yield .rightBrace
  | ',' => yield .comma
  | '.' => yield .dot
  | '-' => yield .minus
  | '+' => yield .plus
  | ';' => yield .semicolon
  | '*' => yield .star
  | '!' => enter (.operator c .bang .bangEqual)
  | '=' => enter (.operator c .equal .equalEqual)
  | '<' => enter (.operator c .less .lessEqual)
  | '>' => enter (.operator c .greater .greaterEqual)
  | ' ' | '\r' | '\t' => enter .start
  | '\n' => ⟨.start, line + 1, items⟩
  | '/' => enter .slash
  | '"' => enter (.string [])
  | c =>
    if c.isDigit then enter (.integer [c])
    else if c.isAlpha || c == '_' then enter (.word [c])
    else ⟨.start, line, items ++ [.error ⟨line, .unexpected c⟩]⟩

/-- Reads one character. -/
def step : State → Char → State
  | ⟨mode, line, items⟩, c =>
    -- the lexeme `c` cannot extend ends here, and the next one begins at `c`
    let next := begin line (items ++ mode.pending line) c
    match mode with
    | .start => begin line items c
    | .slash =>
      if c = '/' then ⟨.lineComment, line, items⟩
      else if c = '*' then ⟨.blockComment, line, items⟩
      else next
    | .lineComment => if c = '\n' then next else ⟨.lineComment, line, items⟩
    | .blockComment =>
      if c = '*' then ⟨.blockStar, line, items⟩
      else if c = '\n' then ⟨.blockComment, line + 1, items⟩
      else ⟨.blockComment, line, items⟩
    | .blockStar =>
      if c = '/' then ⟨.start, line, items⟩
      else if c = '*' then ⟨.blockStar, line, items⟩
      else if c = '\n' then ⟨.blockComment, line + 1, items⟩
      else ⟨.blockComment, line, items⟩
    | .operator op _ double =>
      if c = '=' then ⟨.start, line, items ++ [Lexer.token double [op, '='] line]⟩ else next
    | .string contents =>
      if c = '"' then
        ⟨.start, line, items ++
          [.ok ⟨.string (String.ofList contents), String.ofList ('"' :: contents ++ ['"']), line⟩]⟩
      else ⟨.string (contents ++ [c]), if c = '\n' then line + 1 else line, items⟩
    | .integer digits =>
      if c.isDigit then ⟨.integer (digits ++ [c]), line, items⟩
      else if c = '.' then ⟨.point digits, line, items⟩
      else next
    | .point digits => if c.isDigit then ⟨.fraction digits [c], line, items⟩ else next
    | .fraction whole digits => if c.isDigit then ⟨.fraction whole (digits ++ [c]), line, items⟩ else next
    | .word text => if Lexer.isWordChar c then ⟨.word (text ++ [c]), line, items⟩ else next

/-- What a state yields once the text is over: its items, what its mode still holds, and the end
of input on the line reached. -/
def State.yields (st : State) : List Item :=
  st.items ++ st.mode.pending st.line ++ [.ok ⟨.eof, "", st.line⟩]

/-- Everything the automaton yields from a state over the rest of a text. -/
def run (st : State) (cs : List Char) : List Item := (cs.foldl step st).yields

/-- Everything the automaton yields from a source text, from its first line. -/
def scan (source : String) : List Item := run ⟨.start, 1, []⟩ source.toList

/-! ### Runs -/

theorem run_cons (st : State) (c : Char) (r : List Char) : run st (c :: r) = run (step st c) r := rfl

theorem run_append (st : State) (xs ys : List Char) : run st (xs ++ ys) = run (xs.foldl step st) ys := by
  simp only [run, List.foldl_append]

/-- A lexeme that the next character cannot extend, or that the text ends, yields what its mode
holds, and the rest is read from between lexemes. -/
theorem run_close {mode : Mode} {line : Nat} {items : List Item} {cs : List Char}
    (ends : ∀ c ∈ cs.head?, step ⟨mode, line, items⟩ c = begin line (items ++ mode.pending line) c) :
    run ⟨mode, line, items⟩ cs = run ⟨.start, line, items ++ mode.pending line⟩ cs := by
  cases cs with
  | nil => simp [run, State.yields, Mode.pending]
  | cons c r =>
    rw [run_cons, ends c rfl]
    rfl

/-- A mode that every character of a class extends reads the longest run of that class. -/
theorem foldl_takeWhile {p : Char → Bool} {M : List Char → Mode} {line : Nat} {items : List Item}
    (extends_ : ∀ t c, p c = true → step ⟨M t, line, items⟩ c = ⟨M (t ++ [c]), line, items⟩) :
    ∀ (r t : List Char), (r.takeWhile p).foldl step ⟨M t, line, items⟩ = ⟨M (t ++ r.takeWhile p), line, items⟩
  | [], t => by simp
  | c :: r, t => by
    by_cases hc : p c = true
    · rw [List.takeWhile_cons_of_pos hc, List.foldl_cons, extends_ t c hc, foldl_takeWhile extends_ r]
      simp
    · simp [List.takeWhile_cons_of_neg hc]

/-- The first character after the longest run of a class is not in the class. -/
theorem head_dropWhile {p : Char → Bool} {r : List Char} : ∀ c ∈ (r.dropWhile p).head?, p c = false := by
  intro c hc
  have first := List.head?_dropWhile_not p r
  rw [Option.mem_def.mp hc] at first
  exact first

/-- Reading the longest run of a class, then closing the lexeme after it. -/
theorem run_longest {p : Char → Bool} {M : List Char → Mode} {line : Nat} {items : List Item}
    (extends_ : ∀ t c, p c = true → step ⟨M t, line, items⟩ c = ⟨M (t ++ [c]), line, items⟩)
    (ends : ∀ t c, p c = false → step ⟨M t, line, items⟩ c = begin line (items ++ (M t).pending line) c)
    (r t : List Char) :
    run ⟨M t, line, items⟩ r =
      run ⟨.start, line, items ++ (M (t ++ r.takeWhile p)).pending line⟩ (r.dropWhile p) := by
  conv_lhs => rw [← List.takeWhile_append_dropWhile (p := p) (l := r)]
  rw [run_append, foldl_takeWhile extends_]
  exact run_close fun c hc => ends _ c (head_dropWhile c hc)

/-! ### Lexemes -/

section Lexemes

variable {line : Nat} {items : List Item}

@[simp] theorem step_start (c : Char) : step ⟨.start, line, items⟩ c = begin line items c := rfl

/-- A word runs over every letter, digit and underscore that follows. -/
theorem run_word (r t : List Char) :
    run ⟨.word t, line, items⟩ r =
      run ⟨.start, line, items ++ [Lexer.token (TokenKind.ofWord (String.ofList (t ++ r.takeWhile Lexer.isWordChar)))
        (t ++ r.takeWhile Lexer.isWordChar) line]⟩ (r.dropWhile Lexer.isWordChar) :=
  run_longest (M := Mode.word) (fun t c h => by simp [step, h]) (fun t c h => by simp [step, h]) r t

/-- Inside a string every character but the quote is contents, and each newline is a line. -/
theorem foldl_string : ∀ (r contents : List Char) (line : Nat),
    (r.takeWhile (· != '"')).foldl step ⟨.string contents, line, items⟩ =
      ⟨.string (contents ++ r.takeWhile (· != '"')), line + (r.takeWhile (· != '"')).count '\n', items⟩
  | [], contents, line => by simp
  | c :: r, contents, line => by
    by_cases quote : c = '"'
    · subst quote
      simp
    · rw [List.takeWhile_cons_of_pos (by simpa using quote), List.foldl_cons]
      simp only [step, if_neg quote]
      rw [foldl_string r]
      by_cases newline : c = '\n'
      · subst newline
        simp
        omega
      · simp [newline]

/-- A line comment runs up to, not through, the next newline. -/
theorem run_lineComment (r : List Char) :
    run ⟨.lineComment, line, items⟩ r = run ⟨.start, line, items⟩ (r.dropWhile (· != '\n')) := by
  have longest : run ⟨.lineComment, line, items⟩ r =
      run ⟨.start, line, items ++ Mode.lineComment.pending line⟩ (r.dropWhile (· != '\n')) :=
    run_longest (M := fun _ => Mode.lineComment) (fun t c h => by simp_all [step])
      (fun t c h => by simp_all [step]) r []
  simpa [Mode.pending] using longest

/-- A string closes at the next quote, or is an error at the end of the text. -/
theorem run_string (r : List Char) :
    run ⟨.string [], line, items⟩ r =
      run ⟨.start, (Lexer.stringLit line r).line, items ++ (Lexer.stringLit line r).item.toList⟩
        (Lexer.stringLit line r).rest := by
  conv_lhs => rw [← List.takeWhile_append_dropWhile (p := (· != '"')) (l := r), run_append, foldl_string]
  rw [Lexer.stringLit.eq_def]
  split
  · next ends =>
    rw [ends]
    simp [run, State.yields, Mode.pending]
  · next q r' closes =>
    have quote : q = '"' := by
      simpa using head_dropWhile (p := (· != '"')) (r := r) q (by simp [closes])
    subst quote
    conv_lhs => rw [closes, run_cons]
    simp [step]

/-- The value of a numeral read digit by digit, most significant first. -/
theorem digitsValue_eq_numeral (ds : List Char) : Lexer.digitsValue ds = numeral ds := by
  induction ds using List.reverseRecOn with
  | nil => rfl
  | append_singleton ds d ih =>
    simp only [Lexer.digitsValue, numeral, List.foldl_append, List.reverse_append, List.map_append] at ih ⊢
    simp [Nat.ofDigits_cons, ih]
    omega

theorem step_integer_dot (ds : List Char) : step ⟨.integer ds, line, items⟩ '.' = ⟨.point ds, line, items⟩ := rfl

theorem step_integer_other (ds : List Char) {x : Char} (other : x.isDigit = false) (notDot : x ≠ '.') :
    step ⟨.integer ds, line, items⟩ x = begin line (items ++ (Mode.integer ds).pending line) x := by
  simp [step, other, notDot]

theorem step_point (ds : List Char) (d : Char) :
    step ⟨.point ds, line, items⟩ d =
      if d.isDigit then ⟨.fraction ds [d], line, items⟩ else begin line (items ++ (Mode.point ds).pending line) d := by
  simp [step]

theorem begin_dot : begin line items '.' = ⟨.start, line, items ++ [Lexer.token .dot ['.'] line]⟩ := rfl

/-- A number takes its digits, and a point with more digits only when a digit follows it. -/
theorem run_integer (c : Char) (r : List Char) :
    run ⟨.integer [c], line, items⟩ r =
      run ⟨.start, (Lexer.numberLit line c r).line, items ++ (Lexer.numberLit line c r).item.toList⟩
        (Lexer.numberLit line c r).rest := by
  have digits : (r.takeWhile Char.isDigit).foldl step ⟨.integer [c], line, items⟩ =
      ⟨.integer ([c] ++ r.takeWhile Char.isDigit), line, items⟩ :=
    foldl_takeWhile (fun t d h => by simp [step, h]) r [c]
  conv_lhs => rw [← List.takeWhile_append_dropWhile (p := Char.isDigit) (l := r), run_append, digits]
  rw [Lexer.numberLit.eq_def]
  dsimp only
  split
  · next d r2 dotted =>
    conv_lhs => rw [dotted, run_cons, run_cons, step_integer_dot, step_point]
    split_ifs with fractional <;> dsimp only
    · -- the point and the digits after it belong to the number
      rw [run_longest (p := Char.isDigit) (M := Mode.fraction ([c] ++ r.takeWhile Char.isDigit))
        (fun t x h => by simp [step, h]) (fun t x h => by simp [step, h])]
      simp [Mode.pending, number, digitsValue_eq_numeral]
    · -- the point ends the number and is a token of its own
      rw [run_cons, step_start, begin_dot, run_cons, step_start]
      simp [Mode.pending, number, digitsValue_eq_numeral]
  · next notDotted =>
    dsimp only
    rcases ends : r.dropWhile Char.isDigit with _ | ⟨x, r'⟩
    · rw [run_close (by simp)]
      simp [Mode.pending, number, digitsValue_eq_numeral]
    · have other : x.isDigit = false := head_dropWhile (r := r) x (by simp [ends])
      by_cases dot : x = '.'
      · subst dot
        cases r' with
        | nil =>
          rw [run_cons, step_integer_dot, run_cons, step_start, begin_dot]
          simp [run, State.yields, Mode.pending, number, digitsValue_eq_numeral]
        | cons d r2 => exact absurd ends (notDotted d r2)
      · rw [run_close fun y hy => by
          obtain rfl : y = x := by simpa using hy.symm
          exact step_integer_other _ other dot]
        simp [Mode.pending, number, digitsValue_eq_numeral]

/-- An operator that `=` may extend takes it when it follows. -/
theorem run_operator (c : Char) (single double : TokenKind) (r : List Char) :
    run ⟨.operator c single double, line, items⟩ r =
      run ⟨.start, (Lexer.withEqual line c r single double).line,
        items ++ (Lexer.withEqual line c r single double).item.toList⟩ (Lexer.withEqual line c r single double).rest := by
  rw [Lexer.withEqual.eq_def]
  split
  · rw [run_cons]
    simp [step]
  · next notEqual =>
    dsimp only
    rw [run_close fun x hx => by
      obtain ⟨r', rfl⟩ : ∃ r', r = x :: r' := List.head?_eq_some_iff.mp (Option.mem_def.mp hx)
      have other : x ≠ '=' := fun same => notEqual r' (by rw [same])
      simp [step, other]]
    simp [Mode.pending]

/-- What follows a block comment's opening: the rest after its close, read from the line it ends
on, or the error at the end of the text. -/
def afterComment (items : List Item) : Except Nat (List Char × Nat) → List Item
  | .ok (rest, line) => run ⟨.start, line, items⟩ rest
  | .error line => items ++ [.error ⟨line, .unterminatedComment⟩, .ok ⟨.eof, "", line⟩]

/-- The comment skipped without its proof of being shorter. -/
def skipped (cs : List Char) (line : Nat) : Except Nat (List Char × Nat) :=
  (Lexer.skipComment cs line).map Subtype.val

theorem skipped_close (r : List Char) (line : Nat) : skipped ('*' :: '/' :: r) line = .ok (r, line) := by
  simp [skipped, Lexer.skipComment.eq_2, Except.map]

theorem skipped_cons {c : Char} {r : List Char} (open_ : ∀ r', c = '*' → r = '/' :: r' → False) (line : Nat) :
    skipped (c :: r) line = skipped r (if c = '\n' then line + 1 else line) := by
  rw [skipped, Lexer.skipComment.eq_3 _ _ _ open_, skipped]
  split <;> simp_all [Except.map]

/-- Inside a block comment, and just after a `*` there, the automaton reads what the scanner's
skip finds: the same rest from the same line, or the same error. -/
theorem run_blockComment (items : List Item) : ∀ (cs : List Char) (line : Nat),
    run ⟨.blockComment, line, items⟩ cs = afterComment items (skipped cs line) ∧
      run ⟨.blockStar, line, items⟩ cs = afterComment items (skipped ('*' :: cs) line)
  | [], line => by
    simp [run, State.yields, Mode.pending, afterComment, skipped, Lexer.skipComment, Except.map]
  | c :: r, line => by
    have ih := run_blockComment items r
    refine ⟨?_, ?_⟩
    · rw [run_cons]
      by_cases star : c = '*'
      · subst star
        exact (ih line).2
      · rw [skipped_cons (fun _ same => absurd same star)]
        by_cases newline : c = '\n'
        · simpa [step, star, newline] using (ih (line + 1)).1
        · simpa [step, star, newline] using (ih line).1
    · rw [run_cons]
      by_cases slash : c = '/'
      · subst slash
        simp [step, skipped_close, afterComment]
      · rw [skipped_cons (fun _ _ same => slash (List.cons.inj same).1)]
        by_cases star : c = '*'
        · subst star
          simpa [step] using (ih line).2
        · rw [skipped_cons (fun _ same => absurd same star)]
          by_cases newline : c = '\n'
          · simpa [step, star, slash, newline] using (ih (line + 1)).1
          · simpa [step, star, slash, newline] using (ih line).1

end Lexemes

/-! ### The scanner -/

/-- One step of the scanner yields what the automaton yields reading the characters the step
takes, from the one it starts at. -/
theorem run_begin (line : Nat) (items : List Item) (c : Char) (r : List Char) :
    run (begin line items c) r =
      run ⟨.start, (Lexer.step line c r).line, items ++ (Lexer.step line c r).item.toList⟩
        (Lexer.step line c r).rest := by
  unfold Lexer.step
  split
  case h_1 | h_2 | h_3 | h_4 | h_5 | h_6 | h_7 | h_8 | h_9 | h_10 => rfl
  case h_11 => exact run_operator '!' .bang .bangEqual r
  case h_12 => exact run_operator '=' .equal .equalEqual r
  case h_13 => exact run_operator '<' .less .lessEqual r
  case h_14 => exact run_operator '>' .greater .greaterEqual r
  case h_15 | h_16 | h_17 => exact congrArg (run ⟨.start, line, ·⟩ r) (List.append_nil items).symm
  case h_18 => exact congrArg (run ⟨.start, line + 1, ·⟩ r) (List.append_nil items).symm
  case h_19 =>
    show run ⟨.slash, line, items⟩ r = _
    dsimp only
    split
    · next r' =>
      rw [run_cons]
      show run ⟨.lineComment, line, items⟩ r' = _
      simp [run_lineComment]
    · next r' =>
      rw [run_cons]
      show run ⟨.blockComment, line, items⟩ r' = _
      rw [(run_blockComment items r' line).1, skipped]
      split
      · next skip => simp [skip, Except.map, afterComment]
      · next skip => simp [skip, Except.map, afterComment, run, State.yields, Mode.pending]
    · next notLine notBlock =>
      dsimp only
      rw [run_close fun x hx => by
        obtain ⟨r', rfl⟩ : ∃ r', r = x :: r' := List.head?_eq_some_iff.mp (Option.mem_def.mp hx)
        have notSlash : x ≠ '/' := fun same => notLine r' (by rw [same])
        have notStar : x ≠ '*' := fun same => notBlock r' (by rw [same])
        simp [step, notSlash, notStar]]
      simp [Mode.pending]
  case h_20 => exact run_string r
  case h_21 =>
    -- the equation of `begin`'s last case asks that `c` is none of the characters before it
    rw [begin]
    any_goals assumption
    split
    · exact run_integer c r
    · split
      · exact run_word r [c]
      · rfl

/-- Scanning the rest of a text after some items yields those items and then what the automaton
yields from between lexemes. -/
theorem scanFrom_eq_run (line : Nat) (cs : List Char) (acc : Array Item) :
    (Lexer.scanFrom line cs acc).toList = run ⟨.start, line, acc.toList⟩ cs := by
  fun_induction Lexer.scanFrom line cs acc with
  | case1 line acc => simp [run, State.yields, Mode.pending]
  | case2 line acc c r s i yielded ih =>
    rw [ih, run_cons, step_start, run_begin,
      show (Lexer.step line c r).item = some i from yielded]
    simp [s]
  | case3 line acc c r s silent ih =>
    rw [ih, run_cons, step_start, run_begin, show (Lexer.step line c r).item = none from silent]
    simp [s]

end Automaton

/-- The scanner yields exactly what the one-character automaton yields: the same tokens with the
same lexemes, payloads and lines, and the same errors at the same lines, in the same order. -/
theorem Token.scan_eq_automaton (source : String) : Token.scan source = Automaton.scan source :=
  Automaton.scanFrom_eq_run 1 source.toList #[]

example : (Automaton.scan "/***/1.x").map (·.toOption.map (·.kind.name)) =
    [some "NUMBER", some "DOT", some "IDENTIFIER", some "EOF"] := by decide

end Lox
