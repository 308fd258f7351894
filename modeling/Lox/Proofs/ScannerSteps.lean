import Lox.Proofs.ByteScan
import Mathlib.Data.List.TakeDrop
/-!
One lexeme of the byte scanner is one step of the character scanner. From a character boundary
`scanToken` reads exactly the bytes of the characters `Lexer.step` reads and makes the same token
or error (`scanToken_step`); `next` repeats it over blanks and comments, so the items of the byte
scanner are the items of `Token.scan` (`Scanner.scan_eq`), and a caller that keeps calling `next`
sees them and then nothing, for good (`Scanner.calls_eq`). With the bounds of the character scan
this is the byte scanner's safety: it never stops the program, yields at most one item per byte
and the end-of-input token last, and every lexeme it reads takes at least one byte and ends at a
character boundary within the text.
-/
namespace Lox

namespace Scanner

/-! ### ASCII classes -/

theorem ascii_of_digit {x : Char} (digit : x.isDigit = true) : x.toNat < 128 := by
  have := Char.isDigit_iff_toNat.1 digit
  simp at this
  omega

theorem ascii_of_alpha {x : Char} (alpha : x.isAlpha = true) : x.toNat < 128 := by
  -- a letter is an upper-case or a lower-case ASCII letter
  change (decide (x.val ≥ 'A'.val ∧ x.val ≤ 'Z'.val) || (x.val ≥ 'a'.val && x.val ≤ 'z'.val)) = true at alpha
  simp only [Bool.or_eq_true, Bool.and_eq_true, decide_eq_true_eq, ge_iff_le, UInt32.le_iff_toNat_le] at alpha
  have upper : 'Z'.val.toNat = 90 := rfl
  have lower : 'z'.val.toNat = 122 := rfl
  change x.val.toNat < 128
  omega

theorem ascii_of_wordChar {x : Char} (word : Lexer.isWordChar x = true) : x.toNat < 128 := by
  simp only [Lexer.isWordChar, Char.isAlphanum, Bool.or_eq_true, beq_iff_eq] at word
  rcases word with (alpha | digit) | rfl
  · exact ascii_of_alpha alpha
  · exact ascii_of_digit digit
  · decide

/-- A character above ASCII starts no number and no word. -/
theorem starts_nothing_of_high {x : Char} (high : 128 ≤ x.toNat) :
    x.isDigit = false ∧ (x.isAlpha || x == '_') = false := by
  constructor
  · cases digit : x.isDigit with
    | false => rfl
    | true => have := ascii_of_digit digit; omega
  · cases word : (x.isAlpha || x == '_') with
    | false => rfl
    | true =>
      simp only [Bool.or_eq_true, beq_iff_eq] at word
      rcases word with alpha | rfl
      · have := ascii_of_alpha alpha; omega
      · exact absurd high (by decide)

/-! ### The value of a number lexeme -/

theorem ne_point_of_digit {x : Char} (digit : x.isDigit = true) : (x != '.') = true := by
  by_cases point : x = '.'
  · subst point
    cases digit
  · simpa using point

/-- A number lexeme with no point has the value of its digits. -/
theorem numberValue_whole {whole : List Char} (digits : ∀ x ∈ whole, x.isDigit = true) :
    numberValue whole = Float.ofScientific (Lexer.digitsValue whole) false 0 := by
  have noPoint : ∀ x ∈ whole, (x != '.') = true := fun x mem => ne_point_of_digit (digits x mem)
  have spans : whole.span (· != '.') = (whole, []) := by
    rw [List.span_eq_takeWhile_dropWhile, ← List.append_nil whole, List.takeWhile_append_of_pos noPoint,
      List.dropWhile_append_of_pos noPoint]
    rfl
  rw [numberValue, spans]

/-- A number lexeme with a point has the value of all its digits, scaled by the places after the
point. -/
theorem numberValue_fraction {whole : List Char} (digits : ∀ x ∈ whole, x.isDigit = true) (frac : List Char) :
    numberValue (whole ++ '.' :: frac) = Float.ofScientific (Lexer.digitsValue (whole ++ frac)) true frac.length := by
  have noPoint : ∀ x ∈ whole, (x != '.') = true := fun x mem => ne_point_of_digit (digits x mem)
  have spans : (whole ++ '.' :: frac).span (· != '.') = (whole, '.' :: frac) := by
    rw [List.span_eq_takeWhile_dropWhile, List.takeWhile_append_of_pos noPoint,
      List.dropWhile_append_of_pos noPoint]
    simp
  rw [numberValue, spans]

section Steps

variable {text : String} {pre : List Char} {s : Scanner}

/-- What the byte scanner made of one lexeme, against the item of a character step: nothing noted
for a blank or a comment, the error itself, or the kind of the token noted, with the text read
as its lexeme and the line reached as its line. -/
def Yields (text : String) (o : Option LexError) (s : Scanner) : Option (Except LexError Token) → Prop
  | none => o = none ∧ s.pending = none
  | some (.error e) => o = some e
  | some (.ok t) => o = none ∧ s.pending = some t.kind ∧ lexeme text s = .ok t.lexeme ∧ t.line = s.line

/-- The byte scanner after one lexeme from the byte offset `start` follows a step of the character
scanner: the lexeme still starts there, the scanner is on the step's line, at the character
boundary before the step's rest, and has made the step's item. -/
structure Follows (text : String) (start : Nat) (st : Lexer.Step n) (o : Option LexError) (s : Scanner) :
    Prop where
  start : s.start = start
  line : s.line = st.line
  boundary : ∃ pre, Boundary text pre st.rest s
  yields : Yields text o s st.item

/-- The lexeme from a boundary to a later one is the characters read between them. -/
theorem Boundary.lexeme {read rest : List Char} (at_ : Boundary text (pre ++ read) rest s)
    (start : s.start = (encode pre).length) : lexeme text s = .ok (String.ofList read) := by
  unfold Scanner.lexeme
  rw [start, at_.2, encode_append, List.length_append]
  exact slice_chars at_.1

/-- Past the last byte is the boundary after every character. -/
theorem Boundary.finish (atEnd : s.curr = text.utf8ByteSize) : Boundary text text.toList [] s :=
  ⟨(List.append_nil _).symm, by rw [atEnd, utf8ByteSize_eq]⟩

/-- Noting a token's kind once its characters are read follows a step that makes the token of
those characters on the line reached. -/
theorem emit_follows {read rest : List Char} {k : TokenKind} {st : Lexer.Step n}
    (at_ : Boundary text (pre ++ read) rest s) (start : s.start = (encode pre).length)
    (line : st.line = s.line) (made : st.item = some (Lexer.token k read s.line)) (left : st.rest = rest) :
    ∃ o s', emit k s = .ok (o, s') ∧ Follows text (encode pre).length st o s' := by
  refine ⟨none, { s with pending := some k }, rfl, ⟨start, line.symm, ⟨pre ++ read, left ▸ at_⟩, ?_⟩⟩
  rw [made]
  exact ⟨rfl, rfl, Boundary.lexeme (s := { s with pending := some k }) at_ start, rfl⟩

/-- A blank read with no kind noted follows a step that makes nothing. -/
theorem blank_follows {before rest : List Char} {st : Lexer.Step n} (at_ : Boundary text before rest s)
    (start : s.start = (encode pre).length) (clear : s.pending = none)
    (line : st.line = s.line) (made : st.item = none) (left : st.rest = rest) :
    Follows text (encode pre).length st none s :=
  ⟨start, line.symm, ⟨before, left ▸ at_⟩, by rw [made]; exact ⟨rfl, clear⟩⟩

/-- An operator that may take an `=` takes it exactly when it follows, on both scanners. -/
theorem select_follows {c : Char} {r : List Char} {single double : TokenKind}
    (at_ : Boundary text (pre ++ [c]) r s) (start : s.start = (encode pre).length) :
    ∃ o s', select text '=' double single s = .ok (o, s') ∧
      Follows text (encode pre).length (Lexer.withEqual s.line c r single double) o s' := by
  unfold select Lexer.withEqual
  split
  · rename_i r'
    rw [matchByte_hit (by decide) at_]
    have taken : Boundary text (pre ++ [c] ++ ['=']) r' { s with curr := s.curr + 1 } := at_.cons rfl
    rw [List.append_assoc, List.singleton_append] at taken
    exact emit_follows taken start rfl rfl rfl
  · rename_i other
    rw [matchByte_miss (by decide) at_ other]
    exact emit_follows at_ start rfl rfl rfl

/-- A number reads its fraction when a point and a digit follow its whole part: the point and the
digits after it. -/
theorem fraction_read {d : Char} {rest : List Char} (at_ : Boundary text pre ('.' :: d :: rest) s)
    (digit : d.isDigit = true) :
    number.fraction text s =
      .ok { s with curr := s.curr + 1 + (encode ((d :: rest).takeWhile Char.isDigit)).length } := by
  have bytes := at_.drop
  rw [encode_ascii (by decide)] at bytes
  have point : Boundary text (pre ++ ['.']) (d :: rest) { s with curr := s.curr + 1 } := at_.cons rfl
  have follows : (char (peek text s) = '.' && (char (peekNext text s)).isDigit) = true := by
    rw [(at_.peek_cons).1 (by decide), peekNext_eq_peek, (point.peek_cons).1 (ascii_of_digit digit)]
    simp [digit]
  unfold number.fraction
  rw [if_pos follows, advance_of_drop bytes]
  exact advanceWhile_chars (fun _ => ascii_of_digit) (by decide) point

/-- and leaves it unread when no point, or no digit after the point, follows. -/
theorem fraction_none {cs : List Char} (at_ : Boundary text pre cs s)
    (whole : ∀ d rest, cs = '.' :: d :: rest → d.isDigit = false) : number.fraction text s = .ok s := by
  have first := at_.test_peek (p := fun x => decide (x = '.'))
    (fun c point => by rw [of_decide_eq_true point]; decide) (by decide)
  unfold number.fraction
  rw [if_neg]
  · rfl
  cases cs with
  | nil => simp_all
  | cons c cs =>
    by_cases point : c = '.'
    · subst point
      have point : Boundary text (pre ++ ['.']) cs { s with curr := s.curr + 1 } := at_.cons rfl
      have second := point.test_peek (fun _ => ascii_of_digit) (by decide)
      rw [← peekNext_eq_peek] at second
      cases cs with
      | nil => simp [second]
      | cons d rest => simp [second, whole d rest rfl]
    · simp_all

/-- A number reads its digits, and a point with the digits after it only when a digit follows the
point, on both scanners; its value is the value of the digits read. -/
theorem number_follows {c : Char} {r : List Char} (digit : c.isDigit = true) (at_ : Boundary text (pre ++ [c]) r s)
    (start : s.start = (encode pre).length) :
    ∃ o s', number text s = .ok (o, s') ∧ Follows text (encode pre).length (Lexer.numberLit s.line c r) o s' := by
  have split : r = r.takeWhile Char.isDigit ++ r.dropWhile Char.isDigit := List.takeWhile_append_dropWhile.symm
  have wholeDigits : ∀ x ∈ c :: r.takeWhile Char.isDigit, x.isDigit = true := by
    intro x mem
    rcases List.mem_cons.1 mem with rfl | mem
    · exact digit
    · exact mem_takeWhile mem
  have whole : Boundary text (pre ++ c :: r.takeWhile Char.isDigit) (r.dropWhile Char.isDigit)
      { s with curr := s.curr + (encode (r.takeWhile Char.isDigit)).length } := by
    have : Boundary text (pre ++ [c] ++ r.takeWhile Char.isDigit) (r.dropWhile Char.isDigit)
        { s with curr := s.curr + (encode (r.takeWhile Char.isDigit)).length } :=
      Boundary.append (by rw [← split]; exact at_) rfl
    rwa [List.append_assoc, List.singleton_append] at this
  have digits := advanceWhile_chars (fun _ => ascii_of_digit) (by decide) at_
  unfold Lexer.numberLit
  split
  · rename_i d r2 point
    rw [point] at whole
    split
    · -- a point and a digit: the fraction is read too
      rename_i fracDigit
      have done : Boundary text (pre ++ (c :: r.takeWhile Char.isDigit ++ '.' :: d :: r2.takeWhile Char.isDigit))
          (r2.dropWhile Char.isDigit)
          { s with curr := s.curr + (encode (r.takeWhile Char.isDigit)).length + 1 +
            (encode (d :: r2.takeWhile Char.isDigit)).length } := by
        have point : Boundary text (pre ++ c :: r.takeWhile Char.isDigit ++ ['.']) (d :: r2)
            { s with curr := s.curr + (encode (r.takeWhile Char.isDigit)).length + 1 } := whole.cons rfl
        have : Boundary text (pre ++ c :: r.takeWhile Char.isDigit ++ ['.'] ++ (d :: r2).takeWhile Char.isDigit)
            ((d :: r2).dropWhile Char.isDigit)
            { s with curr := s.curr + (encode (r.takeWhile Char.isDigit)).length + 1 +
              (encode ((d :: r2).takeWhile Char.isDigit)).length } :=
          Boundary.append (by rw [List.takeWhile_append_dropWhile]; exact point) rfl
        rw [List.takeWhile_cons_of_pos fracDigit, List.dropWhile_cons_of_pos fracDigit, List.append_assoc,
          List.singleton_append, List.append_assoc] at this
        exact this
      unfold number
      rw [digits]
      simp only [bind, Except.bind]
      rw [fraction_read whole fracDigit]
      simp only
      rw [List.takeWhile_cons_of_pos fracDigit, done.lexeme start]
      simp only [String.toList_ofList]
      rw [numberValue_fraction wholeDigits]
      exact emit_follows done start rfl rfl rfl
    · -- a point and no digit: the point is left for the next lexeme
      rename_i noDigit
      unfold number
      rw [digits]
      simp only [bind, Except.bind]
      rw [fraction_none whole (fun d' rest same => by
        simp only [List.cons.injEq] at same
        rw [← same.2.1]
        simpa using noDigit)]
      simp only
      rw [whole.lexeme start]
      simp only [String.toList_ofList]
      rw [numberValue_whole wholeDigits]
      exact emit_follows whole start rfl rfl rfl
  · rename_i other
    unfold number
    rw [digits]
    simp only [bind, Except.bind]
    rw [fraction_none whole (fun d rest same => absurd same (other d rest))]
    simp only
    rw [whole.lexeme start]
    simp only [String.toList_ofList]
    rw [numberValue_whole wholeDigits]
    exact emit_follows whole start rfl rfl rfl

/-- A word reads its letters, digits and underscores on both scanners, and is a keyword if it spells
one. -/
theorem identifier_follows {c : Char} {r : List Char} (at_ : Boundary text (pre ++ [c]) r s)
    (start : s.start = (encode pre).length) :
    ∃ o s', identifier text s = .ok (o, s') ∧ Follows text (encode pre).length (Lexer.word s.line c r) o s' := by
  have split : r = r.takeWhile Lexer.isWordChar ++ r.dropWhile Lexer.isWordChar :=
    List.takeWhile_append_dropWhile.symm
  have read : Boundary text (pre ++ c :: r.takeWhile Lexer.isWordChar) (r.dropWhile Lexer.isWordChar)
      { s with curr := s.curr + (encode (r.takeWhile Lexer.isWordChar)).length } := by
    have : Boundary text (pre ++ [c] ++ r.takeWhile Lexer.isWordChar) (r.dropWhile Lexer.isWordChar)
        { s with curr := s.curr + (encode (r.takeWhile Lexer.isWordChar)).length } :=
      Boundary.append (by rw [← split]; exact at_) rfl
    rwa [List.append_assoc, List.singleton_append] at this
  unfold identifier Lexer.word
  rw [advanceWhile_chars (fun _ => ascii_of_wordChar) (by decide) at_]
  simp only [bind, Except.bind]
  rw [read.lexeme start]
  exact emit_follows read start rfl rfl rfl

/-- A string reads to its closing quote, counting lines, on both scanners: its contents are the
characters between the quotes; with no closing quote the rest of the text is read and reported. -/
theorem string_follows {r : List Char} (at_ : Boundary text (pre ++ ['"']) r s) (start : s.start = (encode pre).length) :
    ∃ o s', string text s = .ok (o, s') ∧ Follows text (encode pre).length (Lexer.stringLit s.line r) o s' := by
  have split : r = r.takeWhile (· != '"') ++ r.dropWhile (· != '"') := List.takeWhile_append_dropWhile.symm
  have body : Boundary text (pre ++ ['"'] ++ r.takeWhile (· != '"')) (r.dropWhile (· != '"'))
      { s with
        curr := s.curr + (encode (r.takeWhile (· != '"'))).length
        line := s.line + (r.takeWhile (· != '"')).count '\n' } :=
    Boundary.append (by rw [← split]; exact at_) rfl
  unfold Lexer.stringLit
  split
  · rename_i stop
    rw [stop] at body
    unfold string
    rw [stringBody_chars at_]
    simp only [bind, Except.bind]
    have atEnd := body.atEnd
    simp only at atEnd
    rw [if_pos (by simp [isAtEnd, atEnd])]
    exact ⟨_, _, rfl, ⟨start, rfl, ⟨_, body⟩, rfl⟩⟩
  · rename_i q r' stop
    have quote : q = '"' := by simpa using dropWhile_head stop
    subst quote
    rw [stop] at body
    have bytes := body.drop
    rw [encode_ascii (by decide)] at bytes
    have inside := body.inside
    simp only at inside
    have closed : Boundary text (pre ++ ('"' :: r.takeWhile (· != '"') ++ ['"'])) r'
        { s with
          curr := s.curr + (encode (r.takeWhile (· != '"'))).length + 1
          line := s.line + (r.takeWhile (· != '"')).count '\n' } := by
      have quoted : Boundary text (pre ++ ['"'] ++ r.takeWhile (· != '"') ++ ['"']) r'
          { s with
            curr := s.curr + (encode (r.takeWhile (· != '"'))).length + 1
            line := s.line + (r.takeWhile (· != '"')).count '\n' } := body.cons rfl
      simpa using quoted
    have opened : s.curr = (encode pre).length + 1 := by
      rw [at_.2, encode_append, List.length_append, encode_ascii (by decide), encode_nil, List.length_singleton]
    have contents := slice_chars body.1
    rw [encode_append, List.length_append, encode_ascii (by decide), encode_nil, List.length_singleton] at contents
    unfold string
    rw [stringBody_chars at_]
    simp only [bind, Except.bind]
    rw [if_neg (by simp only [isAtEnd, decide_eq_true_eq, Nat.not_le]; omega), advance_of_drop bytes]
    dsimp only
    rw [show s.start + 1 = (encode pre).length + 1 by rw [start],
      show s.curr + (encode (r.takeWhile (· != '"'))).length + 1 - 1 =
        (encode pre).length + 1 + (encode (r.takeWhile (· != '"'))).length by omega,
      contents]
    exact emit_follows closed start rfl rfl rfl

/-- A character that starts no lexeme is stepped over whole, and reported, on both scanners. -/
theorem unexpected_follows {c : Char} {r : List Char} {s₁ : Scanner} {st : Lexer.Step n}
    (at_ : Boundary text pre (c :: r) s) (opened : s₁.start = s.curr)
    (line : st.line = s₁.line) (made : st.item = some (.error ⟨s₁.line, .unexpected c⟩)) (left : st.rest = r) :
    ∃ o s', unexpected text s₁ = .ok (o, s') ∧ Follows text (encode pre).length st o s' := by
  have start : s₁.start = (encode pre).length := opened.trans at_.2
  have size : text.utf8ByteSize = (encode pre).length + (encode (c :: r)).length := by
    rw [utf8ByteSize_eq, at_.1, encode_append, List.length_append]
  have whole : text.toList = pre ++ (c :: r) ++ [] := by rw [at_.1, List.append_nil]
  have rest := slice_chars whole
  unfold unexpected
  rw [start, size, rest]
  refine ⟨_, _, rfl, ⟨rfl, line.symm, ⟨pre ++ [c], left ▸ at_.cons ?_⟩, ?_⟩⟩
  · simp [at_.2]
  · rw [made]
    simp [Yields]

/-- After a slash both scanners skip a line comment to its newline, skip a block comment through
its star-slash counting lines (and report it if the text ends first), or make a slash. -/
theorem slash_follows {r : List Char} (at_ : Boundary text (pre ++ ['/']) r s) (start : s.start = (encode pre).length)
    (clear : s.pending = none) :
    ∃ o s', slash text s = .ok (o, s') ∧ Follows text (encode pre).length (Lexer.step s.line '/' r) o s' := by
  simp only [Lexer.step]
  split
  · -- a line comment: the search for its newline jumps over every other byte
    rename_i r'
    have past : Boundary text (pre ++ ['/'] ++ ['/']) r' { s with curr := s.curr + 1 } := at_.cons rfl
    have split : r' = r'.takeWhile (· != '\n') ++ r'.dropWhile (· != '\n') := List.takeWhile_append_dropWhile.symm
    have skipped : Boundary text (pre ++ ['/'] ++ ['/'] ++ r'.takeWhile (· != '\n')) (r'.dropWhile (· != '\n'))
        { s with curr := s.curr + 1 + (encode (r'.takeWhile (· != '\n'))).length } :=
      Boundary.append (by rw [← split]; exact past) rfl
    have search : memchr text ['\n'.toUInt8] (s.curr + 1) =
        .ok (if r'.dropWhile (· != '\n') = [] then none else some (encode (r'.takeWhile (· != '\n'))).length) :=
      memchr_chars ['\n'] (fun t target => by rw [List.mem_singleton.1 target]; decide) (fun c => by simp) past
    unfold slash
    rw [matchByte_hit (by decide) at_]
    simp only [bind, Except.bind, ↓reduceIte]
    rw [search]
    by_cases stop : r'.dropWhile (· != '\n') = []
    · rw [if_pos stop]
      rw [stop] at skipped
      have atEnd := skipped.atEnd
      simp only at atEnd
      exact ⟨_, _, rfl, blank_follows (Boundary.finish rfl) start clear rfl rfl stop⟩
    · rw [if_neg stop]
      exact ⟨_, _, rfl, blank_follows skipped start clear rfl rfl rfl⟩
  · -- a block comment: skipped through its star-slash, or to the end of the text
    rename_i r'
    have opened : Boundary text (pre ++ ['/'] ++ ['*']) r' { s with curr := s.curr + 1 } := at_.cons rfl
    have comment := skipBlockComment_chars r' opened
    unfold slash
    rw [matchByte_miss (by decide) at_ (fun _ same => by cases same)]
    simp only [bind, Except.bind, Bool.false_eq_true, ↓reduceIte]
    rw [matchByte_hit (by decide) at_]
    simp only [↓reduceIte]
    split
    · rename_i rest line' shorter closed
      have skips : skipped r' s.line = .ok (rest, line') := by simp [skipped, closed, Except.map]
      simp only [skips] at comment
      obtain ⟨s', run, sameStart, samePending, reached, pre', bound⟩ := comment
      exact ⟨none, s', run, ⟨sameStart.trans start, reached, ⟨pre', bound⟩, ⟨rfl, samePending.trans clear⟩⟩⟩
    · rename_i line' unclosed
      have skips : skipped r' s.line = .error line' := by simp [skipped, unclosed, Except.map]
      simp only [skips] at comment
      exact ⟨_, _, comment, ⟨start, rfl, ⟨_, Boundary.finish rfl⟩, rfl⟩⟩
  · -- a slash on its own
    rename_i notLine notBlock
    unfold slash
    rw [matchByte_miss (by decide) at_ notLine]
    simp only [bind, Except.bind, Bool.false_eq_true, ↓reduceIte]
    rw [matchByte_miss (by decide) at_ notBlock]
    exact emit_follows at_ start rfl rfl rfl

/-- One lexeme of the byte scanner from a character boundary is one step of the character scanner
there: it reads the same characters, to the boundary before the step's rest, and makes the same
item. -/
theorem scanToken_step {c : Char} {r : List Char} (at_ : Boundary text pre (c :: r) s) (fresh : s.start = s.curr)
    (clear : s.pending = none) :
    ∃ o s', scanToken text s = .ok (o, s') ∧ Follows text s.start (Lexer.step s.line c r) o s' := by
  have start : s.start = (encode pre).length := fresh.trans at_.2
  rw [start]
  by_cases high : 128 ≤ c.toNat
  · -- a character above ASCII, whose first byte is above ASCII too: no lexeme starts with either
    obtain ⟨b, bs, first⟩ := List.exists_cons_of_ne_nil (String.utf8EncodeChar_ne_nil (c := c))
    have bytes := at_.drop
    rw [encode_cons, first, List.cons_append] at bytes
    have above : 128 ≤ (char b).toNat := by
      rw [toNat_char]
      exact utf8EncodeChar_high high b (by rw [first]; exact List.mem_cons_self ..)
    obtain ⟨byteNoDigit, byteNoWord⟩ := starts_nothing_of_high above
    obtain ⟨noDigit, noWord⟩ := starts_nothing_of_high high
    unfold scanToken
    rw [advance_of_drop bytes]
    simp only [bind, Except.bind]
    split
    any_goals (exfalso; rename_i same; rw [same] at above; revert above; decide)
    rw [if_neg (by simp [byteNoDigit]), if_neg (by simp [byteNoWord])]
    unfold Lexer.step
    split
    any_goals (exfalso; revert high; decide)
    rw [if_neg (by simp [noDigit]), if_neg (by simp [noWord])]
    exact unexpected_follows at_ fresh rfl rfl rfl
  · have ascii : c.toNat < 128 := by omega
    have bytes := at_.drop
    rw [encode_ascii ascii] at bytes
    have opened : Boundary text (pre ++ [c]) r { s with curr := s.curr + 1 } :=
      at_.cons (by rw [utf8Size_ascii ascii])
    unfold scanToken
    rw [advance_of_drop bytes]
    simp only [bind, Except.bind]
    rw [char_toUInt8 ascii]
    split
    -- the one-character tokens, those that may take an `=`, and the blanks
    any_goals (simp only [Lexer.step]; exact emit_follows opened start rfl rfl rfl)
    any_goals (simp only [Lexer.step]; exact select_follows opened start)
    any_goals (simp only [Lexer.step]; exact ⟨_, _, rfl, blank_follows opened start clear rfl rfl rfl⟩)
    · exact slash_follows opened start clear
    · simp only [Lexer.step]
      exact string_follows opened start
    · -- every other character: a number, a word, or a character that starts no lexeme
      have other : Lexer.step s.line c r = if c.isDigit then Lexer.numberLit s.line c r
          else if (c.isAlpha || c == '_') then Lexer.word s.line c r
          else ⟨some (.error ⟨s.line, .unexpected c⟩), s.line, r, Nat.lt_add_one _⟩ := by
        unfold Lexer.step
        split
        any_goals contradiction
        rfl
      rw [other]
      by_cases digit : c.isDigit = true
      · rw [if_pos digit, if_pos digit]
        exact number_follows digit opened start
      by_cases word : (c.isAlpha || c == '_') = true
      · rw [if_neg digit, if_neg digit, if_pos word, if_pos word]
        exact identifier_follows opened start
      rw [if_neg digit, if_neg digit, if_neg word, if_neg word]
      exact unexpected_follows at_ fresh rfl rfl rfl

end Steps

/-! ### Whole scans -/

section Items

variable {text : String} {pre : List Char} {s s' : Scanner}

/-- At the end of the text the scanner yields the end-of-input token and steps past the end. -/
theorem next_at_end (atEnd : s.curr = text.utf8ByteSize) :
    next text s = .ok (some (.ok ⟨.eof, "", s.line⟩), { s with curr := s.curr + 1 }) := by
  rw [next, if_pos (Nat.le_of_eq atEnd), if_pos atEnd]

/-- Past the end it yields nothing and stays. -/
theorem next_past_end (past : text.utf8ByteSize < s.curr) : next text s = .ok (none, s) := by
  rw [next, if_neg (by omega)]

/-- Inside the text `next` reads one lexeme from where it is, and yields the error or the token
the lexeme made, or goes on to the next lexeme if it made nothing. -/
theorem next_of_scanToken {o : Option LexError} (inside : s.curr < text.utf8ByteSize)
    (read : scanToken text { s with start := s.curr, pending := none } = .ok (o, s')) :
    next text s = match o with
      | some e => .ok (some (.error e), s')
      | none => match s'.pending with
        | some k => do
          let word ← lexeme text s'
          pure (some (.ok ⟨k, word, s'.line⟩), { s' with pending := none })
        | none => next text s' := by
  rw [next, if_pos (Nat.le_of_lt inside), if_neg (Nat.ne_of_lt inside)]
  split <;> rename_i scanned <;> rw [read] at scanned <;> cases scanned <;> rfl

/-- From a boundary before a character, `next` yields the item of the character scanner's step
there, if the step makes one, and stops at the boundary before the step's rest on its line. -/
theorem next_some {c : Char} {r : List Char} {i : Except LexError Token} (at_ : Boundary text pre (c :: r) s)
    (found : (Lexer.step s.line c r).item = some i) :
    ∃ s' pre', next text s = .ok (some i, s') ∧ Boundary text pre' (Lexer.step s.line c r).rest s' ∧
      s'.line = (Lexer.step s.line c r).line := by
  obtain ⟨o, s₁, read, follows⟩ := scanToken_step (s := { s with start := s.curr, pending := none }) at_ rfl rfl
  obtain ⟨pre', bound⟩ := follows.boundary
  have yields := follows.yields
  rw [found] at yields
  rw [next_of_scanToken at_.inside read]
  cases i with
  | error e =>
    cases yields
    exact ⟨s₁, pre', rfl, bound, follows.line⟩
  | ok t =>
    obtain ⟨rfl, noted, word, sameLine⟩ := yields
    refine ⟨{ s₁ with pending := none }, pre', ?_, bound, follows.line⟩
    simp only [noted, word, bind, Except.bind, pure, Except.pure, ← sameLine]

/-- and when the step makes nothing, `next` goes on from the boundary before the step's rest. -/
theorem next_none {c : Char} {r : List Char} (at_ : Boundary text pre (c :: r) s)
    (found : (Lexer.step s.line c r).item = none) :
    ∃ s' pre', next text s = next text s' ∧ Boundary text pre' (Lexer.step s.line c r).rest s' ∧
      s'.line = (Lexer.step s.line c r).line := by
  obtain ⟨o, s₁, read, follows⟩ := scanToken_step (s := { s with start := s.curr, pending := none }) at_ rfl rfl
  obtain ⟨pre', bound⟩ := follows.boundary
  have yields := follows.yields
  rw [found] at yields
  obtain ⟨rfl, clear⟩ := yields
  rw [next_of_scanToken at_.inside read]
  exact ⟨s₁, pre', by simp only [clear], bound, follows.line⟩

/-- The items from a scanner are what its first call of `next` yields, then the items after it. -/
theorem items_eq (s : Scanner) : items text s = match next text s with
    | .error e => .error e
    | .ok (none, _) => .ok []
    | .ok (some i, s') => (items text s').map (i :: ·) := by
  rw [items]
  split <;> rename_i read <;> simp only [read]
  cases items text _ <;> rfl

/-- From a boundary the byte scanner yields, after the items already yielded, what the character
scanner yields from there on. -/
theorem items_scanFrom (line : Nat) (cs : List Char) (acc : Array (Except LexError Token)) :
    ∀ {pre s}, Boundary text pre cs s → s.line = line →
      ∃ l, items text s = .ok l ∧ acc.toList ++ l = (Lexer.scanFrom line cs acc).toList := by
  fun_induction Lexer.scanFrom line cs acc with
  | case1 line acc =>
    -- the end of the text: the end-of-input token, and then nothing
    intro pre s at_ online
    have atEnd := at_.atEnd
    refine ⟨[.ok ⟨.eof, "", line⟩], ?_, by simp⟩
    rw [items_eq, next_at_end atEnd]
    dsimp only
    rw [items_eq, next_past_end (by simp only; omega)]
    simp [online, Except.map]
  | case2 line acc c r st i found =>
    rename_i ih
    intro pre s at_ online
    subst online
    obtain ⟨s', pre', run, bound, reached⟩ := next_some at_ found
    obtain ⟨l, rest, joined⟩ := ih bound reached
    refine ⟨i :: l, by rw [items_eq, run]; simp [rest, Except.map], ?_⟩
    rw [← joined]
    simp
  | case3 line acc c r st none =>
    rename_i ih
    intro pre s at_ online
    subst online
    obtain ⟨s', pre', run, bound, reached⟩ := next_none at_ none
    obtain ⟨l, rest, joined⟩ := ih bound reached
    exact ⟨l, by rw [items_eq, run, ← items_eq]; exact rest, joined⟩

/-- The byte scanner yields exactly the items of the character scanner, on every source, and never
stops the program. -/
theorem scan_eq (text : String) : scan text = .ok (Token.scan text) := by
  have start : Boundary text [] text.toList ⟨0, 0, 1, none⟩ := ⟨rfl, rfl⟩
  obtain ⟨l, run, joined⟩ := items_scanFrom 1 text.toList #[] start rfl
  rw [scan, run, Token.scan, ← joined]
  rfl

/-- Once `next` yields nothing it yields nothing again, from where it stopped. -/
theorem next_none_stays (read : next text s = .ok (none, s')) : next text s' = .ok (none, s') := by
  fun_induction next text s with
  | case5 s within notEnd s₁ scanned blank ih => exact ih read
  | case6 s past =>
    cases read
    exact next_past_end (by omega)
  | case4 s within notEnd s₁ scanned k noted =>
    obtain ⟨word, -, made⟩ := Except.bind_eq_ok.1 read
    cases made
  | _ => cases read

theorem calls_of_none (read : next text s = .ok (none, s)) (n : Nat) :
    calls text n s = .ok (List.replicate n none) := by
  induction n with
  | zero => rfl
  | succ n ih => simp [calls, read, ih, bind, Except.bind, pure, Except.pure, List.replicate_succ]

/-- A caller that keeps calling `next` sees the items, one per call, and then nothing, for good. -/
theorem calls_of_items {l : List (Except LexError Token)} (run : items text s = .ok l) (n : Nat) :
    calls text n s = .ok ((List.range n).map (l[·]?)) := by
  induction n generalizing s l with
  | zero => rfl
  | succ n ih =>
    rw [items_eq] at run
    cases read : next text s with
    | error e => simp [read] at run
    | ok r =>
      obtain ⟨i, s₁⟩ := r
      cases i with
      | none =>
        simp only [read, Except.ok.injEq] at run
        subst run
        simp [calls, read, calls_of_none (next_none_stays read), bind, Except.bind, pure, Except.pure,
          List.range_succ_eq_map, Function.comp_def, List.map_const']
      | some i =>
        cases rest : items text s₁ with
        | error e => simp [read, rest, Except.map] at run
        | ok l' =>
          simp only [read, rest, Except.map, Except.ok.injEq] at run
          subst run
          simp [calls, read, ih rest, bind, Except.bind, pure, Except.pure, List.range_succ_eq_map,
            Function.comp_def]

/-- So the caller of the byte scanner on a source sees the items of `Token.scan`, then nothing. -/
theorem calls_eq (text : String) (n : Nat) :
    calls text n ⟨0, 0, 1, none⟩ = .ok ((List.range n).map ((Token.scan text)[·]?)) :=
  calls_of_items (scan_eq text) n

/-- A lexeme read from a boundary takes at least one byte and ends at a boundary within the text. -/
theorem scanToken_within {c : Char} {r : List Char} (at_ : Boundary text pre (c :: r) s) (fresh : s.start = s.curr)
    (clear : s.pending = none) :
    ∃ o s', scanToken text s = .ok (o, s') ∧ s.curr < s'.curr ∧ s'.curr ≤ text.utf8ByteSize ∧
      ∃ pre' rest, Boundary text pre' rest s' := by
  obtain ⟨o, s', read, follows⟩ := scanToken_step at_ fresh clear
  obtain ⟨pre', bound⟩ := follows.boundary
  exact ⟨o, s', read, scanToken_advances text fresh read, bound.within, pre', _, bound⟩

/-- The byte scanner on any source never stops the program, and ends: it yields the items of the
character scan, and a caller that keeps calling `next` sees them and then nothing. There are at
most as many as the source has bytes, then the end-of-input token, the only one, which comes last.
Every lexeme it reads from a character boundary takes at least one byte and ends at a boundary
within the text; so every byte it reads is inside the text, and every slice it takes runs between
two boundaries. -/
theorem scan_stays_within_text (S : String) :
    scan S = .ok (Token.scan S) ∧
    (∀ n, calls S n ⟨0, 0, 1, none⟩ = .ok ((List.range n).map ((Token.scan S)[·]?))) ∧
    (Token.scan S).length ≤ S.utf8ByteSize + 1 ∧
    (∃ items last, Token.scan S = items ++ [.ok ⟨.eof, "", last⟩] ∧ ∀ i ∈ items, Lexer.Inner i) ∧
    ∀ pre c r s, Boundary S pre (c :: r) s → s.start = s.curr → s.pending = none →
      ∃ o s', scanToken S s = .ok (o, s') ∧ s.curr < s'.curr ∧ s'.curr ≤ S.utf8ByteSize ∧
        ∃ pre' rest, Boundary S pre' rest s' := by
  obtain ⟨bounded, ends, -⟩ := Token.scan_advances_on_boundaries S
  exact ⟨scan_eq S, calls_eq S, bounded, ends, fun _ _ _ _ at_ fresh clear => scanToken_within at_ fresh clear⟩

/-- The first lexeme of a string around a two-byte character, read from the start of the text. -/
theorem scan_stays_within_text_accent :
    Boundary "\"é\"" [] ['"', 'é', '"'] ⟨0, 0, 1, none⟩ ∧
      ∃ o s', scanToken "\"é\"" ⟨0, 0, 1, none⟩ = .ok (o, s') ∧ 0 < s'.curr ∧ s'.curr ≤ "\"é\"".utf8ByteSize ∧
        ∃ pre' rest, Boundary "\"é\"" pre' rest s' :=
  have at_ : Boundary "\"é\"" [] ['"', 'é', '"'] ⟨0, 0, 1, none⟩ := ⟨by decide, rfl⟩
  ⟨at_, (scan_stays_within_text _).2.2.2.2 [] '"' ['é', '"'] _ at_ rfl rfl⟩

end Items

end Scanner

end Lox
