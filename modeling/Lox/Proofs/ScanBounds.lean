import Lox.Proofs.ProgramShape
/-!
How far the scanner reads. Every step takes a nonempty stretch of the text and leaves the rest
(`Lexer.step_reads`), so a scan of a source yields at most one item per byte and then the one
end-of-input token, which comes last. Read as byte offsets of the source, each stretch runs
between two character boundaries and ends where the rest begins; a token's lexeme is the source
there, a string's contents the source between its quotes, and an unexpected character the one
character there (`Token.scan_advances_on_boundaries`).
-/

/-! ### Byte offsets of the characters of a string -/

theorem String.utf8ByteSize_ofList_cons (c : Char) (l : List Char) :
    (String.ofList (c :: l)).utf8ByteSize = c.utf8Size + (String.ofList l).utf8ByteSize := by
  rw [String.ofList_cons, String.utf8ByteSize_append, String.utf8ByteSize_singleton]

theorem String.utf8ByteSize_ofList_append (l m : List Char) :
    (String.ofList (l ++ m)).utf8ByteSize = (String.ofList l).utf8ByteSize + (String.ofList m).utf8ByteSize := by
  rw [String.ofList_append, String.utf8ByteSize_append]

theorem String.length_le_utf8ByteSize_ofList (l : List Char) : l.length ≤ (String.ofList l).utf8ByteSize := by
  induction l with
  | nil => simp
  | cons c l ih =>
    have := c.utf8Size_pos
    rw [String.utf8ByteSize_ofList_cons, List.length_cons]
    omega

/-- A stretch of a string's characters lies between two character boundaries, at the byte offsets
of the characters before it, and the string's bytes between them are the stretch's. -/
theorem String.exists_slice_of_toList {S : String} {pre mid post : List Char}
    (h : S.toList = pre ++ mid ++ post) :
    ∃ p q : S.Pos, p.offset.byteIdx = (String.ofList pre).utf8ByteSize ∧
      q.offset.byteIdx = (String.ofList pre).utf8ByteSize + (String.ofList mid).utf8ByteSize ∧
      S.extract p q = String.ofList mid := by
  have joined : S = String.ofList pre ++ String.ofList mid ++ String.ofList post := by
    rw [← String.ofList_toList (s := S), h, String.ofList_append, String.ofList_append]
  subst joined
  refine ⟨⟨(String.ofList pre).rawEndPos, ?_⟩, ⟨(String.ofList pre ++ String.ofList mid).rawEndPos, ?_⟩, rfl,
    String.utf8ByteSize_append, ?_⟩
  · exact (String.Pos.Raw.isValid_rawEndPos.append_right _).append_right _
  · exact String.Pos.Raw.isValid_rawEndPos.append_right _
  · apply String.toByteArray_inj.1
    simp only [String.toByteArray_extract, String.toByteArray_append, String.byteIdx_rawEndPos]
    rw [ByteArray.extract_append, ByteArray.extract_append_eq_right String.size_toByteArray.symm
      String.utf8ByteSize_append, ByteArray.size_append, String.size_toByteArray, String.size_toByteArray,
      ← String.utf8ByteSize_append, Nat.sub_self, ByteArray.extract_eq_empty_iff.2 (by simp),
      ByteArray.append_empty]

namespace Lox

theorem TokenKind.ofWord_ne_string (w body : String) : TokenKind.ofWord w ≠ .string body := by
  unfold TokenKind.ofWord TokenKind.keyword?
  split <;> simp

namespace Lexer

/-! ### What one step reads -/

/-- What a step took from the text `c :: r`: the characters `read`, after which its rest follows.
A token's lexeme is what it read, a string's contents what it read between the quotes, and an
unexpected character the one character it read. -/
structure Reads (c : Char) (r : List Char) (s : Step (r.length + 1)) (read : List Char) : Prop where
  split : c :: r = read ++ s.rest
  lexeme : ∀ t, s.item = some (.ok t) → t.lexeme = String.ofList read
  contents : ∀ t body, s.item = some (.ok t) → t.kind = .string body →
    ∃ cs, read = '"' :: cs ++ ['"'] ∧ body = String.ofList cs
  unexpected : ∀ e d, s.item = some (.error e) → e.fault = .unexpected d → read = [c] ∧ d = c

section Reads

variable {c : Char} {r : List Char} {s : Step (r.length + 1)} {read : List Char}

theorem Reads.of_none (none : s.item = none) (split : c :: r = read ++ s.rest) : Reads c r s read where
  split := split
  lexeme := by simp [none]
  contents := by simp [none]
  unexpected := by simp [none]

theorem Reads.of_token {k : TokenKind} {line : Nat} (found : s.item = some (token k read line))
    (plain : ∀ body, k ≠ .string body) (split : c :: r = read ++ s.rest) : Reads c r s read where
  split := split
  lexeme := by simp [found, token]
  contents := by
    intro t body made kind
    simp only [found, token, Option.some.injEq, Except.ok.injEq] at made
    subst made
    exact absurd kind (plain body)
  unexpected := by simp [found, token]

theorem Reads.of_fault {e : LexError} (found : s.item = some (.error e))
    (expected : ∀ d, e.fault ≠ .unexpected d) (split : c :: r = read ++ s.rest) : Reads c r s read where
  split := split
  lexeme := by simp [found]
  contents := by simp [found]
  unexpected := by
    intro e' d made fault
    simp only [found, Option.some.injEq, Except.error.injEq] at made
    subst made
    exact absurd fault (expected d)

/-- A step reads at least one character: its rest is shorter than the text. -/
theorem Reads.ne_nil (reads : Reads c r s read) : read ≠ [] := by
  rintro rfl
  have := s.shorter
  have := congrArg List.length reads.split
  simp only [List.nil_append, List.length_cons] at this
  omega

end Reads

/-- The characters before the first one that fails `p`, then the rest from it. -/
theorem eq_takeWhile_append_cons {p : Char → Bool} {cs rest : List Char} {x : Char}
    (h : cs.dropWhile p = x :: rest) : cs = cs.takeWhile p ++ x :: rest ∧ p x = false := by
  refine ⟨by rw [← h, List.takeWhile_append_dropWhile], ?_⟩
  have := List.head_dropWhile_not p (l := cs) (by simp [h])
  simpa [h] using this

/-- A block comment's body is skipped through a stretch of the text: what follows is a suffix. -/
theorem skipComment_split {cs : List Char} {line : Nat} {p : { p : List Char × Nat // p.1.length ≤ cs.length }}
    (skipped : skipComment cs line = .ok p) : ∃ pre, cs = pre ++ p.1.1 := by
  fun_induction skipComment cs line with
  | case1 line => cases skipped
  | case2 r line =>
    cases skipped
    exact ⟨['*', '/'], rfl⟩
  | case3 c r line _ q _ found ih =>
    cases skipped
    obtain ⟨pre, split⟩ := ih found
    exact ⟨c :: pre, by simp [split]⟩
  | case4 => cases skipped

theorem withEqual_reads (line : Nat) (c : Char) (r : List Char) {single double : TokenKind}
    (singlePlain : ∀ body, single ≠ .string body) (doublePlain : ∀ body, double ≠ .string body) :
    ∃ read, Reads c r (withEqual line c r single double) read := by
  unfold withEqual
  split
  · exact ⟨[c, '='], .of_token rfl doublePlain rfl⟩
  · exact ⟨[c], .of_token rfl singlePlain rfl⟩

theorem stringLit_reads (line : Nat) (r : List Char) : ∃ read, Reads '"' r (stringLit line r) read := by
  unfold stringLit
  split
  · -- no closing quote: the rest of the text is read
    refine ⟨'"' :: r, .of_fault rfl (by simp) ?_⟩
    simp
  · rename_i x r' closed
    obtain ⟨split, quote⟩ := eq_takeWhile_append_cons closed
    have quote : x = '"' := by simpa using quote
    subst quote
    refine ⟨'"' :: r.takeWhile (· != '"') ++ ['"'], ?_, ?_, ?_, ?_⟩
    · simp only
      conv => lhs; rw [split]
      simp
    · intro t made
      simp only [Option.some.injEq, Except.ok.injEq] at made
      subst made
      simp
    · intro t body made kind
      simp only [Option.some.injEq, Except.ok.injEq] at made
      subst made
      simp only [TokenKind.string.injEq] at kind
      exact ⟨_, by simp, kind.symm⟩
    · simp

theorem numberLit_reads (line : Nat) (c : Char) (r : List Char) : ∃ read, Reads c r (numberLit line c r) read := by
  unfold numberLit
  split
  · rename_i d r2 split
    obtain ⟨split, -⟩ := eq_takeWhile_append_cons split
    split
    · -- a point with a digit after it: the fraction is read too
      refine ⟨c :: r.takeWhile Char.isDigit ++ '.' :: d :: r2.takeWhile Char.isDigit,
        .of_token rfl (by simp) ?_⟩
      conv => lhs; rw [split, ← List.takeWhile_append_dropWhile (p := Char.isDigit) (l := r2)]
      simp
    · refine ⟨c :: r.takeWhile Char.isDigit, .of_token rfl (by simp) ?_⟩
      conv => lhs; rw [split]
      simp
  · refine ⟨c :: r.takeWhile Char.isDigit, .of_token rfl (by simp) ?_⟩
    simp

theorem word_reads (line : Nat) (c : Char) (r : List Char) : ∃ read, Reads c r (word line c r) read :=
  ⟨c :: r.takeWhile isWordChar, .of_token rfl (TokenKind.ofWord_ne_string _) (by simp [word])⟩

/-- Every step reads a stretch of its text, whatever the text and the line. -/
theorem step_reads (line : Nat) (c : Char) (r : List Char) : ∃ read, Reads c r (step line c r) read := by
  unfold step
  split
  -- one-character tokens, then those that may take an `=`, then blanks
  any_goals exact ⟨[_], .of_token rfl (by simp) rfl⟩
  any_goals exact withEqual_reads line _ r (by simp) (by simp)
  any_goals exact ⟨[_], .of_none rfl rfl⟩
  · -- a line comment, a block comment, or a slash
    split
    · rename_i r'
      refine ⟨'/' :: '/' :: r'.takeWhile (· != '\n'), .of_none rfl ?_⟩
      simp
    · rename_i r'
      split
      · rename_i rest line' shorter skipped
        obtain ⟨pre, split⟩ := skipComment_split skipped
        exact ⟨'/' :: '*' :: pre, .of_none rfl (by simp [split])⟩
      · exact ⟨'/' :: '*' :: r', .of_fault rfl (by simp) (by simp)⟩
    · exact ⟨['/'], .of_token rfl (by simp) rfl⟩
  · exact stringLit_reads line r
  · split
    · exact numberLit_reads line _ r
    · split
      · exact word_reads line _ r
      · refine ⟨[_], { split := rfl, lexeme := by simp, contents := by simp, unexpected := ?_ }⟩
        intro e d made fault
        simp only [Option.some.injEq, Except.error.injEq] at made
        subst made
        cases fault
        exact ⟨rfl, rfl⟩

/-! ### What a step covers of the source -/

/-- What a step covers of a source `S` between the byte offsets `p` and `q`: at least one byte,
up to where its rest begins. A token's lexeme is the source there, a string's contents the
source between its quotes, and an unexpected character the one character there. -/
structure Covers (S : String) (s : Step n) (p q : S.Pos) : Prop where
  advances : p.offset.byteIdx < q.offset.byteIdx
  rest : q.offset.byteIdx + (String.ofList s.rest).utf8ByteSize = S.utf8ByteSize
  lexeme : ∀ t, s.item = some (.ok t) → t.lexeme = S.extract p q
  contents : ∀ t body, s.item = some (.ok t) → t.kind = .string body →
    ∃ p' q' : S.Pos, p'.offset.byteIdx = p.offset.byteIdx + 1 ∧ q'.offset.byteIdx + 1 = q.offset.byteIdx ∧
      body = S.extract p' q'
  unexpected : ∀ e d, s.item = some (.error e) → e.fault = .unexpected d → S.extract p q = String.singleton d

/-- A step at any point of a source covers the source from that point's byte offset. -/
theorem step_covers {S : String} {pre : List Char} {c : Char} {r : List Char} (line : Nat)
    (at_ : S.toList = pre ++ c :: r) :
    ∃ p q : S.Pos, p.offset.byteIdx = (String.ofList pre).utf8ByteSize ∧ Covers S (step line c r) p q := by
  obtain ⟨read, reads⟩ := step_reads line c r
  have whole : S.toList = pre ++ read ++ (step line c r).rest := by rw [at_, reads.split, List.append_assoc]
  obtain ⟨p, q, atP, atQ, sliced⟩ := String.exists_slice_of_toList whole
  have bytes : S.utf8ByteSize =
      (String.ofList pre).utf8ByteSize + (String.ofList read).utf8ByteSize +
        (String.ofList (step line c r).rest).utf8ByteSize := by
    rw [← String.ofList_toList (s := S), whole]
    simp only [String.ofList_append, String.utf8ByteSize_append]
  have nonempty := reads.ne_nil
  have wide := String.length_le_utf8ByteSize_ofList read
  have : 0 < read.length := List.length_pos_iff.2 nonempty
  refine ⟨p, q, atP, ⟨by omega, by omega, ?_, ?_, ?_⟩⟩
  · intro t made
    rw [sliced, reads.lexeme t made]
  · -- the contents lie between the quotes, one byte in from each end
    intro t body made kind
    obtain ⟨cs, rfl, rfl⟩ := reads.contents t body made kind
    have inner : S.toList = (pre ++ ['"']) ++ cs ++ ('"' :: (step line c r).rest) := by
      rw [whole]
      simp
    obtain ⟨p', q', atP', atQ', sliced'⟩ := String.exists_slice_of_toList inner
    have quote : '"'.utf8Size = 1 := rfl
    simp only [String.utf8ByteSize_ofList_append, String.utf8ByteSize_ofList_cons, String.ofList_nil,
      String.utf8ByteSize_empty, quote] at atP' atQ' atQ
    exact ⟨p', q', by omega, by omega, sliced'.symm⟩
  · intro e d made fault
    obtain ⟨rfl, rfl⟩ := reads.unexpected e d made fault
    rw [sliced, String.singleton_eq_ofList]

/-! ### The whole scan -/

/-- The scan from a point yields at most one item per character left, and the end of input. -/
theorem scanFrom_size (line : Nat) (cs : List Char) (acc : Array (Except LexError Token)) :
    (scanFrom line cs acc).size ≤ acc.size + cs.length + 1 := by
  fun_induction scanFrom line cs acc with
  | case1 line acc => simp
  | case2 line acc c r s i found ih =>
    have := s.shorter
    simp only [Array.size_push] at ih
    simp only [List.length_cons]
    omega
  | case3 line acc c r s none ih =>
    have := s.shorter
    simp only [List.length_cons]
    omega

end Lexer

/-- The scanner ends on every source, and stays within it. It yields at most one item per byte of
the source and then the single end-of-input token, which is the last item. Every step it takes, at
whatever point of the source, reads at least one byte: from the byte offset of that point to a
character boundary where the rest of the text begins, so that the lexeme of a token, the contents
of a string and an unexpected character are each the source between two character boundaries. -/
theorem Token.scan_advances_on_boundaries (S : String) :
    (Token.scan S).length ≤ S.utf8ByteSize + 1 ∧
    (∃ items last, Token.scan S = items ++ [.ok ⟨.eof, "", last⟩] ∧ ∀ i ∈ items, Lexer.Inner i) ∧
    ∀ pre c r line, S.toList = pre ++ c :: r →
      ∃ p q : S.Pos, p.offset.byteIdx = (String.ofList pre).utf8ByteSize ∧ Lexer.Covers S (Lexer.step line c r) p q := by
  refine ⟨?_, ?_, fun pre c r line at_ => Lexer.step_covers line at_⟩
  · have size := Lexer.scanFrom_size 1 S.toList #[]
    have wide := String.length_le_utf8ByteSize_ofList S.toList
    rw [String.ofList_toList] at wide
    simp only [Token.scan, Array.length_toList, List.size_toArray, List.length_nil] at size ⊢
    omega
  · obtain ⟨items, last, eq, inner⟩ := Lexer.scanFrom_ends 1 S.toList #[]
    exact ⟨items, last, by simp [Token.scan, eq], inner⟩

end Lox
