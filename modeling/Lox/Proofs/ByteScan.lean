import Lox.Token.Scanner
import Lox.Proofs.ScanBounds
/-!
The bytes of a source, as the byte scanner reads them, against its characters. A character's bytes
are its UTF-8 encoding (`encode`); an ASCII character is one byte, its own code, and every byte of
a character above ASCII is above ASCII too. So a scanner at a character boundary (`Boundary`: the
characters before it are the ones whose bytes it has passed) that reads on while an ASCII test
holds, searches for ASCII bytes, or tests the next byte for an ASCII character, does what the same
reading does on the characters, and stops at a boundary again: no search stops and no test
succeeds inside a character.
-/
namespace Lox

namespace Scanner

/-! ### The bytes of a text -/

/-- The UTF-8 bytes of a list of characters. -/
def encode (cs : List Char) : List UInt8 := cs.flatMap String.utf8EncodeChar

@[simp] theorem encode_nil : encode [] = [] := rfl

@[simp] theorem encode_cons (c : Char) (cs : List Char) :
    encode (c :: cs) = String.utf8EncodeChar c ++ encode cs := List.flatMap_cons

@[simp] theorem encode_append (l m : List Char) : encode (l ++ m) = encode l ++ encode m :=
  List.flatMap_append

theorem length_encode (cs : List Char) : (encode cs).length = (String.ofList cs).utf8ByteSize := by
  rw [← String.size_toByteArray, String.toByteArray_ofList, List.utf8Encode, List.size_toByteArray]
  rfl

theorem toByteArray_eq (text : String) : text.toByteArray = (encode text.toList).toByteArray := by
  conv => lhs; rw [← String.ofList_toList (s := text)]
  rw [String.toByteArray_ofList]
  rfl

theorem utf8ByteSize_eq (text : String) : text.utf8ByteSize = (encode text.toList).length := by
  rw [length_encode, String.ofList_toList]

/-- A byte of the text is the byte of its encoded characters at that offset. -/
theorem getUTF8Byte_eq (text : String) (i : Nat) (h : (⟨i⟩ : String.Pos.Raw) < text.rawEndPos) :
    some (text.getUTF8Byte ⟨i⟩ h) = (encode text.toList)[i]? := by
  have inside : i < (encode text.toList).length := by
    rw [← utf8ByteSize_eq]
    exact h
  rw [List.getElem?_eq_getElem inside, String.getUTF8Byte_eq_getElem]
  simp only [toByteArray_eq, List.getElem_toByteArray]

theorem byteAt_eq (text : String) (i : Nat) :
    byteAt text i = match (encode text.toList)[i]? with
      | some b => .ok b
      | none => .error (.index i) := by
  unfold byteAt
  split
  · rename_i h
    rw [← getUTF8Byte_eq text i h]
  · rename_i h
    have : (encode text.toList).length ≤ i := by
      rw [← utf8ByteSize_eq]
      exact Nat.le_of_not_lt h
    rw [List.getElem?_eq_none this]

theorem peek_eq (text : String) (s : Scanner) : peek text s = ((encode text.toList)[s.curr]?).getD 0 := by
  unfold peek
  split
  · rename_i h
    rw [← getUTF8Byte_eq text s.curr h]
    rfl
  · rename_i h
    have : (encode text.toList).length ≤ s.curr := by
      rw [← utf8ByteSize_eq]
      exact Nat.le_of_not_lt h
    rw [List.getElem?_eq_none this]
    rfl

theorem peekNext_eq (text : String) (s : Scanner) :
    peekNext text s = ((encode text.toList)[s.curr + 1]?).getD 0 := by
  unfold peekNext
  split
  · rename_i h
    rw [← getUTF8Byte_eq text (s.curr + 1) h]
    rfl
  · rename_i h
    have : (encode text.toList).length ≤ s.curr + 1 := by
      rw [← utf8ByteSize_eq]
      exact Nat.le_of_not_lt h
    rw [List.getElem?_eq_none this]
    rfl

/-- The byte after the next is the next one once a byte is read. -/
theorem peekNext_eq_peek (text : String) (s : Scanner) : peekNext text s = peek text { s with curr := s.curr + 1 } := by
  rw [peekNext_eq, peek_eq]

/-! ### ASCII bytes -/

theorem utf8Size_ascii {c : Char} (ascii : c.toNat < 128) : c.utf8Size = 1 :=
  Char.utf8Size_eq_one_iff.2 (by
    rw [UInt32.le_iff_toNat_le, Char.toNat_val]
    simpa using Nat.le_of_lt_succ ascii)

/-- An ASCII character is one byte, its own code. -/
theorem utf8EncodeChar_ascii {c : Char} (ascii : c.toNat < 128) : String.utf8EncodeChar c = [c.toUInt8] :=
  String.utf8EncodeChar_eq_singleton (utf8Size_ascii ascii)

/-- Every byte of a character above ASCII is above ASCII. -/
theorem utf8EncodeChar_high {c : Char} (high : 128 ≤ c.toNat) : ∀ b ∈ String.utf8EncodeChar c, 128 ≤ b.toNat := by
  have v : c.val.toNat = c.toNat := Char.toNat_val
  unfold String.utf8EncodeChar
  intro b mem
  simp only [v] at mem
  split at mem
  · omega
  · split at mem
    · simp only [List.mem_cons, List.not_mem_nil, or_false] at mem
      rcases mem with rfl | rfl <;> simp [UInt8.toNat_ofNat] <;> omega
    · split at mem
      · simp only [List.mem_cons, List.not_mem_nil, or_false] at mem
        rcases mem with rfl | rfl | rfl <;> simp [UInt8.toNat_ofNat] <;> omega
      · simp only [List.mem_cons, List.not_mem_nil, or_false] at mem
        rcases mem with rfl | rfl | rfl | rfl <;> simp [UInt8.toNat_ofNat] <;> omega

theorem toNat_char (b : UInt8) : (char b).toNat = b.toNat := by
  have lt := UInt8.toNat_lt b
  unfold char
  generalize b.toNat = n at lt ⊢
  have valid : n.isValidChar := Or.inl (by omega)
  rw [Char.ofNat, dif_pos valid]
  rfl

theorem toNat_toUInt8 {c : Char} (ascii : c.toNat < 128) : c.toUInt8.toNat = c.toNat := by
  simp only [Char.toUInt8, UInt32.toNat_toUInt8, Char.toNat_val]
  omega

theorem char_toUInt8 {c : Char} (ascii : c.toNat < 128) : char c.toUInt8 = c := by
  apply Char.ext
  apply UInt32.toNat_inj.1
  rw [Char.toNat_val, Char.toNat_val, toNat_char, toNat_toUInt8 ascii]

theorem encode_ascii {c : Char} (ascii : c.toNat < 128) (cs : List Char) : encode (c :: cs) = c.toUInt8 :: encode cs := by
  rw [encode_cons, utf8EncodeChar_ascii ascii]
  rfl

theorem toUInt8_inj {c d : Char} (cAscii : c.toNat < 128) (dAscii : d.toNat < 128) (same : c.toUInt8 = d.toUInt8) :
    c = d := by
  rw [← char_toUInt8 cAscii, ← char_toUInt8 dAscii, same]

/-- An ASCII character's byte occurs in the bytes of characters only as that character. -/
theorem toUInt8_mem_encode {a : Char} (ascii : a.toNat < 128) {cs : List Char} :
    a.toUInt8 ∈ encode cs ↔ a ∈ cs := by
  induction cs with
  | nil => simp
  | cons c cs ih =>
    rw [encode_cons, List.mem_append, ih, List.mem_cons]
    by_cases high : 128 ≤ c.toNat
    · have : a.toUInt8 ∉ String.utf8EncodeChar c := fun mem => by
        have := utf8EncodeChar_high high _ mem
        rw [toNat_toUInt8 ascii] at this
        omega
      have : a ≠ c := fun same => by rw [same] at ascii; omega
      simp_all
    · rw [utf8EncodeChar_ascii (by omega), List.mem_singleton]
      constructor
      · rintro (same | mem)
        · exact .inl (toUInt8_inj ascii (by omega) same)
        · exact .inr mem
      · rintro (rfl | mem)
        · exact .inl rfl
        · exact .inr mem

/-- An ASCII character's byte is counted in the bytes of characters as often as the character. -/
theorem count_encode {a : Char} (ascii : a.toNat < 128) (cs : List Char) :
    (encode cs).count a.toUInt8 = cs.count a := by
  induction cs with
  | nil => simp
  | cons c cs ih =>
    rw [encode_cons, List.count_append, ih, List.count_cons]
    by_cases high : 128 ≤ c.toNat
    · have : (String.utf8EncodeChar c).count a.toUInt8 = 0 := List.count_eq_zero.2 fun mem => by
        have := utf8EncodeChar_high high _ mem
        rw [toNat_toUInt8 ascii] at this
        omega
      have : (c == a) = false := by
        rw [beq_eq_false_iff_ne]
        intro same
        rw [same] at high
        omega
      simp_all
    · rw [utf8EncodeChar_ascii (by omega)]
      by_cases same : c = a
      · subst same
        simp only [List.count_singleton_self, beq_self_eq_true, if_true]
        omega
      · have : c.toUInt8 ≠ a.toUInt8 := fun eq => same (toUInt8_inj (by omega) ascii eq)
        simp [same, this]

/-- The bytes of characters that a test accepts only when ASCII, each passing the test on bytes
that agrees with it there. -/
theorem encode_all {p : Char → Bool} {q : UInt8 → Bool} (agree : ∀ c, p c = true → c.toNat < 128 ∧ q c.toUInt8 = true)
    {cs : List Char} (all : ∀ c ∈ cs, p c = true) : ∀ b ∈ encode cs, q b = true := by
  induction cs with
  | nil => simp
  | cons c cs ih =>
    intro b mem
    obtain ⟨ascii, passes⟩ := agree c (all c (List.mem_cons_self ..))
    rw [encode_ascii ascii, List.mem_cons] at mem
    rcases mem with rfl | mem
    · exact passes
    · exact ih (fun d mem => all d (List.mem_cons_of_mem _ mem)) b mem

/-! ### Loops over bytes -/

section Loops

variable {text : String}

/-- The byte at an offset, read from the bytes after it. -/
theorem getElem?_of_drop {i : Nat} {b : UInt8} {rest : List UInt8}
    (at_ : (encode text.toList).drop i = b :: rest) : (encode text.toList)[i]? = some b := by
  have := congrArg List.head? at_
  rwa [List.head?_drop] at this

theorem drop_succ_of_drop {i : Nat} {b : UInt8} {rest : List UInt8}
    (at_ : (encode text.toList).drop i = b :: rest) : (encode text.toList).drop (i + 1) = rest := by
  rw [← List.drop_drop, at_]
  rfl

theorem lt_of_drop {i : Nat} {b : UInt8} {rest : List UInt8} (at_ : (encode text.toList).drop i = b :: rest) :
    i < text.utf8ByteSize := by
  rw [utf8ByteSize_eq]
  have := getElem?_of_drop at_
  exact (List.getElem?_eq_some_iff.1 this).1

theorem pos_lt_of_drop {i : Nat} {b : UInt8} {rest : List UInt8} (at_ : (encode text.toList).drop i = b :: rest) :
    (⟨i⟩ : String.Pos.Raw) < text.rawEndPos :=
  lt_of_drop at_

theorem byteAt_of_drop {i : Nat} {b : UInt8} {rest : List UInt8} (at_ : (encode text.toList).drop i = b :: rest) :
    byteAt text i = .ok b := by
  rw [byteAt_eq, getElem?_of_drop at_]

theorem advance_of_drop {s : Scanner} {b : UInt8} {rest : List UInt8}
    (at_ : (encode text.toList).drop s.curr = b :: rest) :
    advance text s = .ok (b, { s with curr := s.curr + 1 }) := by
  simp [advance, byteAt_of_drop at_, bind, Except.bind, pure, Except.pure]

theorem peek_of_drop {s : Scanner} {b : UInt8} {rest : List UInt8}
    (at_ : (encode text.toList).drop s.curr = b :: rest) : peek text s = b := by
  rw [peek_eq, getElem?_of_drop at_]
  rfl

theorem peek_of_end {s : Scanner} (atEnd : (encode text.toList).drop s.curr = []) : peek text s = 0 := by
  rw [peek_eq, List.getElem?_eq_none (List.drop_eq_nil_iff.1 atEnd)]
  rfl

/-- A search passes over bytes that are none of the needles. -/
theorem findByte_skip {needles : List UInt8} {i : Nat} {bs rest : List UInt8}
    (at_ : (encode text.toList).drop i = bs ++ rest) (miss : ∀ b ∈ bs, needles.contains b = false) :
    findByte text needles i = findByte text needles (i + bs.length) := by
  induction bs generalizing i with
  | nil => rfl
  | cons b bs ih =>
    have here : (encode text.toList).drop i = b :: (bs ++ rest) := at_
    rw [findByte, dif_pos (pos_lt_of_drop here)]
    have read := getUTF8Byte_eq text i (pos_lt_of_drop here)
    rw [getElem?_of_drop here, Option.some.injEq] at read
    rw [read, miss b (List.mem_cons_self ..), if_neg (by simp)]
    rw [ih (drop_succ_of_drop here) fun b' mem => miss b' (List.mem_cons_of_mem _ mem)]
    simp only [List.length_cons]
    congr 1
    omega

/-- A search stops at a needle. -/
theorem findByte_hit {needles : List UInt8} {i : Nat} {b : UInt8} {rest : List UInt8}
    (at_ : (encode text.toList).drop i = b :: rest) (hit : needles.contains b = true) :
    findByte text needles i = some i := by
  rw [findByte, dif_pos (pos_lt_of_drop at_)]
  have read := getUTF8Byte_eq text i (pos_lt_of_drop at_)
  rw [getElem?_of_drop at_, Option.some.injEq] at read
  rw [read, if_pos hit]

/-- A search from the end finds nothing. -/
theorem findByte_end {needles : List UInt8} {i : Nat} (atEnd : (encode text.toList).drop i = []) :
    findByte text needles i = none := by
  have : text.utf8ByteSize ≤ i := by
    rw [utf8ByteSize_eq]
    exact List.drop_eq_nil_iff.1 atEnd
  rw [findByte, dif_neg (by simpa [String.Pos.Raw.lt_iff] using this)]

/-- Reading on passes over bytes the test accepts. -/
theorem advanceWhile_skip {p : Char → Bool} {s : Scanner} {bs rest : List UInt8}
    (at_ : (encode text.toList).drop s.curr = bs ++ rest) (accepted : ∀ b ∈ bs, p (char b) = true) :
    advanceWhile text p s = advanceWhile text p { s with curr := s.curr + bs.length } := by
  induction bs generalizing s with
  | nil => rfl
  | cons b bs ih =>
    have here : (encode text.toList).drop s.curr = b :: (bs ++ rest) := at_
    rw [advanceWhile, if_pos (by rw [peek_of_drop here]; exact accepted b (List.mem_cons_self ..))]
    split
    · rename_i s' advanced
      rw [advance_of_drop here] at advanced
      cases advanced
      rw [ih (drop_succ_of_drop here) fun b' mem => accepted b' (List.mem_cons_of_mem _ mem)]
      simp only [List.length_cons, Nat.add_assoc, Nat.add_comm 1]
    · rename_i e advanced
      rw [advance_of_drop here] at advanced
      cases advanced

/-- Reading on stops at a byte the test refuses. -/
theorem advanceWhile_stop {p : Char → Bool} {s : Scanner} (refused : p (char (peek text s)) = false) :
    advanceWhile text p s = .ok s := by
  rw [advanceWhile, if_neg (by simp [refused])]

/-- A string's body passes over bytes that are no quote, counting the newlines among them. -/
theorem stringBody_skip {s : Scanner} {bs rest : List UInt8} (at_ : (encode text.toList).drop s.curr = bs ++ rest)
    (open_ : '"'.toUInt8 ∉ bs) :
    string.stringBody text s =
      string.stringBody text { s with curr := s.curr + bs.length, line := s.line + bs.count '\n'.toUInt8 } := by
  induction bs generalizing s with
  | nil => rfl
  | cons b bs ih =>
    have here : (encode text.toList).drop s.curr = b :: (bs ++ rest) := at_
    have notQuote : b ≠ '"'.toUInt8 := fun same => open_ (same ▸ List.mem_cons_self ..)
    have inside := lt_of_drop here
    rw [string.stringBody, if_pos]
    · split
      · rename_i b' s' advanced
        rw [advance_of_drop here] at advanced
        cases advanced
        have next := drop_succ_of_drop here
        split
        · rename_i newline
          rw [ih (s := { s with curr := s.curr + 1, line := s.line + 1 }) next fun mem => open_ (List.mem_cons_of_mem _ mem)]
          have : b = '\n'.toUInt8 := by
            rw [← char_toUInt8 (c := '\n') (by decide)] at newline
            exact UInt8.toNat_inj.1 (by rw [← toNat_char, newline, toNat_char])
          subst this
          simp only [List.length_cons, List.count_cons_self]
          congr 2 <;> omega
        · rename_i other
          rw [ih (s := { s with curr := s.curr + 1 }) next fun mem => open_ (List.mem_cons_of_mem _ mem)]
          have : b ≠ '\n'.toUInt8 := fun same => other (by rw [same]; decide)
          simp only [List.length_cons, List.count_cons, beq_iff_eq, this, if_false]
          congr 2
          omega
      · rename_i e advanced
        rw [advance_of_drop here] at advanced
        cases advanced
    · have : char b ≠ '"' := fun same => notQuote (by
        rw [← char_toUInt8 (c := '"') (by decide)] at same
        exact UInt8.toNat_inj.1 (by rw [← toNat_char, same, toNat_char]))
      simp [isAtEnd, peek_of_drop here, this]
      omega

end Loops

/-! ### Loops over characters -/

theorem mem_takeWhile {p : Char → Bool} {cs : List Char} {c : Char} (mem : c ∈ cs.takeWhile p) : p c = true :=
  List.all_eq_true.1 List.all_takeWhile c mem

theorem dropWhile_head {p : Char → Bool} {cs rest : List Char} {c : Char} (stop : cs.dropWhile p = c :: rest) :
    p c = false := by
  have := List.head?_dropWhile_not p cs
  rw [stop] at this
  exact this

section Chars

variable {text : String}

/-- A scanner at a character boundary of a text: the characters `pre` lie before its current
byte, and `cs` from it on. -/
def Boundary (text : String) (pre cs : List Char) (s : Scanner) : Prop :=
  text.toList = pre ++ cs ∧ s.curr = (encode pre).length

variable {pre cs : List Char} {s s' : Scanner}

theorem Boundary.drop (at_ : Boundary text pre cs s) : (encode text.toList).drop s.curr = encode cs := by
  rw [at_.1, at_.2, encode_append, List.drop_left]

/-- Past the bytes of characters read from a boundary is the boundary after them. -/
theorem Boundary.append {read : List Char} (at_ : Boundary text pre (read ++ cs) s)
    (moved : s'.curr = s.curr + (encode read).length) : Boundary text (pre ++ read) cs s' :=
  ⟨by rw [at_.1, List.append_assoc], by rw [moved, at_.2, encode_append, List.length_append]⟩

theorem Boundary.cons {c : Char} (at_ : Boundary text pre (c :: cs) s) (moved : s'.curr = s.curr + c.utf8Size) :
    Boundary text (pre ++ [c]) cs s' :=
  Boundary.append at_ (by rw [moved, encode_cons, encode_nil, List.append_nil, String.length_utf8EncodeChar])

theorem Boundary.within (at_ : Boundary text pre cs s) : s.curr ≤ text.utf8ByteSize := by
  rw [utf8ByteSize_eq, at_.1, at_.2, encode_append, List.length_append]
  exact Nat.le_add_right _ _

theorem Boundary.atEnd (at_ : Boundary text pre [] s) : s.curr = text.utf8ByteSize := by
  rw [utf8ByteSize_eq, at_.1, at_.2, List.append_nil]

theorem Boundary.inside {c : Char} (at_ : Boundary text pre (c :: cs) s) : s.curr < text.utf8ByteSize := by
  rw [utf8ByteSize_eq, at_.1, at_.2, encode_append, List.length_append, encode_cons, List.length_append,
    String.length_utf8EncodeChar]
  have := c.utf8Size_pos
  omega

theorem Boundary.peek_nil (at_ : Boundary text pre [] s) : peek text s = 0 :=
  peek_of_end (by rw [at_.drop]; rfl)

/-- The byte at a boundary spells the character there when it is ASCII, and a character above
ASCII otherwise. -/
theorem Boundary.peek_cons {c : Char} (at_ : Boundary text pre (c :: cs) s) :
    (c.toNat < 128 → char (peek text s) = c) ∧ (128 ≤ c.toNat → 128 ≤ (char (peek text s)).toNat) := by
  have bytes := at_.drop
  constructor
  · intro ascii
    rw [encode_ascii ascii] at bytes
    rw [peek_of_drop bytes, char_toUInt8 ascii]
  · intro high
    rw [encode_cons] at bytes
    obtain ⟨b, bs, first⟩ := List.exists_cons_of_ne_nil (String.utf8EncodeChar_ne_nil (c := c))
    rw [first, List.cons_append] at bytes
    rw [peek_of_drop bytes, toNat_char]
    exact utf8EncodeChar_high high b (by rw [first]; exact List.mem_cons_self ..)

/-- A test that accepts only ASCII characters, and not the zero byte, says of the byte at a boundary
what it says of the character there, and refuses it at the end. -/
theorem Boundary.test_peek {p : Char → Bool} (ascii : ∀ c, p c = true → c.toNat < 128) (zero : p (char 0) = false)
    (at_ : Boundary text pre cs s) : p (char (peek text s)) = cs.head?.any p := by
  cases cs with
  | nil => rw [at_.peek_nil]; exact zero
  | cons c cs =>
    rw [List.head?_cons, Option.any_some]
    by_cases high : 128 ≤ c.toNat
    · -- a character above ASCII, whose first byte is above ASCII too: the test refuses both
      have above := (at_.peek_cons).2 high
      have refused : ∀ x, 128 ≤ x.toNat → p x = false := fun x big => by
        cases passes : p x with
        | false => rfl
        | true => have := ascii x passes; omega
      rw [refused c high, refused _ above]
    · rw [(at_.peek_cons).1 (by omega)]

/-- Reading on with a test that accepts only ASCII characters reads the characters it accepts. -/
theorem advanceWhile_chars {p : Char → Bool} (ascii : ∀ c, p c = true → c.toNat < 128) (zero : p (char 0) = false)
    (at_ : Boundary text pre cs s) :
    advanceWhile text p s = .ok { s with curr := s.curr + (encode (cs.takeWhile p)).length } := by
  have split : cs = cs.takeWhile p ++ cs.dropWhile p := List.takeWhile_append_dropWhile.symm
  have bytes := at_.drop
  rw [split, encode_append] at bytes
  rw [advanceWhile_skip bytes (encode_all (q := fun b => p (char b))
    (fun c passes => ⟨ascii c passes, by rw [char_toUInt8 (ascii c passes)]; exact passes⟩)
    fun c mem => mem_takeWhile mem)]
  apply advanceWhile_stop
  have past : Boundary text (pre ++ cs.takeWhile p) (cs.dropWhile p) { s with curr := s.curr + (encode (cs.takeWhile p)).length } :=
    Boundary.append (by rw [← split]; exact at_) rfl
  rw [past.test_peek ascii zero]
  cases stop : cs.dropWhile p with
  | nil => rfl
  | cons c rest => simpa using dropWhile_head stop

/-- A string's body reads to the first quote, counting the newlines before it. -/
theorem stringBody_chars (at_ : Boundary text pre cs s) :
    string.stringBody text s = .ok { s with
      curr := s.curr + (encode (cs.takeWhile (· != '"'))).length
      line := s.line + (cs.takeWhile (· != '"')).count '\n' } := by
  have split : cs = cs.takeWhile (· != '"') ++ cs.dropWhile (· != '"') := List.takeWhile_append_dropWhile.symm
  have bytes := at_.drop
  rw [split, encode_append] at bytes
  have noQuote : '"'.toUInt8 ∉ encode (cs.takeWhile (· != '"')) := by
    rw [toUInt8_mem_encode (by decide)]
    intro mem
    simpa using mem_takeWhile mem
  rw [stringBody_skip bytes noQuote, count_encode (by decide)]
  have past : Boundary text (pre ++ cs.takeWhile (· != '"')) (cs.dropWhile (· != '"'))
      { s with
        curr := s.curr + (encode (cs.takeWhile (· != '"'))).length
        line := s.line + (cs.takeWhile (· != '"')).count '\n' } :=
    Boundary.append (by rw [← split]; exact at_) rfl
  rw [string.stringBody, if_neg]
  cases stop : cs.dropWhile (· != '"') with
  | nil =>
    rw [stop] at past
    have atEnd := past.atEnd
    simp only at atEnd
    simp [isAtEnd, atEnd]
  | cons q rest =>
    have quote : q = '"' := by simpa using dropWhile_head stop
    subst quote
    rw [stop] at past
    simp [(past.peek_cons).1 (by decide)]

/-- A search for ASCII characters from a boundary finds the first of them, if any, as an offset. -/
theorem memchr_chars (targets : List Char) {miss : Char → Bool} (ascii : ∀ t ∈ targets, t.toNat < 128)
    (missing : ∀ c, miss c = false ↔ c ∈ targets) (at_ : Boundary text pre cs s) :
    memchr text (targets.map Char.toUInt8) s.curr =
      .ok (if cs.dropWhile miss = [] then none else some (encode (cs.takeWhile miss)).length) := by
  have split : cs = cs.takeWhile miss ++ cs.dropWhile miss := List.takeWhile_append_dropWhile.symm
  have bytes := at_.drop
  rw [split, encode_append] at bytes
  have skipped : ∀ b ∈ encode (cs.takeWhile miss), (targets.map Char.toUInt8).contains b = false := by
    intro b mem
    rw [Bool.eq_false_iff]
    intro found
    obtain ⟨t, target, rfl⟩ := List.mem_map.1 (List.contains_iff_mem.1 found)
    rw [toUInt8_mem_encode (ascii t target)] at mem
    have := mem_takeWhile mem
    rw [← Bool.not_eq_false, missing] at this
    exact this target
  unfold memchr
  rw [if_pos at_.within, findByte_skip bytes skipped]
  cases stop : cs.dropWhile miss with
  | nil =>
    rw [stop, encode_nil, List.append_nil] at bytes
    rw [findByte_end (by rw [← List.drop_drop, bytes]; exact List.drop_length)]
    simp
  | cons t rest =>
    have target : t ∈ targets := (missing t).1 (dropWhile_head stop)
    rw [stop, encode_ascii (ascii t target)] at bytes
    rw [findByte_hit (by rw [← List.drop_drop, bytes]; exact List.drop_left)
      (List.contains_iff_mem.2 (List.mem_map_of_mem target))]
    simp

/-- A test for one ASCII byte at a boundary reads it when the next character is that one. -/
theorem matchByte_hit {expected : Char} (ascii : expected.toNat < 128) (at_ : Boundary text pre (expected :: cs) s) :
    matchByte text expected s = .ok (true, { s with curr := s.curr + 1 }) := by
  have inside := at_.inside
  have bytes := at_.drop
  rw [encode_ascii ascii] at bytes
  unfold matchByte
  rw [if_neg (by simp [isAtEnd, (at_.peek_cons).1 ascii]; omega)]
  simp [advance_of_drop bytes, bind, Except.bind, pure, Except.pure]

/-- and leaves the byte unread when the next character is another, or there is none. -/
theorem matchByte_miss {expected : Char} (ascii : expected.toNat < 128) (at_ : Boundary text pre cs s)
    (other : ∀ rest, cs ≠ expected :: rest) : matchByte text expected s = .ok (false, s) := by
  unfold matchByte
  rw [if_pos]
  cases cs with
  | nil => simp [isAtEnd, at_.atEnd]
  | cons c cs =>
    have differs : c ≠ expected := fun same => other cs (by rw [same])
    by_cases high : 128 ≤ c.toNat
    · have above := (at_.peek_cons).2 high
      have : char (peek text s) ≠ expected := fun same => by rw [same] at above; omega
      simp [this]
    · simp [(at_.peek_cons).1 (by omega), differs]

/-- The text between the byte offsets of two boundaries is the characters between them. -/
theorem slice_chars {mid post : List Char} (split : text.toList = pre ++ mid ++ post) :
    slice text (encode pre).length ((encode pre).length + (encode mid).length) = .ok (String.ofList mid) := by
  obtain ⟨p, q, atP, atQ, sliced⟩ := String.exists_slice_of_toList split
  rw [← length_encode, ← length_encode] at atQ
  rw [← length_encode] at atP
  have pEq : p.offset = ⟨(encode pre).length⟩ := String.Pos.Raw.ext atP
  have qEq : q.offset = ⟨(encode pre).length + (encode mid).length⟩ := String.Pos.Raw.ext atQ
  unfold slice
  rw [dif_pos ⟨Nat.le_add_right _ _, pEq ▸ p.isValid, qEq ▸ q.isValid⟩, ← sliced]
  congr 2
  · exact String.Pos.ext pEq.symm
  · exact String.Pos.ext qEq.symm

/-! ### Block comments -/

/-- What skipping a block comment's body leaves: the rest of the text and the line, or the line
the text ends on. -/
def skipped (cs : List Char) (line : Nat) : Except Nat (List Char × Nat) := (Lexer.skipComment cs line).map (·.1)

theorem skipped_nil (line : Nat) : skipped [] line = .error line := by
  simp [skipped, Lexer.skipComment, Except.map]

theorem skipped_close (cs : List Char) (line : Nat) : skipped ('*' :: '/' :: cs) line = .ok (cs, line) := by
  simp [skipped, Lexer.skipComment, Except.map]

theorem skipped_cons {c : Char} {cs : List Char} (line : Nat) (open_ : ∀ rest, c :: cs ≠ '*' :: '/' :: rest) :
    skipped (c :: cs) line = skipped cs (if c = '\n' then line + 1 else line) := by
  unfold skipped
  rw [Lexer.skipComment]
  · split <;> simp [Except.map, *]
  · exact fun r star slash => open_ r (by rw [star, slash])

/-- Characters that are neither a star nor a newline do not change what skipping reads. -/
theorem skipped_append {skip : List Char} (plain : ∀ c ∈ skip, c ≠ '*' ∧ c ≠ '\n') (cs : List Char) (line : Nat) :
    skipped (skip ++ cs) line = skipped cs line := by
  induction skip with
  | nil => rfl
  | cons c skip ih =>
    obtain ⟨notStar, notNewline⟩ := plain c (List.mem_cons_self ..)
    rw [List.cons_append, skipped_cons line (fun rest same => notStar (List.cons.inj same).1), if_neg notNewline]
    exact ih fun d mem => plain d (List.mem_cons_of_mem _ mem)

/-- A block comment's search that finds nothing ends the text, on the line reached. -/
theorem skipBlockComment_end (found : memchr text ['*'.toUInt8, '\n'.toUInt8] s.curr = .ok none) :
    skipBlockComment text s = .ok (some ⟨s.line, .unterminatedComment⟩, { s with curr := text.utf8ByteSize }) := by
  rw [skipBlockComment]
  simp only [found]

/-- A block comment's search that finds a star or a newline reads it: a newline is counted and the
search goes on, a star ends the comment if a slash follows it. -/
theorem skipBlockComment_step {pos : Nat} {b : UInt8} {s₁ : Scanner}
    (found : memchr text ['*'.toUInt8, '\n'.toUInt8] s.curr = .ok (some pos))
    (read : advance text { s with curr := s.curr + pos } = .ok (b, s₁)) :
    skipBlockComment text s = if char b = '\n' then skipBlockComment text { s₁ with line := s₁.line + 1 }
      else match matchByte text '/' s₁ with
        | .error e => .error e
        | .ok (true, s₂) => .ok (none, s₂)
        | .ok (false, s₂) => skipBlockComment text s₂ := by
  rw [skipBlockComment]
  simp only [found]
  split
  · rename_i e failed
    rw [read] at failed
    cases failed
  · rename_i b' s' advanced
    rw [read] at advanced
    cases advanced
    split
    · rfl
    · split <;> simp_all

/-- Skipping a block comment's body from a boundary reads what skipping its characters reads:
through the first star-slash, counting newlines, or to the end of the text. The search jumps over
the characters that are neither, whatever their bytes. -/
theorem skipBlockComment_chars (cs : List Char) {pre : List Char} {s : Scanner} (at_ : Boundary text pre cs s) :
    match skipped cs s.line with
    | .ok (rest, line') => ∃ s', skipBlockComment text s = .ok (none, s') ∧ s'.start = s.start ∧
        s'.pending = s.pending ∧ s'.line = line' ∧ ∃ pre', Boundary text pre' rest s'
    | .error line' => skipBlockComment text s =
        .ok (some ⟨line', .unterminatedComment⟩, { s with curr := text.utf8ByteSize, line := line' }) := by
  let miss : Char → Bool := fun c => c != '*' && c != '\n'
  have split : cs = cs.takeWhile miss ++ cs.dropWhile miss := List.takeWhile_append_dropWhile.symm
  have plain : ∀ c ∈ cs.takeWhile miss, c ≠ '*' ∧ c ≠ '\n' := fun c mem => by
    simpa [miss] using mem_takeWhile mem
  have search : memchr text ['*'.toUInt8, '\n'.toUInt8] s.curr =
      .ok (if cs.dropWhile miss = [] then none else some (encode (cs.takeWhile miss)).length) :=
    memchr_chars ['*', '\n'] (fun t target => by
        simp only [List.mem_cons, List.not_mem_nil, or_false] at target
        rcases target with rfl | rfl <;> decide)
      (fun c => by simpa [miss, bne_eq_false_iff_eq] using Decidable.or_iff_not_imp_left.symm) at_
  cases stop : cs.dropWhile miss with
  | nil =>
    have ends : skipped cs s.line = .error s.line := by
      rw [split, stop, skipped_append plain, skipped_nil]
    rw [ends]
    exact skipBlockComment_end (by rw [search, stop, if_pos rfl])
  | cons t rest =>
    have target : t = '*' ∨ t = '\n' :=
      Decidable.or_iff_not_imp_left.2 (by simpa [miss] using dropWhile_head stop)
    have past : Boundary text (pre ++ cs.takeWhile miss) (t :: rest)
        { s with curr := s.curr + (encode (cs.takeWhile miss)).length } :=
      Boundary.append (by rw [← stop, ← split]; exact at_) rfl
    have ascii : t.toNat < 128 := by rcases target with rfl | rfl <;> decide
    have bytes := past.drop
    rw [encode_ascii ascii] at bytes
    have read : Boundary text (pre ++ cs.takeWhile miss ++ [t]) rest
        { s with curr := s.curr + (encode (cs.takeWhile miss)).length + 1 } :=
      past.cons (by simp [utf8Size_ascii ascii])
    have step := skipBlockComment_step (by rw [search, stop]; rfl) (advance_of_drop bytes)
    rw [char_toUInt8 ascii] at step
    dsimp only at step
    have skippedEq : skipped cs s.line = skipped (t :: rest) s.line := by
      rw [split, stop, skipped_append plain]
    rw [skippedEq, step]
    rcases target with rfl | rfl
    · -- a star: the comment ends if a slash follows, and goes on after the star otherwise
      rw [if_neg (by decide)]
      by_cases closes : ∃ rest', rest = '/' :: rest'
      · obtain ⟨rest', rfl⟩ := closes
        rw [matchByte_hit (by decide) read, skipped_close]
        exact ⟨_, rfl, rfl, rfl, rfl, _, read.cons rfl⟩
      · have other : ∀ rest', rest ≠ '/' :: rest' := fun rest' same => closes ⟨rest', same⟩
        rw [matchByte_miss (by decide) read other,
          skipped_cons s.line (fun rest' same => other rest' (List.cons.inj same).2), if_neg (by decide)]
        exact skipBlockComment_chars rest read
    · -- a newline: counted, and the comment goes on after it
      rw [if_pos rfl, skipped_cons s.line (fun rest' same => by cases same), if_pos rfl]
      exact skipBlockComment_chars rest
        (s := { s with curr := s.curr + (encode (cs.takeWhile miss)).length + 1, line := s.line + 1 }) read
termination_by cs.length
decreasing_by
  all_goals
    have := congrArg List.length split
    rw [stop, List.length_append, List.length_cons] at this
    omega

end Chars

end Scanner

end Lox
