import Lox.Proofs.NumberText
import Lox.Proofs.ProgramShape
/-!
Tokens as the scanner writes them, and the expressions the parser builds from them. A kind that is
written one way only (punctuation, operators, keywords) carries that lexeme, an identifier is a
name that spells no keyword, and a number is never NaN (`Token.scanAll_lexical`). From such
tokens the grammar derives only expressions whose operators are of the kinds it allows there and
whose references are unresolved (`Expr.Printable`); `Expr.parse_printable` gives that shape to
every expression parsed from source text.
-/
namespace Lox

namespace Lexer

/-- A word the scanner reads as a name: a letter or an underscore, then word characters. -/
def isName : List Char → Bool
  | c :: r => (c.isAlpha || c == '_') && r.all isWordChar
  | [] => false

end Lexer

/-- A token as the scanner writes it: a kind written one way has that lexeme, an identifier is a
name that spells no keyword, and a number is not NaN. -/
def Token.Lexical (t : Token) : Prop :=
  match t.kind with
  | .identifier => Lexer.isName t.lexeme.toList = true ∧ TokenKind.keyword? t.lexeme = none
  | .number x => Double.ofFloat x ≠ .nan
  | .string _ | .eof => True
  | k => k.spelling? = some t.lexeme

namespace Lexer

/-- A scanned item: a lexing error, or a token as the scanner writes it. -/
def Lexical : Except LexError Token → Prop
  | .ok t => t.Lexical
  | .error _ => True

theorem withEqual_lexical {line : Nat} {c : Char} {r : List Char} {single double : TokenKind}
    (singleOk : Lexical (token single [c] line)) (doubleOk : Lexical (token double [c, '='] line)) :
    ∀ i, (withEqual line c r single double).item = some i → Lexical i := by
  unfold withEqual
  split <;> simp_all

theorem stringLit_lexical (line : Nat) (r : List Char) : ∀ i, (stringLit line r).item = some i → Lexical i := by
  unfold stringLit
  split <;> simp [Lexical, Token.Lexical]

theorem numberLit_lexical (line : Nat) (c : Char) (r : List Char) :
    ∀ i, (numberLit line c r).item = some i → Lexical i := by
  unfold numberLit
  split
  · split <;> simp [Lexical, token, Token.Lexical, Double.ofFloat_ofScientific_ne_nan]
  · simp [Lexical, token, Token.Lexical, Double.ofFloat_ofScientific_ne_nan]

theorem word_lexical (line : Nat) {c : Char} (r : List Char) (start : (c.isAlpha || c == '_') = true) :
    ∀ i, (word line c r).item = some i → Lexical i := by
  intro i found
  simp only [word, Option.some.injEq] at found
  subst found
  unfold TokenKind.ofWord
  cases named : TokenKind.keyword? (String.ofList (c :: r.takeWhile isWordChar)) with
  | none =>
    refine ⟨?_, named⟩
    simp only [String.toList_ofList, isName, start, Bool.true_and, List.all_eq_true]
    intro d mem
    exact List.mem_takeWhile_imp mem
  | some k =>
    have spelled := TokenKind.spelling?_of_keyword? named
    cases k <;> first
      | exact spelled
      | (simp [TokenKind.spelling?] at spelled)

theorem step_lexical (line : Nat) (c : Char) (r : List Char) : ∀ i, (step line c r).item = some i → Lexical i := by
  intro i found
  unfold step at found
  split at found
  -- one-character tokens, then those that may take an `=`, then blanks
  any_goals (simp only [Option.some.injEq] at found; subst found; rfl)
  any_goals exact withEqual_lexical (by rfl) (by rfl) i found
  any_goals cases found
  · -- a comment, or a slash
    split at found
    · cases found
    · split at found
      · cases found
      · simp only [Option.some.injEq] at found
        subst found
        trivial
    · simp only [Option.some.injEq] at found
      subst found
      rfl
  · exact stringLit_lexical line _ i found
  · split at found
    · exact numberLit_lexical line _ _ i found
    · split at found
      · exact word_lexical line _ ‹_› i found
      · simp only [Option.some.injEq] at found
        subst found
        trivial

/-- What the scan from a point yields after the items already there: items of the scanner's
steps, then the end-of-input token. -/
theorem scanFrom_lexical (line : Nat) (cs : List Char) (acc : Array (Except LexError Token)) :
    ∃ items : List (Except LexError Token),
      (∃ last, scanFrom line cs acc = acc ++ items.toArray ++ #[.ok ⟨.eof, "", last⟩]) ∧
        ∀ i ∈ items, Lexical i := by
  fun_induction scanFrom line cs acc with
  | case1 line acc => exact ⟨[], ⟨line, by simp⟩, by simp⟩
  | case2 line acc c r s i found ih =>
    obtain ⟨items, ⟨last, eq⟩, lexical⟩ := ih
    refine ⟨i :: items, ⟨last, by simp [eq]⟩, ?_⟩
    intro j mem
    rcases List.mem_cons.1 mem with rfl | later
    · exact step_lexical line c r j found
    · exact lexical j later
  | case3 line acc c r s none ih => exact ih

end Lexer

/-- Every token the scanner yields is written as its kind says. -/
theorem Token.scanAll_lexical (source : String) : ∀ t ∈ (Token.scanAll source).1, t.Lexical := by
  obtain ⟨items, ⟨last, eq⟩, lexical⟩ := Lexer.scanFrom_lexical 1 source.toList #[]
  have tokens : (Token.scanAll source).1 = items.filterMap Except.toOption ++ [⟨.eof, "", last⟩] := by
    unfold Token.scanAll Token.scan
    rw [eq]
    clear eq lexical
    induction items with
    | nil => rfl
    | cons i items ih => cases i <;> simp_all [Except.toOption, List.filterMap_cons]
  intro t mem
  rw [tokens, List.mem_append, List.mem_filterMap, List.mem_singleton] at mem
  rcases mem with ⟨i, mem, found⟩ | rfl
  · cases i with
    | error => cases found
    | ok t' =>
      cases found
      exact lexical _ mem
  · trivial

/-! ### The shape of parsed expressions -/

/-- A literal the scanner can give: a number that is not NaN. -/
def Literal.Scanned : Literal → Prop
  | .number x => Double.ofFloat x ≠ .nan
  | _ => True

mutual

/-- What the printed forms of a parsed expression rely on: its operators are of the kinds the
grammar allows in their places, its tokens are as the scanner writes them, and no reference is
resolved yet. -/
def Expr.Printable : Expr → Prop
  | .literal v => v.Scanned
  | .grouping e => e.Printable
  | .unary op r => (op.kind = .bang ∨ op.kind = .minus) ∧ op.Lexical ∧ r.Printable
  | .binary l op r => (∃ lvl : Parser.Level, op.kind ∈ lvl.ops) ∧ op.Lexical ∧ l.Printable ∧ r.Printable
  | .logical l op r => (op.kind = .andKw ∨ op.kind = .orKw) ∧ op.Lexical ∧ l.Printable ∧ r.Printable
  | .ident name a => name.kind = .identifier ∧ name.Lexical ∧ a = .global
  | .assign name v a => name.kind = .identifier ∧ name.Lexical ∧ a = .global ∧ v.Printable
  | .call f paren args => paren.kind = .rightParen ∧ paren.Lexical ∧ f.Printable ∧ Expr.PrintableAll args
  | .get o name => name.kind = .identifier ∧ name.Lexical ∧ o.Printable
  | .set o name v => name.kind = .identifier ∧ name.Lexical ∧ o.Printable ∧ v.Printable
  | .thisRef kw a => kw.kind = .thisKw ∧ kw.Lexical ∧ a = .global
  | .superGet kw m a => kw.kind = .superKw ∧ kw.Lexical ∧ m.kind = .identifier ∧ m.Lexical ∧ a = .global

/-- Every expression of a list is printable. -/
def Expr.PrintableAll : List Expr → Prop
  | [] => True
  | e :: es => e.Printable ∧ Expr.PrintableAll es

end

end Lox

namespace Lox.Grammar

/-! Each rule, from tokens the scanner wrote, derives a printable expression and leaves tokens the
scanner wrote. -/

mutual

theorem Expression.printable {ts e rest} : Expression ts e rest → (∀ t ∈ ts, t.Lexical) →
    e.Printable ∧ ∀ t ∈ rest, t.Lexical
  | .assign ident _ rhs, lexical => by
    simp only [List.forall_mem_cons] at lexical
    obtain ⟨named, -, lexical⟩ := lexical
    obtain ⟨value, rest⟩ := rhs.printable lexical
    exact ⟨⟨ident, named, rfl, value⟩, rest⟩
  | .set target _ rhs, lexical => by
    obtain ⟨⟨ident, named, object⟩, lexical⟩ := target.printable lexical
    simp only [List.forall_mem_cons] at lexical
    obtain ⟨value, rest⟩ := rhs.printable lexical.2
    exact ⟨⟨ident, named, object, value⟩, rest⟩
  | .logicOr or, lexical => or.printable lexical

theorem LogicOr.printable {ts e rest} : LogicOr ts e rest → (∀ t ∈ ts, t.Lexical) →
    e.Printable ∧ ∀ t ∈ rest, t.Lexical
  | .mk head tail, lexical =>
    have first := head.printable lexical
    tail.printable first.1 first.2

theorem OrTail.printable {ts left e rest} : OrTail ts left e rest → left.Printable → (∀ t ∈ ts, t.Lexical) →
    e.Printable ∧ ∀ t ∈ rest, t.Lexical
  | .done, printable, lexical => ⟨printable, lexical⟩
  | .more isOr operand tail, printable, lexical => by
    simp only [List.forall_mem_cons] at lexical
    obtain ⟨right, lexical'⟩ := operand.printable lexical.2
    exact tail.printable ⟨.inr isOr, lexical.1, printable, right⟩ lexical'

theorem LogicAnd.printable {ts e rest} : LogicAnd ts e rest → (∀ t ∈ ts, t.Lexical) →
    e.Printable ∧ ∀ t ∈ rest, t.Lexical
  | .mk head tail, lexical =>
    have first := head.printable lexical
    tail.printable first.1 first.2

theorem AndTail.printable {ts left e rest} : AndTail ts left e rest → left.Printable → (∀ t ∈ ts, t.Lexical) →
    e.Printable ∧ ∀ t ∈ rest, t.Lexical
  | .done, printable, lexical => ⟨printable, lexical⟩
  | .more isAnd operand tail, printable, lexical => by
    simp only [List.forall_mem_cons] at lexical
    obtain ⟨right, lexical'⟩ := operand.printable lexical.2
    exact tail.printable ⟨.inl isAnd, lexical.1, printable, right⟩ lexical'

theorem Binary.printable {lvl ts e rest} : Binary lvl ts e rest → (∀ t ∈ ts, t.Lexical) →
    e.Printable ∧ ∀ t ∈ rest, t.Lexical
  | .mk head tail, lexical =>
    have first := head.printable lexical
    tail.printable first.1 first.2

theorem Operand.printable {lvl ts e rest} : Operand lvl ts e rest → (∀ t ∈ ts, t.Lexical) →
    e.Printable ∧ ∀ t ∈ rest, t.Lexical
  | .next _ operand, lexical => operand.printable lexical
  | .unary _ operand, lexical => operand.printable lexical

theorem BinaryTail.printable {lvl ts left e rest} : BinaryTail lvl ts left e rest → left.Printable →
    (∀ t ∈ ts, t.Lexical) → e.Printable ∧ ∀ t ∈ rest, t.Lexical
  | .done, printable, lexical => ⟨printable, lexical⟩
  | .more isOp operand tail, printable, lexical => by
    simp only [List.forall_mem_cons] at lexical
    obtain ⟨right, lexical'⟩ := operand.printable lexical.2
    exact tail.printable ⟨⟨_, isOp⟩, lexical.1, printable, right⟩ lexical'

theorem Unary.printable {ts e rest} : Unary ts e rest → (∀ t ∈ ts, t.Lexical) →
    e.Printable ∧ ∀ t ∈ rest, t.Lexical
  | .operator isOperator operand, lexical => by
    simp only [List.forall_mem_cons] at lexical
    obtain ⟨right, rest⟩ := operand.printable lexical.2
    exact ⟨⟨isOperator, lexical.1, right⟩, rest⟩
  | .call call, lexical => call.printable lexical

theorem Call.printable {ts e rest} : Call ts e rest → (∀ t ∈ ts, t.Lexical) →
    e.Printable ∧ ∀ t ∈ rest, t.Lexical
  | .mk head tail, lexical =>
    have first := head.printable lexical
    tail.printable first.1 first.2

theorem CallTail.printable {ts callee e rest} : CallTail ts callee e rest → callee.Printable →
    (∀ t ∈ ts, t.Lexical) → e.Printable ∧ ∀ t ∈ rest, t.Lexical
  | .done, printable, lexical => ⟨printable, lexical⟩
  | .call _ arguments closes _ tail, printable, lexical => by
    obtain ⟨args, lexical⟩ := arguments.printable (List.forall_mem_cons.1 lexical).2
    simp only [List.forall_mem_cons] at lexical
    exact tail.printable ⟨closes, lexical.1, printable, args⟩ lexical.2
  | .get _ ident tail, printable, lexical => by
    simp only [List.forall_mem_cons] at lexical
    exact tail.printable ⟨ident, lexical.2.1, printable⟩ lexical.2.2

theorem Arguments.printable {ts args rest} : Arguments ts args rest → (∀ t ∈ ts, t.Lexical) →
    Expr.PrintableAll args ∧ ∀ t ∈ rest, t.Lexical
  | .none, lexical => ⟨trivial, lexical⟩
  | .some first more, lexical => by
    obtain ⟨printable, lexical⟩ := first.printable lexical
    obtain ⟨others, rest⟩ := more.printable lexical
    exact ⟨⟨printable, others⟩, rest⟩

theorem MoreArguments.printable {ts args rest} : MoreArguments ts args rest → (∀ t ∈ ts, t.Lexical) →
    Expr.PrintableAll args ∧ ∀ t ∈ rest, t.Lexical
  | .done, lexical => ⟨trivial, lexical⟩
  | .more _ arg tail, lexical => by
    obtain ⟨printable, lexical⟩ := arg.printable (List.forall_mem_cons.1 lexical).2
    obtain ⟨others, rest⟩ := tail.printable lexical
    exact ⟨⟨printable, others⟩, rest⟩

theorem Primary.printable {ts e rest} : Primary ts e rest → (∀ t ∈ ts, t.Lexical) →
    e.Printable ∧ ∀ t ∈ rest, t.Lexical
  | .false _, lexical | .true _, lexical | .nil _, lexical | .string _, lexical =>
    ⟨trivial, (List.forall_mem_cons.1 lexical).2⟩
  | .number is, lexical => by
    simp only [List.forall_mem_cons] at lexical
    have scanned := lexical.1
    simp only [Token.Lexical, is] at scanned
    exact ⟨scanned, lexical.2⟩
  | .ident is, lexical => ⟨⟨is, (List.forall_mem_cons.1 lexical).1, rfl⟩, (List.forall_mem_cons.1 lexical).2⟩
  | .this is, lexical => ⟨⟨is, (List.forall_mem_cons.1 lexical).1, rfl⟩, (List.forall_mem_cons.1 lexical).2⟩
  | .group _ inner _, lexical => by
    obtain ⟨printable, rest⟩ := inner.printable (List.forall_mem_cons.1 lexical).2
    exact ⟨printable, (List.forall_mem_cons.1 rest).2⟩
  | .super is _ ident, lexical => by
    simp only [List.forall_mem_cons] at lexical
    exact ⟨⟨is, lexical.1, ident, lexical.2.2.1, rfl⟩, lexical.2.2.2⟩

end

end Lox.Grammar

namespace Lox

/-- Every expression parsed from source text is printable. -/
theorem Expr.parse_printable {source : String} {e : Expr} (parsed : Expr.parse (Token.scanAll source).1 = .ok e) :
    e.Printable := by
  obtain ⟨ts, last, tokens, inner⟩ := Token.scanAll_ends source
  have lexical := Token.scanAll_lexical source
  rw [tokens] at parsed lexical
  have derived := Parser.exprParse_sound rfl (fun t mem => (inner t mem).2) parsed
  exact (derived.printable lexical).1

end Lox
