import Lox.Session
import Lox.Proofs.ParserSound
import Lox.Proofs.ScopeRules
/-!
The shape of the programs the front end builds. The scanner spells every word as its kind says:
an identifier is no keyword, and `this` and `super` are written so (`Token.scanAll_ends`). The
parser builds from such tokens only trees of one shape (`Stmt.Formed`): every name a program
declares or assigns is ordinary, never `this` or `super`, which only the interpreter binds; the
branches of an `if` and the body of a loop declare nothing; a superclass is a name. The scope
rules and the interpreter rely on that shape, and `Stmt.ofSource_formed` gives it to every program
read from source text.
-/
namespace Lox

/-- A token spelled as its kind says: an identifier is no keyword, and `this` and `super` are
written so. -/
def Token.Spelled (t : Token) : Prop :=
  (t.kind = .identifier → TokenKind.keyword? t.lexeme = none) ∧ (t.kind = .thisKw → t.lexeme = "this") ∧
    (t.kind = .superKw → t.lexeme = "super")

/-- A name a program can declare or assign: neither `this` nor `super`. -/
def Scope.Ordinary (name : String) : Prop := name ≠ "this" ∧ name ≠ "super"

/-- An identifier spelled as one is an ordinary name. -/
theorem Token.Spelled.ordinary {t : Token} (spelled : t.Spelled) (ident : t.kind = .identifier) :
    Scope.Ordinary t.lexeme := by
  have word := spelled.1 ident
  constructor <;> intro named <;> simp [named,TokenKind.keyword?] at word

namespace TokenKind

/-- The lexeme of a kind that is written one way only: punctuation, operators and keywords. -/
def spelling? : TokenKind → Option String
  | leftParen => some "(" | rightParen => some ")" | leftBrace => some "\x7b" | rightBrace => some "\x7d"
  | comma => some "," | dot => some "." | minus => some "-" | plus => some "+" | semicolon => some ";"
  | slash => some "/" | star => some "*" | bang => some "!" | bangEqual => some "!=" | equal => some "="
  | equalEqual => some "==" | greater => some ">" | greaterEqual => some ">=" | less => some "<"
  | lessEqual => some "<="
  | andKw => some "and" | classKw => some "class" | elseKw => some "else" | falseKw => some "false"
  | funKw => some "fun" | forKw => some "for" | ifKw => some "if" | nilKw => some "nil" | orKw => some "or"
  | printKw => some "print" | returnKw => some "return" | superKw => some "super" | thisKw => some "this"
  | trueKw => some "true" | varKw => some "var" | whileKw => some "while"
  | identifier | string _ | number _ | eof => none

/-- A keyword is spelled as the word that names it; so no word is a keyword of a kind written
freely, and `this` and `super` are only keywords of their own spelling. -/
theorem spelling?_of_keyword? {w : String} {k : TokenKind} (named : keyword? w = some k) : k.spelling? = some w := by
  unfold keyword? at named
  split at named <;> cases named <;> rfl

/-- A word scans to the kind it spells, so its token is spelled, and it never ends the input. -/
theorem spelled_ofWord (w : String) (line : Nat) :
    Token.Spelled ⟨ofWord w, w, line⟩ ∧ Parser.isEof (ofWord w) = false := by
  unfold ofWord
  cases h : keyword? w with
  | none => simp [Token.Spelled,h,Parser.isEof]
  | some k =>
    have spelled := spelling?_of_keyword? h
    cases k <;> simp_all [Token.Spelled, spelling?, Parser.isEof]

end TokenKind

/-! ### The scanner -/

namespace Lexer

/-- An item the scanner yields before the end of input: a lexing error, or a spelled token of
another kind than the end. -/
def Inner : Except LexError Token → Prop
  | .ok t => t.Spelled ∧ Parser.isEof t.kind = false
  | .error _ => True

theorem inner_token {k : TokenKind} (read : List Char) (line : Nat)
    (word : k ≠ .identifier ∧ k ≠ .thisKw ∧ k ≠ .superKw) (notEnd : Parser.isEof k = false) :
    Inner (token k read line) :=
  ⟨⟨fun is => absurd is word.1, fun is => absurd is word.2.1, fun is => absurd is word.2.2⟩, notEnd⟩

theorem withEqual_inner {line : Nat} {c : Char} {r : List Char} {single double : TokenKind}
    (singleOk : Inner (token single [c] line)) (doubleOk : Inner (token double [c, '='] line)) :
    ∀ i, (withEqual line c r single double).item = some i → Inner i := by
  unfold withEqual
  split <;> simp_all

theorem stringLit_inner (line : Nat) (r : List Char) : ∀ i, (stringLit line r).item = some i → Inner i := by
  unfold stringLit
  split <;> simp [Inner,Token.Spelled,Parser.isEof]

theorem numberLit_inner (line : Nat) (c : Char) (r : List Char) :
    ∀ i, (numberLit line c r).item = some i → Inner i := by
  unfold numberLit
  split
  · split <;> simp [Inner,token,Token.Spelled,Parser.isEof]
  · simp [Inner,token,Token.Spelled,Parser.isEof]

theorem word_inner (line : Nat) (c : Char) (r : List Char) : ∀ i, (word line c r).item = some i → Inner i := by
  intro i h
  simp only [word,Option.some.injEq] at h
  subst h
  exact TokenKind.spelled_ofWord _ line

theorem step_inner (line : Nat) (c : Char) (r : List Char) : ∀ i, (step line c r).item = some i → Inner i := by
  intro i h
  unfold step at h
  split at h
  -- one-character tokens, then those that may take an `=`, then blanks
  any_goals (simp only [Option.some.injEq] at h; subst h; exact inner_token _ _ (by simp) rfl)
  any_goals exact withEqual_inner (inner_token _ _ (by simp) rfl) (inner_token _ _ (by simp) rfl) i h
  any_goals cases h
  · -- a comment, or a slash
    split at h
    · cases h
    · split at h
      · cases h
      · simp only [Option.some.injEq] at h
        subst h
        trivial
    · simp only [Option.some.injEq] at h
      subst h
      exact inner_token _ _ (by simp) rfl
  · exact stringLit_inner line _ i h
  · split at h
    · exact numberLit_inner line _ _ i h
    · split at h
      · exact word_inner line _ _ i h
      · simp only [Option.some.injEq] at h
        subst h
        trivial

/-- The scan from a point: the items already yielded, then inner items, then one end-of-input
token. -/
theorem scanFrom_ends (line : Nat) (cs : List Char) (acc : Array (Except LexError Token)) :
    ∃ (items : List (Except LexError Token)) (last : Nat),
      scanFrom line cs acc = acc ++ items.toArray ++ #[.ok ⟨.eof, "", last⟩] ∧ ∀ i ∈ items, Inner i := by
  fun_induction scanFrom line cs acc with
  | case1 line acc => exact ⟨[], line, by simp, by simp⟩
  | case2 line acc c r s i found ih =>
    obtain ⟨items, last, eq, inner⟩ := ih
    refine ⟨i :: items, last, by simp [eq], ?_⟩
    intro j mem
    rcases List.mem_cons.1 mem with rfl | later
    · exact step_inner line c r j found
    · exact inner j later
  | case3 line acc c r s none ih => exact ih

end Lexer

/-- The tokens of any source text end with the one end-of-input token, and every token before it
is spelled as its kind says. -/
theorem Token.scanAll_ends (source : String) : ∃ ts last, (Token.scanAll source).1 = ts ++ [⟨.eof, "", last⟩] ∧
    ∀ t ∈ ts, t.Spelled ∧ Parser.isEof t.kind = false := by
  obtain ⟨items, last, eq, inner⟩ := Lexer.scanFrom_ends 1 source.toList #[]
  refine ⟨items.filterMap Except.toOption, last, ?_, ?_⟩
  · unfold Token.scanAll Token.scan
    rw [eq]
    clear eq inner
    induction items with
    | nil => rfl
    | cons i items ih => cases i <;> simp_all [Except.toOption,List.filterMap_cons]
  · intro t mem
    obtain ⟨i, mem, found⟩ := List.mem_filterMap.1 mem
    cases i with
    | error => cases found
    | ok t' =>
      cases found
      exact inner _ mem

/-! ### The shape of parsed programs -/

mutual

/-- The shape the parser gives an expression: an assignment's target is an ordinary name, and
`this` and `super` are spelled so. -/
def Expr.Formed : Expr → Prop
  | .literal _ => True
  | .grouping e => e.Formed
  | .unary _ r => r.Formed
  | .binary l _ r => l.Formed ∧ r.Formed
  | .logical l _ r => l.Formed ∧ r.Formed
  | .ident _ _ => True
  | .assign name v _ => Scope.Ordinary name.lexeme ∧ v.Formed
  | .call f _ args => f.Formed ∧ Expr.FormedAll args
  | .get o _ => o.Formed
  | .set o _ v => o.Formed ∧ v.Formed
  | .thisRef kw _ => kw.lexeme = "this"
  | .superGet kw _ _ => kw.lexeme = "super"

/-- Every expression of a list has the parser's shape. -/
def Expr.FormedAll : List Expr → Prop
  | [] => True
  | e :: es => e.Formed ∧ Expr.FormedAll es

end

/-- An optional expression of the parser's shape. -/
def Expr.FormedOpt : Option Expr → Prop
  | some e => e.Formed
  | none => True

mutual

/-- The shape the parser gives a statement: declared names are ordinary, branches and loop
bodies declare nothing, a superclass is a name. -/
def Stmt.Formed : Stmt → Prop
  | .expression e => e.Formed
  | .print e => e.Formed
  | .varDecl name init => Scope.Ordinary name.lexeme ∧ Expr.FormedOpt init
  | .block body => Stmt.FormedAll body
  | .ifElse c t e => c.Formed ∧ t.Formed ∧ t.declares = [] ∧ Stmt.FormedOpt e
  | .whileLoop c b => c.Formed ∧ b.Formed ∧ b.declares = []
  | .function d => d.Formed
  | .returnStmt _ v => Expr.FormedOpt v
  | .classDecl name sup methods =>
    Scope.Ordinary name.lexeme ∧ (∀ e ∈ sup, ∃ n a, e = .ident n a) ∧ FunDecl.FormedAll methods

/-- An optional branch of the parser's shape, which declares nothing. -/
def Stmt.FormedOpt : Option Stmt → Prop
  | some s => s.Formed ∧ s.declares = []
  | none => True

/-- Every statement of a list has the parser's shape. -/
def Stmt.FormedAll : List Stmt → Prop
  | [] => True
  | s :: ss => s.Formed ∧ Stmt.FormedAll ss

/-- A function of the parser's shape: its name and parameters are ordinary. -/
def FunDecl.Formed : FunDecl → Prop
  | .mk name params body => Scope.Ordinary name.lexeme ∧ (∀ p ∈ params, Scope.Ordinary p.lexeme) ∧ Stmt.FormedAll body

/-- Every function of a list has the parser's shape. -/
def FunDecl.FormedAll : List FunDecl → Prop
  | [] => True
  | d :: ds => d.Formed ∧ FunDecl.FormedAll ds

end

end Lox

namespace Lox.Grammar

/-! ### What the grammar derives from spelled tokens

Each rule, from tokens that are all spelled, derives a tree of the parser's shape and leaves
spelled tokens; a statement besides declares nothing. -/

mutual

theorem Expression.formed {ts e rest} : Expression ts e rest → (∀ t ∈ ts, t.Spelled) →
    e.Formed ∧ ∀ t ∈ rest, t.Spelled
  | .assign ident _ rhs, spelled => by
    simp only [List.forall_mem_cons] at spelled
    obtain ⟨named, -, spelled⟩ := spelled
    obtain ⟨formed, rest⟩ := rhs.formed spelled
    exact ⟨⟨named.ordinary ident, formed⟩, rest⟩
  | .set target _ rhs, spelled => by
    obtain ⟨object, spelled⟩ := target.formed spelled
    simp only [List.forall_mem_cons] at spelled
    obtain ⟨value, rest⟩ := rhs.formed spelled.2
    exact ⟨⟨object, value⟩, rest⟩
  | .logicOr or, spelled => or.formed spelled

theorem LogicOr.formed {ts e rest} : LogicOr ts e rest → (∀ t ∈ ts, t.Spelled) → e.Formed ∧ ∀ t ∈ rest, t.Spelled
  | .mk head tail, spelled =>
    have first := head.formed spelled
    tail.formed first.1 first.2

theorem OrTail.formed {ts left e rest} : OrTail ts left e rest → left.Formed → (∀ t ∈ ts, t.Spelled) →
    e.Formed ∧ ∀ t ∈ rest, t.Spelled
  | .done, formed, spelled => ⟨formed, spelled⟩
  | .more _ operand tail, formed, spelled => by
    obtain ⟨right, spelled⟩ := operand.formed (List.forall_mem_cons.1 spelled).2
    exact tail.formed ⟨formed, right⟩ spelled

theorem LogicAnd.formed {ts e rest} : LogicAnd ts e rest → (∀ t ∈ ts, t.Spelled) → e.Formed ∧ ∀ t ∈ rest, t.Spelled
  | .mk head tail, spelled =>
    have first := head.formed spelled
    tail.formed first.1 first.2

theorem AndTail.formed {ts left e rest} : AndTail ts left e rest → left.Formed → (∀ t ∈ ts, t.Spelled) →
    e.Formed ∧ ∀ t ∈ rest, t.Spelled
  | .done, formed, spelled => ⟨formed, spelled⟩
  | .more _ operand tail, formed, spelled => by
    obtain ⟨right, spelled⟩ := operand.formed (List.forall_mem_cons.1 spelled).2
    exact tail.formed ⟨formed, right⟩ spelled

theorem Binary.formed {lvl ts e rest} : Binary lvl ts e rest → (∀ t ∈ ts, t.Spelled) →
    e.Formed ∧ ∀ t ∈ rest, t.Spelled
  | .mk head tail, spelled =>
    have first := head.formed spelled
    tail.formed first.1 first.2

theorem Operand.formed {lvl ts e rest} : Operand lvl ts e rest → (∀ t ∈ ts, t.Spelled) →
    e.Formed ∧ ∀ t ∈ rest, t.Spelled
  | .next _ operand, spelled => operand.formed spelled
  | .unary _ operand, spelled => operand.formed spelled

theorem BinaryTail.formed {lvl ts left e rest} : BinaryTail lvl ts left e rest → left.Formed →
    (∀ t ∈ ts, t.Spelled) → e.Formed ∧ ∀ t ∈ rest, t.Spelled
  | .done, formed, spelled => ⟨formed, spelled⟩
  | .more _ operand tail, formed, spelled => by
    obtain ⟨right, spelled⟩ := operand.formed (List.forall_mem_cons.1 spelled).2
    exact tail.formed ⟨formed, right⟩ spelled

theorem Unary.formed {ts e rest} : Unary ts e rest → (∀ t ∈ ts, t.Spelled) → e.Formed ∧ ∀ t ∈ rest, t.Spelled
  | .operator _ operand, spelled => operand.formed (List.forall_mem_cons.1 spelled).2
  | .call call, spelled => call.formed spelled

theorem Call.formed {ts e rest} : Call ts e rest → (∀ t ∈ ts, t.Spelled) → e.Formed ∧ ∀ t ∈ rest, t.Spelled
  | .mk head tail, spelled =>
    have first := head.formed spelled
    tail.formed first.1 first.2

theorem CallTail.formed {ts callee e rest} : CallTail ts callee e rest → callee.Formed → (∀ t ∈ ts, t.Spelled) →
    e.Formed ∧ ∀ t ∈ rest, t.Spelled
  | .done, formed, spelled => ⟨formed, spelled⟩
  | .call _ arguments _ _ tail, formed, spelled => by
    obtain ⟨args, spelled⟩ := arguments.formed (List.forall_mem_cons.1 spelled).2
    exact tail.formed ⟨formed, args⟩ (List.forall_mem_cons.1 spelled).2
  | .get _ _ tail, formed, spelled => by
    simp only [List.forall_mem_cons] at spelled
    exact tail.formed formed spelled.2.2

theorem Arguments.formed {ts args rest} : Arguments ts args rest → (∀ t ∈ ts, t.Spelled) →
    Expr.FormedAll args ∧ ∀ t ∈ rest, t.Spelled
  | .none, spelled => ⟨trivial, spelled⟩
  | .some first more, spelled => by
    obtain ⟨formed, spelled⟩ := first.formed spelled
    obtain ⟨others, rest⟩ := more.formed spelled
    exact ⟨⟨formed, others⟩, rest⟩

theorem MoreArguments.formed {ts args rest} : MoreArguments ts args rest → (∀ t ∈ ts, t.Spelled) →
    Expr.FormedAll args ∧ ∀ t ∈ rest, t.Spelled
  | .done, spelled => ⟨trivial, spelled⟩
  | .more _ arg tail, spelled => by
    obtain ⟨formed, spelled⟩ := arg.formed (List.forall_mem_cons.1 spelled).2
    obtain ⟨others, rest⟩ := tail.formed spelled
    exact ⟨⟨formed, others⟩, rest⟩

theorem Primary.formed {ts e rest} : Primary ts e rest → (∀ t ∈ ts, t.Spelled) → e.Formed ∧ ∀ t ∈ rest, t.Spelled
  | .false _, spelled | .true _, spelled | .nil _, spelled | .number _, spelled | .string _, spelled
  | .ident _, spelled => ⟨trivial, (List.forall_mem_cons.1 spelled).2⟩
  | .this is, spelled => ⟨(List.forall_mem_cons.1 spelled).1.2.1 is, (List.forall_mem_cons.1 spelled).2⟩
  | .group _ inner _, spelled => by
    obtain ⟨formed, rest⟩ := inner.formed (List.forall_mem_cons.1 spelled).2
    exact ⟨formed, (List.forall_mem_cons.1 rest).2⟩
  | .super is _ _, spelled => by
    simp only [List.forall_mem_cons] at spelled
    exact ⟨spelled.1.2.2 is, spelled.2.2.2⟩

end

theorem OptExpression.formed {ts v rest} : OptExpression ts v rest → (∀ t ∈ ts, t.Spelled) →
    Expr.FormedOpt v ∧ ∀ t ∈ rest, t.Spelled
  | .none, spelled => ⟨trivial, spelled⟩
  | .some e', spelled => e'.formed spelled

theorem MoreParameters.formed {ts ps rest} : MoreParameters ts ps rest → (∀ t ∈ ts, t.Spelled) →
    (∀ p ∈ ps, Scope.Ordinary p.lexeme) ∧ ∀ t ∈ rest, t.Spelled
  | .done, spelled => ⟨by simp, spelled⟩
  | .more _ ident tail, spelled => by
    simp only [List.forall_mem_cons] at spelled ⊢
    obtain ⟨others, rest⟩ := tail.formed spelled.2.2
    exact ⟨⟨spelled.2.1.ordinary ident, others⟩, rest⟩

theorem Parameters.formed {ts ps rest} : Parameters ts ps rest → (∀ t ∈ ts, t.Spelled) →
    (∀ p ∈ ps, Scope.Ordinary p.lexeme) ∧ ∀ t ∈ rest, t.Spelled
  | .none, spelled => ⟨by simp, spelled⟩
  | .some ident more, spelled => by
    simp only [List.forall_mem_cons] at spelled ⊢
    obtain ⟨others, rest⟩ := more.formed spelled.2
    exact ⟨⟨spelled.1.ordinary ident, others⟩, rest⟩

theorem VarDecl.formed {ts s rest} : VarDecl ts s rest → (∀ t ∈ ts, t.Spelled) → s.Formed ∧ ∀ t ∈ rest, t.Spelled
  | .bare ident _, spelled => by
    simp only [List.forall_mem_cons] at spelled
    exact ⟨⟨spelled.1.ordinary ident, trivial⟩, spelled.2.2⟩
  | .init ident _ value _, spelled => by
    simp only [List.forall_mem_cons] at spelled
    obtain ⟨formed, rest⟩ := value.formed spelled.2.2
    exact ⟨⟨spelled.1.ordinary ident, formed⟩, (List.forall_mem_cons.1 rest).2⟩

theorem ForInit.formed {ts init rest} : ForInit ts init rest → (∀ t ∈ ts, t.Spelled) →
    (∀ s ∈ init, s.Formed) ∧ ∀ t ∈ rest, t.Spelled
  | .none _, spelled => ⟨by simp, (List.forall_mem_cons.1 spelled).2⟩
  | .var _ decl, spelled => by
    obtain ⟨formed, rest⟩ := decl.formed (List.forall_mem_cons.1 spelled).2
    exact ⟨by simpa using formed, rest⟩
  | .expression e' _, spelled => by
    obtain ⟨formed, rest⟩ := e'.formed spelled
    exact ⟨by simpa [Stmt.Formed] using formed, (List.forall_mem_cons.1 rest).2⟩

theorem Superclass.formed {ts sup rest} : Superclass ts sup rest → (∀ t ∈ ts, t.Spelled) →
    (∀ e ∈ sup, ∃ n a, e = .ident n a) ∧ ∀ t ∈ rest, t.Spelled
  | .none, spelled => ⟨by simp, spelled⟩
  | .some _ _, spelled => by
    simp only [List.forall_mem_cons] at spelled
    exact ⟨by simp, spelled.2.2⟩

/-- A `for` loop stands for statements of the parser's shape, which declare nothing. -/
theorem forLoop_formed {init : Option Stmt} {cond incr : Option Expr} {body : Stmt}
    (first : ∀ s ∈ init, s.Formed) (condition : Expr.FormedOpt cond) (increment : Expr.FormedOpt incr)
    (loop : body.Formed) (quiet : body.declares = []) :
    (forLoop init cond incr body).Formed ∧ (forLoop init cond incr body).declares = [] := by
  have test : (cond.getD (.literal (.bool true))).Formed := by
    cases cond <;> simp_all [Expr.Formed,Expr.FormedOpt]
  cases init <;> cases incr <;> simp_all [forLoop,Stmt.Formed,Stmt.FormedAll,Stmt.declares,Expr.FormedOpt]

mutual

theorem Declaration.formed {ts s rest} : Declaration ts s rest → (∀ t ∈ ts, t.Spelled) → s.Formed ∧ ∀ t ∈ rest, t.Spelled
  | .classDecl _ ident superclass _ body _, spelled => by
    simp only [List.forall_mem_cons] at spelled
    obtain ⟨-, named, spelled⟩ := spelled
    obtain ⟨sup, spelled⟩ := superclass.formed spelled
    obtain ⟨methods, rest⟩ := body.formed (List.forall_mem_cons.1 spelled).2
    exact ⟨⟨named.ordinary ident, sup, methods⟩, (List.forall_mem_cons.1 rest).2⟩
  | .function _ decl, spelled => decl.formed (List.forall_mem_cons.1 spelled).2
  | .var _ decl, spelled => decl.formed (List.forall_mem_cons.1 spelled).2
  | .statement stmt, spelled => by
    obtain ⟨formed, -, rest⟩ := stmt.formed spelled
    exact ⟨formed, rest⟩

theorem Statement.formed {ts s rest} : Statement ts s rest → (∀ t ∈ ts, t.Spelled) →
    s.Formed ∧ s.declares = [] ∧ ∀ t ∈ rest, t.Spelled
  | .expression e' _, spelled => by
    obtain ⟨formed, rest⟩ := e'.formed spelled
    exact ⟨formed, rfl, (List.forall_mem_cons.1 rest).2⟩
  | .print _ e' _, spelled => by
    obtain ⟨formed, rest⟩ := e'.formed (List.forall_mem_cons.1 spelled).2
    exact ⟨formed, rfl, (List.forall_mem_cons.1 rest).2⟩
  | .returnStmt _ value _, spelled => by
    obtain ⟨formed, rest⟩ := value.formed (List.forall_mem_cons.1 spelled).2
    exact ⟨formed, rfl, (List.forall_mem_cons.1 rest).2⟩
  | .block _ decls _, spelled => by
    obtain ⟨formed, rest⟩ := decls.formed (List.forall_mem_cons.1 spelled).2
    exact ⟨formed, rfl, (List.forall_mem_cons.1 rest).2⟩
  | .ifThen _ _ cond _ thenBranch _, spelled => by
    simp only [List.forall_mem_cons] at spelled
    obtain ⟨test, spelled⟩ := cond.formed spelled.2.2
    obtain ⟨branch, quiet, rest⟩ := thenBranch.formed (List.forall_mem_cons.1 spelled).2
    exact ⟨⟨test, branch, quiet, trivial⟩, by simp [Stmt.declares,Stmt.declaresOpt,quiet], rest⟩
  | .ifElse _ _ cond _ thenBranch _ elseBranch, spelled => by
    simp only [List.forall_mem_cons] at spelled
    obtain ⟨test, spelled⟩ := cond.formed spelled.2.2
    obtain ⟨branch, quiet, spelled⟩ := thenBranch.formed (List.forall_mem_cons.1 spelled).2
    obtain ⟨other, quiet', rest⟩ := elseBranch.formed (List.forall_mem_cons.1 spelled).2
    exact ⟨⟨test, branch, quiet, other, quiet'⟩, by simp [Stmt.declares,Stmt.declaresOpt,quiet,quiet'], rest⟩
  | .whileLoop _ _ cond _ body, spelled => by
    simp only [List.forall_mem_cons] at spelled
    obtain ⟨test, spelled⟩ := cond.formed spelled.2.2
    obtain ⟨loop, quiet, rest⟩ := body.formed (List.forall_mem_cons.1 spelled).2
    exact ⟨⟨test, loop, quiet⟩, by simp [Stmt.declares,quiet], rest⟩
  | .forLoop _ _ first condition _ increment _ loop, spelled => by
    simp only [List.forall_mem_cons] at spelled
    obtain ⟨init, spelled⟩ := first.formed spelled.2.2
    obtain ⟨test, spelled⟩ := condition.formed spelled
    obtain ⟨step, spelled⟩ := increment.formed (List.forall_mem_cons.1 spelled).2
    obtain ⟨body, quiet, rest⟩ := loop.formed (List.forall_mem_cons.1 spelled).2
    obtain ⟨formed, none⟩ := forLoop_formed init test step body quiet
    exact ⟨formed, none, rest⟩

theorem Declarations.formed {ts ss rest} : Declarations ts ss rest → (∀ t ∈ ts, t.Spelled) →
    Stmt.FormedAll ss ∧ ∀ t ∈ rest, t.Spelled
  | .done, spelled => ⟨trivial, spelled⟩
  | .more first tail, spelled => by
    obtain ⟨formed, spelled⟩ := first.formed spelled
    obtain ⟨others, rest⟩ := tail.formed spelled
    exact ⟨⟨formed, others⟩, rest⟩

theorem Function.formed {ts d rest} : Function ts d rest → (∀ t ∈ ts, t.Spelled) → d.Formed ∧ ∀ t ∈ rest, t.Spelled
  | .mk ident _ parameters _ _ _ decls _, spelled => by
    simp only [List.forall_mem_cons] at spelled
    obtain ⟨named, -, spelled⟩ := spelled
    obtain ⟨params, spelled⟩ := parameters.formed spelled
    simp only [List.forall_mem_cons] at spelled
    obtain ⟨body, rest⟩ := decls.formed spelled.2.2
    exact ⟨⟨named.ordinary ident, params, body⟩, (List.forall_mem_cons.1 rest).2⟩

theorem Functions.formed {ts ds rest} : Functions ts ds rest → (∀ t ∈ ts, t.Spelled) →
    FunDecl.FormedAll ds ∧ ∀ t ∈ rest, t.Spelled
  | .done, spelled => ⟨trivial, spelled⟩
  | .more first tail, spelled => by
    obtain ⟨formed, spelled⟩ := first.formed spelled
    obtain ⟨others, rest⟩ := tail.formed spelled
    exact ⟨⟨formed, others⟩, rest⟩

end

end Lox.Grammar

namespace Lox

/-- Every program read from source text has the parser's shape. -/
theorem Stmt.ofSource_formed {source : String} {stmts : List Stmt} (read : Stmt.ofSource source = .ok stmts) :
    Stmt.FormedAll stmts := by
  obtain ⟨ts, last, tokens, spelled⟩ := Token.scanAll_ends source
  unfold Stmt.ofSource at read
  rcases scanned : Token.scanAll source with ⟨toks, lexErrors⟩
  rw [scanned] at read tokens
  simp only at read tokens
  subst tokens
  split at read
  · next parsed =>
    split at read
    · cases read
      have derived := Parser.parseProgram_sound rfl (fun t mem => (spelled t mem).2) parsed
      refine (derived.formed ?_).1
      intro t mem
      rcases List.mem_append.1 mem with inner | last
      · exact (spelled t inner).1
      · simp only [List.mem_singleton] at last
        subst last
        simp [Token.Spelled]
    · cases read
  · cases read

end Lox
