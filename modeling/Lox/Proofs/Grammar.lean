import Lox.Syntax.Parser
/-!
The grammar of Lox over tokens, with the tree each derivation builds. A relation
`R ts x rest` says that a prefix of the tokens `ts` derives `x` by rule `R` and that `rest` is what
follows it. Repetitions (`( "or" logic_and )*`, the call suffixes, the arguments) are written as a
tail relation that folds each new part onto the tree built so far, so the binary levels and the
call chains nest to the left.

The rules are those of the grammar in the parser's documentation, completed with the statements it
leaves out:

```text
ifStmt    → "if" "(" expression ")" statement ( "else" statement )?
whileStmt → "while" "(" expression ")" statement
printStmt → "print" expression ";"
exprStmt  → expression ";"
```

A function takes at most 255 parameters and a call at most 255 arguments. The one rule that is
not free of context is the dangling `else`: an `if` without `else` may not be followed by `else`,
so an `else` belongs to the nearest `if` that has none. A `for` loop derives the statements it
stands for, `forLoop`.
-/
namespace Lox

/-- The kinds a primary expression starts with. -/
def TokenKind.startsPrimary : TokenKind → Bool
  | .number _ | .string _ | .trueKw | .falseKw | .nilKw | .thisKw | .identifier | .leftParen | .superKw => true
  | _ => false

/-- The kinds an expression starts with: a primary's, or a unary operator. -/
def TokenKind.startsExpression : TokenKind → Bool
  | .bang | .minus => true
  | k => k.startsPrimary

/-- The kinds a statement starts with: an expression's, or a statement keyword or `{`. -/
def TokenKind.startsStatement : TokenKind → Bool
  | .forKw | .ifKw | .whileKw | .returnKw | .leftBrace | .printKw => true
  | k => k.startsExpression

/-- The kinds a declaration starts with: a statement's, or `class`, `fun` or `var`. -/
def TokenKind.startsDeclaration : TokenKind → Bool
  | .classKw | .funKw | .varKw => true
  | k => k.startsStatement

end Lox

namespace Lox.Grammar

open Lox.Parser (Level)

/-- The rest of the input does not start with `else`. -/
def NoElse : List Token → Prop
  | t :: _ => t.kind.same .elseKw = false
  | [] => True

mutual

/-- `expression → assignment`, and
`assignment → ( call "." )? IDENT "=" assignment | logic_or`. The target `call "." IDENT` is a
call whose last suffix reads a property (`Call.get_iff`). -/
inductive Expression : List Token → Expr → List Token → Prop
  | assign {name eq : Token} {ts value rest} (ident : name.kind = .identifier) (equals : eq.kind = .equal)
      (rhs : Expression ts value rest) :
      Expression (name :: eq :: ts) (.assign name value .global) rest
  | set {eq : Token} {ts object name r value rest} (target : Call ts (.get object name) (eq :: r))
      (equals : eq.kind = .equal) (rhs : Expression r value rest) :
      Expression ts (.set object name value) rest
  | logicOr {ts e rest} (or : LogicOr ts e rest) : Expression ts e rest

/-- `logic_or → logic_and ( "or" logic_and )*`. -/
inductive LogicOr : List Token → Expr → List Token → Prop
  | mk {ts first r e rest} (head : LogicAnd ts first r) (tail : OrTail r first e rest) : LogicOr ts e rest

/-- The `( "or" logic_and )*` part, each operand joined to the left of what came before. -/
inductive OrTail : List Token → Expr → Expr → List Token → Prop
  | done {ts e} : OrTail ts e e ts
  | more {op : Token} {ts left right r e rest} (isOr : op.kind = .orKw) (operand : LogicAnd ts right r)
      (tail : OrTail r (.logical left op right) e rest) : OrTail (op :: ts) left e rest

/-- `logic_and → equality ( "and" equality )*`. -/
inductive LogicAnd : List Token → Expr → List Token → Prop
  | mk {ts first r e rest} (head : Binary .equality ts first r) (tail : AndTail r first e rest) :
      LogicAnd ts e rest

/-- The `( "and" equality )*` part. -/
inductive AndTail : List Token → Expr → Expr → List Token → Prop
  | done {ts e} : AndTail ts e e ts
  | more {op : Token} {ts left right r e rest} (isAnd : op.kind = .andKw)
      (operand : Binary .equality ts right r) (tail : AndTail r (.logical left op right) e rest) :
      AndTail (op :: ts) left e rest

/-- The binary levels `equality`, `comparison`, `term` and `factor`: an operand followed by
operators of the level and operands. -/
inductive Binary : Level → List Token → Expr → List Token → Prop
  | mk {lvl ts first r e rest} (head : Operand lvl ts first r) (tail : BinaryTail lvl r first e rest) :
      Binary lvl ts e rest

/-- An operand of a level: the next tighter level, or a unary expression below `factor`. -/
inductive Operand : Level → List Token → Expr → List Token → Prop
  | next {lvl inner ts e rest} (tighter : lvl.next = some inner) (operand : Binary inner ts e rest) :
      Operand lvl ts e rest
  | unary {lvl ts e rest} (last : lvl.next = none) (operand : Unary ts e rest) : Operand lvl ts e rest

/-- The operators and operands of a level after its first operand. -/
inductive BinaryTail : Level → List Token → Expr → Expr → List Token → Prop
  | done {lvl ts e} : BinaryTail lvl ts e e ts
  | more {lvl} {op : Token} {ts left right r e rest} (isOp : op.kind ∈ lvl.ops)
      (operand : Operand lvl ts right r) (tail : BinaryTail lvl r (.binary left op right) e rest) :
      BinaryTail lvl (op :: ts) left e rest

/-- `unary → ( "!" | "-" ) unary | call`. -/
inductive Unary : List Token → Expr → List Token → Prop
  | operator {op : Token} {ts e rest} (isOperator : op.kind = .bang ∨ op.kind = .minus)
      (operand : Unary ts e rest) : Unary (op :: ts) (.unary op e) rest
  | call {ts e rest} (call : Call ts e rest) : Unary ts e rest

/-- `call → primary ( "(" arguments? ")" | "." IDENT )*`. -/
inductive Call : List Token → Expr → List Token → Prop
  | mk {ts first r e rest} (head : Primary ts first r) (tail : CallTail r first e rest) : Call ts e rest

/-- The call suffixes, each applied to what came before. -/
inductive CallTail : List Token → Expr → Expr → List Token → Prop
  | done {ts e} : CallTail ts e e ts
  | call {lp rp : Token} {ts callee args r e rest} (opens : lp.kind = .leftParen)
      (arguments : Arguments ts args (rp :: r)) (closes : rp.kind = .rightParen) (few : args.length ≤ 255)
      (tail : CallTail r (.call callee rp args) e rest) : CallTail (lp :: ts) callee e rest
  | get {dot name : Token} {ts callee e rest} (isDot : dot.kind = .dot) (ident : name.kind = .identifier)
      (tail : CallTail ts (.get callee name) e rest) : CallTail (dot :: name :: ts) callee e rest

/-- `arguments?`, where `arguments → expression ( "," expression )*`. -/
inductive Arguments : List Token → List Expr → List Token → Prop
  | none {ts} : Arguments ts [] ts
  | some {ts e r es rest} (first : Expression ts e r) (more : MoreArguments r es rest) :
      Arguments ts (e :: es) rest

/-- The `( "," expression )*` part of an argument list. -/
inductive MoreArguments : List Token → List Expr → List Token → Prop
  | done {ts} : MoreArguments ts [] ts
  | more {comma : Token} {ts e r es rest} (isComma : comma.kind = .comma) (arg : Expression ts e r)
      (tail : MoreArguments r es rest) : MoreArguments (comma :: ts) (e :: es) rest

/-- `primary → NUMBER | STRING | "true" | "false" | "nil" | "this" | IDENT | "(" expression ")"
| "super" "." IDENT`. -/
inductive Primary : List Token → Expr → List Token → Prop
  | false {t : Token} {rest} (is : t.kind = .falseKw) : Primary (t :: rest) (.literal (.bool false)) rest
  | true {t : Token} {rest} (is : t.kind = .trueKw) : Primary (t :: rest) (.literal (.bool true)) rest
  | nil {t : Token} {rest} (is : t.kind = .nilKw) : Primary (t :: rest) (.literal .nil) rest
  | number {t : Token} {x rest} (is : t.kind = .number x) : Primary (t :: rest) (.literal (.number x)) rest
  | string {t : Token} {s rest} (is : t.kind = .string s) : Primary (t :: rest) (.literal (.str s)) rest
  | this {t : Token} {rest} (is : t.kind = .thisKw) : Primary (t :: rest) (.thisRef t .global) rest
  | ident {t : Token} {rest} (is : t.kind = .identifier) : Primary (t :: rest) (.ident t .global) rest
  | group {lp rp : Token} {ts e rest} (opens : lp.kind = .leftParen) (inner : Expression ts e (rp :: rest))
      (closes : rp.kind = .rightParen) : Primary (lp :: ts) (.grouping e) rest
  | super {kw dot name : Token} {rest} (is : kw.kind = .superKw) (isDot : dot.kind = .dot)
      (ident : name.kind = .identifier) : Primary (kw :: dot :: name :: rest) (.superGet kw name .global) rest

end

/-- `expression?`: an expression, or nothing. -/
inductive OptExpression : List Token → Option Expr → List Token → Prop
  | none {ts} : OptExpression ts none ts
  | some {ts e rest} (e' : Expression ts e rest) : OptExpression ts (some e) rest

/-- The `( "," IDENT )*` part of a parameter list. -/
inductive MoreParameters : List Token → List Token → List Token → Prop
  | done {ts} : MoreParameters ts [] ts
  | more {comma name : Token} {ts ps rest} (isComma : comma.kind = .comma) (ident : name.kind = .identifier)
      (tail : MoreParameters ts ps rest) : MoreParameters (comma :: name :: ts) (name :: ps) rest

/-- `parameters?`, where `parameters → IDENT ( "," IDENT )*`. -/
inductive Parameters : List Token → List Token → List Token → Prop
  | none {ts} : Parameters ts [] ts
  | some {name : Token} {ts ps rest} (ident : name.kind = .identifier) (more : MoreParameters ts ps rest) :
      Parameters (name :: ts) (name :: ps) rest

/-- `varDecl → "var" IDENT ( "=" expression )? ";"`, after `var`. -/
inductive VarDecl : List Token → Stmt → List Token → Prop
  | bare {name semi : Token} {rest} (ident : name.kind = .identifier) (ends : semi.kind = .semicolon) :
      VarDecl (name :: semi :: rest) (.varDecl name none) rest
  | init {name eq semi : Token} {ts e rest} (ident : name.kind = .identifier) (equals : eq.kind = .equal)
      (value : Expression ts e (semi :: rest)) (ends : semi.kind = .semicolon) :
      VarDecl (name :: eq :: ts) (.varDecl name (some e)) rest

/-- The first clause of a `for` loop: `varDecl | exprStmt | ";"`. -/
inductive ForInit : List Token → Option Stmt → List Token → Prop
  | none {semi : Token} {rest} (ends : semi.kind = .semicolon) : ForInit (semi :: rest) none rest
  | var {kw : Token} {ts s rest} (isVar : kw.kind = .varKw) (decl : VarDecl ts s rest) :
      ForInit (kw :: ts) (some s) rest
  | expression {semi : Token} {ts e rest} (e' : Expression ts e (semi :: rest)) (ends : semi.kind = .semicolon) :
      ForInit ts (some (.expression e)) rest

/-- `superclass?`, where `superclass → "<" IDENT`. -/
inductive Superclass : List Token → Option Expr → List Token → Prop
  | none {ts} : Superclass ts none ts
  | some {lt name : Token} {rest} (isLess : lt.kind = .less) (ident : name.kind = .identifier) :
      Superclass (lt :: name :: rest) (some (.ident name .global)) rest

/-- What `for (init; cond; incr) body` stands for: the initializer, then a `while` loop on the
condition (`true` when absent) whose body is the loop body followed by the increment; absent parts
are left out. -/
def forLoop (init : Option Stmt) (cond incr : Option Expr) (body : Stmt) : Stmt :=
  let body := match incr with
    | some i => .block [body, .expression i]
    | none => body
  let loop := Stmt.whileLoop (cond.getD (.literal (.bool true))) body
  match init with
  | some i => .block [i, loop]
  | none => loop

mutual

/-- `declaration → classDecl | funDecl | varDecl | statement`, with
`classDecl → "class" IDENT ( "<" IDENT )? "{" function* "}"` and `funDecl → "fun" function`. -/
inductive Declaration : List Token → Stmt → List Token → Prop
  | classDecl {kw name lb rb : Token} {ts sup r methods rest} (isClass : kw.kind = .classKw)
      (ident : name.kind = .identifier) (superclass : Superclass ts sup (lb :: r)) (opens : lb.kind = .leftBrace)
      (body : Functions r methods (rb :: rest)) (closes : rb.kind = .rightBrace) :
      Declaration (kw :: name :: ts) (.classDecl name sup methods) rest
  | function {kw : Token} {ts d rest} (isFun : kw.kind = .funKw) (decl : Function ts d rest) :
      Declaration (kw :: ts) (.function d) rest
  | var {kw : Token} {ts s rest} (isVar : kw.kind = .varKw) (decl : VarDecl ts s rest) :
      Declaration (kw :: ts) s rest
  | statement {ts s rest} (stmt : Statement ts s rest) : Declaration ts s rest

/-- `statement → exprStmt | forStmt | ifStmt | printStmt | returnStmt | whileStmt | block`. -/
inductive Statement : List Token → Stmt → List Token → Prop
  | expression {semi : Token} {ts e rest} (e' : Expression ts e (semi :: rest)) (ends : semi.kind = .semicolon) :
      Statement ts (.expression e) rest
  | print {kw semi : Token} {ts e rest} (isPrint : kw.kind = .printKw) (e' : Expression ts e (semi :: rest))
      (ends : semi.kind = .semicolon) : Statement (kw :: ts) (.print e) rest
  | returnStmt {kw semi : Token} {ts v rest} (isReturn : kw.kind = .returnKw)
      (value : OptExpression ts v (semi :: rest)) (ends : semi.kind = .semicolon) :
      Statement (kw :: ts) (.returnStmt kw v) rest
  | block {lb rb : Token} {ts body rest} (opens : lb.kind = .leftBrace) (decls : Declarations ts body (rb :: rest))
      (closes : rb.kind = .rightBrace) : Statement (lb :: ts) (.block body) rest
  | ifThen {kw lp rp : Token} {ts c r t rest} (isIf : kw.kind = .ifKw) (opens : lp.kind = .leftParen)
      (cond : Expression ts c (rp :: r)) (closes : rp.kind = .rightParen) (thenBranch : Statement r t rest)
      (noElse : NoElse rest) : Statement (kw :: lp :: ts) (.ifElse c t none) rest
  | ifElse {kw lp rp el : Token} {ts c r t r' f rest} (isIf : kw.kind = .ifKw) (opens : lp.kind = .leftParen)
      (cond : Expression ts c (rp :: r)) (closes : rp.kind = .rightParen) (thenBranch : Statement r t (el :: r'))
      (isElse : el.kind = .elseKw) (elseBranch : Statement r' f rest) :
      Statement (kw :: lp :: ts) (.ifElse c t (some f)) rest
  | whileLoop {kw lp rp : Token} {ts c r b rest} (isWhile : kw.kind = .whileKw) (opens : lp.kind = .leftParen)
      (cond : Expression ts c (rp :: r)) (closes : rp.kind = .rightParen) (body : Statement r b rest) :
      Statement (kw :: lp :: ts) (.whileLoop c b) rest
  | forLoop {kw lp semi rp : Token} {ts init r1 cond r2 incr r3 body rest} (isFor : kw.kind = .forKw)
      (opens : lp.kind = .leftParen) (first : ForInit ts init r1) (condition : OptExpression r1 cond (semi :: r2))
      (ends : semi.kind = .semicolon) (increment : OptExpression r2 incr (rp :: r3))
      (closes : rp.kind = .rightParen) (loop : Statement r3 body rest) :
      Statement (kw :: lp :: ts) (forLoop init cond incr body) rest

/-- `declaration*`. -/
inductive Declarations : List Token → List Stmt → List Token → Prop
  | done {ts} : Declarations ts [] ts
  | more {ts s r ss rest} (first : Declaration ts s r) (tail : Declarations r ss rest) :
      Declarations ts (s :: ss) rest

/-- `function → IDENT "(" parameters? ")" block`, with at most 255 parameters. -/
inductive Function : List Token → FunDecl → List Token → Prop
  | mk {name lp rp lb rb : Token} {ts params r body rest} (ident : name.kind = .identifier)
      (opens : lp.kind = .leftParen) (parameters : Parameters ts params (rp :: lb :: r))
      (closes : rp.kind = .rightParen) (few : params.length ≤ 255) (bodyOpens : lb.kind = .leftBrace)
      (decls : Declarations r body (rb :: rest)) (bodyCloses : rb.kind = .rightBrace) :
      Function (name :: lp :: ts) (.mk name params body) rest

/-- `function*`, the methods of a class body. -/
inductive Functions : List Token → List FunDecl → List Token → Prop
  | done {ts} : Functions ts [] ts
  | more {ts d r ds rest} (first : Function ts d r) (tail : Functions r ds rest) :
      Functions ts (d :: ds) rest

end

/-! ### The shape of what the repetitions build -/

/-- An expression that no operator builds: what a call derives. -/
def Plain : Expr → Prop
  | .logical .. => False
  | .binary .. => False
  | .unary .. => False
  | .assign .. => False
  | .set .. => False
  | _ => True

theorem OrTail.shape {ts left e rest} : OrTail ts left e rest →
    (e = left ∧ ts = rest) ∨ ∃ l op r, e = .logical l op r
  | .done => .inl ⟨rfl,rfl⟩
  | .more _ _ tail =>
    match OrTail.shape tail with
    | .inl ⟨same,_⟩ => .inr ⟨_,_,_,same⟩
    | .inr built => .inr built

theorem AndTail.shape {ts left e rest} : AndTail ts left e rest →
    (e = left ∧ ts = rest) ∨ ∃ l op r, e = .logical l op r
  | .done => .inl ⟨rfl,rfl⟩
  | .more _ _ tail =>
    match AndTail.shape tail with
    | .inl ⟨same,_⟩ => .inr ⟨_,_,_,same⟩
    | .inr built => .inr built

theorem BinaryTail.shape {lvl ts left e rest} : BinaryTail lvl ts left e rest →
    (e = left ∧ ts = rest) ∨ ∃ l op r, e = .binary l op r
  | .done => .inl ⟨rfl,rfl⟩
  | .more _ _ tail =>
    match BinaryTail.shape tail with
    | .inl ⟨same,_⟩ => .inr ⟨_,_,_,same⟩
    | .inr built => .inr built

/-- A call tail that ends in a property read is the tail up to its last `.` and name. -/
theorem CallTail.last_get {ts callee e rest} : CallTail ts callee e rest → ∀ {o name}, e = .get o name →
    (callee = .get o name ∧ ts = rest) ∨
      ∃ dot : Token, dot.kind = .dot ∧ name.kind = .identifier ∧ CallTail ts callee o (dot :: name :: rest)
  | .done, _, _, same => .inl ⟨same,rfl⟩
  | .call opens arguments closes few tail, _, _, same =>
    match CallTail.last_get tail same with
    | .inl ⟨built,_⟩ => by cases built
    | .inr ⟨dot,isDot,ident,tail'⟩ => .inr ⟨dot,isDot,ident,.call opens arguments closes few tail'⟩
  | .get isDot ident tail, _, _, same =>
    match CallTail.last_get tail same with
    | .inl ⟨built,rest⟩ => by
      cases built
      subst rest
      exact .inr ⟨_,isDot,ident,.done⟩
    | .inr ⟨dot,isDot',ident',tail'⟩ => .inr ⟨dot,isDot',ident',.get isDot ident tail'⟩

theorem CallTail.shape {ts callee e rest} : CallTail ts callee e rest →
    (e = callee ∧ ts = rest) ∨ (∃ c p args, e = .call c p args) ∨ ∃ o n, e = .get o n
  | .done => .inl ⟨rfl,rfl⟩
  | .call _ _ _ _ tail =>
    match CallTail.shape tail with
    | .inl ⟨same,_⟩ => .inr (.inl ⟨_,_,_,same⟩)
    | .inr built => .inr built
  | .get _ _ tail =>
    match CallTail.shape tail with
    | .inl ⟨same,_⟩ => .inr (.inr ⟨_,_,same⟩)
    | .inr built => .inr built

mutual

theorem Binary.unary_of_plain {lvl ts e rest} (plain : Plain e) : Binary lvl ts e rest → Unary ts e rest
  | .mk head tail =>
    match BinaryTail.shape tail with
    | .inl ⟨same,rest⟩ => same ▸ rest ▸ Operand.unary_of_plain (same ▸ plain) head
    | .inr ⟨_,_,_,built⟩ => by subst built; exact plain.elim

theorem Operand.unary_of_plain {lvl ts e rest} (plain : Plain e) : Operand lvl ts e rest → Unary ts e rest
  | .next _ operand => Binary.unary_of_plain plain operand
  | .unary _ operand => operand

end

/-- What `logic_or` derives without an operator of its own is a call. -/
theorem LogicOr.call_of_plain {ts e rest} (plain : Plain e) : LogicOr ts e rest → Call ts e rest
  | .mk (.mk head andTail) orTail => by
    rcases OrTail.shape orTail with ⟨rfl,rfl⟩ | ⟨_,_,_,rfl⟩
    · rcases AndTail.shape andTail with ⟨rfl,rfl⟩ | ⟨_,_,_,rfl⟩
      · cases Binary.unary_of_plain plain head with
        | operator => exact plain.elim
        | call call => exact call
      · exact plain.elim
    · exact plain.elim

/-- A call that is a lone name is the name token. -/
theorem Call.ident_inv {ts name addr rest} (h : Call ts (.ident name addr) rest) :
    ts = name :: rest ∧ name.kind = .identifier ∧ addr = .global := by
  obtain ⟨head,tail⟩ := h
  rcases CallTail.shape tail with ⟨rfl,rfl⟩ | ⟨_,_,_,built⟩ | ⟨_,_,built⟩
  · cases head with
    | ident is => exact ⟨rfl,is,rfl⟩
  · cases built
  · cases built

/-- A call tail followed by `.` and a name extends to a tail that reads that property. -/
theorem CallTail.get_last {ts callee o dot name rest} (isDot : dot.kind = .dot) (ident : name.kind = .identifier) :
    ∀ {r}, CallTail ts callee o r → r = dot :: name :: rest → CallTail ts callee (.get o name) rest
  | _, .done, split => by
    subst split
    exact .get isDot ident .done
  | _, .call opens arguments closes few tail, split =>
    .call opens arguments closes few (CallTail.get_last isDot ident tail split)
  | _, .get isDot' ident' tail, split => .get isDot' ident' (CallTail.get_last isDot ident tail split)

/-- A call that reads a property is a call followed by `.` and the property's name. -/
theorem Call.get_iff {ts o name rest} : Call ts (.get o name) rest ↔
    ∃ dot : Token, dot.kind = .dot ∧ name.kind = .identifier ∧ Call ts o (dot :: name :: rest) := by
  constructor
  · rintro ⟨head,tail⟩
    rcases CallTail.last_get tail rfl with ⟨rfl,rfl⟩ | ⟨dot,isDot,ident,tail'⟩
    · cases head
    · exact ⟨dot,isDot,ident,.mk head tail'⟩
  · rintro ⟨dot,isDot,ident,head,tail⟩
    exact .mk head (tail.get_last isDot ident rfl)

/-- What a call derives, `logic_or` derives too, with no operator. -/
theorem Call.logicOr {ts e rest} (call : Call ts e rest) : LogicOr ts e rest :=
  have factor : Binary .factor ts e rest := .mk (.unary rfl (.call call)) .done
  have term : Binary .term ts e rest := .mk (.next rfl factor) .done
  have comparison : Binary .comparison ts e rest := .mk (.next rfl term) .done
  have equality : Binary .equality ts e rest := .mk (.next rfl comparison) .done
  .mk (.mk equality .done) .done

/-! ### The first token of each rule -/

/-- The tokens start with a token of a kind that `starts` accepts. -/
def StartsWith (starts : TokenKind → Bool) (ts : List Token) : Prop :=
  ∃ t r, ts = t :: r ∧ starts t.kind = true

theorem Primary.first {ts e rest} (h : Primary ts e rest) : StartsWith TokenKind.startsPrimary ts := by
  cases h <;> exact ⟨_, _, rfl, by simp [*,TokenKind.startsPrimary]⟩

theorem Call.first {ts e rest} : Call ts e rest → StartsWith TokenKind.startsPrimary ts
  | .mk head _ => head.first

theorem Unary.first {ts e rest} : Unary ts e rest → StartsWith TokenKind.startsExpression ts
  | .operator isOperator _ => by
    rcases isOperator with is | is <;> exact ⟨_, _, rfl, by simp [TokenKind.startsExpression,is]⟩
  | .call inner => by
    obtain ⟨t, r, split, starts⟩ := inner.first
    refine ⟨t, r, split, ?_⟩
    cases k : t.kind <;> simp_all [TokenKind.startsExpression,TokenKind.startsPrimary]

mutual

theorem Binary.first {lvl ts e rest} : Binary lvl ts e rest → StartsWith TokenKind.startsExpression ts
  | .mk head _ => head.first

theorem Operand.first {lvl ts e rest} : Operand lvl ts e rest → StartsWith TokenKind.startsExpression ts
  | .next _ operand => operand.first
  | .unary _ operand => operand.first

end

theorem LogicAnd.first {ts e rest} : LogicAnd ts e rest → StartsWith TokenKind.startsExpression ts
  | .mk head _ => head.first

theorem LogicOr.first {ts e rest} : LogicOr ts e rest → StartsWith TokenKind.startsExpression ts
  | .mk head _ => head.first

theorem Expression.first {ts e rest} : Expression ts e rest → StartsWith TokenKind.startsExpression ts
  | .assign ident _ _ => ⟨_, _, rfl, by simp [TokenKind.startsExpression,TokenKind.startsPrimary,ident]⟩
  | .set target _ _ => target.logicOr.first
  | .logicOr or => or.first

theorem Statement.first {ts s rest} (h : Statement ts s rest) : StartsWith TokenKind.startsStatement ts := by
  cases h with
  | expression e' =>
    obtain ⟨t, r, split, starts⟩ := e'.first
    refine ⟨t, r, split, ?_⟩
    cases k : t.kind <;> simp_all [TokenKind.startsStatement]
  | _ => exact ⟨_, _, rfl, by simp [*,TokenKind.startsStatement]⟩

theorem Declaration.first {ts s rest} (h : Declaration ts s rest) : StartsWith TokenKind.startsDeclaration ts := by
  cases h with
  | statement stmt =>
    obtain ⟨t, r, split, starts⟩ := stmt.first
    refine ⟨t, r, split, ?_⟩
    cases k : t.kind <;> simp_all [TokenKind.startsDeclaration]
  | _ => exact ⟨_, _, rfl, by simp [*,TokenKind.startsDeclaration]⟩

/-- A function starts with its name. -/
theorem Function.first {ts d rest} : Function ts d rest → ∃ name r, ts = name :: r ∧ name.kind = .identifier
  | .mk ident _ _ _ _ _ _ _ => ⟨_, _, rfl, ident⟩

/-! ### What the rules consume

Every rule that derives a value consumes at least one token; the repetitions and options consume
none or more. -/

mutual

theorem Expression.length_lt {ts e rest} : Expression ts e rest → rest.length < ts.length
  | .assign _ _ rhs => by
    have := rhs.length_lt
    simp only [List.length_cons]
    omega
  | .set target _ rhs => by
    have := target.length_lt
    have := rhs.length_lt
    simp only [List.length_cons] at *
    omega
  | .logicOr or => or.length_lt

theorem LogicOr.length_lt {ts e rest} : LogicOr ts e rest → rest.length < ts.length
  | .mk head tail => Nat.lt_of_le_of_lt tail.length_le head.length_lt

theorem OrTail.length_le {ts left e rest} : OrTail ts left e rest → rest.length ≤ ts.length
  | .done => Nat.le_refl _
  | .more _ operand tail => by
    have := operand.length_lt
    have := tail.length_le
    simp only [List.length_cons]
    omega

theorem LogicAnd.length_lt {ts e rest} : LogicAnd ts e rest → rest.length < ts.length
  | .mk head tail => Nat.lt_of_le_of_lt tail.length_le head.length_lt

theorem AndTail.length_le {ts left e rest} : AndTail ts left e rest → rest.length ≤ ts.length
  | .done => Nat.le_refl _
  | .more _ operand tail => by
    have := operand.length_lt
    have := tail.length_le
    simp only [List.length_cons]
    omega

theorem Binary.length_lt {lvl ts e rest} : Binary lvl ts e rest → rest.length < ts.length
  | .mk head tail => Nat.lt_of_le_of_lt tail.length_le head.length_lt

theorem Operand.length_lt {lvl ts e rest} : Operand lvl ts e rest → rest.length < ts.length
  | .next _ operand => operand.length_lt
  | .unary _ operand => operand.length_lt

theorem BinaryTail.length_le {lvl ts left e rest} : BinaryTail lvl ts left e rest → rest.length ≤ ts.length
  | .done => Nat.le_refl _
  | .more _ operand tail => by
    have := operand.length_lt
    have := tail.length_le
    simp only [List.length_cons]
    omega

theorem Unary.length_lt {ts e rest} : Unary ts e rest → rest.length < ts.length
  | .operator _ operand => by
    have := operand.length_lt
    simp only [List.length_cons]
    omega
  | .call call => call.length_lt

theorem Call.length_lt {ts e rest} : Call ts e rest → rest.length < ts.length
  | .mk head tail => Nat.lt_of_le_of_lt tail.length_le head.length_lt

theorem CallTail.length_le {ts callee e rest} : CallTail ts callee e rest → rest.length ≤ ts.length
  | .done => Nat.le_refl _
  | .call _ arguments _ _ tail => by
    have := arguments.length_le
    have := tail.length_le
    simp only [List.length_cons] at *
    omega
  | .get _ _ tail => by
    have := tail.length_le
    simp only [List.length_cons]
    omega

theorem Arguments.length_le {ts args rest} : Arguments ts args rest → rest.length ≤ ts.length
  | .none => Nat.le_refl _
  | .some first more => Nat.le_of_lt (Nat.lt_of_le_of_lt more.length_le first.length_lt)

theorem MoreArguments.length_le {ts args rest} : MoreArguments ts args rest → rest.length ≤ ts.length
  | .done => Nat.le_refl _
  | .more _ arg tail => by
    have := arg.length_lt
    have := tail.length_le
    simp only [List.length_cons]
    omega

theorem Primary.length_lt {ts e rest} : Primary ts e rest → rest.length < ts.length
  | .false _ | .true _ | .nil _ | .number _ | .string _ | .this _ | .ident _ => by simp
  | .group _ inner _ => by
    have := inner.length_lt
    simp only [List.length_cons] at *
    omega
  | .super _ _ _ => by simp only [List.length_cons]; omega

end

theorem OptExpression.length_le {ts v rest} : OptExpression ts v rest → rest.length ≤ ts.length
  | .none => Nat.le_refl _
  | .some e' => Nat.le_of_lt e'.length_lt

theorem MoreParameters.length_le {ts ps rest} : MoreParameters ts ps rest → rest.length ≤ ts.length
  | .done => Nat.le_refl _
  | .more _ _ tail => by
    have := tail.length_le
    simp only [List.length_cons]
    omega

theorem Parameters.length_le {ts ps rest} : Parameters ts ps rest → rest.length ≤ ts.length
  | .none => Nat.le_refl _
  | .some _ more => by
    have := more.length_le
    simp only [List.length_cons]
    omega

theorem VarDecl.length_lt {ts s rest} : VarDecl ts s rest → rest.length < ts.length
  | .bare _ _ => by simp only [List.length_cons]; omega
  | .init _ _ value _ => by
    have := value.length_lt
    simp only [List.length_cons] at *
    omega

theorem ForInit.length_lt {ts init rest} : ForInit ts init rest → rest.length < ts.length
  | .none _ => by simp
  | .var _ decl => by
    have := decl.length_lt
    simp only [List.length_cons]
    omega
  | .expression e' _ => by
    have := e'.length_lt
    simp only [List.length_cons] at *
    omega

theorem Superclass.length_le {ts sup rest} : Superclass ts sup rest → rest.length ≤ ts.length
  | .none => Nat.le_refl _
  | .some _ _ => by simp only [List.length_cons]; omega

mutual

theorem Declaration.length_lt {ts s rest} : Declaration ts s rest → rest.length < ts.length
  | .classDecl _ _ superclass _ body _ => by
    have := superclass.length_le
    have := body.length_le
    simp only [List.length_cons] at *
    omega
  | .function _ decl => by
    have := decl.length_lt
    simp only [List.length_cons]
    omega
  | .var _ decl => by
    have := decl.length_lt
    simp only [List.length_cons]
    omega
  | .statement stmt => stmt.length_lt

theorem Statement.length_lt {ts s rest} : Statement ts s rest → rest.length < ts.length
  | .expression e' _ => by
    have := e'.length_lt
    simp only [List.length_cons] at *
    omega
  | .print _ e' _ => by
    have := e'.length_lt
    simp only [List.length_cons] at *
    omega
  | .returnStmt _ value _ => by
    have := value.length_le
    simp only [List.length_cons] at *
    omega
  | .block _ decls _ => by
    have := decls.length_le
    simp only [List.length_cons] at *
    omega
  | .ifThen _ _ cond _ thenBranch _ => by
    have := cond.length_lt
    have := thenBranch.length_lt
    simp only [List.length_cons] at *
    omega
  | .ifElse _ _ cond _ thenBranch _ elseBranch => by
    have := cond.length_lt
    have := thenBranch.length_lt
    have := elseBranch.length_lt
    simp only [List.length_cons] at *
    omega
  | .whileLoop _ _ cond _ body => by
    have := cond.length_lt
    have := body.length_lt
    simp only [List.length_cons] at *
    omega
  | .forLoop _ _ first condition _ increment _ loop => by
    have := first.length_lt
    have := condition.length_le
    have := increment.length_le
    have := loop.length_lt
    simp only [List.length_cons] at *
    omega

theorem Declarations.length_le {ts ss rest} : Declarations ts ss rest → rest.length ≤ ts.length
  | .done => Nat.le_refl _
  | .more first tail => Nat.le_of_lt (Nat.lt_of_le_of_lt tail.length_le first.length_lt)

theorem Function.length_lt {ts d rest} : Function ts d rest → rest.length < ts.length
  | .mk _ _ parameters _ _ _ decls _ => by
    have := parameters.length_le
    have := decls.length_le
    simp only [List.length_cons] at *
    omega

theorem Functions.length_le {ts ds rest} : Functions ts ds rest → rest.length ≤ ts.length
  | .done => Nat.le_refl _
  | .more first tail => Nat.le_of_lt (Nat.lt_of_le_of_lt tail.length_le first.length_lt)

end

end Lox.Grammar

namespace Lox

/-- Whether a kind carries a payload: the contents of a string or the value of a number. -/
def TokenKind.carries : TokenKind → Bool
  | .string _ => true
  | .number _ => true
  | _ => false

/-- For a kind without payload, being the same kind is being that kind. -/
theorem TokenKind.same_iff {k k' : TokenKind} (free : k'.carries = false) : k.same k' = true ↔ k = k' := by
  cases k' <;> simp [TokenKind.carries] at free <;> cases k <;> simp [TokenKind.same,TokenKind.name]

end Lox
