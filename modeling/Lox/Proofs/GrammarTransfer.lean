import Lox.Proofs.LineMaps
import Lox.Proofs.ParserComplete
/-!
A derivation reads only the tokens it consumes, and of those only their kinds. Each rule of the
grammar that derives `x` from `ts` leaving `rest` consumes a prefix `pre` of `ts`, and derives the
renumbered `x` from the renumbered `pre` followed by any other rest that the dangling-`else` rule
allows (`Grammar.Transfers`). So two programs' token lists join: the statements of the first,
then the second's renumbered (`Grammar.Declarations.join`), which is what the parser answers for
the joined tokens (`Stmt.parseProgram_join`).
-/
namespace Lox.Grammar

/-- A derivation of `x` from `ts` that leaves `rest` carries over: `ts` is some `pre` followed by
`rest`, and for every renumbering `g` the rule `R g` derives the renumbered `x` from the renumbered
`pre` followed by any `rest'` that may follow where `rest` may. -/
def Transfers {α : Type} (R : (Nat → Nat) → List Token → α → List Token → Prop) (mapX : (Nat → Nat) → α → α)
    (ts : List Token) (x : α) (rest : List Token) : Prop :=
  ∃ pre, ts = pre ++ rest ∧
    ∀ g rest', (NoElse rest → NoElse rest') → R g (pre.map (Token.mapLines g) ++ rest') (mapX g x) rest'

/-- Whether an `else` follows depends on the first token only. -/
theorem NoElse.transfer {p rest rest' : List Token} (g : Nat → Nat) (keep : NoElse rest → NoElse rest')
    (noElse : NoElse (p ++ rest)) : NoElse (p.map (Token.mapLines g) ++ rest') := by
  cases p with
  | nil => exact keep noElse
  | cons t p => exact noElse

/-- After a token, whether an `else` follows is read off that token alone. -/
theorem NoElse.mapLines_cons {t : Token} {r r' : List Token} (g : Nat → Nat) :
    NoElse (t :: r) → NoElse (t.mapLines g :: r') :=
  id

/-- A first part and the rest of a level that derives it carry over together, the rest taking the
first part's renumbered expression as its left operand. -/
theorem Transfers.join {H R : List Token → Expr → List Token → Prop} {T : List Token → Expr → Expr → List Token → Prop}
    {ts r rest : List Token} {first e : Expr}
    (mk : ∀ {ts first r e rest}, H ts first r → T r first e rest → R ts e rest)
    (head : Transfers (fun _ => H) Expr.mapLines ts first r)
    (tail : Transfers (fun g ts e rest => T ts (first.mapLines g) e rest) Expr.mapLines r e rest) :
    Transfers (fun _ => R) Expr.mapLines ts e rest := by
  obtain ⟨⟨p₁, rfl, head'⟩, p₂, rfl, tail'⟩ := And.intro head tail
  refine ⟨p₁ ++ p₂, by simp, fun g rest' keep => ?_⟩
  simp only [List.map_append, List.append_assoc]
  exact mk (head' g _ (NoElse.transfer g keep)) (tail' g rest' keep)

/-- An operator, its right operand and the rest of the level carry over together; the renumbered
left operand joins the renumbered right one. -/
theorem Transfers.more {K : TokenKind → Prop} {H : List Token → Expr → List Token → Prop}
    {T : List Token → Expr → Expr → List Token → Prop} (combine : Expr → Token → Expr → Expr)
    (mapCombine : ∀ g l t r, (combine l t r).mapLines g = combine (l.mapLines g) (t.mapLines g) (r.mapLines g))
    (more : ∀ {op : Token} {ts left right r e rest}, K op.kind → H ts right r → T r (combine left op right) e rest →
      T (op :: ts) left e rest)
    {op : Token} {ts r rest : List Token} {left right e : Expr} (isOp : K op.kind)
    (operand : Transfers (fun _ => H) Expr.mapLines ts right r)
    (tail : Transfers (fun g ts e rest => T ts ((combine left op right).mapLines g) e rest) Expr.mapLines r e rest) :
    Transfers (fun g ts e rest => T ts (left.mapLines g) e rest) Expr.mapLines (op :: ts) e rest := by
  obtain ⟨⟨p₁, rfl, operand'⟩, p₂, rfl, tail'⟩ := And.intro operand tail
  refine ⟨_ :: (p₁ ++ p₂), by rw [List.cons_append, List.append_assoc], fun g rest' keep => ?_⟩
  simp only [List.map_cons, List.map_append, List.append_assoc, List.cons_append]
  have joined := tail' g rest' keep
  simp only [mapCombine] at joined
  exact more isOp (operand' g _ (NoElse.transfer g keep)) joined

mutual

theorem Expression.transfer {ts e rest} : Expression ts e rest → Transfers (fun _ => Expression) Expr.mapLines ts e rest
  | .assign ident equals rhs => by
    obtain ⟨p, rfl, rhs'⟩ := rhs.transfer
    exact ⟨_ :: _ :: p, rfl, fun g rest' keep => .assign ident equals (rhs' g rest' keep)⟩
  | .set target equals rhs => by
    obtain ⟨⟨p₁, rfl, target'⟩, p₂, rfl, rhs'⟩ := And.intro target.transfer rhs.transfer
    refine ⟨p₁ ++ _ :: p₂, by rw [List.append_assoc, List.cons_append], fun g rest' keep => ?_⟩
    simp only [List.map_append, List.map_cons, List.append_assoc, List.cons_append]
    exact .set (target' g _ (NoElse.mapLines_cons g)) equals (rhs' g rest' keep)
  | .logicOr or => by
    obtain ⟨p, rfl, or'⟩ := or.transfer
    exact ⟨p, rfl, fun g rest' keep => .logicOr (or' g rest' keep)⟩

theorem LogicOr.transfer {ts e rest} : LogicOr ts e rest → Transfers (fun _ => LogicOr) Expr.mapLines ts e rest
  | .mk head tail => Transfers.join @LogicOr.mk head.transfer tail.transfer

theorem OrTail.transfer {ts left e rest} :
    OrTail ts left e rest → Transfers (fun g ts e rest => OrTail ts (left.mapLines g) e rest) Expr.mapLines ts e rest
  | .done => ⟨[], rfl, fun _ _ _ => .done⟩
  | .more isOr operand tail =>
    Transfers.more (K := (· = .orKw)) .logical (fun _ _ _ _ => rfl) (@OrTail.more) isOr
      operand.transfer tail.transfer

theorem LogicAnd.transfer {ts e rest} : LogicAnd ts e rest → Transfers (fun _ => LogicAnd) Expr.mapLines ts e rest
  | .mk head tail => Transfers.join @LogicAnd.mk head.transfer tail.transfer

theorem AndTail.transfer {ts left e rest} :
    AndTail ts left e rest → Transfers (fun g ts e rest => AndTail ts (left.mapLines g) e rest) Expr.mapLines ts e rest
  | .done => ⟨[], rfl, fun _ _ _ => .done⟩
  | .more isAnd operand tail =>
    Transfers.more (K := (· = .andKw)) .logical (fun _ _ _ _ => rfl) (@AndTail.more) isAnd
      operand.transfer tail.transfer

theorem Binary.transfer {lvl ts e rest} : Binary lvl ts e rest → Transfers (fun _ => Binary lvl) Expr.mapLines ts e rest
  | .mk head tail => Transfers.join (@Binary.mk lvl) head.transfer tail.transfer

theorem Operand.transfer {lvl ts e rest} : Operand lvl ts e rest → Transfers (fun _ => Operand lvl) Expr.mapLines ts e rest
  | .next tighter operand => by
    obtain ⟨p, rfl, operand'⟩ := operand.transfer
    exact ⟨p, rfl, fun g rest' keep => .next tighter (operand' g rest' keep)⟩
  | .unary last operand => by
    obtain ⟨p, rfl, operand'⟩ := operand.transfer
    exact ⟨p, rfl, fun g rest' keep => .unary last (operand' g rest' keep)⟩

theorem BinaryTail.transfer {lvl ts left e rest} : BinaryTail lvl ts left e rest →
    Transfers (fun g ts e rest => BinaryTail lvl ts (left.mapLines g) e rest) Expr.mapLines ts e rest
  | .done => ⟨[], rfl, fun _ _ _ => .done⟩
  | .more isOp operand tail =>
    Transfers.more (K := (· ∈ lvl.ops)) .binary (fun _ _ _ _ => rfl) (@BinaryTail.more lvl) isOp
      operand.transfer tail.transfer

theorem Unary.transfer {ts e rest} : Unary ts e rest → Transfers (fun _ => Unary) Expr.mapLines ts e rest
  | .operator isOperator operand => by
    obtain ⟨p, rfl, operand'⟩ := operand.transfer
    exact ⟨_ :: p, rfl, fun g rest' keep => .operator isOperator (operand' g rest' keep)⟩
  | .call call => by
    obtain ⟨p, rfl, call'⟩ := call.transfer
    exact ⟨p, rfl, fun g rest' keep => .call (call' g rest' keep)⟩

theorem Call.transfer {ts e rest} : Call ts e rest → Transfers (fun _ => Call) Expr.mapLines ts e rest
  | .mk head tail => Transfers.join @Call.mk head.transfer tail.transfer

theorem CallTail.transfer {ts callee e rest} : CallTail ts callee e rest →
    Transfers (fun g ts e rest => CallTail ts (callee.mapLines g) e rest) Expr.mapLines ts e rest
  | .done => ⟨[], rfl, fun _ _ _ => .done⟩
  | .call opens arguments closes few tail => by
    obtain ⟨⟨p₁, rfl, arguments'⟩, p₂, rfl, tail'⟩ := And.intro arguments.transfer tail.transfer
    refine ⟨_ :: (p₁ ++ _ :: p₂), by rw [List.cons_append, List.append_assoc, List.cons_append], fun g rest' keep => ?_⟩
    simp only [List.map_cons, List.map_append, List.append_assoc, List.cons_append]
    exact .call opens (arguments' g _ (NoElse.mapLines_cons g)) closes
      (by rw [Expr.length_mapLinesAll]; exact few) (tail' g rest' keep)
  | .get isDot ident tail => by
    obtain ⟨p, rfl, tail'⟩ := tail.transfer
    exact ⟨_ :: _ :: p, rfl, fun g rest' keep => .get isDot ident (tail' g rest' keep)⟩

theorem Arguments.transfer {ts args rest} : Arguments ts args rest →
    Transfers (fun _ => Arguments) Expr.mapLinesAll ts args rest
  | .none => ⟨[], rfl, fun _ _ _ => .none⟩
  | .some first more => by
    obtain ⟨⟨p₁, rfl, first'⟩, p₂, rfl, more'⟩ := And.intro first.transfer more.transfer
    refine ⟨p₁ ++ p₂, by simp, fun g rest' keep => ?_⟩
    simp only [List.map_append, List.append_assoc]
    exact .some (first' g _ (NoElse.transfer g keep)) (more' g rest' keep)

theorem MoreArguments.transfer {ts args rest} : MoreArguments ts args rest →
    Transfers (fun _ => MoreArguments) Expr.mapLinesAll ts args rest
  | .done => ⟨[], rfl, fun _ _ _ => .done⟩
  | .more isComma arg tail => by
    obtain ⟨⟨p₁, rfl, arg'⟩, p₂, rfl, tail'⟩ := And.intro arg.transfer tail.transfer
    refine ⟨_ :: (p₁ ++ p₂), by rw [List.cons_append, List.append_assoc], fun g rest' keep => ?_⟩
    simp only [List.map_cons, List.map_append, List.append_assoc, List.cons_append]
    exact .more isComma (arg' g _ (NoElse.transfer g keep)) (tail' g rest' keep)

theorem Primary.transfer {ts e rest} : Primary ts e rest → Transfers (fun _ => Primary) Expr.mapLines ts e rest
  | .false is => ⟨[_], rfl, fun _ _ _ => .false is⟩
  | .true is => ⟨[_], rfl, fun _ _ _ => .true is⟩
  | .nil is => ⟨[_], rfl, fun _ _ _ => .nil is⟩
  | .number is => ⟨[_], rfl, fun _ _ _ => .number is⟩
  | .string is => ⟨[_], rfl, fun _ _ _ => .string is⟩
  | .this is => ⟨[_], rfl, fun _ _ _ => .this is⟩
  | .ident is => ⟨[_], rfl, fun _ _ _ => .ident is⟩
  | .group opens inner closes => by
    obtain ⟨p, rfl, inner'⟩ := inner.transfer
    refine ⟨_ :: (p ++ [_]), by rw [List.cons_append, List.append_assoc, List.singleton_append], fun g rest' keep => ?_⟩
    simp only [List.map_cons, List.map_append, List.map_nil, List.append_assoc, List.cons_append, List.nil_append]
    exact .group opens (inner' g _ (NoElse.mapLines_cons g)) closes
  | .super is isDot ident => ⟨[_, _, _], rfl, fun _ _ _ => .super is isDot ident⟩

end

end Lox.Grammar

namespace Lox.Grammar

theorem OptExpression.transfer {ts v rest} : OptExpression ts v rest →
    Transfers (fun _ => OptExpression) (fun g => Option.map (Expr.mapLines g)) ts v rest
  | .none => ⟨[], rfl, fun _ _ _ => .none⟩
  | .some e' => by
    obtain ⟨p, rfl, e''⟩ := e'.transfer
    exact ⟨p, rfl, fun g rest' keep => .some (e'' g rest' keep)⟩

theorem MoreParameters.transfer {ts ps rest} : MoreParameters ts ps rest →
    Transfers (fun _ => MoreParameters) (fun g => List.map (Token.mapLines g)) ts ps rest
  | .done => ⟨[], rfl, fun _ _ _ => .done⟩
  | .more isComma ident tail => by
    obtain ⟨p, rfl, tail'⟩ := tail.transfer
    exact ⟨_ :: _ :: p, rfl, fun g rest' keep => .more isComma ident (tail' g rest' keep)⟩

theorem Parameters.transfer {ts ps rest} : Parameters ts ps rest →
    Transfers (fun _ => Parameters) (fun g => List.map (Token.mapLines g)) ts ps rest
  | .none => ⟨[], rfl, fun _ _ _ => .none⟩
  | .some ident more => by
    obtain ⟨p, rfl, more'⟩ := more.transfer
    exact ⟨_ :: p, rfl, fun g rest' keep => .some ident (more' g rest' keep)⟩

theorem VarDecl.transfer {ts s rest} : VarDecl ts s rest → Transfers (fun _ => VarDecl) Stmt.mapLines ts s rest
  | .bare ident ends => ⟨[_, _], rfl, fun _ _ _ => .bare ident ends⟩
  | .init ident equals value ends => by
    obtain ⟨p, rfl, value'⟩ := value.transfer
    refine ⟨_ :: _ :: (p ++ [_]), by simp only [List.append_assoc, List.cons_append, List.nil_append]; rfl,
      fun g rest' keep => ?_⟩
    simp only [List.map_cons, List.map_append, List.map_nil, List.append_assoc, List.cons_append, List.nil_append]
    exact .init ident equals (value' g _ (NoElse.mapLines_cons g)) ends

theorem ForInit.transfer {ts s rest} : ForInit ts s rest → Transfers (fun _ => ForInit) Stmt.mapLinesOpt ts s rest
  | .none ends => ⟨[_], rfl, fun _ _ _ => .none ends⟩
  | .var isVar decl => by
    obtain ⟨p, rfl, decl'⟩ := decl.transfer
    exact ⟨_ :: p, rfl, fun g rest' keep => .var isVar (decl' g rest' keep)⟩
  | .expression e' ends => by
    obtain ⟨p, rfl, e''⟩ := e'.transfer
    refine ⟨p ++ [_], by simp only [List.append_assoc, List.cons_append, List.nil_append]; rfl,
      fun g rest' keep => ?_⟩
    simp only [List.map_append, List.map_cons, List.map_nil, List.append_assoc, List.cons_append, List.nil_append]
    exact .expression (e'' g _ (NoElse.mapLines_cons g)) ends

theorem Superclass.transfer {ts sup rest} : Superclass ts sup rest →
    Transfers (fun _ => Superclass) (fun g => Option.map (Expr.mapLines g)) ts sup rest
  | .none => ⟨[], rfl, fun _ _ _ => .none⟩
  | .some isLess ident => ⟨[_, _], rfl, fun _ _ _ => .some isLess ident⟩

/-- Desugaring a `for` loop commutes with renumbering: the `true` put in for a missing condition
carries no line. -/
theorem forLoop_mapLines (g : Nat → Nat) (init : Option Stmt) (cond incr : Option Expr) (body : Stmt) :
    (forLoop init cond incr body).mapLines g =
      forLoop (Stmt.mapLinesOpt g init) (cond.map (Expr.mapLines g)) (incr.map (Expr.mapLines g)) (body.mapLines g) := by
  cases init <;> cases cond <;> cases incr <;> rfl

mutual

theorem Declaration.transfer {ts s rest} : Declaration ts s rest → Transfers (fun _ => Declaration) Stmt.mapLines ts s rest
  | .classDecl isClass ident superclass opens body closes => by
    obtain ⟨⟨p₁, rfl, superclass'⟩, p₂, rfl, body'⟩ := And.intro superclass.transfer body.transfer
    refine ⟨_ :: _ :: (p₁ ++ _ :: (p₂ ++ [_])),
      by simp only [List.append_assoc, List.cons_append, List.nil_append]; rfl, fun g rest' keep => ?_⟩
    simp only [List.map_cons, List.map_append, List.map_nil, List.append_assoc, List.cons_append, List.nil_append]
    exact .classDecl isClass ident (superclass' g _ (NoElse.mapLines_cons g)) opens
      (body' g _ (NoElse.mapLines_cons g)) closes
  | .function isFun decl => by
    obtain ⟨p, rfl, decl'⟩ := decl.transfer
    exact ⟨_ :: p, rfl, fun g rest' keep => .function isFun (decl' g rest' keep)⟩
  | .var isVar decl => by
    obtain ⟨p, rfl, decl'⟩ := decl.transfer
    exact ⟨_ :: p, rfl, fun g rest' keep => .var isVar (decl' g rest' keep)⟩
  | .statement stmt => by
    obtain ⟨p, rfl, stmt'⟩ := stmt.transfer
    exact ⟨p, rfl, fun g rest' keep => .statement (stmt' g rest' keep)⟩

theorem Statement.transfer {ts s rest} : Statement ts s rest → Transfers (fun _ => Statement) Stmt.mapLines ts s rest
  | .expression e' ends => by
    obtain ⟨p, rfl, e''⟩ := e'.transfer
    refine ⟨p ++ [_], by simp only [List.append_assoc, List.cons_append, List.nil_append]; rfl,
      fun g rest' keep => ?_⟩
    simp only [List.map_append, List.map_cons, List.map_nil, List.append_assoc, List.cons_append, List.nil_append]
    exact .expression (e'' g _ (NoElse.mapLines_cons g)) ends
  | .print isPrint e' ends => by
    obtain ⟨p, rfl, e''⟩ := e'.transfer
    refine ⟨_ :: (p ++ [_]), by simp only [List.append_assoc, List.cons_append, List.nil_append]; rfl,
      fun g rest' keep => ?_⟩
    simp only [List.map_cons, List.map_append, List.map_nil, List.append_assoc, List.cons_append, List.nil_append]
    exact .print isPrint (e'' g _ (NoElse.mapLines_cons g)) ends
  | .returnStmt isReturn value ends => by
    obtain ⟨p, rfl, value'⟩ := value.transfer
    refine ⟨_ :: (p ++ [_]), by simp only [List.append_assoc, List.cons_append, List.nil_append]; rfl,
      fun g rest' keep => ?_⟩
    simp only [List.map_cons, List.map_append, List.map_nil, List.append_assoc, List.cons_append, List.nil_append]
    exact .returnStmt isReturn (value' g _ (NoElse.mapLines_cons g)) ends
  | .block opens decls closes => by
    obtain ⟨p, rfl, decls'⟩ := decls.transfer
    refine ⟨_ :: (p ++ [_]), by simp only [List.append_assoc, List.cons_append, List.nil_append]; rfl,
      fun g rest' keep => ?_⟩
    simp only [List.map_cons, List.map_append, List.map_nil, List.append_assoc, List.cons_append, List.nil_append]
    exact .block opens (decls' g _ (NoElse.mapLines_cons g)) closes
  | .ifThen isIf opens cond closes thenBranch noElse => by
    obtain ⟨⟨p₁, rfl, cond'⟩, p₂, rfl, then'⟩ := And.intro cond.transfer thenBranch.transfer
    refine ⟨_ :: _ :: (p₁ ++ _ :: p₂), by simp only [List.append_assoc, List.cons_append]; rfl,
      fun g rest' keep => ?_⟩
    simp only [List.map_cons, List.map_append, List.append_assoc, List.cons_append]
    exact .ifThen isIf opens (cond' g _ (NoElse.mapLines_cons g)) closes
      (then' g rest' keep) (keep noElse)
  | .ifElse isIf opens cond closes thenBranch isElse elseBranch => by
    obtain ⟨⟨p₁, rfl, cond'⟩, ⟨p₂, rfl, then'⟩, p₃, rfl, else'⟩ :=
      And.intro cond.transfer (And.intro thenBranch.transfer elseBranch.transfer)
    refine ⟨_ :: _ :: (p₁ ++ _ :: (p₂ ++ _ :: p₃)), by simp only [List.append_assoc, List.cons_append]; rfl,
      fun g rest' keep => ?_⟩
    simp only [List.map_cons, List.map_append, List.append_assoc, List.cons_append]
    exact .ifElse isIf opens (cond' g _ (NoElse.mapLines_cons g)) closes
      (then' g _ (NoElse.mapLines_cons g)) isElse (else' g rest' keep)
  | .whileLoop isWhile opens cond closes body => by
    obtain ⟨⟨p₁, rfl, cond'⟩, p₂, rfl, body'⟩ := And.intro cond.transfer body.transfer
    refine ⟨_ :: _ :: (p₁ ++ _ :: p₂), by simp only [List.append_assoc, List.cons_append]; rfl,
      fun g rest' keep => ?_⟩
    simp only [List.map_cons, List.map_append, List.append_assoc, List.cons_append]
    exact .whileLoop isWhile opens (cond' g _ (NoElse.mapLines_cons g)) closes (body' g rest' keep)
  | .forLoop isFor opens first condition ends increment closes loop => by
    obtain ⟨⟨p₁, rfl, first'⟩, ⟨p₂, rfl, condition'⟩, ⟨p₃, rfl, increment'⟩, p₄, rfl, loop'⟩ :=
      And.intro first.transfer (And.intro condition.transfer (And.intro increment.transfer loop.transfer))
    refine ⟨_ :: _ :: (p₁ ++ (p₂ ++ _ :: (p₃ ++ _ :: p₄))),
      by simp only [List.append_assoc, List.cons_append]; rfl, fun g rest' keep => ?_⟩
    simp only [List.map_cons, List.map_append, List.append_assoc, List.cons_append, forLoop_mapLines]
    exact .forLoop isFor opens (first' g _ (NoElse.transfer g (NoElse.mapLines_cons g)))
      (condition' g _ (NoElse.mapLines_cons g)) ends
      (increment' g _ (NoElse.mapLines_cons g)) closes (loop' g rest' keep)

theorem Declarations.transfer {ts ss rest} : Declarations ts ss rest →
    Transfers (fun _ => Declarations) Stmt.mapLinesAll ts ss rest
  | .done => ⟨[], rfl, fun _ _ _ => .done⟩
  | .more first tail => by
    obtain ⟨⟨p₁, rfl, first'⟩, p₂, rfl, tail'⟩ := And.intro first.transfer tail.transfer
    refine ⟨p₁ ++ p₂, by simp, fun g rest' keep => ?_⟩
    simp only [List.map_append, List.append_assoc]
    exact .more (first' g _ (NoElse.transfer g keep)) (tail' g rest' keep)

theorem Function.transfer {ts d rest} : Function ts d rest → Transfers (fun _ => Function) FunDecl.mapLines ts d rest
  | .mk ident opens parameters closes few bodyOpens decls bodyCloses => by
    obtain ⟨⟨p₁, rfl, parameters'⟩, p₂, rfl, decls'⟩ := And.intro parameters.transfer decls.transfer
    refine ⟨_ :: _ :: (p₁ ++ _ :: _ :: (p₂ ++ [_])),
      by simp only [List.append_assoc, List.cons_append, List.nil_append]; rfl, fun g rest' keep => ?_⟩
    simp only [List.map_cons, List.map_append, List.map_nil, List.append_assoc, List.cons_append, List.nil_append]
    exact .mk ident opens (parameters' g _ (NoElse.mapLines_cons g)) closes
      (by rw [List.length_map]; exact few) bodyOpens (decls' g _ (NoElse.mapLines_cons g)) bodyCloses

theorem Functions.transfer {ts ds rest} : Functions ts ds rest →
    Transfers (fun _ => Functions) FunDecl.mapLinesAll ts ds rest
  | .done => ⟨[], rfl, fun _ _ _ => .done⟩
  | .more first tail => by
    obtain ⟨⟨p₁, rfl, first'⟩, p₂, rfl, tail'⟩ := And.intro first.transfer tail.transfer
    refine ⟨p₁ ++ p₂, by simp, fun g rest' keep => ?_⟩
    simp only [List.map_append, List.append_assoc]
    exact .more (first' g _ (NoElse.transfer g keep)) (tail' g rest' keep)

end

/-! ### Whole programs -/

theorem Declarations.append {ts ss r ss' rest} :
    Declarations ts ss r → Declarations r ss' rest → Declarations ts (ss ++ ss') rest
  | .done, second => second
  | .more first tail, second => .more first (tail.append second)

/-- The end of the tokens is never an `else`. -/
theorem NoElse.of_end {e : Token} {r : List Token} (isEnd : Parser.isEof e.kind = true) : NoElse (e :: r) := by
  cases k : e.kind <;> simp_all [NoElse, Parser.isEof]
  rfl

/-- A program is never followed by an `else`: it is empty, or it starts with a declaration. -/
theorem Declarations.noElse {ts ss} {e : Token} (isEnd : Parser.isEof e.kind = true)
    (d : Declarations ts ss [e]) : NoElse ts := by
  cases d with
  | done => exact NoElse.of_end isEnd
  | more first _ =>
    obtain ⟨t, r, rfl, starts⟩ := first.first
    show t.kind.same .elseKw = false
    cases k : t.kind <;> simp_all [TokenKind.startsDeclaration, TokenKind.startsStatement,
      TokenKind.startsExpression, TokenKind.startsPrimary] <;> rfl

end Lox.Grammar

namespace Lox

open Grammar Lox.Parser

/-- Renumbering the lines of a program's tokens renumbers the program the parser answers: it
reads no line. -/
theorem Stmt.parseProgram_mapLines {T : List Token} {e e' : Token} {S : List Stmt} (g : Nat → Nat)
    (isEnd : isEof e.kind = true) (isEnd' : isEof e'.kind = true) (inner : ∀ t ∈ T, isEof t.kind = false)
    (parsed : Stmt.parseProgram (T ++ [e]) = .ok S) :
    Stmt.parseProgram (T.map (Token.mapLines g) ++ [e']) = .ok (Stmt.mapLinesAll g S) := by
  obtain ⟨p, split, d⟩ := (parseProgram_sound isEnd inner parsed).transfer
  obtain rfl : T = p := List.append_cancel_right split
  exact parseProgram_complete isEnd' (d g [e'] fun _ => NoElse.of_end isEnd')

/-- A program whose tokens a renumbering leaves alone is left alone by it. -/
theorem Stmt.mapLinesAll_of_tokens {T : List Token} {e : Token} {S : List Stmt} (g : Nat → Nat)
    (isEnd : isEof e.kind = true) (inner : ∀ t ∈ T, isEof t.kind = false)
    (parsed : Stmt.parseProgram (T ++ [e]) = .ok S) (fixes : ∀ t ∈ T, t.mapLines g = t) :
    Stmt.mapLinesAll g S = S := by
  have same := Stmt.parseProgram_mapLines g isEnd isEnd inner parsed
  rw [List.map_congr_left fixes, List.map_id', parsed] at same
  exact (Except.ok.inj same).symm

/-- Two programs' tokens joined, the first's without its end and the second's renumbered, parse
to the first program followed by the second renumbered. -/
theorem Stmt.parseProgram_join {T₁ T₂ : List Token} {e₁ e₂ e : Token} {S₁ S₂ : List Stmt} (g : Nat → Nat)
    (end₁ : isEof e₁.kind = true) (end₂ : isEof e₂.kind = true) (isEnd : isEof e.kind = true)
    (inner₁ : ∀ t ∈ T₁, isEof t.kind = false) (inner₂ : ∀ t ∈ T₂, isEof t.kind = false)
    (first : Stmt.parseProgram (T₁ ++ [e₁]) = .ok S₁) (second : Stmt.parseProgram (T₂ ++ [e₂]) = .ok S₂) :
    Stmt.parseProgram (T₁ ++ T₂.map (Token.mapLines g) ++ [e]) = .ok (S₁ ++ Stmt.mapLinesAll g S₂) := by
  have d₂ := parseProgram_sound end₂ inner₂ second
  -- the second program is what may follow the first, in place of its end
  have follows : NoElse (T₂.map (Token.mapLines g) ++ [e]) :=
    NoElse.transfer g (fun _ => NoElse.of_end isEnd) (d₂.noElse end₂)
  obtain ⟨p₁, split₁, d₁⟩ := (parseProgram_sound end₁ inner₁ first).transfer
  obtain rfl : T₁ = p₁ := List.append_cancel_right split₁
  obtain ⟨p₂, split₂, d₂'⟩ := d₂.transfer
  obtain rfl : T₂ = p₂ := List.append_cancel_right split₂
  have joined := (d₁ id _ fun _ => follows).append (d₂' g [e] fun _ => NoElse.of_end isEnd)
  rw [Token.mapLines_id', List.map_id, Stmt.mapLinesAll_id] at joined
  rw [← List.append_assoc] at joined
  exact parseProgram_complete isEnd joined

end Lox
