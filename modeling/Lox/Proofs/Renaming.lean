import Lox.Proofs.ProgramShape
/-!
Renaming a local variable. A program `P'` renames `P` when it declares `y` where `P` declares `x`
in some local scopes, as a variable or a parameter, and renames exactly the references that the
scope rules bind to those declarations (`Stmt.Renaming`). The relation is read off the program as
the rules address it: each scope is marked when its `x` is renamed (`Marks`), a reference is
renamed when the scope its address names is marked, and every address stays as it was. The
renamed program may carry any addresses, as the parser's trees carry none that count: it is
compared with the renamed one address aside (`Stmt.unaddressed`).

Runtime errors of the renamed program are read back in the original by naming `x` again where
it names `y` (`Stop.restore`).
-/
namespace Lox

/-- Scope by scope, from the innermost (`0`) outwards, whether the scope's `x` is renamed. -/
abbrev Marks := Nat → Bool

/-- No scope renamed, as at the top level. -/
def Marks.none : Marks := fun _ => false

/-- The marks inside a new innermost scope. -/
def Marks.push (mark : Bool) (marks : Marks) : Marks
  | 0 => mark
  | d + 1 => marks d

/-- Whether the scope an address names is renamed; a global never is. -/
def Marks.at (marks : Marks) : Address → Bool
  | .scoped d => marks d
  | .global => false

@[simp] theorem Marks.push_zero (mark : Bool) (marks : Marks) : Marks.push mark marks 0 = mark := rfl

@[simp] theorem Marks.push_succ (mark : Bool) (marks : Marks) (d : Nat) : Marks.push mark marks (d + 1) = marks d :=
  rfl

section Renaming

variable (x y : String)

/-- A name of the renamed program: `x` is `y` where the renaming applies. -/
def renameName (renamed : Bool) (n : String) : String := if renamed && n == x then y else n

/-- A token of the renamed program. -/
def Token.rename (renamed : Bool) (t : Token) : Token := { t with lexeme := renameName x y renamed t.lexeme }

/-- A reference's token in the renamed program: renamed when its address names a marked scope. -/
def Token.renameAt (marks : Marks) (t : Token) (a : Address) : Token := t.rename x y (marks.at a)

mutual

/-- An addressed expression of the renamed program. -/
def Expr.rename (marks : Marks) : Expr → Expr
  | .literal v => .literal v
  | .grouping e => .grouping (e.rename marks)
  | .unary op r => .unary op (r.rename marks)
  | .binary l op r => .binary (l.rename marks) op (r.rename marks)
  | .logical l op r => .logical (l.rename marks) op (r.rename marks)
  | .ident n a => .ident (n.renameAt x y marks a) a
  | .assign n v a => .assign (n.renameAt x y marks a) (v.rename marks) a
  | .call f paren args => .call (f.rename marks) paren (Expr.renameAll marks args)
  | .get o n => .get (o.rename marks) n
  | .set o n v => .set (o.rename marks) n (v.rename marks)
  | .thisRef kw a => .thisRef kw a
  | .superGet kw m a => .superGet kw m a

/-- Each expression of a list renamed. -/
def Expr.renameAll (marks : Marks) : List Expr → List Expr
  | [] => []
  | e :: es => e.rename marks :: Expr.renameAll marks es

end

mutual

/-- An addressed statement and its counterpart in the renamed program. A block and a function
open a scope whose mark is chosen there; a declaration of `x` in a marked scope is renamed when it
declares a variable or a parameter, and may not be a function or a class. Names of functions,
classes, properties and methods are kept. -/
def Stmt.Renames (marks : Marks) : Stmt → Stmt → Prop
  | .expression e, s' => s' = .expression (e.rename x y marks)
  | .print e, s' => s' = .print (e.rename x y marks)
  | .varDecl n i, s' => s' = .varDecl (n.rename x y (marks 0)) (i.map (Expr.rename x y marks))
  | .block b, s' => ∃ mark b', s' = .block b' ∧ Stmt.RenamesAll (Marks.push mark marks) b b'
  | .ifElse c t e, s' =>
    ∃ t' e', s' = .ifElse (c.rename x y marks) t' e' ∧ Stmt.Renames marks t t' ∧ Stmt.RenamesOpt marks e e'
  | .whileLoop c b, s' => ∃ b', s' = .whileLoop (c.rename x y marks) b' ∧ Stmt.Renames marks b b'
  | .function d, s' => (marks 0 = true → d.name.lexeme ≠ x) ∧ ∃ d', s' = .function d' ∧ FunDecl.Renames marks d d'
  | .returnStmt kw v, s' => s' = .returnStmt kw (v.map (Expr.rename x y marks))
  | .classDecl n sup ms, s' =>
    (marks 0 = true → n.lexeme ≠ x) ∧ ∃ ms', s' = .classDecl n (sup.map (Expr.rename x y marks)) ms' ∧
      FunDecl.RenamesAll (Marks.push false (if sup.isSome then Marks.push false marks else marks)) ms ms'

/-- Optional statements, both absent or related. -/
def Stmt.RenamesOpt (marks : Marks) : Option Stmt → Option Stmt → Prop
  | some s, s' => ∃ t, s' = some t ∧ Stmt.Renames marks s t
  | none, s' => s' = none

/-- Statements related one by one. -/
def Stmt.RenamesAll (marks : Marks) : List Stmt → List Stmt → Prop
  | [], ss' => ss' = []
  | s :: ss, ss' => ∃ t ts, ss' = t :: ts ∧ Stmt.Renames marks s t ∧ Stmt.RenamesAll marks ss ts

/-- A function and its counterpart: the same name, and the scope of its parameters and body marked
once for both. -/
def FunDecl.Renames (marks : Marks) : FunDecl → FunDecl → Prop
  | .mk n ps b, d' => ∃ mark b', d' = .mk n (ps.map (Token.rename x y mark)) b' ∧
    Stmt.RenamesAll (Marks.push mark marks) b b'

/-- Methods related one by one. -/
def FunDecl.RenamesAll (marks : Marks) : List FunDecl → List FunDecl → Prop
  | [], ds' => ds' = []
  | d :: ds, ds' => ∃ t ts, ds' = t :: ts ∧ FunDecl.Renames marks d t ∧ FunDecl.RenamesAll marks ds ts

end

/-- The scopes of the renamed program: in a marked scope, `x` is `y`. -/
def Scope.renameScopes : Marks → List (List String) → List (List String)
  | _, [] => []
  | marks, top :: rest => top.map (renameName x y (marks 0)) :: Scope.renameScopes (fun d => marks (d + 1)) rest

/-! ### Errors read back -/

/-- A name of the renamed program read back in the original: `y` is `x`. -/
def restoreName (n : String) : String := if n = y then x else n

/-- A token read back in the original. -/
def Token.restore (t : Token) : Token := { t with lexeme := restoreName x y t.lexeme }

/-- A runtime fault read back in the original: the variable it names. -/
def RuntimeFault.restore : RuntimeFault → RuntimeFault
  | .undefinedVariable n => .undefinedVariable (restoreName x y n)
  | .unassignedVariable n => .unassignedVariable (restoreName x y n)
  | f => f

/-- A runtime error read back in the original. -/
def RuntimeError.restore (e : RuntimeError) : RuntimeError := ⟨e.token.restore x y, e.fault.restore x y⟩

/-- A stop read back in the original. -/
def Stop.restore : Stop → Stop
  | .fault e => .fault (e.restore x y)
  | .exhausted => .exhausted

/-- A reported error read back in the original. -/
def Diagnostic.restore : Diagnostic → Diagnostic
  | .runtime e => .runtime (e.restore x y)
  | d => d

end Renaming

section Names

variable {x y : String}

@[simp] theorem renameName_false (n : String) : renameName x y false n = n := by
  simp [renameName]

/-- A name other than `x` is kept. -/
theorem renameName_of_ne {n : String} (other : n ≠ x) (b : Bool) : renameName x y b n = n := by
  simp [renameName, other]

/-- Renaming tells apart names that are not `y`, whatever the marks: only `x` becomes `y`. -/
theorem renameName_inj {a b : String} {ma mb : Bool} (same : renameName x y ma a = renameName x y mb b)
    (ha : a ≠ y) (hb : b ≠ y) : a = b := by
  unfold renameName at same
  split at same <;> split at same
  · next renamedA renamedB =>
    simp only [Bool.and_eq_true, beq_iff_eq] at renamedA renamedB
    rw [renamedA.2, renamedB.2]
  · exact absurd same.symm hb
  · exact absurd same ha
  · exact same

/-- A name that is not `y`, renamed and read back. -/
theorem restoreName_renameName {n : String} (hn : n ≠ y) (b : Bool) : restoreName x y (renameName x y b n) = n := by
  unfold renameName restoreName
  split
  · next renamed =>
    simp only [Bool.and_eq_true, beq_iff_eq] at renamed
    simp [renamed.2]
  · simp

theorem restoreName_of_ne {n : String} (hn : n ≠ y) : restoreName x y n = n := by
  simp [restoreName, hn]

theorem Token.rename_of_ne {t : Token} (other : t.lexeme ≠ x) (b : Bool) : t.rename x y b = t := by
  simp [Token.rename, renameName_of_ne other]

@[simp] theorem Token.rename_false (t : Token) : t.rename x y false = t := by
  simp [Token.rename]

theorem Token.restore_rename {t : Token} (ht : t.lexeme ≠ y) (b : Bool) : (t.rename x y b).restore x y = t := by
  simp [Token.rename, Token.restore, restoreName_renameName ht]

theorem Token.restore_of_ne {t : Token} (ht : t.lexeme ≠ y) : t.restore x y = t := by
  simp [Token.restore, restoreName_of_ne ht]

@[simp] theorem Token.renameAt_lexeme (marks : Marks) (t : Token) (a : Address) :
    (t.renameAt x y marks a).lexeme = renameName x y (marks.at a) t.lexeme := rfl

end Names

/-! ### Trees without addresses -/

mutual

/-- An expression as the parser builds it, every reference global. -/
def Expr.unaddressed : Expr → Expr
  | .literal v => .literal v
  | .grouping e => .grouping e.unaddressed
  | .unary op r => .unary op r.unaddressed
  | .binary l op r => .binary l.unaddressed op r.unaddressed
  | .logical l op r => .logical l.unaddressed op r.unaddressed
  | .ident n _ => .ident n .global
  | .assign n v _ => .assign n v.unaddressed .global
  | .call f paren args => .call f.unaddressed paren (Expr.unaddressedAll args)
  | .get o n => .get o.unaddressed n
  | .set o n v => .set o.unaddressed n v.unaddressed
  | .thisRef kw _ => .thisRef kw .global
  | .superGet kw m _ => .superGet kw m .global

/-- Each expression of a list without addresses. -/
def Expr.unaddressedAll : List Expr → List Expr
  | [] => []
  | e :: es => e.unaddressed :: Expr.unaddressedAll es

end

mutual

/-- A statement as the parser builds it, every reference global. -/
def Stmt.unaddressed : Stmt → Stmt
  | .expression e => .expression e.unaddressed
  | .print e => .print e.unaddressed
  | .varDecl n i => .varDecl n (i.map Expr.unaddressed)
  | .block b => .block (Stmt.unaddressedAll b)
  | .ifElse c t e => .ifElse c.unaddressed t.unaddressed (Stmt.unaddressedOpt e)
  | .whileLoop c b => .whileLoop c.unaddressed b.unaddressed
  | .function d => .function d.unaddressed
  | .returnStmt kw v => .returnStmt kw (v.map Expr.unaddressed)
  | .classDecl n sup ms => .classDecl n (sup.map Expr.unaddressed) (FunDecl.unaddressedAll ms)

/-- An optional statement without addresses. -/
def Stmt.unaddressedOpt : Option Stmt → Option Stmt
  | some s => some s.unaddressed
  | none => none

/-- Statements without addresses. -/
def Stmt.unaddressedAll : List Stmt → List Stmt
  | [] => []
  | s :: ss => s.unaddressed :: Stmt.unaddressedAll ss

/-- A function without addresses. -/
def FunDecl.unaddressed : FunDecl → FunDecl
  | .mk n ps b => .mk n ps (Stmt.unaddressedAll b)

/-- Functions without addresses. -/
def FunDecl.unaddressedAll : List FunDecl → List FunDecl
  | [] => []
  | d :: ds => d.unaddressed :: FunDecl.unaddressedAll ds

end

/-- `P'` is `P` with some local declarations of `x`, variables or parameters, renamed `y`, and
exactly the references that the scope rules bind to them renamed too: the program as the rules
address it, renamed, is `P'` up to addresses. -/
def Stmt.Renaming (x y : String) (P P' : List Stmt) : Prop :=
  ∃ Q, Stmt.RenamesAll x y Marks.none (Stmt.addressedAll [] P) Q ∧ Stmt.unaddressedAll Q = Stmt.unaddressedAll P'

/-! ### The tokens of a program -/

mutual

/-- The tokens an expression holds, in order. -/
def Expr.tokens : Expr → List Token
  | .literal _ => []
  | .grouping e => e.tokens
  | .unary op r => op :: r.tokens
  | .binary l op r => l.tokens ++ op :: r.tokens
  | .logical l op r => l.tokens ++ op :: r.tokens
  | .ident n _ => [n]
  | .assign n v _ => n :: v.tokens
  | .call f paren args => f.tokens ++ paren :: Expr.tokensAll args
  | .get o n => o.tokens ++ [n]
  | .set o n v => o.tokens ++ n :: v.tokens
  | .thisRef kw _ => [kw]
  | .superGet kw m _ => [kw, m]

/-- The tokens of a list of expressions. -/
def Expr.tokensAll : List Expr → List Token
  | [] => []
  | e :: es => e.tokens ++ Expr.tokensAll es

end

/-- The tokens of an optional expression. -/
def Expr.tokensOpt : Option Expr → List Token
  | some e => e.tokens
  | none => []

mutual

/-- The tokens a statement holds, in order. -/
def Stmt.tokens : Stmt → List Token
  | .expression e => e.tokens
  | .print e => e.tokens
  | .varDecl n i => n :: Expr.tokensOpt i
  | .block b => Stmt.tokensAll b
  | .ifElse c t e => c.tokens ++ t.tokens ++ Stmt.tokensOpt e
  | .whileLoop c b => c.tokens ++ b.tokens
  | .function d => d.tokens
  | .returnStmt kw v => kw :: Expr.tokensOpt v
  | .classDecl n s ms => n :: Expr.tokensOpt s ++ FunDecl.tokensAll ms

/-- The tokens of an optional statement. -/
def Stmt.tokensOpt : Option Stmt → List Token
  | some s => s.tokens
  | none => []

/-- The tokens of a list of statements. -/
def Stmt.tokensAll : List Stmt → List Token
  | [] => []
  | s :: ss => s.tokens ++ Stmt.tokensAll ss

/-- The tokens of a function: its name, its parameters and its body. -/
def FunDecl.tokens : FunDecl → List Token
  | .mk n ps b => n :: ps ++ Stmt.tokensAll b

/-- The tokens of a list of functions. -/
def FunDecl.tokensAll : List FunDecl → List Token
  | [] => []
  | d :: ds => d.tokens ++ FunDecl.tokensAll ds

end

end Lox
