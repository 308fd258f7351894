import Lox.Token
/-!
The syntax of Lox: expressions, statements and function declarations. A reference to a variable
(a name, an assignment, `this` or `super`) carries an `Address`, which says where it finds its
binding at run time; the parser leaves every address global and the scope pass fills them in.
-/
namespace Lox

/-- Where a reference finds its binding at run time: by name among the globals, or in the frame
`distance` enclosing links above the current one. -/
inductive Address where
  | global
  | scoped (distance : Nat)
  deriving DecidableEq, Repr, Inhabited

/-- A constant written in the source. -/
inductive Literal where
  | number (x : Float)
  | str (s : String)
  | bool (b : Bool)
  | nil
  deriving Inhabited

/-- Expressions. Operators keep their token, for the printers and for runtime errors. -/
inductive Expr where
  | literal (value : Literal)
  | grouping (inner : Expr)
  | unary (op : Token) (right : Expr)
  | binary (left : Expr) (op : Token) (right : Expr)
  /-- `and` and `or`, which may skip their right operand. -/
  | logical (left : Expr) (op : Token) (right : Expr)
  | ident (name : Token) (addr : Address)
  | assign (name : Token) (value : Expr) (addr : Address)
  /-- A call; `paren` is the closing parenthesis, where call errors are reported. -/
  | call (callee : Expr) (paren : Token) (args : List Expr)
  | get (object : Expr) (name : Token)
  | set (object : Expr) (name : Token) (value : Expr)
  | thisRef (keyword : Token) (addr : Address)
  | superGet (keyword : Token) (method : Token) (addr : Address)
  deriving Inhabited

mutual

/-- Statements. A `for` loop is written with `block` and `whileLoop`. -/
inductive Stmt where
  | expression (e : Expr)
  | print (e : Expr)
  | varDecl (name : Token) (init : Option Expr)
  | block (body : List Stmt)
  | ifElse (cond : Expr) (thenBranch : Stmt) (elseBranch : Option Stmt)
  | whileLoop (cond : Expr) (body : Stmt)
  | function (decl : FunDecl)
  | returnStmt (keyword : Token) (value : Option Expr)
  /-- A class; the superclass, when there is one, is an `ident`. -/
  | classDecl (name : Token) (superclass : Option Expr) (methods : List FunDecl)

/-- A named function or method: its name, its parameters and its body. -/
inductive FunDecl where
  | mk (name : Token) (params : List Token) (body : List Stmt)

end

instance : Inhabited FunDecl := ⟨.mk default [] []⟩

namespace FunDecl

/-- The declared name. -/
def name : FunDecl → Token
  | .mk n _ _ => n

/-- The parameter names, in order. -/
def params : FunDecl → List Token
  | .mk _ ps _ => ps

/-- The statements of the body. -/
def body : FunDecl → List Stmt
  | .mk _ _ b => b

end FunDecl

end Lox
