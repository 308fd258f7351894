import Lox.Syntax
/-!
The static scope pass. It walks a program with a stack of scopes, newest first: a block, a
function body (parameters and body together), a class's `this` and a subclass's `super` each open
one, and the top level has none. Every reference gets the `Address` of the nearest scope that
declares its name, or stays global. Along the way it reports the static faults, in the order of
the walk: a name declared twice in one scope, a local read in its own initializer, `return` outside
a function, a value returned from `init`, `this` or `super` outside a class, `super` without a
superclass, and a class inheriting from itself.
-/
namespace Lox

/-- What the scope pass rejects. -/
inductive ScopeFault where
  | redeclared
  | readsOwnInitializer
  | returnAtTopLevel
  | returnValueFromInit
  | thisOutsideClass
  | superOutsideClass
  | superWithoutSuperclass
  | inheritsFromItself
  deriving DecidableEq, Repr

/-- The text of a scope fault. -/
def ScopeFault.message : ScopeFault → String
  | .redeclared => "Already a variable with this name in this scope."
  | .readsOwnInitializer => "Can't read local variable in its own initializer."
  | .returnAtTopLevel => "Can't return from top-level code."
  | .returnValueFromInit => "Can't return a value from an initializer."
  | .thisOutsideClass => "Can't use 'this' outside of a class."
  | .superOutsideClass => "Can't use 'super' outside of a class."
  | .superWithoutSuperclass => "Can't use 'super' in a class with no superclass."
  | .inheritsFromItself => "A class can't inherit from itself."

/-- A scope fault at a token. -/
structure ScopeError where
  token : Token
  fault : ScopeFault

/-- A scope error as reported: `[line N] Error at 'x': MESSAGE`. -/
def ScopeError.message (e : ScopeError) : String :=
  "[line " ++ Nat.repr e.token.line ++ "] Error" ++ e.token.location ++ ": " ++ e.fault.message

namespace Scope

/-- The innermost function being checked. -/
inductive FunctionContext where
  | none
  | function
  | method
  | initializer
  deriving DecidableEq, Repr

/-- The innermost class being checked. -/
inductive ClassContext where
  | none
  | plain
  | sub
  deriving DecidableEq, Repr

/-- The names of one scope, each with whether its declaration is complete. -/
abbrev Names := List (String × Bool)

/-- Sets a name's completeness in a scope, adding the name if it is new. -/
def Names.set (name : String) (done : Bool) : Names → Names
  | [] => [(name, done)]
  | (n, d) :: rest => if n == name then (name, done) :: rest else (n, d) :: Names.set name done rest

/-- The address of a name in a stack of scopes, newest first: the distance to the nearest scope
that declares it, or global when none does. -/
def lookup (name : String) : List Names → Address
  | [] => .global
  | s :: rest =>
    if (s.lookup name).isSome then .scoped 0
    else match lookup name rest with
      | .scoped d => .scoped (d + 1)
      | .global => .global

/-- The walk's state: the scopes, newest first, the innermost function and class, and the faults
found so far. -/
structure State where
  scopes : List Names
  fn : FunctionContext
  cls : ClassContext
  errors : Array ScopeError

/-- Walking with the scope stack. -/
abbrev M := StateM State

/-- Reports a fault. -/
def report (t : Token) (fault : ScopeFault) : M Unit :=
  modify fun s => { s with errors := s.errors.push ⟨t, fault⟩ }

/-- Opens a scope. -/
def beginScope : M Unit := modify fun s => { s with scopes := [] :: s.scopes }

/-- Closes the innermost scope. -/
def endScope : M Unit := modify fun s => { s with scopes := s.scopes.drop 1 }

/-- Sets a name in the innermost scope; nothing at the top level. -/
def mark (name : String) (done : Bool) : M Unit :=
  modify fun s => match s.scopes with
    | [] => s
    | top :: rest => { s with scopes := top.set name done :: rest }

/-- Declares a name in the innermost scope, reporting it if that scope already has it. -/
def declare (name : Token) : M Unit := do
  match (← get).scopes with
  | [] => pure ()
  | top :: _ =>
    if (top.lookup name.lexeme).isSome then report name .redeclared
    mark name.lexeme false

/-- Completes a name's declaration in the innermost scope. -/
def define (name : Token) : M Unit := mark name.lexeme true

/-- The address of a name from the current scopes. -/
def address (name : String) : M Address := do return lookup name (← get).scopes

mutual

/-- Resolves the references of an expression, operands in evaluation order, except that a
property write resolves its value before its object. -/
def resolveExpr : Expr → M Expr
  | .literal v => pure (.literal v)
  | .grouping e => do return .grouping (← resolveExpr e)
  | .unary op r => do return .unary op (← resolveExpr r)
  | .binary l op r => do
    let l ← resolveExpr l
    let r ← resolveExpr r
    return .binary l op r
  | .logical l op r => do
    let l ← resolveExpr l
    let r ← resolveExpr r
    return .logical l op r
  | .ident name _ => do
    if let top :: _ := (← get).scopes then
      if top.lookup name.lexeme == some false then report name .readsOwnInitializer
    return .ident name (← address name.lexeme)
  | .assign name v _ => do
    let v ← resolveExpr v
    return .assign name v (← address name.lexeme)
  | .call f paren args => do
    let f ← resolveExpr f
    let args ← resolveExprs args
    return .call f paren args
  | .get o name => do return .get (← resolveExpr o) name
  | .set o name v => do
    let v ← resolveExpr v
    let o ← resolveExpr o
    return .set o name v
  | .thisRef kw _ => do
    if (← get).cls == .none then report kw .thisOutsideClass
    return .thisRef kw (← address kw.lexeme)
  | .superGet kw m _ => do
    match (← get).cls with
    | .none => report kw .superOutsideClass
    | .plain => report kw .superWithoutSuperclass
    | .sub => pure ()
    return .superGet kw m (← address kw.lexeme)

/-- Resolves a list of expressions in order. -/
def resolveExprs : List Expr → M (List Expr)
  | [] => pure []
  | e :: es => do
    let e ← resolveExpr e
    return e :: (← resolveExprs es)

end

/-- Resolves an optional expression. -/
def resolveOptExpr : Option Expr → M (Option Expr)
  | some e => do return some (← resolveExpr e)
  | none => pure none

mutual

/-- Resolves a statement. -/
def resolveStmt : Stmt → M Stmt
  | .block body => do
    beginScope
    let body ← resolveStmts body
    endScope
    return .block body
  | .expression e => do return .expression (← resolveExpr e)
  | .print e => do return .print (← resolveExpr e)
  | .varDecl name init => do
    declare name
    let init ← resolveOptExpr init
    define name
    return .varDecl name init
  | .function decl => do
    declare decl.name
    define decl.name
    return .function (← resolveFunction decl .function)
  | .ifElse c t e => do
    let c ← resolveExpr c
    let t ← resolveStmt t
    let e ← resolveOptStmt e
    return .ifElse c t e
  | .whileLoop c b => do
    let c ← resolveExpr c
    return .whileLoop c (← resolveStmt b)
  | .returnStmt kw v => do
    if (← get).fn == .none then report kw .returnAtTopLevel
    match v with
    | some e =>
      if (← get).fn == .initializer then report kw .returnValueFromInit
      return .returnStmt kw (some (← resolveExpr e))
    | none => return .returnStmt kw none
  | .classDecl name sup methods => do
    let enclosing := (← get).cls
    modify fun s => { s with cls := .plain }
    declare name
    define name
    let sup ← match sup with
      | some e => do
        if let .ident superName _ := e then
          if superName.lexeme == name.lexeme then report superName .inheritsFromItself
        modify fun s => { s with cls := .sub }
        let e ← resolveExpr e
        beginScope
        mark "super" true
        pure (some e)
      | none => pure none
    beginScope
    mark "this" true
    let methods ← resolveMethods methods
    endScope
    if sup.isSome then endScope
    modify fun s => { s with cls := enclosing }
    return .classDecl name sup methods

/-- Resolves an optional statement. -/
def resolveOptStmt : Option Stmt → M (Option Stmt)
  | some s => do return some (← resolveStmt s)
  | none => pure none

/-- Resolves statements in order. -/
def resolveStmts : List Stmt → M (List Stmt)
  | [] => pure []
  | s :: ss => do
    let s ← resolveStmt s
    return s :: (← resolveStmts ss)

/-- Resolves a function: its parameters and body share one new scope. -/
def resolveFunction : FunDecl → FunctionContext → M FunDecl
  | .mk name params body, kind => do
    let enclosing := (← get).fn
    modify fun s => { s with fn := kind }
    beginScope
    for p in params do
      declare p
      define p
    let body ← resolveStmts body
    endScope
    modify fun s => { s with fn := enclosing }
    return .mk name params body

/-- Resolves the methods of a class; a method named `init` is an initializer. -/
def resolveMethods : List FunDecl → M (List FunDecl)
  | [] => pure []
  | m :: ms => do
    let kind := if m.name.lexeme == "init" then FunctionContext.initializer else .method
    let m ← resolveFunction m kind
    return m :: (← resolveMethods ms)

end

/-- The walk's starting state: no scopes, outside every function and class. -/
def start : State := ⟨[], .none, .none, #[]⟩

end Scope

/-- Resolves a program at the top level: the statements with every reference addressed, or the
scope faults in the order found. -/
def Stmt.resolveScopes (stmts : List Stmt) : Except (List ScopeError) (List Stmt) :=
  let (r, s) := (Scope.resolveStmts stmts).run Scope.start
  if s.errors.isEmpty then .ok r else .error s.errors.toList

/-- Resolves a lone expression at the top level. -/
def Expr.resolveScopes (e : Expr) : Except (List ScopeError) Expr :=
  let (r, s) := (Scope.resolveExpr e).run Scope.start
  if s.errors.isEmpty then .ok r else .error s.errors.toList

end Lox
