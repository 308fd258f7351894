import Lox.Store
/-!
Running Lox. The evaluator walks resolved syntax over a `Machine`: the store, the output written
so far, the next identity number, the clock reading and the current frame. These rules take the
frame to run in as an argument and never read or move the machine's current frame; the interpreter
of `Lox.Interpreter` keeps it as state, as a session does, and runs as these rules do. A statement finishes
normally or returns a value (`Flow`); a run stops at the first runtime fault, keeping the output
and bindings made before it.

Every rule takes fuel and passes one less on; a loop spends one per iteration. Running out is
`Stop.exhausted`, apart from every runtime fault.
-/
namespace Lox

/-- What goes wrong while running. -/
inductive RuntimeFault where
  | operandNotNumber (op : String) (got : String)
  | operandsNotNumbers (op : String) (left right : String)
  | operandsNotAddable (left right : String)
  | divisionByZero
  | notCallable
  | arityMismatch (expected got : Nat)
  | undefinedVariable (name : String)
  | unassignedVariable (name : String)
  | undefinedProperty (name : String)
  | propertyOfNonInstance
  | fieldOfNonInstance
  | superclassNotClass
  | unresolvedSuper
  | superNotClass
  | unresolvedThis
  | thisNotInstance
  | invalidUnary
  | invalidBinary
  deriving DecidableEq, Repr

/-- The text of a runtime fault. -/
def RuntimeFault.message : RuntimeFault → String
  | .operandNotNumber op got => "Operand of '" ++ op ++ "' must be a number, got " ++ got ++ "."
  | .operandsNotNumbers op l r =>
    "Operands of '" ++ op ++ "' must be numbers, got " ++ l ++ " and " ++ r ++ "."
  | .operandsNotAddable l r =>
    "Operands of '+' must be two numbers or two strings, got " ++ l ++ " and " ++ r ++ "."
  | .divisionByZero => "Division by zero."
  | .notCallable => "Can only call functions and classes."
  | .arityMismatch n m => "Expected " ++ Nat.repr n ++ " arguments but got " ++ Nat.repr m ++ "."
  | .undefinedVariable x => "Undefined variable '" ++ x ++ "'."
  | .unassignedVariable x => "Variable '" ++ x ++ "' has not been assigned a value."
  | .undefinedProperty x => "Undefined property '" ++ x ++ "'."
  | .propertyOfNonInstance => "Only instances have properties."
  | .fieldOfNonInstance => "Only instances have fields."
  | .superclassNotClass => "Superclass must be a class."
  | .unresolvedSuper => "Unresolved 'super'."
  | .superNotClass => "'super' is not a class."
  | .unresolvedThis => "Unresolved 'this'."
  | .thisNotInstance => "'this' is not an instance."
  | .invalidUnary => "Invalid unary operator."
  | .invalidBinary => "Invalid binary operator."

/-- A runtime fault at a token. -/
structure RuntimeError where
  token : Token
  fault : RuntimeFault

/-- A runtime error as reported: the message, then `[line N]` on its own line. -/
def RuntimeError.message (e : RuntimeError) : String :=
  e.fault.message ++ "\n[line " ++ Nat.repr e.token.line ++ "]"

/-- Why a run stopped early. -/
inductive Stop where
  | fault (e : RuntimeError)
  | exhausted

/-- How a statement finished. -/
inductive Flow where
  | normal
  | returned (v : Value)
  deriving Inhabited

/-- The state of a run. -/
structure Machine where
  store : Store
  output : String
  nextId : Nat
  /-- What `clock()` reads, in seconds. -/
  clock : Float
  /-- The current frame, where the interpreter runs code. -/
  env : Nat
  deriving Inhabited

/-- A fresh machine whose globals hold `clock` and are current. -/
def Machine.new : Machine :=
  ⟨Store.empty.define Store.globals "clock" (some (.native .clock)), "", 0, 0, Store.globals⟩

/-- Running: a stop ends the run, and the machine's state survives it. -/
abbrev Run := ExceptT Stop (StateM Machine)

namespace Run

/-- Stops with a fault at a token. -/
def fail {α : Type} (t : Token) (f : RuntimeFault) : Run α := throw (.fault ⟨t, f⟩)

/-- A new identity number. -/
def fresh : Run Nat :=
  modifyGet fun m => (m.nextId, { m with nextId := m.nextId + 1 })

/-- A new frame enclosed by `parent`. -/
def alloc (parent : Nat) : Run Nat :=
  modifyGet fun m =>
    let (s, i) := m.store.alloc parent
    (i, { m with store := s })

/-- A new instance with no fields. -/
def newObject : Run Nat :=
  modifyGet fun m =>
    let (s, r) := m.store.newObject
    (r, { m with store := s })

/-- Binds a name in a frame. -/
def define (frame : Nat) (name : String) (v : Option Value) : Run Unit :=
  modify fun m => { m with store := m.store.define frame name v }

/-- Writes a line of output. -/
def write (line : String) : Run Unit :=
  modify fun m => { m with output := m.output ++ line ++ "\n" }

/-- The value a reference finds: a global by name, a local in the frame its address names. -/
def lookUp (env : Nat) (name : Token) (addr : Address) : Run Value := do
  let s := (← get).store
  let found := match addr with
    | .global => s.find Store.globals name.lexeme
    | .scoped d => s.getAt env d name.lexeme
  match found with
  | .value v => pure v
  | .unassigned => fail name (.unassignedVariable name.lexeme)
  | .missing => fail name (.undefinedVariable name.lexeme)

/-- Stores an assigned value: a global by name, where it must already be bound; a local in the
frame its address names. -/
def assignTo (env : Nat) (name : Token) (addr : Address) (v : Value) : Run Unit := do
  let s := (← get).store
  let target := match addr with
    | .global => s.owner Store.globals name.lexeme
    | .scoped d => s.ancestor env d
  match target with
  | some frame => define frame name.lexeme (some v)
  | none => fail name (.undefinedVariable name.lexeme)

/-- A method bound to an instance: a new frame holding `this`, under the method's own. -/
def bindMethod (method : Closure) (ref : Nat) (c : ClassDef) : Run Closure := do
  let frame ← alloc method.env
  define frame "this" (some (.obj ref c))
  return { method with id := ← fresh, env := frame }

/-- A property read: a field of the instance, else a method of its class bound to it. -/
def getProperty (name : Token) (ref : Nat) (c : ClassDef) : Run Value := do
  match (← get).store.field? ref name.lexeme with
  | some v => pure v
  | none =>
    match c.findMethod name.lexeme with
    | some m => return .fn (← bindMethod m ref c)
    | none => fail name (.undefinedProperty name.lexeme)

/-- The binary operators: equality on any values, `+` on two numbers or two strings, the other
arithmetic and comparisons on numbers; `/` by zero (either sign) is a fault. -/
def binaryOp (op : Token) (l r : Value) : Except RuntimeError Value :=
  match op.kind with
  | .equalEqual => .ok (.bool (l.equal r))
  | .bangEqual => .ok (.bool !(l.equal r))
  | k =>
    let isPlus := match k with | .plus => true | _ => false
    match l, r with
    | .number a, .number b =>
      match k with
      | .plus => .ok (.number (a + b))
      | .minus => .ok (.number (a - b))
      | .star => .ok (.number (a * b))
      | .slash => if b == 0.0 then .error ⟨op, .divisionByZero⟩ else .ok (.number (a / b))
      | .greater => .ok (.bool (decide (b < a)))
      | .greaterEqual => .ok (.bool (decide (b ≤ a)))
      | .less => .ok (.bool (decide (a < b)))
      | .lessEqual => .ok (.bool (decide (a ≤ b)))
      | _ => .error ⟨op, .invalidBinary⟩
    | .str a, .str b =>
      if isPlus then .ok (.str (a ++ b))
      else .error ⟨op, .operandsNotNumbers op.lexeme "string" "string"⟩
    | _, _ =>
      if isPlus then .error ⟨op, .operandsNotAddable l.typeName r.typeName⟩
      else .error ⟨op, .operandsNotNumbers op.lexeme l.typeName r.typeName⟩

/-- The binary operators answer numbers, strings and booleans only. -/
theorem binaryOp_ok {op : Token} {l r v : Value} (ok : binaryOp op l r = .ok v) :
    (∃ x, v = .number x) ∨ (∃ s, v = .str s) ∨ ∃ b, v = .bool b := by
  unfold binaryOp at ok
  repeat' split at ok
  all_goals cases ok
  all_goals simp

/-- The binary operators fail at their own token: on the operands' kinds, on a zero divisor, or on
an operator that is not binary. -/
theorem binaryOp_error {op : Token} {l r : Value} {e : RuntimeError} (failed : binaryOp op l r = .error e) :
    e.token = op ∧ (e.fault = .divisionByZero ∨ e.fault = .invalidBinary ∨
      (∃ a b, e.fault = .operandsNotNumbers op.lexeme a b) ∨ ∃ a b, e.fault = .operandsNotAddable a b) := by
  unfold binaryOp at failed
  repeat' split at failed
  all_goals cases failed
  all_goals simp

/-- The superclass a class declaration names, which must be a class. -/
def superclassOf (e : Expr) (v : Value) : Run ClassDef :=
  match v with
  | .cls c => pure c
  | _ =>
    let name := match e with
      | .ident n _ => n
      | _ => ⟨.identifier, "super", 0⟩
    fail name .superclassNotClass

mutual

/-- Evaluates an expression in a frame, operands left to right. -/
def eval : Nat → Nat → Expr → Run Value
  | 0, _, _ => throw .exhausted
  | fuel + 1, env, e =>
    match e with
    | .literal v => pure v.value
    | .grouping inner => eval fuel env inner
    | .unary op r => do
      let v ← eval fuel env r
      match op.kind with
      | .minus =>
        match v with
        | .number x => pure (.number (-x))
        | _ => fail op (.operandNotNumber op.lexeme v.typeName)
      | .bang => pure (.bool !v.truthy)
      | _ => fail op .invalidUnary
    | .binary l op r => do
      let a ← eval fuel env l
      let b ← eval fuel env r
      match binaryOp op a b with
      | .ok v => pure v
      | .error err => throw (.fault err)
    | .logical l op r => do
      let a ← eval fuel env l
      let decided := match op.kind with
        | .orKw => a.truthy
        | _ => !a.truthy
      if decided then pure a else eval fuel env r
    | .ident name addr => lookUp env name addr
    | .assign name v addr => do
      let value ← eval fuel env v
      assignTo env name addr value
      pure value
    | .call f paren args => do
      let callee ← eval fuel env f
      let argv ← evalArgs fuel env args
      callValue fuel paren callee argv
    | .get o name => do
      match ← eval fuel env o with
      | .obj ref c => getProperty name ref c
      | _ => fail name .propertyOfNonInstance
    | .set o name v => do
      match ← eval fuel env o with
      | .obj ref _ =>
        let value ← eval fuel env v
        modify fun m => { m with store := m.store.setField ref name.lexeme value }
        pure value
      | _ => fail name .fieldOfNonInstance
    | .thisRef kw addr => lookUp env kw addr
    | .superGet kw method addr =>
      match addr with
      | .global => fail kw .unresolvedSuper
      | .scoped d => do
        match ← lookUp env kw (.scoped d) with
        | .cls sc =>
          match d with
          | 0 => fail kw .unresolvedThis
          | d' + 1 =>
            match ← lookUp env ⟨.identifier, "this", kw.line⟩ (.scoped d') with
            | .obj ref c =>
              match sc.findMethod method.lexeme with
              | some m => return .fn (← bindMethod m ref c)
              | none => fail method (.undefinedProperty method.lexeme)
            | _ => fail kw .thisNotInstance
        | _ => fail kw .superNotClass

/-- Evaluates arguments left to right. -/
def evalArgs : Nat → Nat → List Expr → Run (List Value)
  | 0, _, _ => throw .exhausted
  | _ + 1, _, [] => pure []
  | fuel + 1, env, a :: rest => do
    let v ← eval fuel env a
    return v :: (← evalArgs fuel env rest)

/-- Calls a value: a function, a native or a class, after checking the argument count. -/
def callValue : Nat → Token → Value → List Value → Run Value
  | 0, _, _, _ => throw .exhausted
  | fuel + 1, paren, callee, args =>
    let check (arity : Nat) : Run Unit :=
      if args.length != arity then fail paren (.arityMismatch arity args.length) else pure ()
    match callee with
    | .fn f => do
      check f.arity
      callClosure fuel f args
    | .native n => do
      check n.arity
      match n with
      | .clock => return .number (← get).clock
    | .cls c => do
      check c.arity
      let ref ← newObject
      match c.findMethod "init" with
      | some init =>
        let bound ← bindMethod init ref c
        let _ ← callClosure fuel bound args
      | none => pure ()
      return .obj ref c
    | _ => fail paren .notCallable

/-- Runs a function's body in a new frame holding its parameters. An initializer answers the
instance its frame binds as `this`; any other function the value it returns, or `nil`. -/
def callClosure : Nat → Closure → List Value → Run Value
  | 0, _, _ => throw .exhausted
  | fuel + 1, f, args => do
    let frame ← alloc f.env
    for (p, a) in f.decl.params.zip args do
      define frame p.lexeme (some a)
    let flow ← execBlock fuel frame f.decl.body
    if f.isInit then
      lookUp f.env ⟨.identifier, "this", f.decl.name.line⟩ (.scoped 0)
    else
      match flow with
      | .returned v => pure v
      | .normal => pure .nil

/-- Executes a statement in a frame. -/
def exec : Nat → Nat → Stmt → Run Flow
  | 0, _, _ => throw .exhausted
  | fuel + 1, env, s =>
    match s with
    | .expression e => do
      let _ ← eval fuel env e
      pure .normal
    | .print e => do
      write (← eval fuel env e).display
      pure .normal
    | .varDecl name init => do
      let v ← match init with
        | some e => eval fuel env e
        | none => pure .nil
      define env name.lexeme (some v)
      pure .normal
    | .block body => do
      let frame ← alloc env
      execBlock fuel frame body
    | .ifElse c t e => do
      if (← eval fuel env c).truthy then exec fuel env t
      else match e with
        | some s => exec fuel env s
        | none => pure .normal
    | .whileLoop c body => loop fuel env c body
    | .function decl => do
      define env decl.name.lexeme (some (.fn ⟨← fresh, decl, env, false⟩))
      pure .normal
    | .returnStmt _ value => do
      match value with
      | some e => return .returned (← eval fuel env e)
      | none => return .returned .nil
    | .classDecl name sup methods => do
      let superclass ← match sup with
        | some e => do pure (some (← superclassOf e (← eval fuel env e)))
        | none => pure none
      define env name.lexeme none
      let menv ← match superclass with
        | some c => do
          let frame ← alloc env
          define frame "super" (some (.cls c))
          pure frame
        | none => pure env
      let mut table : List (String × Closure) := []
      for m in methods do
        table := (m.name.lexeme, ⟨← fresh, m, menv, m.name.lexeme == "init"⟩) :: table
      let c := ClassDef.mk (← fresh) name.lexeme superclass table
      match (← get).store.owner env name.lexeme with
      | some frame => define frame name.lexeme (some (.cls c))
      | none => fail name (.undefinedVariable name.lexeme)
      pure .normal

/-- Executes statements in order until one returns. -/
def execBlock : Nat → Nat → List Stmt → Run Flow
  | 0, _, _ => throw .exhausted
  | _ + 1, _, [] => pure .normal
  | fuel + 1, env, s :: rest => do
    match ← exec fuel env s with
    | .normal => execBlock fuel env rest
    | .returned v => pure (.returned v)

/-- A `while` loop: the body runs while the condition is truthy, until it returns. -/
def loop : Nat → Nat → Expr → Stmt → Run Flow
  | 0, _, _, _ => throw .exhausted
  | fuel + 1, env, c, body => do
    if (← eval fuel env c).truthy then
      match ← exec fuel env body with
      | .normal => loop fuel env c body
      | .returned v => pure (.returned v)
    else pure .normal

end

/-- Runs a unit's statements at the top level, echoing the value of each top-level expression
statement when `echo` is set. -/
def interpret (fuel : Nat) (echo : Bool) : List Stmt → Run Unit
  | [] => pure ()
  | s :: rest => do
    match s with
    | .expression e =>
      if echo then
        write (← eval fuel Store.globals e).display
        interpret fuel echo rest
      else
        let _ ← exec fuel Store.globals s
        interpret fuel echo rest
    | _ =>
      match ← exec fuel Store.globals s with
      | .normal => interpret fuel echo rest
      | .returned _ => pure ()

end Run

end Lox
