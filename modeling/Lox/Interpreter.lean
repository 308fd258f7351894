import Lox.Eval
/-!
The interpreter as a session runs it: the machine's current frame is where code runs. A block and
a call make a new frame current, run their statements there and put the frame they found back
however the statements end, normally, by `return` or on a runtime fault (`withFrame`). A subclass
declaration makes the frame binding `super` current while it builds the methods over it, and puts
the previous frame back before it binds the class. Every other rule is the rule of `Run`, which
takes the frame as an argument; `Lox.Proofs.CurrentFrame` proves that the two run alike and that
each rule leaves the frame it found current.
-/
namespace Lox

namespace Interp

open Run

/-- The current frame. -/
def current : Run Nat := do return (← get).env

/-- Makes `frame` current, answering the frame that was. -/
def enter (frame : Nat) : Run Nat :=
  modifyGet fun m => (m.env, { m with env := frame })

/-- Makes `frame` current again. -/
def leave (frame : Nat) : Run Unit :=
  modify fun m => { m with env := frame }

/-- Runs `body` with `frame` current. Its outcome, a value or the stop that ended it, is kept as it
is while the previous frame is made current again, and then passed on. -/
def withFrame {α : Type} (frame : Nat) (body : Run α) : Run α :=
  ExceptT.mk do
    let previous ← modifyGet fun (m : Machine) => (m.env, { m with env := frame })
    let outcome ← body.run
    modify fun (m : Machine) => { m with env := previous }
    pure outcome

mutual

/-- Evaluates an expression in the current frame, operands left to right. -/
def evaluate : Nat → Expr → Run Value
  | 0, _ => throw .exhausted
  | fuel + 1, e =>
    match e with
    | .literal v => pure v.value
    | .grouping inner => evaluate fuel inner
    | .unary op r => do
      let v ← evaluate fuel r
      match op.kind with
      | .minus =>
        match v with
        | .number x => pure (.number (-x))
        | _ => fail op (.operandNotNumber op.lexeme v.typeName)
      | .bang => pure (.bool !v.truthy)
      | _ => fail op .invalidUnary
    | .binary l op r => do
      let a ← evaluate fuel l
      let b ← evaluate fuel r
      match binaryOp op a b with
      | .ok v => pure v
      | .error err => throw (.fault err)
    | .logical l op r => do
      let a ← evaluate fuel l
      let decided := match op.kind with
        | .orKw => a.truthy
        | _ => !a.truthy
      if decided then pure a else evaluate fuel r
    | .ident name addr => do lookUp (← current) name addr
    | .assign name v addr => do
      let value ← evaluate fuel v
      assignTo (← current) name addr value
      pure value
    | .call f paren args => do
      let callee ← evaluate fuel f
      let argv ← evaluateArgs fuel args
      call fuel paren callee argv
    | .get o name => do
      match ← evaluate fuel o with
      | .obj ref c => getProperty name ref c
      | _ => fail name .propertyOfNonInstance
    | .set o name v => do
      match ← evaluate fuel o with
      | .obj ref _ =>
        let value ← evaluate fuel v
        modify fun m => { m with store := m.store.setField ref name.lexeme value }
        pure value
      | _ => fail name .fieldOfNonInstance
    | .thisRef kw addr => do lookUp (← current) kw addr
    | .superGet kw method addr =>
      match addr with
      | .global => fail kw .unresolvedSuper
      | .scoped d => do
        match ← lookUp (← current) kw (.scoped d) with
        | .cls sc =>
          match d with
          | 0 => fail kw .unresolvedThis
          | d' + 1 =>
            match ← lookUp (← current) ⟨.identifier, "this", kw.line⟩ (.scoped d') with
            | .obj ref c =>
              match sc.findMethod method.lexeme with
              | some m => return .fn (← bindMethod m ref c)
              | none => fail method (.undefinedProperty method.lexeme)
            | _ => fail kw .thisNotInstance
        | _ => fail kw .superNotClass

/-- Evaluates arguments left to right. -/
def evaluateArgs : Nat → List Expr → Run (List Value)
  | 0, _ => throw .exhausted
  | _ + 1, [] => pure []
  | fuel + 1, a :: rest => do
    let v ← evaluate fuel a
    return v :: (← evaluateArgs fuel rest)

/-- Calls a value: a function, a native or a class, after checking the argument count. -/
def call : Nat → Token → Value → List Value → Run Value
  | 0, _, _, _ => throw .exhausted
  | fuel + 1, paren, callee, args =>
    let check (arity : Nat) : Run Unit :=
      if args.length != arity then fail paren (.arityMismatch arity args.length) else pure ()
    match callee with
    | .fn f => do
      check f.arity
      callFunction fuel f args
    | .native n => do
      check n.arity
      match n with
      | .clock => return .number (← get).clock
    | .cls c => do
      check c.arity
      let ref ← newObject
      match c.findMethod "init" with
      | some init =>
        let bound ← bindMethod init ref c
        let _ ← callFunction fuel bound args
      | none => pure ()
      return .obj ref c
    | _ => fail paren .notCallable

/-- Runs a function's body with a new frame current, under the function's own, holding its
parameters. An initializer answers the instance its frame binds as `this`; any other function the
value it returns, or `nil`. -/
def callFunction : Nat → Closure → List Value → Run Value
  | 0, _, _ => throw .exhausted
  | fuel + 1, f, args => do
    let frame ← alloc f.env
    for (p, a) in f.decl.params.zip args do
      define frame p.lexeme (some a)
    let flow ← withFrame frame (executeAll fuel f.decl.body)
    if f.isInit then
      lookUp f.env ⟨.identifier, "this", f.decl.name.line⟩ (.scoped 0)
    else
      match flow with
      | .returned v => pure v
      | .normal => pure .nil

/-- Executes a statement in the current frame. -/
def execute : Nat → Stmt → Run Flow
  | 0, _ => throw .exhausted
  | fuel + 1, s =>
    match s with
    | .expression e => do
      let _ ← evaluate fuel e
      pure .normal
    | .print e => do
      write (← evaluate fuel e).display
      pure .normal
    | .varDecl name init => do
      let v ← match init with
        | some e => evaluate fuel e
        | none => pure .nil
      define (← current) name.lexeme (some v)
      pure .normal
    | .block body => do
      let frame ← alloc (← current)
      withFrame frame (executeAll fuel body)
    | .ifElse c t e => do
      if (← evaluate fuel c).truthy then execute fuel t
      else match e with
        | some s => execute fuel s
        | none => pure .normal
    | .whileLoop c body => whileLoop fuel c body
    | .function decl => do
      let env ← current
      define env decl.name.lexeme (some (.fn ⟨← fresh, decl, env, false⟩))
      pure .normal
    | .returnStmt _ value => do
      match value with
      | some e => return .returned (← evaluate fuel e)
      | none => return .returned .nil
    | .classDecl name sup methods => do
      let superclass ← match sup with
        | some e => do pure (some (← superclassOf e (← evaluate fuel e)))
        | none => pure none
      define (← current) name.lexeme none
      -- a subclass's methods close over a frame binding `super`, current while they are made
      let enclosing ← match superclass with
        | some c => do
          let frame ← alloc (← current)
          define frame "super" (some (.cls c))
          pure (some (← enter frame))
        | none => pure none
      let menv ← current
      let mut table : List (String × Closure) := []
      for m in methods do
        table := (m.name.lexeme, ⟨← fresh, m, menv, m.name.lexeme == "init"⟩) :: table
      let c := ClassDef.mk (← fresh) name.lexeme superclass table
      match enclosing with
      | some previous => leave previous
      | none => pure ()
      match (← get).store.owner (← current) name.lexeme with
      | some frame => define frame name.lexeme (some (.cls c))
      | none => fail name (.undefinedVariable name.lexeme)
      pure .normal

/-- Executes statements in order until one returns. -/
def executeAll : Nat → List Stmt → Run Flow
  | 0, _ => throw .exhausted
  | _ + 1, [] => pure .normal
  | fuel + 1, s :: rest => do
    match ← execute fuel s with
    | .normal => executeAll fuel rest
    | .returned v => pure (.returned v)

/-- A `while` loop: the body runs while the condition is truthy, until it returns. -/
def whileLoop : Nat → Expr → Stmt → Run Flow
  | 0, _, _ => throw .exhausted
  | fuel + 1, c, body => do
    if (← evaluate fuel c).truthy then
      match ← execute fuel body with
      | .normal => whileLoop fuel c body
      | .returned v => pure (.returned v)
    else pure .normal

end

/-- Runs a unit's statements in the current frame, echoing the value of each top-level expression
statement when `echo` is set. -/
def interpret (fuel : Nat) (echo : Bool) : List Stmt → Run Unit
  | [] => pure ()
  | s :: rest => do
    match s with
    | .expression e =>
      if echo then
        write (← evaluate fuel e).display
        interpret fuel echo rest
      else
        let _ ← execute fuel s
        interpret fuel echo rest
    | _ =>
      match ← execute fuel s with
      | .normal => interpret fuel echo rest
      | .returned _ => pure ()

end Interp

end Lox
