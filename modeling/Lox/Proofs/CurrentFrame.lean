import Lox.Proofs.ScopeAgreement
/-!
The interpreter keeps its current frame. The rules of `Run` take the frame to run in as an argument
and never look at the machine's current frame (`Run.Blind`, by induction on the fuel). The
interpreter of a session reads the frame from the machine and moves it only through `withFrame`,
for a block or a call, and while a subclass builds its methods over the frame binding `super`.
Started with a frame current, each of its rules does exactly what the rule of `Run` does in that
frame (`Interp.agreement`), so every rule, whether it ends normally, by `return` or on a runtime
fault raised at any depth, leaves current the frame it found (`Interp.execute_restores`,
`Interp.evaluate_restores`). A session's units therefore all run in the globals frame, and run as
`Run.interpret` runs them there (`Interp.interpret_eq`, `Session.run_env`).
-/
namespace Lox

namespace Run

variable {α β γ : Type}

/-! ### Runs blind to the current frame -/

/-- A run that neither reads nor moves the current frame: started with any frame current, it does
what it does from any other, and leaves the frame it found current. -/
def Blind (x : Run α) : Prop :=
  ∀ m frame, x.run.run { m with env := frame } = ((x.run.run m).1, { (x.run.run m).2 with env := frame })

/-- A blind run leaves the current frame where it was. -/
theorem Blind.env {x : Run α} (blind : Blind x) (m : Machine) : (x.run.run m).2.env = m.env := by
  have same : x.run.run m = ((x.run.run m).1, { (x.run.run m).2 with env := m.env }) := blind m m.env
  exact congrArg (fun out => out.2.env) same

theorem Blind.pure (a : α) : Blind (Pure.pure a : Run α) := fun _ _ => rfl

theorem Blind.throw (stop : Stop) : Blind (MonadExcept.throw stop : Run α) := fun _ _ => rfl

theorem Blind.bind {x : Run α} {f : α → Run β} (first : Blind x) (rest : ∀ a, Blind (f a)) :
    Blind (x >>= f) := by
  intro m frame
  rw [run_bind,run_bind,first m frame]
  rcases x.run.run m with ⟨r, m'⟩
  cases r with
  | ok a => exact rest a m' frame
  | error stop => rfl

/-- Reading the machine is blind when what follows reads none of the current frame. -/
theorem Blind.get_bind {f : Machine → Run β} (reads : ∀ m frame, f { m with env := frame } = f m)
    (rest : ∀ m, Blind (f m)) : Blind (get >>= f) := by
  intro m frame
  rw [run_bind,run_bind,run_get,run_get]
  dsimp only
  rw [reads]
  exact rest m m frame

theorem Blind.modify {f : Machine → Machine} (commutes : ∀ m frame, f { m with env := frame } = { f m with env := frame }) :
    Blind (modify f : Run PUnit) := by
  intro m frame
  rw [run_modify,run_modify,commutes]

theorem Blind.ite {c : Prop} [Decidable c] {x y : Run α} (yes : Blind x) (no : Blind y) :
    Blind (if c then x else y) := by
  split
  · exact yes
  · exact no

/-- A loop over a list is blind when each pass is. -/
theorem Blind.forIn {xs : List γ} {b : β} {body : γ → β → Run (ForInStep β)} (each : ∀ a b, Blind (body a b)) :
    Blind (forIn xs b body) := by
  induction xs generalizing b with
  | nil => exact Blind.pure b
  | cons a xs ih =>
    rw [List.forIn_cons]
    refine Blind.bind (each a b) fun step => ?_
    cases step with
    | done b' => exact Blind.pure b'
    | yield b' => exact ih

theorem blind_fail (t : Token) (f : RuntimeFault) : Blind (fail t f : Run α) := fun _ _ => rfl

theorem blind_fresh : Blind fresh := fun _ _ => rfl

theorem blind_alloc (p : Nat) : Blind (alloc p) := fun _ _ => rfl

theorem blind_newObject : Blind newObject := fun _ _ => rfl

theorem blind_define (frame : Nat) (name : String) (v : Option Value) : Blind (define frame name v) := fun _ _ => rfl

theorem blind_write (line : String) : Blind (write line) := fun _ _ => rfl

theorem blind_lookUp (env : Nat) (name : Token) (addr : Address) : Blind (lookUp env name addr) := by
  refine Blind.get_bind (fun _ _ => rfl) fun m => ?_
  dsimp only
  split
  · exact Blind.pure _
  · exact blind_fail _ _
  · exact blind_fail _ _

theorem blind_assignTo (env : Nat) (name : Token) (addr : Address) (v : Value) : Blind (assignTo env name addr v) := by
  refine Blind.get_bind (fun _ _ => rfl) fun m => ?_
  dsimp only
  split
  · exact blind_define _ _ _
  · exact blind_fail _ _

theorem blind_bindMethod (method : Closure) (ref : Nat) (c : ClassDef) : Blind (bindMethod method ref c) :=
  Blind.bind (blind_alloc _) fun _ => Blind.bind (blind_define _ _ _) fun _ =>
    Blind.bind blind_fresh fun _ => Blind.pure _

theorem blind_getProperty (name : Token) (ref : Nat) (c : ClassDef) : Blind (getProperty name ref c) := by
  refine Blind.get_bind (fun _ _ => rfl) fun m => ?_
  split
  · exact Blind.pure _
  · split
    · exact Blind.bind (blind_bindMethod _ _ _) fun _ => Blind.pure _
    · exact blind_fail _ _

theorem blind_superclassOf (e : Expr) (v : Value) : Blind (superclassOf e v) := by
  unfold superclassOf
  split
  · exact Blind.pure _
  · exact blind_fail _ _

/-- The rules at one amount of fuel, each blind to the current frame. -/
structure Blinds (fuel : Nat) : Prop where
  eval : ∀ env e, Blind (eval fuel env e)
  evalArgs : ∀ env args, Blind (evalArgs fuel env args)
  callValue : ∀ paren callee args, Blind (callValue fuel paren callee args)
  callClosure : ∀ f args, Blind (callClosure fuel f args)
  exec : ∀ env st, Blind (exec fuel env st)
  execBlock : ∀ env ss, Blind (execBlock fuel env ss)
  loop : ∀ env c body, Blind (loop fuel env c body)

theorem blinds_zero : Blinds 0 where
  eval _ _ := by rw [eval]; exact Blind.throw _
  evalArgs _ _ := by rw [evalArgs]; exact Blind.throw _
  callValue _ _ _ := by rw [callValue]; exact Blind.throw _
  callClosure _ _ := by rw [callClosure]; exact Blind.throw _
  exec _ _ := by rw [exec]; exact Blind.throw _
  execBlock _ _ := by rw [execBlock]; exact Blind.throw _
  loop _ _ _ := by rw [loop]; exact Blind.throw _

/-- What a class declaration does once its methods' frame is chosen: each method becomes a closure
over `menv`, and the class is bound where the nearest binding of its name is, from `env`. -/
def declareClass (env menv : Nat) (name : Token) (superclass : Option ClassDef) (methods : List FunDecl) : Run Flow := do
  let mut table : List (String × Closure) := []
  for m in methods do
    table := (m.name.lexeme, ⟨← fresh, m, menv, m.name.lexeme == "init"⟩) :: table
  let c := ClassDef.mk (← fresh) name.lexeme superclass table
  match (← get).store.owner env name.lexeme with
  | some frame => define frame name.lexeme (some (.cls c))
  | none => fail name (.undefinedVariable name.lexeme)
  pure .normal

theorem blind_declareClass (env menv : Nat) (name : Token) (superclass : Option ClassDef) (methods : List FunDecl) :
    Blind (declareClass env menv name superclass methods) := by
  refine Blind.bind (Blind.forIn fun m t => Blind.bind blind_fresh fun _ => Blind.pure _) fun table => ?_
  refine Blind.bind blind_fresh fun id => Blind.get_bind (fun _ _ => rfl) fun mach => ?_
  split
  · exact Blind.bind (blind_define _ _ _) fun _ => Blind.pure _
  · exact Blind.bind (blind_fail _ _) fun _ => Blind.pure _

/-- The arity check is blind. -/
theorem blind_check (paren : Token) (args : List Value) (arity : Nat) :
    Blind (if args.length != arity then fail paren (.arityMismatch arity args.length) else Pure.pure () : Run Unit) :=
  Blind.ite (blind_fail _ _) (Blind.pure _)

section Succ

variable {n : Nat} (ih : Blinds n)
include ih

theorem blind_eval_succ (env : Nat) (e : Expr) : Blind (eval (n + 1) env e) := by
  cases e with
  | literal v => rw [eval]; exact Blind.pure _
  | grouping inner => rw [eval]; exact ih.eval env inner
  | unary op r =>
    rw [eval]
    refine Blind.bind (ih.eval env r) fun v => ?_
    split
    · split
      · exact Blind.pure _
      · exact blind_fail _ _
    · exact Blind.pure _
    · exact blind_fail _ _
  | binary l op r =>
    rw [eval]
    refine Blind.bind (ih.eval env l) fun a => Blind.bind (ih.eval env r) fun b => ?_
    split
    · exact Blind.pure _
    · exact Blind.throw _
  | logical l op r =>
    rw [eval]
    exact Blind.bind (ih.eval env l) fun a => Blind.ite (Blind.pure a) (ih.eval env r)
  | ident name a => rw [eval]; exact blind_lookUp env name a
  | assign name v a =>
    rw [eval]
    exact Blind.bind (ih.eval env v) fun value => Blind.bind (blind_assignTo env name a value) fun _ => Blind.pure _
  | call f paren args =>
    rw [eval]
    exact Blind.bind (ih.eval env f) fun callee => Blind.bind (ih.evalArgs env args) fun argv =>
      ih.callValue paren callee argv
  | get o name =>
    rw [eval]
    refine Blind.bind (ih.eval env o) fun obj => ?_
    split
    · exact blind_getProperty _ _ _
    · exact blind_fail _ _
  | set o name v =>
    rw [eval]
    refine Blind.bind (ih.eval env o) fun obj => ?_
    split
    · exact Blind.bind (ih.eval env v) fun value =>
        Blind.bind (Blind.modify fun _ _ => rfl) fun _ => Blind.pure _
    · exact blind_fail _ _
  | thisRef kw a => rw [eval]; exact blind_lookUp env kw a
  | superGet kw method a =>
    cases a
    next => rw [eval]; exact blind_fail _ _
    next d =>
      rw [eval]
      refine Blind.bind (blind_lookUp _ _ _) fun sc => ?_
      split
      · split
        · exact blind_fail _ _
        · refine Blind.bind (blind_lookUp _ _ _) fun this => ?_
          split
          · split
            · exact Blind.bind (blind_bindMethod _ _ _) fun _ => Blind.pure _
            · exact blind_fail _ _
          · exact blind_fail _ _
      · exact blind_fail _ _

theorem blind_evalArgs_succ (env : Nat) (args : List Expr) : Blind (evalArgs (n + 1) env args) := by
  cases args with
  | nil => rw [evalArgs]; exact Blind.pure _
  | cons a rest =>
    rw [evalArgs]
    exact Blind.bind (ih.eval env a) fun v => Blind.bind (ih.evalArgs env rest) fun vs => Blind.pure _

theorem blind_callValue_succ (paren : Token) (callee : Value) (args : List Value) :
    Blind (callValue (n + 1) paren callee args) := by
  cases callee with
  | fn f => rw [callValue]; exact Blind.bind (blind_check paren args _) fun _ => ih.callClosure _ args
  | native native =>
    rw [callValue]
    refine Blind.bind (blind_check paren args _) fun _ => ?_
    cases native
    exact Blind.get_bind (fun _ _ => rfl) fun _ => Blind.pure _
  | cls c =>
    rw [callValue]
    refine Blind.bind (blind_check paren args _) fun _ => Blind.bind blind_newObject fun ref => ?_
    dsimp only
    split
    · exact Blind.bind (blind_bindMethod _ _ _) fun bound => Blind.bind (ih.callClosure bound args) fun _ =>
        Blind.pure _
    · exact Blind.pure _
  | _ =>
    rw [callValue]
    · exact blind_fail _ _
    all_goals
      intro _ same
      cases same

theorem blind_callClosure_succ (f : Closure) (args : List Value) : Blind (callClosure (n + 1) f args) := by
  rw [callClosure]
  refine Blind.bind (blind_alloc _) fun frame => ?_
  refine Blind.bind (Blind.forIn fun p _ => Blind.bind (blind_define _ _ _) fun _ => Blind.pure _) fun _ => ?_
  refine Blind.bind (ih.execBlock frame _) fun flow => ?_
  split
  · exact blind_lookUp _ _ _
  · split
    · exact Blind.pure _
    · exact Blind.pure _

theorem blind_exec_succ (env : Nat) (st : Stmt) : Blind (exec (n + 1) env st) := by
  cases st with
  | expression e => rw [exec]; exact Blind.bind (ih.eval env e) fun _ => Blind.pure _
  | print e =>
    rw [exec]
    exact Blind.bind (ih.eval env e) fun v => Blind.bind (blind_write _) fun _ => Blind.pure _
  | varDecl name init =>
    cases init with
    | some e =>
      rw [exec]
      exact Blind.bind (ih.eval env e) fun v => Blind.bind (blind_define _ _ _) fun _ => Blind.pure _
    | none =>
      rw [exec]
      exact Blind.bind (Blind.pure _) fun v => Blind.bind (blind_define _ _ _) fun _ => Blind.pure _
  | block body => rw [exec]; exact Blind.bind (blind_alloc env) fun frame => ih.execBlock frame body
  | ifElse c t e =>
    cases e with
    | some f => rw [exec]; exact Blind.bind (ih.eval env c) fun v => Blind.ite (ih.exec env t) (ih.exec env f)
    | none => rw [exec]; exact Blind.bind (ih.eval env c) fun v => Blind.ite (ih.exec env t) (Blind.pure _)
  | whileLoop c body => rw [exec]; exact ih.loop env c body
  | function d =>
    rw [exec]
    exact Blind.bind blind_fresh fun id => Blind.bind (blind_define _ _ _) fun _ => Blind.pure _
  | returnStmt kw v =>
    cases v with
    | some e => rw [exec]; exact Blind.bind (ih.eval env e) fun _ => Blind.pure _
    | none => rw [exec]; exact Blind.pure _
  | classDecl name sup methods =>
    cases sup <;> rw [exec]
    case' some e =>
      refine Blind.bind (ih.eval env e) fun v => Blind.bind (blind_superclassOf e v) fun c => ?_
    -- after the superclass, the two forms declare alike
    all_goals
      refine Blind.bind (Blind.pure _) fun superclass => Blind.bind (blind_define _ _ _) fun _ => ?_
      cases superclass with
      | some c =>
        exact Blind.bind (blind_alloc env) fun frame => Blind.bind (blind_define _ _ _) fun _ =>
          Blind.bind (Blind.pure frame) fun menv => blind_declareClass env menv name _ methods
      | none => exact Blind.bind (Blind.pure env) fun menv => blind_declareClass env menv name _ methods

theorem blind_execBlock_succ (env : Nat) (ss : List Stmt) : Blind (execBlock (n + 1) env ss) := by
  cases ss with
  | nil => rw [execBlock]; exact Blind.pure _
  | cons st rest =>
    rw [execBlock]
    refine Blind.bind (ih.exec env st) fun flow => ?_
    split
    · exact ih.execBlock env rest
    · exact Blind.pure _

theorem blind_loop_succ (env : Nat) (c : Expr) (body : Stmt) : Blind (loop (n + 1) env c body) := by
  rw [loop]
  refine Blind.bind (ih.eval env c) fun v => Blind.ite ?_ (Blind.pure _)
  refine Blind.bind (ih.exec env body) fun flow => ?_
  split
  · exact ih.loop env c body
  · exact Blind.pure _

end Succ

/-- Every rule is blind to the current frame, whatever the fuel. -/
theorem blinds : ∀ n, Blinds n
  | 0 => blinds_zero
  | n + 1 =>
    have ih := blinds n
    ⟨blind_eval_succ ih, blind_evalArgs_succ ih, blind_callValue_succ ih, blind_callClosure_succ ih,
      blind_exec_succ ih, blind_execBlock_succ ih, blind_loop_succ ih⟩

/-- The top level is blind to the current frame: it runs every statement in the globals frame. -/
theorem blind_interpret (fuel : Nat) (echo : Bool) : ∀ stmts, Blind (interpret fuel echo stmts) := by
  intro stmts
  induction stmts with
  | nil => exact Blind.pure _
  | cons st rest ih =>
    cases st with
    | expression e =>
      rw [interpret]
      exact Blind.ite (Blind.bind ((blinds fuel).eval _ _) fun v => Blind.bind (blind_write _) fun _ => ih)
        (Blind.bind ((blinds fuel).exec _ _) fun _ => ih)
    | _ =>
      rw [interpret]
      · refine Blind.bind ((blinds fuel).exec _ _) fun flow => ?_
        split
        · exact ih
        · exact Blind.pure _
      · intro _ same
        cases same

/-- The methods of a class tabulated in turn, as both interpreters write the loop. -/
theorem run_tabulate (menv : Nat) (ds : List FunDecl) (t : List (String × Closure)) (m : Machine) :
    (forIn ds t fun (d : FunDecl) (t : List (String × Closure)) => do
        let id ← fresh
        pure (ForInStep.yield ((d.name.lexeme, (⟨id, d, menv, d.name.lexeme == "init"⟩ : Closure)) :: t)) : Run _).run.run m =
      (.ok (methodTable menv ds t m.nextId), { m with nextId := m.nextId + ds.length }) :=
  run_forIn_table _ (fun _ _ _ => rfl) ds t m

end Run

namespace Interp

open Run

variable {α β : Type}

@[simp] theorem run_current (m : Machine) : current.run.run m = (.ok m.env, m) := rfl

@[simp] theorem run_enter (frame : Nat) (m : Machine) : (enter frame).run.run m = (.ok m.env, { m with env := frame }) :=
  rfl

@[simp] theorem run_leave (frame : Nat) (m : Machine) : (leave frame).run.run m = (.ok (), { m with env := frame }) := rfl

/-- A body run with `frame` current ends as it ends, with the frame found before current again. -/
theorem run_withFrame (frame : Nat) (body : Run α) (m : Machine) :
    (withFrame frame body).run.run m =
      ((body.run.run { m with env := frame }).1, { (body.run.run { m with env := frame }).2 with env := m.env }) :=
  rfl

/-! ### The interpreter against the frame-passing rules -/

/-- A run of the interpreter that does, with `frame` current, what a run of `Run` does. -/
def Agree (frame : Nat) (x y : Run α) : Prop :=
  ∀ m, m.env = frame → x.run.run m = y.run.run m

theorem Agree.refl (frame : Nat) (x : Run α) : Agree frame x x := fun _ _ => rfl

/-- Sequencing: a blind first run leaves the frame current, so the rest starts where it agrees. -/
theorem Agree.bind {frame : Nat} {x y : Run α} {f g : α → Run β} (first : Agree frame x y) (blind : Blind y)
    (rest : ∀ a, Agree frame (f a) (g a)) : Agree frame (x >>= f) (y >>= g) := by
  intro m current
  rw [run_bind,run_bind,first m current]
  have kept := blind.env m
  revert kept
  rcases y.run.run m with ⟨r, m'⟩
  intro kept
  cases r with
  | ok a => exact rest a m' (kept.trans current)
  | error stop => rfl

/-- Reading the current frame reads the frame the rules are given. -/
theorem Agree.current {frame : Nat} {f : Nat → Run α} {y : Run α} (rest : Agree frame (f frame) y) :
    Agree frame (current >>= f) y := by
  intro m here
  rw [run_bind,run_current]
  dsimp only
  rw [here]
  exact rest m here

/-- A body run with another frame current agrees with the blind rule run in that frame, and puts
the frame back. -/
theorem Agree.withFrame {frame inner : Nat} {x y : Run α} (body : Agree inner x y) (blind : Blind y) :
    Agree frame (withFrame inner x) y := by
  intro m here
  rw [run_withFrame,body _ rfl,blind m inner]
  have kept := blind.env m
  revert kept
  rcases y.run.run m with ⟨r, m'⟩
  intro kept
  dsimp only at kept ⊢
  rw [← kept]

theorem Agree.ite {frame : Nat} {c : Prop} [Decidable c] {x x' y y' : Run α} (yes : Agree frame x y)
    (no : Agree frame x' y') : Agree frame (if c then x else x') (if c then y else y') := by
  split
  · exact yes
  · exact no

/-- The interpreter's rules at one amount of fuel, each agreeing with the rule of `Run` in the
current frame. -/
structure Agreement (fuel : Nat) : Prop where
  evaluate : ∀ env e, Agree env (evaluate fuel e) (eval fuel env e)
  evaluateArgs : ∀ env args, Agree env (evaluateArgs fuel args) (evalArgs fuel env args)
  call : ∀ env paren callee args, Agree env (call fuel paren callee args) (callValue fuel paren callee args)
  callFunction : ∀ env f args, Agree env (callFunction fuel f args) (callClosure fuel f args)
  execute : ∀ env st, Agree env (execute fuel st) (exec fuel env st)
  executeAll : ∀ env ss, Agree env (executeAll fuel ss) (execBlock fuel env ss)
  whileLoop : ∀ env c body, Agree env (whileLoop fuel c body) (loop fuel env c body)

theorem agreement_zero : Agreement 0 where
  evaluate _ _ := by rw [evaluate,eval]; exact Agree.refl _ _
  evaluateArgs _ _ := by rw [evaluateArgs,evalArgs]; exact Agree.refl _ _
  call _ _ _ _ := by rw [call,callValue]; exact Agree.refl _ _
  callFunction _ _ _ := by rw [callFunction,callClosure]; exact Agree.refl _ _
  execute _ _ := by rw [execute,exec]; exact Agree.refl _ _
  executeAll _ _ := by rw [executeAll,execBlock]; exact Agree.refl _ _
  whileLoop _ _ _ := by rw [whileLoop,loop]; exact Agree.refl _ _

section Succ

variable {n : Nat} (ih : Agreement n)
include ih

theorem agree_evaluate_succ (env : Nat) (e : Expr) : Agree env (evaluate (n + 1) e) (eval (n + 1) env e) := by
  have blind := blinds n
  cases e with
  | literal v => rw [evaluate,eval]; exact Agree.refl _ _
  | grouping inner => rw [evaluate,eval]; exact ih.evaluate env inner
  | unary op r =>
    rw [evaluate,eval]
    exact Agree.bind (ih.evaluate env r) (blind.eval env r) fun v => Agree.refl _ _
  | binary l op r =>
    rw [evaluate,eval]
    exact Agree.bind (ih.evaluate env l) (blind.eval env l) fun a =>
      Agree.bind (ih.evaluate env r) (blind.eval env r) fun b => Agree.refl _ _
  | logical l op r =>
    rw [evaluate,eval]
    exact Agree.bind (ih.evaluate env l) (blind.eval env l) fun a => Agree.ite (Agree.refl _ _) (ih.evaluate env r)
  | ident name a => rw [evaluate,eval]; exact Agree.current (Agree.refl _ _)
  | assign name v a =>
    rw [evaluate,eval]
    exact Agree.bind (ih.evaluate env v) (blind.eval env v) fun value => Agree.current (Agree.refl _ _)
  | call f paren args =>
    rw [evaluate,eval]
    exact Agree.bind (ih.evaluate env f) (blind.eval env f) fun callee =>
      Agree.bind (ih.evaluateArgs env args) (blind.evalArgs env args) fun argv => ih.call env paren callee argv
  | get o name =>
    rw [evaluate,eval]
    exact Agree.bind (ih.evaluate env o) (blind.eval env o) fun obj => Agree.refl _ _
  | set o name v =>
    rw [evaluate,eval]
    refine Agree.bind (ih.evaluate env o) (blind.eval env o) fun obj => ?_
    cases obj
    case obj ref c =>
      exact Agree.bind (ih.evaluate env v) (blind.eval env v) fun value => Agree.refl _ _
    all_goals exact Agree.refl _ _
  | thisRef kw a => rw [evaluate,eval]; exact Agree.current (Agree.refl _ _)
  | superGet kw method a =>
    cases a
    next => rw [evaluate,eval]; exact Agree.refl _ _
    next d =>
      rw [evaluate,eval]
      refine Agree.current (Agree.bind (Agree.refl _ _) (blind_lookUp _ _ _) fun sc => ?_)
      cases sc
      case cls sc =>
        cases d
        next => exact Agree.refl _ _
        next d => exact Agree.current (Agree.bind (Agree.refl _ _) (blind_lookUp _ _ _) fun _ => Agree.refl _ _)
      all_goals exact Agree.refl _ _

theorem agree_evaluateArgs_succ (env : Nat) (args : List Expr) :
    Agree env (evaluateArgs (n + 1) args) (evalArgs (n + 1) env args) := by
  cases args with
  | nil => rw [evaluateArgs,evalArgs]; exact Agree.refl _ _
  | cons a rest =>
    rw [evaluateArgs,evalArgs]
    exact Agree.bind (ih.evaluate env a) ((blinds n).eval env a) fun v =>
      Agree.bind (ih.evaluateArgs env rest) ((blinds n).evalArgs env rest) fun _ => Agree.refl _ _

theorem agree_call_succ (env : Nat) (paren : Token) (callee : Value) (args : List Value) :
    Agree env (call (n + 1) paren callee args) (callValue (n + 1) paren callee args) := by
  cases callee with
  | fn f =>
    rw [call,callValue]
    exact Agree.bind (Agree.refl _ _) (blind_check paren args _) fun _ => ih.callFunction env f args
  | cls c =>
    rw [call,callValue]
    refine Agree.bind (Agree.refl _ _) (blind_check paren args _) fun _ =>
      Agree.bind (Agree.refl _ _) blind_newObject fun ref => ?_
    dsimp only
    cases c.findMethod "init" with
    | some init =>
      exact Agree.bind (Agree.refl _ _) (blind_bindMethod _ _ _) fun bound =>
        Agree.bind (ih.callFunction env bound args) ((blinds n).callClosure bound args) fun _ => Agree.refl _ _
    | none => exact Agree.refl _ _
  | native native => rw [call,callValue]; exact Agree.refl _ _
  | _ =>
    rw [call,callValue]
    · exact Agree.refl _ _
    all_goals
      intro _ same
      cases same

theorem agree_callFunction_succ (env : Nat) (f : Closure) (args : List Value) :
    Agree env (callFunction (n + 1) f args) (callClosure (n + 1) f args) := by
  rw [callFunction,callClosure]
  refine Agree.bind (Agree.refl _ _) (blind_alloc _) fun frame => ?_
  refine Agree.bind (Agree.refl _ _) (Blind.forIn fun p _ => Blind.bind (blind_define _ _ _) fun _ => Blind.pure _)
    fun _ => ?_
  -- the body runs with the call's frame current, and the caller's frame comes back
  exact Agree.bind (Agree.withFrame (ih.executeAll frame _) ((blinds n).execBlock frame _))
    ((blinds n).execBlock frame _) fun _ => Agree.refl _ _

theorem agree_executeAll_succ (env : Nat) (ss : List Stmt) :
    Agree env (executeAll (n + 1) ss) (execBlock (n + 1) env ss) := by
  cases ss with
  | nil => rw [executeAll,execBlock]; exact Agree.refl _ _
  | cons st rest =>
    rw [executeAll,execBlock]
    refine Agree.bind (ih.execute env st) ((blinds n).exec env st) fun flow => ?_
    cases flow with
    | normal => exact ih.executeAll env rest
    | returned v => exact Agree.refl _ _

theorem agree_whileLoop_succ (env : Nat) (c : Expr) (body : Stmt) :
    Agree env (whileLoop (n + 1) c body) (loop (n + 1) env c body) := by
  rw [whileLoop,loop]
  refine Agree.bind (ih.evaluate env c) ((blinds n).eval env c) fun v => Agree.ite ?_ (Agree.refl _ _)
  refine Agree.bind (ih.execute env body) ((blinds n).exec env body) fun flow => ?_
  cases flow with
  | normal => exact ih.whileLoop env c body
  | returned v => exact Agree.refl _ _

theorem agree_execute_succ (env : Nat) (st : Stmt) : Agree env (execute (n + 1) st) (exec (n + 1) env st) := by
  have blind := blinds n
  cases st with
  | expression e =>
    rw [execute,exec]
    exact Agree.bind (ih.evaluate env e) (blind.eval env e) fun _ => Agree.refl _ _
  | print e =>
    rw [execute,exec]
    exact Agree.bind (ih.evaluate env e) (blind.eval env e) fun _ => Agree.refl _ _
  | varDecl name init =>
    cases init with
    | some e =>
      rw [execute,exec]
      exact Agree.bind (ih.evaluate env e) (blind.eval env e) fun _ => Agree.current (Agree.refl _ _)
    | none =>
      rw [execute,exec]
      exact Agree.bind (Agree.refl _ _) (Blind.pure _) fun _ => Agree.current (Agree.refl _ _)
  | block body =>
    rw [execute,exec]
    exact Agree.current (Agree.bind (Agree.refl _ _) (blind_alloc env) fun frame =>
      Agree.withFrame (ih.executeAll frame body) (blind.execBlock frame body))
  | ifElse c t e =>
    cases e with
    | some f =>
      rw [execute,exec]
      exact Agree.bind (ih.evaluate env c) (blind.eval env c) fun _ => Agree.ite (ih.execute env t) (ih.execute env f)
    | none =>
      rw [execute,exec]
      exact Agree.bind (ih.evaluate env c) (blind.eval env c) fun _ => Agree.ite (ih.execute env t) (Agree.refl _ _)
  | whileLoop c body => rw [execute,exec]; exact ih.whileLoop env c body
  | function d => rw [execute,exec]; exact Agree.current (Agree.refl _ _)
  | returnStmt kw v =>
    cases v with
    | some e =>
      rw [execute,exec]
      exact Agree.bind (ih.evaluate env e) (blind.eval env e) fun _ => Agree.refl _ _
    | none => rw [execute,exec]; exact Agree.refl _ _
  | classDecl name sup methods =>
    cases sup <;> rw [execute,exec]
    case' some e =>
      refine Agree.bind (ih.evaluate env e) (blind.eval env e) fun v =>
        Agree.bind (Agree.refl _ _) (blind_superclassOf e v) fun c => ?_
    -- the superclass read, both declare the class alike: the interpreter makes the frame binding
    -- `super` current while it tabulates the methods, which cannot fail, and then leaves it
    all_goals
      refine Agree.bind (Agree.refl _ _) (Blind.pure _) fun superclass => ?_
      intro m here
      -- what is left is the two rules' matches on the owner of the name, which are one matcher when
      -- both rules are elaborated in one file and two otherwise, so `rfl` closes it only if `simp` has not
      cases superclass
      · simp only [run_bind,run_current,run_define,run_pure,here,run_tabulate,run_fresh,run_get] <;> rfl
      · simp only [run_bind,run_current,run_define,run_pure,run_alloc,run_enter,here,run_tabulate,run_fresh,
          run_leave,run_get] <;> rfl

end Succ

/-- Every rule of the interpreter, started with a frame current, runs as the rule of `Run` runs in
that frame, whatever the fuel. -/
theorem agreement : ∀ n, Agreement n
  | 0 => agreement_zero
  | n + 1 =>
    have ih := agreement n
    ⟨agree_evaluate_succ ih, agree_evaluateArgs_succ ih, agree_call_succ ih, agree_callFunction_succ ih,
      agree_execute_succ ih, agree_executeAll_succ ih, agree_whileLoop_succ ih⟩

theorem evaluate_eq (fuel : Nat) (e : Expr) (m : Machine) :
    (evaluate fuel e).run.run m = (eval fuel m.env e).run.run m :=
  (agreement fuel).evaluate m.env e m rfl

theorem execute_eq (fuel : Nat) (st : Stmt) (m : Machine) :
    (execute fuel st).run.run m = (exec fuel m.env st).run.run m :=
  (agreement fuel).execute m.env st m rfl

/-! ### Every exit puts the frame back -/

/-- A run that leaves current the frame it found. -/
def Restores (x : Run α) : Prop := ∀ m, (x.run.run m).2.env = m.env

theorem Restores.bind {x : Run α} {f : α → Run β} (first : Restores x) (rest : ∀ a, Restores (f a)) :
    Restores (x >>= f) := by
  intro m
  rw [run_bind]
  have kept := first m
  revert kept
  rcases x.run.run m with ⟨r, m'⟩
  intro kept
  cases r with
  | ok a => exact (rest a m').trans kept
  | error stop => exact kept

/-- An expression, whatever its value or the fault that stops it, leaves current the frame it
found. -/
theorem evaluate_restores (fuel : Nat) (e : Expr) : Restores (evaluate fuel e) := by
  intro m
  rw [evaluate_eq]
  exact ((blinds fuel).eval m.env e).env m

/-- A statement, whether it ends normally, returns or stops on a fault raised at any depth of
blocks, calls, initializers and class declarations, leaves current the frame it found. -/
theorem execute_restores (fuel : Nat) (st : Stmt) : Restores (execute fuel st) := by
  intro m
  rw [execute_eq]
  exact ((blinds fuel).exec m.env st).env m

/-- A call leaves current the frame it was made in. -/
theorem call_restores (fuel : Nat) (paren : Token) (callee : Value) (args : List Value) :
    Restores (call fuel paren callee args) := by
  intro m
  rw [(agreement fuel).call m.env paren callee args m rfl]
  exact ((blinds fuel).callValue paren callee args).env m

/-- A unit's statements leave current the frame they ran in. -/
theorem interpret_restores (fuel : Nat) (echo : Bool) : ∀ stmts, Restores (interpret fuel echo stmts) := by
  intro stmts
  induction stmts with
  | nil => exact fun _ => rfl
  | cons st rest ih =>
    cases st with
    | expression e =>
      rw [interpret]
      split
      · exact (evaluate_restores fuel e).bind fun v => Restores.bind (fun _ => rfl) fun _ => ih
      · exact (execute_restores fuel _).bind fun _ => ih
    | _ =>
      rw [interpret]
      · refine (execute_restores fuel _).bind fun flow => ?_
        cases flow with
        | normal => exact ih
        | returned v => exact fun _ => rfl
      · intro _ same
        cases same

/-- From the globals frame, a unit runs as `Run.interpret` runs it. -/
theorem interpret_eq (fuel : Nat) (echo : Bool) :
    ∀ stmts, Agree Store.globals (interpret fuel echo stmts) (Run.interpret fuel echo stmts) := by
  intro stmts
  induction stmts with
  | nil => exact Agree.refl _ _
  | cons st rest ih =>
    cases st with
    | expression e =>
      rw [interpret,Run.interpret]
      exact Agree.ite (Agree.bind ((agreement fuel).evaluate _ e) ((blinds fuel).eval _ e) fun v =>
          Agree.bind (Agree.refl _ _) (blind_write _) fun _ => ih)
        (Agree.bind ((agreement fuel).execute _ _) ((blinds fuel).exec _ _) fun _ => ih)
    | _ =>
      rw [interpret,Run.interpret]
      · refine Agree.bind ((agreement fuel).execute _ _) ((blinds fuel).exec _ _) fun flow => ?_
        cases flow with
        | normal => exact ih
        | returned v => exact Agree.refl _ _
      all_goals
        intro _ same
        cases same

end Interp

namespace Session

/-- A unit, run or refused, leaves the session's current frame as it found it. -/
theorem run_env (s : Session) (source : String) : (s.run source).1.machine.env = s.machine.env := by
  unfold run
  split
  · rfl
  · unfold runStmts
    split
    · rfl
    · next stmts _ =>
      have kept := Interp.interpret_restores s.fuel s.echo stmts { s.machine with output := "" }
      revert kept
      rcases (Interp.interpret s.fuel s.echo stmts).run.run { s.machine with output := "" } with ⟨r, m⟩
      exact id

/-- A lone expression, evaluated or refused, leaves the session's current frame as it found it. -/
theorem evaluate_env (s : Session) (source : String) : (s.evaluate source).1.machine.env = s.machine.env := by
  unfold evaluate
  rcases Token.scanAll source with ⟨tokens, lexErrors⟩
  dsimp only
  split
  · rfl
  · split
    · rfl
    · split
      · rfl
      · next e _ =>
        have kept := Interp.evaluate_restores s.fuel e { s.machine with output := "" }
        revert kept
        rcases (Interp.evaluate s.fuel e).run.run { s.machine with output := "" } with ⟨r, m⟩
        exact id

/-- The globals frame stays current across any units run in turn from a session where it is. -/
theorem foldl_run_env (units : List String) : ∀ (s : Session), s.machine.env = Store.globals →
    (units.foldl (fun s unit => (Session.run s unit).1) s).machine.env = Store.globals := by
  induction units with
  | nil => exact fun _ top => top
  | cons unit units ih => exact fun s top => ih _ ((s.run_env unit).trans top)

end Session

end Lox
