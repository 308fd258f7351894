import Lox.Proofs.LineMaps
import Lox.Proofs.TopLevel
/-!
The interpreter reads no line number. Running a program whose lines are renumbered by `g`, from a
machine renumbered by `g` after some output, gives the renumbered outcome: the same value with its
functions renumbered, the same runtime fault at the renumbered token, and the same output after
that output (`Run.Renumbers`). The one token the interpreter makes up, where a superclass that is
not a class is reported without a name, stands on line `0`, so the renumbering must keep `0`.

The proof follows the fuel as `Run.agreeing` does: one lemma per store primitive, one per rule of
the interpreter at fuel `n + 1` from the rules at fuel `n` (`Run.renumbering`), and the top level
from the statements (`Run.interpret_renumbers`).
-/
namespace Lox

namespace Run

variable {α β : Type} (g : Nat → Nat) (before : String)

/-- The outcome of a run renumbered: the result by `f`, a stop and the machine by `g`, after the
output `before`. -/
def mapOutcome (f : α → α) : Except Stop α × Machine → Except Stop α × Machine
  | (.ok a, m) => (.ok (f a), m.mapLines g before)
  | (.error stop, m) => (.error (stop.mapLines g), m.mapLines g before)

theorem mapOutcome_fst (f : α → α) (o : Except Stop α × Machine) :
    (mapOutcome g before f o).1 = (o.1.map f).mapError (Stop.mapLines g) := by
  rcases o with ⟨_ | _, m⟩ <;> rfl

theorem mapOutcome_snd (f : α → α) (o : Except Stop α × Machine) :
    (mapOutcome g before f o).2 = o.2.mapLines g before := by
  rcases o with ⟨_ | _, m⟩ <;> rfl

/-- `x'` is `x` renumbered: from every machine renumbered by `g` after `before`, it gives the
renumbered outcome of `x`. -/
def Renumbers (f : α → α) (x x' : Run α) : Prop :=
  ∀ m, x'.run.run (m.mapLines g before) = mapOutcome g before f (x.run.run m)

namespace Renumbers

variable {g before}

theorem pure (f : α → α) (a : α) : Renumbers g before f (Pure.pure a) (Pure.pure (f a)) := fun _ => rfl

theorem stop (f : α → α) : Renumbers g before f (throw .exhausted) (throw .exhausted) := fun _ => rfl

theorem fail (f : α → α) (t : Token) (fault : RuntimeFault) :
    Renumbers g before f (Run.fail t fault) (Run.fail (t.mapLines g) fault) := fun _ => rfl

/-- Sequencing: the first run renumbered, then the rest renumbered at every renumbered result. -/
theorem bind {fa : α → α} {fb : β → β} {x x' : Run α} {k : α → Run β} {k' : α → Run β}
    (first : Renumbers g before fa x x') (rest : ∀ a, Renumbers g before fb (k a) (k' (fa a))) :
    Renumbers g before fb (x >>= k) (x' >>= k') := by
  intro m
  rw [run_bind, run_bind, first m]
  rcases x.run.run m with ⟨_ | a, m₁⟩
  · rfl
  · exact rest a m₁

/-- A result the renumbering does not change. -/
theorem pure_fixed {f : α → α} {a : α} (fixed : f a = a) : Renumbers g before f (Pure.pure a) (Pure.pure a) := by
  intro m
  simp only [run_pure, mapOutcome, fixed]

theorem raise (f : α → α) (err : RuntimeError) :
    Renumbers g before f (throw (.fault err)) (throw (.fault (err.mapLines g))) := fun _ => rfl

theorem ite {f : α → α} {c : Prop} [Decidable c] {x x' y y' : Run α} (yes : Renumbers g before f x x')
    (no : Renumbers g before f y y') : Renumbers g before f (if c then x else y) (if c then x' else y') := by
  split
  · exact yes
  · exact no

end Renumbers

/-! ### The primitives -/

section Primitives

theorem lookUp_renumbers (env : Nat) (name : Token) (addr : Address) :
    Renumbers g before (Value.mapLines g) (lookUp env name addr) (lookUp env (name.mapLines g) addr) := by
  intro m
  rcases addr with _ | d
  · simp only [lookUp, run_bind, run_get, Machine.mapLines_store, Token.mapLines_lexeme, Store.find_mapLines]
    cases m.store.find Store.globals name.lexeme <;> rfl
  · simp only [lookUp, run_bind, run_get, Machine.mapLines_store, Token.mapLines_lexeme, Store.getAt_mapLines]
    cases m.store.getAt env d name.lexeme <;> rfl

theorem assignTo_renumbers (env : Nat) (name : Token) (addr : Address) (v : Value) :
    Renumbers g before id (assignTo env name addr v) (assignTo env (name.mapLines g) addr (v.mapLines g)) := by
  intro m
  have defined (frame : Nat) : (define frame name.lexeme (some (v.mapLines g))).run.run (m.mapLines g before) =
      mapOutcome g before id ((define frame name.lexeme (some v)).run.run m) := by
    simp only [run_define, mapOutcome, Machine.mapLines, ← Store.define_mapLines, Option.map_some]
  rcases addr with _ | d
  · simp only [assignTo, run_bind, run_get, Machine.mapLines_store, Token.mapLines_lexeme, Store.owner_mapLines]
    cases m.store.owner Store.globals name.lexeme with
    | none => rfl
    | some frame => exact defined frame
  · simp only [assignTo, run_bind, run_get, Machine.mapLines_store, Token.mapLines_lexeme, Store.ancestor_mapLines]
    cases m.store.ancestor env d with
    | none => rfl
    | some frame => exact defined frame

theorem define_renumbers (frame : Nat) (name : String) (v : Option Value) :
    Renumbers g before id (define frame name v) (define frame name (v.map (Value.mapLines g))) := by
  intro m
  simp only [run_define, mapOutcome, Machine.mapLines, ← Store.define_mapLines]

theorem alloc_renumbers (p : Nat) : Renumbers g before id (alloc p) (alloc p) := by
  intro m
  simp only [run_alloc, Store.mapLines_frames_size, mapOutcome, Machine.mapLines, Store.alloc_mapLines]
  rfl

theorem fresh_renumbers : Renumbers g before id fresh fresh := fun _ => rfl

theorem newObject_renumbers : Renumbers g before id newObject newObject := by
  intro m
  simp only [run_newObject, Store.mapLines_objects_size, mapOutcome, Machine.mapLines, Store.newObject_mapLines]
  rfl

theorem write_renumbers (line : String) : Renumbers g before id (write line) (write line) := by
  intro m
  simp only [run_write, mapOutcome, Machine.mapLines, String.append_assoc]

theorem setField_renumbers (ref : Nat) (name : String) (v : Value) :
    Renumbers g before id (modify fun m => { m with store := m.store.setField ref name v } : Run PUnit)
      (modify fun m => { m with store := m.store.setField ref name (v.mapLines g) }) := by
  intro m
  simp only [run_modify, mapOutcome, Machine.mapLines, Store.setField_mapLines]

theorem bindMethod_renumbers (method : Closure) (ref : Nat) (c : ClassDef) :
    Renumbers g before (Closure.mapLines g) (bindMethod method ref c) (bindMethod (method.mapLines g) ref (c.mapLines g)) := by
  unfold bindMethod
  refine Renumbers.bind (alloc_renumbers g before method.env) fun frame => ?_
  refine Renumbers.bind (define_renumbers g before frame "this" (some (.obj ref c))) fun _ => ?_
  refine Renumbers.bind (fresh_renumbers g before) fun id => ?_
  exact Renumbers.pure _ _

theorem getProperty_renumbers (name : Token) (ref : Nat) (c : ClassDef) :
    Renumbers g before (Value.mapLines g) (getProperty name ref c) (getProperty (name.mapLines g) ref (c.mapLines g)) := by
  intro m
  simp only [getProperty, run_bind, run_get, Machine.mapLines_store, Token.mapLines_lexeme, Store.field?_mapLines,
    ClassDef.findMethod_mapLines]
  cases m.store.field? ref name.lexeme with
  | some v => rfl
  | none =>
    cases c.findMethod name.lexeme with
    | none => rfl
    | some method =>
      exact Renumbers.bind (bindMethod_renumbers g before method ref c) (fun f => Renumbers.pure _ (Value.fn f)) m

/-- The one token the interpreter makes up stands on line `0`, which the renumbering keeps. -/
theorem superclassOf_renumbers (zero : g 0 = 0) (e : Expr) (v : Value) :
    Renumbers g before (ClassDef.mapLines g) (superclassOf e v) (superclassOf (e.mapLines g) (v.mapLines g)) := by
  have fixed : Token.mapLines g ⟨.identifier, "super", 0⟩ = ⟨.identifier, "super", 0⟩ := by
    simp [Token.mapLines, zero]
  have unnamed : Renumbers g before (ClassDef.mapLines g) (Run.fail ⟨.identifier, "super", 0⟩ .superclassNotClass)
      (Run.fail (Token.mapLines g ⟨.identifier, "super", 0⟩) .superclassNotClass) :=
    Renumbers.fail _ _ _
  rw [fixed] at unnamed
  unfold superclassOf
  cases v
  case cls c => exact Renumbers.pure _ c
  all_goals
    cases e
    case ident n a => exact Renumbers.fail _ n .superclassNotClass
    all_goals exact unnamed

/-- Binding renumbered parameters to renumbered arguments, one by one. -/
theorem Store.foldl_define_mapLines (frame : Nat) :
    ∀ (pairs : List (Token × Value)) (s : Store),
      (pairs.map (Prod.map (Token.mapLines g) (Value.mapLines g))).foldl
          (fun s p => s.define frame p.1.lexeme (some p.2)) (s.mapLines g) =
        (pairs.foldl (fun s p => s.define frame p.1.lexeme (some p.2)) s).mapLines g
  | [], _ => rfl
  | p :: pairs, s => by
    simp only [List.map_cons, List.foldl_cons, Prod.map_fst, Prod.map_snd, Token.mapLines_lexeme]
    rw [← Option.map_some, Store.define_mapLines, Store.foldl_define_mapLines frame pairs]

theorem forIn_define_renumbers {frame : Nat} (params : List Token) (args : List Value)
    {body body' : Token × Value → PUnit → Run (ForInStep PUnit)}
    (binds : ∀ p m, (body p PUnit.unit).run.run m =
      (.ok (.yield PUnit.unit), { m with store := m.store.define frame p.1.lexeme (some p.2) }))
    (binds' : ∀ p m, (body' p PUnit.unit).run.run m =
      (.ok (.yield PUnit.unit), { m with store := m.store.define frame p.1.lexeme (some p.2) })) :
    Renumbers g before id (forIn (params.zip args) PUnit.unit body)
      (forIn ((params.map (Token.mapLines g)).zip (args.map (Value.mapLines g))) PUnit.unit body') := by
  intro m
  rw [run_forIn_define body binds, run_forIn_define body' binds', List.zip_map]
  simp only [mapOutcome, Machine.mapLines_store, Store.foldl_define_mapLines]
  rfl

/-- The method table of renumbered methods is the renumbered table. -/
theorem methodTable_mapLines (menv : Nat) : ∀ (ds : List FunDecl) (t : List (String × Closure)) (id : Nat),
    methodTable menv (FunDecl.mapLinesAll g ds) (t.map fun p => (p.1, p.2.mapLines g)) id =
      (methodTable menv ds t id).map fun p => (p.1, p.2.mapLines g)
  | [], _, _ => rfl
  | d :: ds, t, id => by
    simp only [FunDecl.mapLinesAll, methodTable, FunDecl.mapLines_name, Token.mapLines_lexeme]
    exact methodTable_mapLines menv ds ((d.name.lexeme, ⟨id, d, menv, d.name.lexeme == "init"⟩) :: t) (id + 1)

theorem forIn_table_renumbers {menv : Nat} (ds : List FunDecl)
    {body body' : FunDecl → List (String × Closure) → Run (ForInStep (List (String × Closure)))}
    (entry : ∀ d t m, (body d t).run.run m =
      (.ok (.yield ((d.name.lexeme, ⟨m.nextId, d, menv, d.name.lexeme == "init"⟩) :: t)), { m with nextId := m.nextId + 1 }))
    (entry' : ∀ d t m, (body' d t).run.run m =
      (.ok (.yield ((d.name.lexeme, ⟨m.nextId, d, menv, d.name.lexeme == "init"⟩) :: t)), { m with nextId := m.nextId + 1 })) :
    Renumbers g before (List.map fun p => (p.1, p.2.mapLines g)) (forIn ds [] body)
      (forIn (FunDecl.mapLinesAll g ds) [] body') := by
  intro m
  rw [run_forIn_table body entry, run_forIn_table body' entry']
  have table := methodTable_mapLines g menv ds [] m.nextId
  simp only [List.map_nil] at table
  simp only [mapOutcome, Machine.mapLines_nextId, table, FunDecl.length_mapLinesAll]
  rfl

/-- Binding a class built from a renumbered superclass and table. -/
theorem Store.define_class_mapLines (s : Store) (frame : Nat) (name : String) (id : Nat) (n : String)
    (sc : Option ClassDef) (table : List (String × Closure)) :
    (s.define frame name (some (.cls (.mk id n sc table)))).mapLines g =
      (s.mapLines g).define frame name
        (some (.cls (.mk id n (sc.map (ClassDef.mapLines g)) (table.map fun p => (p.1, p.2.mapLines g))))) := by
  rw [← Store.define_mapLines]
  cases sc <;> rfl

/-- Checking the number of arguments. -/
theorem checked_renumbers (paren : Token) (given arity : Nat) :
    Renumbers g before id
      (if (given != arity) = true then Run.fail paren (.arityMismatch arity given) else Pure.pure ())
      (if (given != arity) = true then Run.fail (paren.mapLines g) (.arityMismatch arity given) else Pure.pure ()) :=
  Renumbers.ite (Renumbers.fail _ _ _) (Renumbers.pure _ _)

end Primitives

/-! ### Every rule -/

/-- The rules of the interpreter at one amount of fuel, each carried by the renumbering. -/
structure Renumbering (fuel : Nat) : Prop where
  eval : ∀ (env : Nat) (e : Expr),
    Renumbers g before (Value.mapLines g) (eval fuel env e) (eval fuel env (e.mapLines g))
  evalArgs : ∀ (env : Nat) (args : List Expr), Renumbers g before (List.map (Value.mapLines g))
    (evalArgs fuel env args) (evalArgs fuel env (Expr.mapLinesAll g args))
  callValue : ∀ (paren : Token) (callee : Value) (args : List Value), Renumbers g before (Value.mapLines g)
    (callValue fuel paren callee args)
    (callValue fuel (paren.mapLines g) (callee.mapLines g) (args.map (Value.mapLines g)))
  callClosure : ∀ (f : Closure) (args : List Value), Renumbers g before (Value.mapLines g)
    (callClosure fuel f args) (callClosure fuel (f.mapLines g) (args.map (Value.mapLines g)))
  exec : ∀ (env : Nat) (s : Stmt),
    Renumbers g before (Flow.mapLines g) (exec fuel env s) (exec fuel env (s.mapLines g))
  execBlock : ∀ (env : Nat) (ss : List Stmt), Renumbers g before (Flow.mapLines g)
    (execBlock fuel env ss) (execBlock fuel env (Stmt.mapLinesAll g ss))
  loop : ∀ (env : Nat) (c : Expr) (body : Stmt), Renumbers g before (Flow.mapLines g)
    (loop fuel env c body) (loop fuel env (c.mapLines g) (body.mapLines g))

theorem renumbering_zero : Renumbering g before 0 where
  eval _ _ := by simp only [eval]; exact Renumbers.stop _
  evalArgs _ _ := by simp only [evalArgs]; exact Renumbers.stop _
  callValue _ _ _ := by simp only [callValue]; exact Renumbers.stop _
  callClosure _ _ := by simp only [callClosure]; exact Renumbers.stop _
  exec _ _ := by simp only [exec]; exact Renumbers.stop _
  execBlock _ _ := by simp only [execBlock]; exact Renumbers.stop _
  loop _ _ _ := by simp only [loop]; exact Renumbers.stop _

section Rules

variable {g before} {n : Nat} (ih : Renumbering g before n)
include ih

theorem eval_renumbers (env : Nat) (e : Expr) :
    Renumbers g before (Value.mapLines g) (eval (n + 1) env e) (eval (n + 1) env (e.mapLines g)) := by
  cases e with
  | literal v =>
    simp only [Expr.mapLines, eval]
    exact Renumbers.pure_fixed (Literal.value_mapLines g v)
  | grouping inner =>
    simp only [Expr.mapLines, eval]
    exact ih.eval env inner
  | unary op r =>
    simp only [Expr.mapLines, eval]
    refine Renumbers.bind (ih.eval env r) fun v => ?_
    simp only [Token.mapLines_kind, Value.mapLines_truthy]
    split
    · cases v <;> first | exact Renumbers.pure _ _ | exact Renumbers.fail _ _ _
    · exact Renumbers.pure _ _
    · exact Renumbers.fail _ _ _
  | binary l op r =>
    simp only [Expr.mapLines, eval]
    refine Renumbers.bind (ih.eval env l) fun a => ?_
    refine Renumbers.bind (ih.eval env r) fun b => ?_
    rw [binaryOp_mapLines]
    cases binaryOp op a b with
    | ok v =>
      simp only [Except.map, Except.mapError_ok]
      exact Renumbers.pure _ v
    | error err =>
      simp only [Except.map, Except.mapError_error]
      exact Renumbers.raise _ err
  | logical l op r =>
    simp only [Expr.mapLines, eval]
    refine Renumbers.bind (ih.eval env l) fun a => ?_
    simp only [Token.mapLines_kind, Value.mapLines_truthy]
    exact Renumbers.ite (Renumbers.pure _ _) (ih.eval env r)
  | ident name a =>
    simp only [Expr.mapLines, eval]
    exact lookUp_renumbers g before env name a
  | assign name v a =>
    simp only [Expr.mapLines, eval]
    refine Renumbers.bind (ih.eval env v) fun value => ?_
    exact Renumbers.bind (assignTo_renumbers g before env name a value) fun _ => Renumbers.pure _ _
  | call f paren args =>
    simp only [Expr.mapLines, eval]
    refine Renumbers.bind (ih.eval env f) fun callee => ?_
    exact Renumbers.bind (ih.evalArgs env args) fun argv => ih.callValue paren callee argv
  | get o name =>
    simp only [Expr.mapLines, eval]
    refine Renumbers.bind (ih.eval env o) fun obj => ?_
    cases obj
    case obj ref c => exact getProperty_renumbers g before name ref c
    all_goals exact Renumbers.fail _ _ _
  | set o name v =>
    simp only [Expr.mapLines, eval]
    refine Renumbers.bind (ih.eval env o) fun obj => ?_
    cases obj
    case obj ref c =>
      refine Renumbers.bind (ih.eval env v) fun value => ?_
      exact Renumbers.bind (setField_renumbers g before ref name.lexeme value) fun _ => Renumbers.pure _ _
    all_goals exact Renumbers.fail _ _ _
  | thisRef kw a =>
    simp only [Expr.mapLines, eval]
    exact lookUp_renumbers g before env kw a
  | superGet kw method a =>
    simp only [Expr.mapLines]
    rcases a with _ | d
    · simp only [eval]
      exact Renumbers.fail _ _ _
    · simp only [eval]
      refine Renumbers.bind (lookUp_renumbers g before env kw (.scoped d)) fun sc => ?_
      cases sc
      case cls sc =>
        cases d with
        | zero => exact Renumbers.fail _ _ _
        | succ d =>
          refine Renumbers.bind (lookUp_renumbers g before env ⟨.identifier, "this", kw.line⟩ (.scoped d)) fun this => ?_
          cases this
          case obj ref c =>
            simp only [Value.mapLines, Token.mapLines_lexeme, ClassDef.findMethod_mapLines]
            cases sc.findMethod method.lexeme with
            | none => exact Renumbers.fail _ _ _
            | some m => exact Renumbers.bind (bindMethod_renumbers g before m ref c) fun f => Renumbers.pure _ (Value.fn f)
          all_goals exact Renumbers.fail _ _ _
      all_goals exact Renumbers.fail _ _ _

theorem evalArgs_renumbers (env : Nat) (args : List Expr) : Renumbers g before (List.map (Value.mapLines g))
    (evalArgs (n + 1) env args) (evalArgs (n + 1) env (Expr.mapLinesAll g args)) := by
  cases args with
  | nil =>
    simp only [Expr.mapLinesAll, evalArgs]
    exact Renumbers.pure _ []
  | cons a rest =>
    simp only [Expr.mapLinesAll, evalArgs]
    refine Renumbers.bind (ih.eval env a) fun v => ?_
    exact Renumbers.bind (ih.evalArgs env rest) fun vs => Renumbers.pure _ (v :: vs)

theorem callClosure_renumbers (f : Closure) (args : List Value) :
    Renumbers g before (Value.mapLines g) (callClosure (n + 1) f args)
      (callClosure (n + 1) (f.mapLines g) (args.map (Value.mapLines g))) := by
  simp only [callClosure, Closure.mapLines_env, Closure.mapLines_decl, FunDecl.mapLines_params,
    FunDecl.mapLines_body, Closure.mapLines_isInit, FunDecl.mapLines_name]
  refine Renumbers.bind (alloc_renumbers g before f.env) fun frame => ?_
  refine Renumbers.bind (forIn_define_renumbers g before f.decl.params args (fun _ _ => rfl) (fun _ _ => rfl))
    fun _ => ?_
  refine Renumbers.bind (ih.execBlock frame f.decl.body) fun flow => ?_
  refine Renumbers.ite (lookUp_renumbers g before f.env _ _) ?_
  cases flow with
  | normal => exact Renumbers.pure _ _
  | returned v => exact Renumbers.pure _ _

theorem callValue_renumbers (paren : Token) (callee : Value) (args : List Value) :
    Renumbers g before (Value.mapLines g) (callValue (n + 1) paren callee args)
      (callValue (n + 1) (paren.mapLines g) (callee.mapLines g) (args.map (Value.mapLines g))) := by
  cases callee with
  | fn f =>
    simp only [Value.mapLines, callValue, List.length_map, Closure.mapLines_arity]
    exact Renumbers.bind (checked_renumbers g before paren _ _) fun _ => ih.callClosure f args
  | native nat =>
    cases nat
    simp only [Value.mapLines, callValue, List.length_map]
    exact Renumbers.bind (checked_renumbers g before paren _ _) fun _ _ => rfl
  | cls c =>
    simp only [Value.mapLines, callValue, List.length_map, ClassDef.mapLines_arity, ClassDef.findMethod_mapLines]
    refine Renumbers.bind (checked_renumbers g before paren _ _) fun _ => ?_
    refine Renumbers.bind (newObject_renumbers g before) fun ref => ?_
    cases c.findMethod "init" with
    | none => exact Renumbers.pure _ (Value.obj ref c)
    | some init =>
      refine Renumbers.bind (bindMethod_renumbers g before init ref c) fun bound => ?_
      exact Renumbers.bind (ih.callClosure bound args) fun _ => Renumbers.pure _ (Value.obj ref c)
  | _ =>
    simp only [Value.mapLines, callValue]
    exact Renumbers.fail _ _ _

/-- A class declaration: the superclass first, then the same steps whether there is one or not. -/
theorem exec_classDecl_renumbers (zero : g 0 = 0) (env : Nat) (name : Token) (sup : Option Expr)
    (methods : List FunDecl) :
    Renumbers g before (Flow.mapLines g) (exec (n + 1) env (.classDecl name sup methods))
      (exec (n + 1) env ((Stmt.classDecl name sup methods).mapLines g)) := by
  cases sup
  case' none =>
    simp only [Stmt.mapLines, Option.map_none]
    rw [exec, exec]
    refine Renumbers.bind (Renumbers.pure (Option.map (ClassDef.mapLines g)) none) fun sc => ?_
  case' some e =>
    simp only [Stmt.mapLines, Option.map_some]
    rw [exec, exec]
    refine Renumbers.bind (ih.eval env e) fun v => ?_
    refine Renumbers.bind (superclassOf_renumbers g before zero e v) fun c => ?_
    refine Renumbers.bind (Renumbers.pure (Option.map (ClassDef.mapLines g)) (some c)) fun sc => ?_
  all_goals
    simp only [Token.mapLines_lexeme]
    refine Renumbers.bind (define_renumbers g before env name.lexeme none) fun _ => ?_
    -- the frame the methods close over: a new one binding `super`, or the current one
    cases sc
    case' none => refine Renumbers.bind (Renumbers.pure id env) fun menv => ?_
    case' some c =>
      refine Renumbers.bind (alloc_renumbers g before env) fun frame => ?_
      refine Renumbers.bind (define_renumbers g before frame "super" (some (.cls c))) fun _ => ?_
      refine Renumbers.bind (Renumbers.pure id frame) fun menv => ?_
    all_goals
      refine Renumbers.bind (forIn_table_renumbers g before methods (fun _ _ _ => rfl) (fun _ _ _ => rfl))
        fun table => ?_
      refine Renumbers.bind (fresh_renumbers g before) fun id => ?_
      intro m
      simp only [run_bind, run_get, Machine.mapLines_store, Store.owner_mapLines]
      cases m.store.owner env name.lexeme with
      | none => rfl
      | some frame =>
        simp only [run_bind, run_define, run_pure, id_eq, mapOutcome, Machine.mapLines, ← Store.define_class_mapLines]
        rfl

theorem exec_renumbers (zero : g 0 = 0) (env : Nat) (s : Stmt) :
    Renumbers g before (Flow.mapLines g) (exec (n + 1) env s) (exec (n + 1) env (s.mapLines g)) := by
  cases s with
  | expression e =>
    simp only [Stmt.mapLines]
    rw [exec, exec]
    exact Renumbers.bind (ih.eval env e) fun _ => Renumbers.pure _ Flow.normal
  | print e =>
    simp only [Stmt.mapLines]
    rw [exec, exec]
    refine Renumbers.bind (ih.eval env e) fun v => ?_
    rw [Value.mapLines_display]
    exact Renumbers.bind (write_renumbers g before v.display) fun _ => Renumbers.pure _ Flow.normal
  | varDecl name init =>
    cases init with
    | none =>
      simp only [Stmt.mapLines, Option.map_none]
      rw [exec, exec]
      refine Renumbers.bind (Renumbers.pure (Value.mapLines g) Value.nil) fun v => ?_
      exact Renumbers.bind (define_renumbers g before env name.lexeme (some v)) fun _ => Renumbers.pure _ Flow.normal
    | some e =>
      simp only [Stmt.mapLines, Option.map_some]
      rw [exec, exec]
      refine Renumbers.bind (ih.eval env e) fun v => ?_
      exact Renumbers.bind (define_renumbers g before env name.lexeme (some v)) fun _ => Renumbers.pure _ Flow.normal
  | block body =>
    simp only [Stmt.mapLines]
    rw [exec, exec]
    exact Renumbers.bind (alloc_renumbers g before env) fun frame => ih.execBlock frame body
  | ifElse c t e =>
    cases e with
    | none =>
      simp only [Stmt.mapLines, Stmt.mapLinesOpt]
      rw [exec, exec]
      refine Renumbers.bind (ih.eval env c) fun v => ?_
      rw [Value.mapLines_truthy]
      exact Renumbers.ite (ih.exec env t) (Renumbers.pure _ Flow.normal)
    | some s =>
      simp only [Stmt.mapLines, Stmt.mapLinesOpt]
      rw [exec, exec]
      refine Renumbers.bind (ih.eval env c) fun v => ?_
      rw [Value.mapLines_truthy]
      exact Renumbers.ite (ih.exec env t) (ih.exec env s)
  | whileLoop c b =>
    simp only [Stmt.mapLines]
    rw [exec, exec]
    exact ih.loop env c b
  | function d =>
    simp only [Stmt.mapLines]
    rw [exec, exec]
    refine Renumbers.bind (fresh_renumbers g before) fun id => ?_
    simp only [FunDecl.mapLines_name, Token.mapLines_lexeme]
    exact Renumbers.bind (define_renumbers g before env d.name.lexeme (some (.fn ⟨id, d, env, false⟩)))
      fun _ => Renumbers.pure _ Flow.normal
  | returnStmt kw v =>
    cases v with
    | none =>
      simp only [Stmt.mapLines, Option.map_none]
      rw [exec, exec]
      exact Renumbers.pure _ (Flow.returned .nil)
    | some e =>
      simp only [Stmt.mapLines, Option.map_some]
      rw [exec, exec]
      exact Renumbers.bind (ih.eval env e) fun v => Renumbers.pure _ (Flow.returned v)
  | classDecl name sup methods => exact exec_classDecl_renumbers ih zero env name sup methods

theorem execBlock_renumbers (env : Nat) (ss : List Stmt) :
    Renumbers g before (Flow.mapLines g) (execBlock (n + 1) env ss) (execBlock (n + 1) env (Stmt.mapLinesAll g ss)) := by
  cases ss with
  | nil =>
    simp only [Stmt.mapLinesAll, execBlock]
    exact Renumbers.pure _ Flow.normal
  | cons s rest =>
    simp only [Stmt.mapLinesAll, execBlock]
    refine Renumbers.bind (ih.exec env s) fun flow => ?_
    cases flow with
    | normal => exact ih.execBlock env rest
    | returned v => exact Renumbers.pure _ (Flow.returned v)

theorem loop_renumbers (env : Nat) (c : Expr) (body : Stmt) :
    Renumbers g before (Flow.mapLines g) (loop (n + 1) env c body) (loop (n + 1) env (c.mapLines g) (body.mapLines g)) := by
  simp only [loop]
  refine Renumbers.bind (ih.eval env c) fun v => ?_
  rw [Value.mapLines_truthy]
  refine Renumbers.ite ?_ (Renumbers.pure _ Flow.normal)
  refine Renumbers.bind (ih.exec env body) fun flow => ?_
  cases flow with
  | normal => exact ih.loop env c body
  | returned v => exact Renumbers.pure _ (Flow.returned v)

end Rules

theorem renumbering_succ (zero : g 0 = 0) {n : Nat} (ih : Renumbering g before n) : Renumbering g before (n + 1) where
  eval := eval_renumbers ih
  evalArgs := evalArgs_renumbers ih
  callValue := callValue_renumbers ih
  callClosure := callClosure_renumbers ih
  exec := exec_renumbers ih zero
  execBlock := execBlock_renumbers ih
  loop := loop_renumbers ih

/-- Every rule of the interpreter, at every amount of fuel, is carried by a renumbering that keeps
line `0`. -/
theorem renumbering (zero : g 0 = 0) : ∀ n, Renumbering g before n
  | 0 => renumbering_zero g before
  | n + 1 => renumbering_succ g before zero (renumbering zero n)

/-- One top-level statement, renumbered: whether the unit goes on is unchanged. -/
theorem topStep_renumbers (zero : g 0 = 0) (fuel : Nat) (echo : Bool) (s : Stmt) :
    Renumbers g before id (topStep fuel echo s) (topStep fuel echo (s.mapLines g)) := by
  have steps := renumbering g before zero fuel
  cases s with
  | expression e =>
    simp only [Stmt.mapLines, topStep]
    cases echo
    · exact Renumbers.bind (steps.exec Store.globals (.expression e)) fun _ => Renumbers.pure _ true
    · refine Renumbers.bind (steps.eval Store.globals e) fun v => ?_
      rw [Value.mapLines_display]
      exact Renumbers.bind (write_renumbers g before v.display) fun _ => Renumbers.pure _ true
  | _ =>
    simp only [topStep]
    refine Renumbers.bind (steps.exec Store.globals _) fun flow => ?_
    cases flow with
    | normal => exact Renumbers.pure _ true
    | returned v => exact Renumbers.pure _ false

/-- A unit at the top level, renumbered. -/
theorem interpret_renumbers (zero : g 0 = 0) (fuel : Nat) (echo : Bool) (stmts : List Stmt) :
    Renumbers g before id (interpret fuel echo stmts) (interpret fuel echo (Stmt.mapLinesAll g stmts)) := by
  induction stmts with
  | nil => exact Renumbers.pure _ ()
  | cons s rest ih =>
    rw [Stmt.mapLinesAll, interpret_cons, interpret_cons]
    refine Renumbers.bind (topStep_renumbers g before zero fuel echo s) fun more => ?_
    cases more
    · exact Renumbers.pure _ ()
    · exact ih

end Run

end Lox
