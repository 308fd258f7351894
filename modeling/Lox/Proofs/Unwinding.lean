import Lox.Proofs.Returns
/-!
How a `return` unwinds. The rules of abrupt completion (`Run.Ends`) say how a statement run in a
frame ends: it runs through to its end, with the `.normal` flow, or it ends at the first `return`
it reaches, with that `return`'s value, and nothing after that `return` runs: no later statement
of a block, no further test of a loop. Blocks, `if` and `while` pass a `return` on at once and only
a `return` statement starts one; a statement with no control flow of its own (an expression,
`print`, a declaration) ends normally, whatever the calls inside it return.

Every run of the interpreter that ends keeps to these rules (`Run.unwinding`). So a call of a
function answers the value of the first `return` its body reaches, or `nil` when the body runs to
its end (`Run.callClosure_answers`), and at the top level of a unit the scope rules accept no
statement returns: running the unit is running each of its statements in turn
(`Run.interpret_eq_each`).
-/
namespace Lox

/-- The value a call answers for the way its body ended: what a `return` gave, else `nil`. -/
def Flow.value : Flow → Value
  | .returned v => v
  | .normal => .nil

/-- A statement with no control flow of its own: an expression, `print` or a declaration. -/
def Stmt.Straight : Stmt → Prop
  | .expression _ | .print _ | .varDecl _ _ | .function _ | .classDecl _ _ _ => True
  | _ => False

theorem Stmt.Straight.returnFree : ∀ {s : Stmt}, s.Straight → s.returnFree = true
  | .expression _, _ | .print _, _ | .varDecl _ _, _ | .function _, _ | .classDecl _ _ _, _ => rfl

theorem Stmt.returnFree_of_mem {s : Stmt} : ∀ {ss : List Stmt}, Stmt.returnFreeAll ss = true → s ∈ ss →
    s.returnFree = true
  | t :: ts, free, mem => by
    simp only [Stmt.returnFreeAll, Bool.and_eq_true] at free
    rcases List.mem_cons.1 mem with rfl | later
    · exact free.1
    · exact Stmt.returnFree_of_mem free.2 later

namespace Run

/-- Some run of the evaluator takes an expression, in a frame, from one machine to a value and
another machine. -/
def Evaluates (env : Nat) (e : Expr) (m : Machine) (v : Value) (m' : Machine) : Prop :=
  ∃ fuel, (eval fuel env e).run.run m = (.ok v, m')

mutual

/-- How a statement run in the frame `env` ends, by the rules of abrupt completion. -/
inductive Ends : Nat → Stmt → Machine → Flow → Machine → Prop
  /-- A statement with no control flow of its own ends normally, as the interpreter runs it. -/
  | straight {env : Nat} {s : Stmt} {m m' : Machine} : s.Straight →
      (∃ fuel, (exec fuel env s).run.run m = (.ok .normal, m')) → Ends env s m .normal m'
  | returnValue {env : Nat} {kw : Token} {e : Expr} {m : Machine} {v : Value} {m' : Machine} :
      Evaluates env e m v m' → Ends env (.returnStmt kw (some e)) m (.returned v) m'
  | returnNil {env : Nat} {kw : Token} {m : Machine} : Ends env (.returnStmt kw none) m (.returned .nil) m
  /-- A block runs its statements in a new frame under the current one. -/
  | block {env : Nat} {body : List Stmt} {m : Machine} {flow : Flow} {m' : Machine} :
      EndsAll m.store.frames.size body { m with store := (m.store.alloc env).1 } flow m' →
      Ends env (.block body) m flow m'
  | ifThen {env : Nat} {c : Expr} {t : Stmt} {e : Option Stmt} {m : Machine} {cv : Value} {m₁ : Machine}
      {flow : Flow} {m' : Machine} :
      Evaluates env c m cv m₁ → cv.truthy = true → Ends env t m₁ flow m' → Ends env (.ifElse c t e) m flow m'
  | ifElse {env : Nat} {c : Expr} {t s : Stmt} {m : Machine} {cv : Value} {m₁ : Machine} {flow : Flow}
      {m' : Machine} :
      Evaluates env c m cv m₁ → cv.truthy = false → Ends env s m₁ flow m' →
      Ends env (.ifElse c t (some s)) m flow m'
  | ifSkip {env : Nat} {c : Expr} {t : Stmt} {m : Machine} {cv : Value} {m' : Machine} :
      Evaluates env c m cv m' → cv.truthy = false → Ends env (.ifElse c t none) m .normal m'
  | whileDone {env : Nat} {c : Expr} {body : Stmt} {m : Machine} {cv : Value} {m' : Machine} :
      Evaluates env c m cv m' → cv.truthy = false → Ends env (.whileLoop c body) m .normal m'
  /-- A loop whose body returns ends with it: its condition is not tested again. -/
  | whileReturn {env : Nat} {c : Expr} {body : Stmt} {m : Machine} {cv : Value} {m₁ : Machine} {v : Value}
      {m' : Machine} :
      Evaluates env c m cv m₁ → cv.truthy = true → Ends env body m₁ (.returned v) m' →
      Ends env (.whileLoop c body) m (.returned v) m'
  | whileNext {env : Nat} {c : Expr} {body : Stmt} {m : Machine} {cv : Value} {m₁ m₂ : Machine} {flow : Flow}
      {m' : Machine} :
      Evaluates env c m cv m₁ → cv.truthy = true → Ends env body m₁ .normal m₂ →
      Ends env (.whileLoop c body) m₂ flow m' → Ends env (.whileLoop c body) m flow m'

/-- How statements run in turn end: the first that returns ends them all, and none after it runs. -/
inductive EndsAll : Nat → List Stmt → Machine → Flow → Machine → Prop
  | nil {env : Nat} {m : Machine} : EndsAll env [] m .normal m
  | returns {env : Nat} {s : Stmt} {rest : List Stmt} {m : Machine} {v : Value} {m' : Machine} :
      Ends env s m (.returned v) m' → EndsAll env (s :: rest) m (.returned v) m'
  | next {env : Nat} {s : Stmt} {rest : List Stmt} {m m₁ : Machine} {flow : Flow} {m' : Machine} :
      Ends env s m .normal m₁ → EndsAll env rest m₁ flow m' → EndsAll env (s :: rest) m flow m'

end

/-- A statement with no control flow of its own never returns. -/
theorem Ends.straight_normal {env : Nat} {s : Stmt} {m m' : Machine} {flow : Flow} (straight : s.Straight)
    (ends : Ends env s m flow m') : flow = .normal := by
  cases ends with
  | straight => rfl
  | returnValue | returnNil | block | ifThen | ifElse | ifSkip | whileDone | whileReturn | whileNext =>
    cases straight

/-! ### The interpreter keeps to the rules -/

/-- A statement with no control flow of its own that finishes ends normally. -/
theorem Ends.of_straight {n env : Nat} {s : Stmt} {m m' : Machine} {flow : Flow}
    (ran : (exec n env s).run.run m = (.ok flow, m')) (straight : s.Straight) : Ends env s m flow m' := by
  have normal := (finishing n).exec env s straight.returnFree m flow (congrArg Prod.fst ran)
  subst normal
  exact .straight straight ⟨n, ran⟩

/-- A run of two steps that ends: the first ended, and the second ended from where it left. -/
theorem ok_of_bind {α β : Type} {x : Run α} {f : α → Run β} {m m' : Machine} {b : β}
    (ran : (x >>= f).run.run m = (.ok b, m')) :
    ∃ a m₁, x.run.run m = (.ok a, m₁) ∧ (f a).run.run m₁ = (.ok b, m') := by
  rw [run_bind] at ran
  rcases first : x.run.run m with ⟨_ | a, m₁⟩
  · rw [first] at ran
    cases ran
  · rw [first] at ran
    exact ⟨a, m₁, rfl, ran⟩

/-- With `fuel`, every run of a statement, of statements in turn or of a loop that ends keeps to
the rules of abrupt completion. -/
structure Unwinding (fuel : Nat) : Prop where
  exec : ∀ {env s m flow m'}, (exec fuel env s).run.run m = (.ok flow, m') → Ends env s m flow m'
  execBlock : ∀ {env ss m flow m'}, (execBlock fuel env ss).run.run m = (.ok flow, m') → EndsAll env ss m flow m'
  loop : ∀ {env c body m flow m'}, (loop fuel env c body).run.run m = (.ok flow, m') →
    Ends env (.whileLoop c body) m flow m'

theorem unwinding_zero : Unwinding 0 where
  exec ran := by rw [exec] at ran; cases ran
  execBlock ran := by rw [execBlock] at ran; cases ran
  loop ran := by rw [loop] at ran; cases ran

section Step

variable {n : Nat} (ih : Unwinding n)
include ih

theorem exec_unwinds {env : Nat} {s : Stmt} {m m' : Machine} {flow : Flow}
    (ran : (exec (n + 1) env s).run.run m = (.ok flow, m')) : Ends env s m flow m' := by
  cases s with
  | block body =>
    rw [exec, run_bind, run_alloc] at ran
    exact .block (ih.execBlock ran)
  | ifElse c t e =>
    cases e with
    | some s =>
      rw [exec] at ran
      obtain ⟨cv, m₁, tested, rest⟩ := ok_of_bind ran
      cases truth : cv.truthy
      · rw [truth] at rest
        exact .ifElse ⟨n, tested⟩ truth (ih.exec rest)
      · rw [if_pos truth] at rest
        exact .ifThen ⟨n, tested⟩ truth (ih.exec rest)
    | none =>
      rw [exec] at ran
      obtain ⟨cv, m₁, tested, rest⟩ := ok_of_bind ran
      cases truth : cv.truthy
      · rw [truth] at rest
        cases rest
        exact .ifSkip ⟨n, tested⟩ truth
      · rw [if_pos truth] at rest
        exact .ifThen ⟨n, tested⟩ truth (ih.exec rest)
  | whileLoop c body =>
    rw [exec] at ran
    exact ih.loop ran
  | returnStmt kw value =>
    cases value with
    | some e =>
      rw [exec] at ran
      obtain ⟨v, m₁, evaluated, rest⟩ := ok_of_bind ran
      cases rest
      exact .returnValue ⟨n, evaluated⟩
    | none =>
      rw [exec] at ran
      cases ran
      exact .returnNil
  | expression _ | print _ | varDecl _ _ | function _ | classDecl _ _ _ => exact Ends.of_straight ran trivial

theorem execBlock_unwinds {env : Nat} {ss : List Stmt} {m m' : Machine} {flow : Flow}
    (ran : (execBlock (n + 1) env ss).run.run m = (.ok flow, m')) : EndsAll env ss m flow m' := by
  cases ss with
  | nil =>
    rw [execBlock] at ran
    cases ran
    exact .nil
  | cons s rest =>
    rw [execBlock] at ran
    obtain ⟨first, m₁, ranFirst, ranRest⟩ := ok_of_bind ran
    cases first with
    | normal => exact .next (ih.exec ranFirst) (ih.execBlock ranRest)
    | returned v =>
      -- the statements after a `return` never run
      cases ranRest
      exact .returns (ih.exec ranFirst)

theorem loop_unwinds {env : Nat} {c : Expr} {body : Stmt} {m m' : Machine} {flow : Flow}
    (ran : (loop (n + 1) env c body).run.run m = (.ok flow, m')) : Ends env (.whileLoop c body) m flow m' := by
  rw [loop] at ran
  obtain ⟨cv, m₁, tested, rest⟩ := ok_of_bind ran
  cases truth : cv.truthy
  · rw [truth] at rest
    cases rest
    exact .whileDone ⟨n, tested⟩ truth
  · rw [if_pos truth] at rest
    obtain ⟨first, m₂, ranBody, again⟩ := ok_of_bind rest
    cases first with
    | normal => exact .whileNext ⟨n, tested⟩ truth (ih.exec ranBody) (ih.loop again)
    | returned v =>
      -- a body that returns ends the loop before its condition is tested again
      cases again
      exact .whileReturn ⟨n, tested⟩ truth (ih.exec ranBody)

theorem unwinding_succ : Unwinding (n + 1) where
  exec := exec_unwinds ih
  execBlock := execBlock_unwinds ih
  loop := loop_unwinds ih

end Step

theorem unwinding : ∀ n, Unwinding n
  | 0 => unwinding_zero
  | n + 1 => unwinding_succ (unwinding n)

/-! ### Calls -/

/-- The machine a call's body starts from: a new frame under the function's own that binds each
parameter to its argument, in order. -/
def callEntry (f : Closure) (args : List Value) (m : Machine) : Machine :=
  let frame := m.store.frames.size
  { m with store := (f.decl.params.zip args).foldl (fun s p => s.define frame p.1.lexeme (some p.2)) (m.store.alloc f.env).1 }

/-- A call runs its function's body once, from the frame that binds the parameters; an initializer
then answers what its own frame binds as `this`, any other function the value its body's flow
carries. -/
theorem callClosure_enters (n : Nat) (f : Closure) (args : List Value) (m : Machine) :
    (callClosure (n + 1) f args).run.run m =
      (execBlock n m.store.frames.size f.decl.body >>= fun flow =>
        if f.isInit then lookUp f.env ⟨.identifier, "this", f.decl.name.line⟩ (.scoped 0)
        else pure flow.value).run.run (callEntry f args m) := by
  rw [callClosure, run_bind, run_alloc]
  dsimp only
  rw [run_bind, run_forIn_define _ (fun _ _ => rfl)]
  dsimp only
  rw [run_bind, run_bind]
  dsimp only [callEntry]
  rcases (execBlock n m.store.frames.size f.decl.body).run.run _ with ⟨_ | flow, m₁⟩
  · rfl
  · cases f.isInit
    · cases flow <;> rfl
    · rfl

/-- A call of a function that is no initializer answers the value of the first `return` its body
reaches, or `nil` when the body runs to its end. -/
theorem callClosure_answers {n : Nat} {f : Closure} {args : List Value} {m m' : Machine} {v : Value}
    (plain : f.isInit = false) (ran : (callClosure n f args).run.run m = (.ok v, m')) :
    ∃ flow, EndsAll m.store.frames.size f.decl.body (callEntry f args m) flow m' ∧ v = flow.value := by
  cases n with
  | zero =>
    rw [callClosure] at ran
    cases ran
  | succ n =>
    rw [callClosure_enters] at ran
    obtain ⟨flow, m₁, body, answer⟩ := ok_of_bind ran
    rw [plain] at answer
    cases answer
    exact ⟨flow, (unwinding n).execBlock body, rfl⟩

/-! ### The top level -/

/-- Runs a unit's statements at the top level each in turn, whatever flow each ends with. -/
def interpretEach (fuel : Nat) (echo : Bool) : List Stmt → Run Unit
  | [] => pure ()
  | s :: rest => do
    let _ ← topStep fuel echo s
    interpretEach fuel echo rest

/-- Statements with no `return` outside their functions run at the top level each in turn: the
early exit of `interpret` is never taken. -/
theorem interpret_eq_each (fuel : Nat) (echo : Bool) :
    ∀ (stmts : List Stmt), Stmt.returnFreeAll stmts = true → ∀ m,
      (interpret fuel echo stmts).run.run m = (interpretEach fuel echo stmts).run.run m
  | [], _, _ => rfl
  | s :: rest, free, m => by
    simp only [Stmt.returnFreeAll, Bool.and_eq_true] at free
    rw [interpret_cons, interpretEach, run_bind, run_bind]
    rcases stepped : (topStep fuel echo s).run.run m with ⟨_ | more, m₁⟩
    · rfl
    · obtain rfl : more = true := topStep_continues fuel echo free.1 m more (congrArg Prod.fst stepped)
      exact interpret_eq_each fuel echo rest free.2 m₁

end Run

/-- A `return` unwinds to exactly the nearest call. A call of a function that is no initializer
answers the value of the first `return` its body reaches, or `nil` when the body runs to its end;
every statement that finishes ends by the rules of abrupt completion, so after that `return` no
later statement of a block and no further test of a loop runs; a statement with no control flow of
its own never returns, whatever the calls inside it do; and at the top level of a unit the scope
rules accept, no statement returns, so the unit runs each of its statements in turn. -/
theorem return_unwinds_to_nearest_call :
    (∀ (n : Nat) (f : Closure) (args : List Value) (m m' : Machine) (v : Value), f.isInit = false →
      (Run.callClosure n f args).run.run m = (.ok v, m') →
        ∃ flow, Run.EndsAll m.store.frames.size f.decl.body (Run.callEntry f args m) flow m' ∧ v = flow.value) ∧
    (∀ (n env : Nat) (s : Stmt) (m m' : Machine) (flow : Flow),
      (Run.exec n env s).run.run m = (.ok flow, m') → Run.Ends env s m flow m') ∧
    (∀ (n env : Nat) (s : Stmt) (m m' : Machine) (v : Value), s.Straight →
      (Run.exec n env s).run.run m ≠ (.ok (.returned v), m')) ∧
    (∀ stmts r : List Stmt, Stmt.resolveScopes stmts = .ok r → ∀ (fuel : Nat) (echo : Bool),
      (∀ s ∈ r, ∀ (m m' : Machine) (v : Value), (Run.exec fuel Store.globals s).run.run m ≠ (.ok (.returned v), m')) ∧
      ∀ m, (Run.interpret fuel echo r).run.run m = (Run.interpretEach fuel echo r).run.run m) := by
  refine ⟨fun n f args m m' v plain ran => Run.callClosure_answers plain ran,
    fun n env s m m' flow ran => (Run.unwinding n).exec ran, ?_, ?_⟩
  · intro n env s m m' v straight ran
    cases Run.Ends.straight_normal straight ((Run.unwinding n).exec ran)
  · intro stmts r resolved fuel echo
    obtain ⟨clean, rfl⟩ := Stmt.resolveScopes_ok resolved
    have free := Stmt.returnFreeAll_top clean
    refine ⟨fun s mem m m' v ran => ?_, Run.interpret_eq_each fuel echo _ free⟩
    cases (Run.finishing fuel).exec Store.globals s (Stmt.returnFree_of_mem free mem) m _ (congrArg Prod.fst ran)

/-- `fun f() { while (true) return true; }` answers `true`: the loop's body returns at once. -/
theorem return_unwinds_to_nearest_call_loop :
    let kw : Token := ⟨.returnKw, "return", 1⟩
    let f : Closure := ⟨0, ⟨⟨.identifier, "f", 1⟩, [],
      [.whileLoop (.literal (.bool true)) (.returnStmt kw (some (.literal (.bool true))))]⟩, 0, false⟩
    ∃ m', (Run.callClosure 6 f []).run.run Machine.new = (.ok (.bool true), m') ∧
      ∃ flow, Run.EndsAll Machine.new.store.frames.size f.decl.body (Run.callEntry f [] Machine.new) flow m' ∧
        Value.bool true = flow.value := by
  intro kw f
  have ran : ∃ m', (Run.callClosure 6 f []).run.run Machine.new = (.ok (.bool true), m') := by
    simp [f, Run.callClosure, Run.execBlock, Run.exec, Run.loop, Run.eval, Literal.value, Value.truthy,
      FunDecl.body, FunDecl.params]
    exact ⟨_, rfl⟩
  obtain ⟨m', ran⟩ := ran
  exact ⟨m', ran, return_unwinds_to_nearest_call.1 6 f [] Machine.new m' _ rfl ran⟩

end Lox
