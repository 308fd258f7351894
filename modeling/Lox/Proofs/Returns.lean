import Lox.Proofs.TopLevel
/-!
Where a `return` can end a run. Only a `return` statement makes a flow `.returned`; blocks, `if`
and `while` pass it on, and a call takes it as the function's value. So a statement with no
`return` outside the functions it declares (`Stmt.returnFree`) ends, whenever it ends without
stopping, with the `.normal` flow (`Run.finishing`). The scope rules refuse a `return` outside every
function, so at the top level of a unit they accept, no statement ends the unit early, and running
two such lists of statements in a row is running the first and then the second
(`Run.interpret_append_returnFree`).
-/
namespace Lox

mutual

/-- No `return` outside the functions the statement declares. -/
def Stmt.returnFree : Stmt → Bool
  | .block body => Stmt.returnFreeAll body
  | .ifElse _ t e => t.returnFree && Stmt.returnFreeOpt e
  | .whileLoop _ b => b.returnFree
  | .returnStmt _ _ => false
  | _ => true

/-- An optional statement with no `return` outside its functions. -/
def Stmt.returnFreeOpt : Option Stmt → Bool
  | some s => s.returnFree
  | none => true

/-- Statements with no `return` outside their functions. -/
def Stmt.returnFreeAll : List Stmt → Bool
  | [] => true
  | s :: ss => s.returnFree && Stmt.returnFreeAll ss

end

@[simp] theorem Stmt.returnFreeAll_append (A B : List Stmt) :
    Stmt.returnFreeAll (A ++ B) = (Stmt.returnFreeAll A && Stmt.returnFreeAll B) := by
  induction A with
  | nil => rfl
  | cons s A ih => simp [Stmt.returnFreeAll, ih, Bool.and_assoc]

/-! ### Outside every function the scope rules leave no `return` -/

mutual

theorem Stmt.returnFree_of_faults (ctx : Scope.Context) (outside : ctx.fn = .none) (scopes : List (List String)) :
    ∀ s : Stmt, s.scopeFaults ctx = [] → (s.addressed scopes).returnFree = true
  | .block body, clean => by
    simp only [Stmt.addressed, Stmt.returnFree]
    exact Stmt.returnFreeAll_of_faults { ctx with scopes := [] :: ctx.scopes } outside _ body clean
  | .ifElse c t e, clean => by
    simp only [Stmt.scopeFaults, List.append_eq_nil_iff] at clean
    simp only [Stmt.addressed, Stmt.returnFree, Bool.and_eq_true]
    exact ⟨Stmt.returnFree_of_faults ctx outside scopes t clean.1.2,
      Stmt.returnFreeOpt_of_faults { ctx with scopes := Scope.afterStmt ctx.scopes t } outside _ e
        clean.2⟩
  | .whileLoop c b, clean => by
    simp only [Stmt.scopeFaults, List.append_eq_nil_iff] at clean
    exact Stmt.returnFree_of_faults ctx outside scopes b clean.2
  | .returnStmt kw v, clean => by
    simp [Stmt.scopeFaults, outside] at clean
  | .expression _, _ | .print _, _ | .varDecl _ _, _ | .function _, _ | .classDecl _ _ _, _ => rfl

theorem Stmt.returnFreeOpt_of_faults (ctx : Scope.Context) (outside : ctx.fn = .none) (scopes : List (List String)) :
    ∀ s : Option Stmt, Stmt.scopeFaultsOpt ctx s = [] → Stmt.returnFreeOpt (Stmt.addressedOpt scopes s) = true
  | some s, clean => Stmt.returnFree_of_faults ctx outside scopes s clean
  | none, _ => rfl

theorem Stmt.returnFreeAll_of_faults (ctx : Scope.Context) (outside : ctx.fn = .none) (scopes : List (List String)) :
    ∀ ss : List Stmt, Stmt.scopeFaultsAll ctx ss = [] → Stmt.returnFreeAll (Stmt.addressedAll scopes ss) = true
  | [], _ => rfl
  | s :: ss, clean => by
    simp only [Stmt.scopeFaultsAll, List.append_eq_nil_iff] at clean
    simp only [Stmt.addressedAll, Stmt.returnFreeAll, Bool.and_eq_true]
    exact ⟨Stmt.returnFree_of_faults ctx outside scopes s clean.1,
      Stmt.returnFreeAll_of_faults { ctx with scopes := Scope.afterStmt ctx.scopes s } outside _ ss
        clean.2⟩

end

/-- A unit the scope rules accept has no `return` at its top level. -/
theorem Stmt.returnFreeAll_top {stmts : List Stmt} (clean : Stmt.scopeFaultsAll Scope.Context.top stmts = []) :
    Stmt.returnFreeAll (Stmt.addressedAll [] stmts) = true :=
  Stmt.returnFreeAll_of_faults Scope.Context.top rfl [] stmts clean

namespace Run

/-! ### Runs that never return -/

/-- From every machine, the run stops or ends with a result that `P` holds of. -/
def Ensures {α : Type} (P : α → Prop) (x : Run α) : Prop := ∀ m a, (x.run.run m).1 = .ok a → P a

namespace Ensures

variable {α β : Type} {P : β → Prop}

theorem pure {b : β} (holds : P b) : Ensures P (pure b) := by
  intro m a same
  cases same
  exact holds

theorem stop (stop : Stop) : Ensures P (throw stop) := by
  intro m a same
  cases same

theorem fail (t : Token) (f : RuntimeFault) : Ensures P (Run.fail t f) := stop _

/-- A run followed by continuations that ensure `P` from every result `Q` allows ensures `P`. -/
theorem bind_of {Q : α → Prop} {x : Run α} {k : α → Run β} (first : Ensures Q x) (rest : ∀ a, Q a → Ensures P (k a)) :
    Ensures P (x >>= k) := by
  intro m b
  rw [run_bind]
  rcases out : x.run.run m with ⟨_ | a, m'⟩
  · intro same
    cases same
  · exact rest a (first m a (congrArg Prod.fst out)) m' b

theorem bind {x : Run α} {k : α → Run β} (rest : ∀ a, Ensures P (k a)) : Ensures P (x >>= k) :=
  bind_of (Q := fun _ => True) (fun _ _ _ => trivial) fun a _ => rest a

theorem ite {c : Prop} [Decidable c] {x y : Run β} (yes : Ensures P x) (no : Ensures P y) :
    Ensures P (if c then x else y) := by
  split
  · exact yes
  · exact no

end Ensures

/-- A run of statements that stops or ends with the `.normal` flow, never with `.returned`. -/
abbrev Finishes (x : Run Flow) : Prop := Ensures (· = .normal) x

/-- A finishing flow followed by what runs after a normal flow finishes. -/
theorem Finishes.bind_flow {x : Run Flow} {k : Flow → Run Flow} (first : Finishes x) (rest : Finishes (k .normal)) :
    Finishes (x >>= k) :=
  Ensures.bind_of first fun _ normal => by subst normal; exact rest

/-- With `fuel`, statements with no `return` outside their functions finish. -/
structure Finishing (fuel : Nat) : Prop where
  exec : ∀ env s, s.returnFree = true → Finishes (exec fuel env s)
  execBlock : ∀ env ss, Stmt.returnFreeAll ss = true → Finishes (execBlock fuel env ss)
  loop : ∀ env c body, body.returnFree = true → Finishes (loop fuel env c body)

theorem finishing_zero : Finishing 0 where
  exec _ _ _ := by rw [exec]; exact Ensures.stop _
  execBlock _ _ _ := by rw [execBlock]; exact Ensures.stop _
  loop _ _ _ _ := by rw [loop]; exact Ensures.stop _

/-- A class declaration evaluates its superclass, binds the class and ends normally. -/
theorem exec_classDecl_finishes {n : Nat} (env : Nat) (name : Token) (sup : Option Expr) (methods : List FunDecl) :
    Finishes (exec (n + 1) env (.classDecl name sup methods)) := by
  cases sup
  case' none =>
    rw [exec]
    refine Ensures.bind fun superclass => ?_
  case' some e =>
    rw [exec]
    refine Ensures.bind fun v => Ensures.bind fun c => Ensures.bind fun superclass => ?_
  all_goals
    dsimp only
    refine Ensures.bind fun _ => ?_
    -- the frame the methods close over: a new one binding `super`, or the current one
    cases superclass
    case' some c => refine Ensures.bind fun frame => Ensures.bind fun _ => ?_
    all_goals
      refine Ensures.bind fun menv => Ensures.bind fun table => Ensures.bind fun id => Ensures.bind fun st => ?_
      split <;> exact Ensures.bind fun _ => Ensures.pure rfl

section Step

variable {n : Nat} (ih : Finishing n)
include ih

theorem exec_finishes (env : Nat) (s : Stmt) (free : s.returnFree = true) : Finishes (exec (n + 1) env s) := by
  cases s with
  | expression e | print e =>
    rw [exec]
    exact Ensures.bind fun _ => Ensures.pure rfl
  | varDecl name init =>
    cases init <;> rw [exec]
    all_goals exact Ensures.bind fun _ => Ensures.bind fun _ => Ensures.pure rfl
  | block body =>
    rw [exec]
    exact Ensures.bind fun frame => ih.execBlock frame body free
  | ifElse c t e =>
    simp only [Stmt.returnFree, Bool.and_eq_true] at free
    cases e with
    | some s =>
      rw [exec]
      exact Ensures.bind fun v => Ensures.ite (ih.exec env t free.1) (ih.exec env s free.2)
    | none =>
      rw [exec]
      exact Ensures.bind fun v => Ensures.ite (ih.exec env t free.1) (Ensures.pure rfl)
  | whileLoop c b =>
    rw [exec]
    exact ih.loop env c b free
  | function d =>
    rw [exec]
    exact Ensures.bind fun _ => Ensures.pure rfl
  | returnStmt kw v => cases free
  | classDecl name sup methods => exact exec_classDecl_finishes env name sup methods

theorem execBlock_finishes (env : Nat) : ∀ ss : List Stmt, Stmt.returnFreeAll ss = true →
    Finishes (execBlock (n + 1) env ss)
  | [], _ => by rw [execBlock]; exact Ensures.pure rfl
  | s :: ss, free => by
    simp only [Stmt.returnFreeAll, Bool.and_eq_true] at free
    rw [execBlock]
    exact Finishes.bind_flow (ih.exec env s free.1) (ih.execBlock env ss free.2)

theorem loop_finishes (env : Nat) (c : Expr) (body : Stmt) (free : body.returnFree = true) :
    Finishes (loop (n + 1) env c body) := by
  rw [loop]
  exact Ensures.bind fun v =>
    Ensures.ite (Finishes.bind_flow (ih.exec env body free) (ih.loop env c body free)) (Ensures.pure rfl)

theorem finishing_succ : Finishing (n + 1) where
  exec := exec_finishes ih
  execBlock := execBlock_finishes ih
  loop := loop_finishes ih

end Step

theorem finishing : ∀ n, Finishing n
  | 0 => finishing_zero
  | n + 1 => finishing_succ (finishing n)

/-! ### The top level -/

/-- A top-level statement with no `return` outside its functions never ends its unit. -/
theorem topStep_continues (fuel : Nat) (echo : Bool) {s : Stmt} (free : s.returnFree = true) :
    Ensures (· = true) (topStep fuel echo s) := by
  cases s
  case expression e =>
    rw [topStep]
    exact Ensures.ite (Ensures.bind fun _ => Ensures.bind fun _ => Ensures.pure rfl)
      (Ensures.bind fun _ => Ensures.pure rfl)
  all_goals
    rw [topStep]
    · exact Ensures.bind_of ((finishing fuel).exec _ _ free) fun _ normal => by subst normal; exact Ensures.pure rfl
    · intro _ same
      cases same

/-- Two lists of top-level statements in a row, the first with no `return` outside its functions:
once the first has run to its end, the second runs from the machine it left. -/
theorem interpret_append_returnFree (fuel : Nat) (echo : Bool) (B : List Stmt) :
    ∀ (A : List Stmt) {m m₁ : Machine}, Stmt.returnFreeAll A = true →
      (interpret fuel echo A).run.run m = (.ok (), m₁) →
      (interpret fuel echo (A ++ B)).run.run m = (interpret fuel echo B).run.run m₁
  | [], _, _, _, first => by
    cases first
    rfl
  | s :: A, m, m₁, free, first => by
    simp only [Stmt.returnFreeAll, Bool.and_eq_true] at free
    rw [interpret_cons, run_bind] at first
    rw [List.cons_append, interpret_cons, run_bind]
    rcases out : (topStep fuel echo s).run.run m with ⟨_ | more, m'⟩
    · rw [out] at first
      cases first
    · rw [out] at first
      obtain rfl : more = true := topStep_continues fuel echo free.1 m more (congrArg Prod.fst out)
      exact interpret_append_returnFree fuel echo B A free.2 first

end Run

end Lox
