import Lox.Proofs.CurrentFrame
/-!
The top level of a unit, statement by statement. `Run.topStep` runs one top-level statement and
answers whether the unit goes on after it: only a `return` at the top level, which the scope pass
refuses, ends a unit early. Running a list of statements is running its first and then the rest
(`Run.interpret_cons`), so running two lists in a row is running the first and, unless it stopped,
the second from the machine the first left (`Run.interpret_append`, and `Interp.interpret_append` in
whatever frame is current). The scope rules and the
parser's shape split the same way at the top level, where no scope keeps names
(`Stmt.addressedAll_top_append`, `Stmt.scopeFaultsAll_top_append`, `Stmt.formedAll_append`).
-/
namespace Lox

namespace Run

section TopLevel

variable (fuel : Nat) (echo : Bool)

/-- Runs one top-level statement in the globals frame, echoing an expression statement's value
when `echo` is set, and answers whether the unit goes on after it. -/
def topStep : Stmt → Run Bool
  | .expression e =>
    if echo then do
      write (← eval fuel Store.globals e).display
      pure true
    else do
      let _ ← exec fuel Store.globals (.expression e)
      pure true
  | s => do
    match ← exec fuel Store.globals s with
    | .normal => pure true
    | .returned _ => pure false

theorem interpret_cons (s : Stmt) (rest : List Stmt) :
    interpret fuel echo (s :: rest) =
      topStep fuel echo s >>= fun more => if more then interpret fuel echo rest else pure () := by
  cases s with
  | expression e =>
    by_cases echoed : echo = true
    · simp [interpret, topStep, echoed]
    · simp [interpret, topStep, echoed]
  | _ =>
    simp only [interpret, topStep, bind_assoc]
    congr 1
    funext flow
    cases flow <;> simp

/-- Two lists of statements in a row: the first runs, and unless it stopped, the second runs from
the machine the first left. -/
theorem interpret_append (A B : List Stmt) (m : Machine) :
    (interpret fuel echo (A ++ B)).run.run m = (interpret fuel echo A).run.run m ∨
      ∃ m₁, (interpret fuel echo A).run.run m = (.ok (), m₁) ∧
        (interpret fuel echo (A ++ B)).run.run m = (interpret fuel echo B).run.run m₁ := by
  induction A generalizing m with
  | nil => exact .inr ⟨m, rfl, rfl⟩
  | cons s A ih =>
    rw [List.cons_append, interpret_cons, interpret_cons, run_bind, run_bind]
    rcases (topStep fuel echo s).run.run m with ⟨_ | more, m'⟩
    · exact .inl rfl
    · cases more
      · exact .inl rfl
      · simpa using ih m'

end TopLevel

end Run

namespace Interp

open Run

/-- The same for a unit run in whatever frame is current. -/
theorem interpret_append (fuel : Nat) (echo : Bool) (A B : List Stmt) (m : Machine) :
    (interpret fuel echo (A ++ B)).run.run m = (interpret fuel echo A).run.run m ∨
      ∃ m₁, (interpret fuel echo A).run.run m = (.ok (), m₁) ∧
        (interpret fuel echo (A ++ B)).run.run m = (interpret fuel echo B).run.run m₁ := by
  induction A generalizing m with
  | nil => exact .inr ⟨m, rfl, rfl⟩
  | cons s A ih =>
    rw [List.cons_append]
    cases s with
    | expression e =>
      rw [interpret, interpret]
      split
      · rw [run_bind, run_bind]
        rcases (evaluate fuel e).run.run m with ⟨_ | v, m'⟩
        · exact .inl rfl
        · simp only [run_bind, run_write]
          exact ih _
      · rw [run_bind, run_bind]
        rcases (execute fuel (.expression e)).run.run m with ⟨_ | v, m'⟩
        · exact .inl rfl
        · simpa using ih m'
    | _ =>
      rw [interpret, interpret, run_bind, run_bind]
      · rcases (execute fuel _).run.run m with ⟨_ | flow, m'⟩
        · exact .inl rfl
        · cases flow with
          | normal => simpa using ih m'
          | returned v => exact .inl rfl
      all_goals
        intro _ same
        cases same

end Interp

/-! ### The scope rules and the parser's shape at the top level -/

theorem Stmt.addressedAll_top_append (A B : List Stmt) :
    Stmt.addressedAll [] (A ++ B) = Stmt.addressedAll [] A ++ Stmt.addressedAll [] B := by
  induction A with
  | nil => rfl
  | cons s A ih => simp [Stmt.addressedAll, Scope.afterStmt_nil, ih]

theorem Stmt.scopeFaultsAll_top_append (A B : List Stmt) :
    Stmt.scopeFaultsAll Scope.Context.top (A ++ B) =
      Stmt.scopeFaultsAll Scope.Context.top A ++ Stmt.scopeFaultsAll Scope.Context.top B := by
  induction A with
  | nil => rfl
  | cons s A ih =>
    -- after a top-level statement the context is the top level again
    have top : ({ Scope.Context.top with scopes := Scope.afterStmt Scope.Context.top.scopes s } : Scope.Context) =
        Scope.Context.top := by
      simp [Scope.afterStmt_nil, Scope.Context.top]
    simp only [List.cons_append, Stmt.scopeFaultsAll, top, ih, List.append_assoc]

theorem Stmt.formedAll_append (A B : List Stmt) :
    Stmt.FormedAll (A ++ B) ↔ Stmt.FormedAll A ∧ Stmt.FormedAll B := by
  induction A with
  | nil => simp [Stmt.FormedAll]
  | cons s A ih => simp [Stmt.FormedAll, ih, and_assoc]

end Lox
