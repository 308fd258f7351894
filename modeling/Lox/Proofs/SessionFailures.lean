import Lox.Proofs.TopLevel
import Lox.Proofs.AnyFrame
/-!
Failures leave a session consistent. A unit or a lone expression that does not scan, parse or pass
the scope pass is refused before anything runs, and the session is exactly as it was
(`Session.run_refused`, `Session.evaluate_refused`). One that runs changes only the session's
machine, whether it finishes or stops on a runtime fault raised at any depth: the session keeps the
machine the run stopped with, so what the unit bound before the fault stays bound, and that store
has kept every frame, enclosing link and binding the session had and is sound again
(`Session.Continues`, `Session.run_continues`, `Session.evaluate_continues`); what the unit's
first statements did stays done whatever the later ones do (`Session.run_keeps_finished`).

The machine keeps the current frame, and every rule, whatever way it ends, puts back the frame it
found (`Interp.execute_restores`, `Interp.evaluate_restores`): after a block, a call, an
initializer or a class declaration the caller goes on in its own frame, a session's frame stays as
it was (`Session.run_env`), and every unit of a session started fresh runs in the globals frame
(`Session.foldl_run_env`), as the rules run it there (`Interp.interpret_eq`).
`session_failures_keep_consistent` gathers the statements.
-/
namespace Lox

/-- A diagnostic of a unit refused before it runs: a lexing, parsing or scope error. -/
def Diagnostic.Static : Diagnostic → Prop
  | .lex _ | .parse _ | .scope _ => True
  | _ => False

/-- A stopped run reports no static diagnostic. -/
theorem Diagnostic.not_static_ofStop (stop : Stop) : ¬ (Diagnostic.ofStop stop).Static := by
  cases stop <;> simp [Diagnostic.ofStop, Diagnostic.Static]

/-! ### Expressions at the top level -/

/-- An expression the scope pass accepts breaks no rule at the top level, and comes back with every
reference addressed as the rules address it. -/
theorem Expr.resolveScopes_ok {e r : Expr} (resolved : Expr.resolveScopes e = .ok r) :
    e.scopeFaults none .none = [] ∧ r = e.addressed [] := by
  unfold Expr.resolveScopes at resolved
  rw [Scope.resolveExpr_run e Scope.start (show Scope.Tracks Scope.start.scopes [] from trivial)
    (fun n => show Scope.undefinedTop [] n = decide ((none : Option String) = some n) from rfl)]
    at resolved
  by_cases clean : e.scopeFaults none .none = []
  · simp [clean, Scope.State.note, Scope.start] at resolved
    exact ⟨clean, resolved.symm⟩
  · simp [clean, Scope.State.note, Scope.start] at resolved

/-- Every expression read from source text has the parser's shape. -/
theorem Expr.parse_formed {source : String} {e : Expr} (parsed : Expr.parse (Token.scanAll source).1 = .ok e) :
    e.Formed := by
  obtain ⟨ts, last, tokens, spelled⟩ := Token.scanAll_ends source
  rw [tokens] at parsed
  have derived := Parser.exprParse_sound rfl (fun t mem => (spelled t mem).2) parsed
  refine (derived.formed ?_).1
  intro t mem
  rcases List.mem_append.1 mem with inner | last
  · exact (spelled t inner).1
  · simp only [List.mem_singleton] at last
    subst last
    simp [Token.Spelled]

namespace Session

/-! ### Refused units -/

/-- Statements that the scope pass refuses leave the session as it was; statements that run report
only how their run stopped, which is no static diagnostic. -/
theorem runStmts_refused (s : Session) (stmts : List Stmt)
    (refused : ∃ d ∈ (s.runStmts stmts).2.errors, d.Static) : (s.runStmts stmts).1 = s := by
  unfold runStmts at refused ⊢
  cases resolved : Stmt.resolveScopes stmts with
  | error es => rfl
  | ok r =>
    rw [resolved] at refused
    obtain ⟨d, mem, static⟩ := refused
    simp only at mem
    rcases ran : (Interp.interpret s.fuel s.echo r).run.run { s.machine with output := "" } with ⟨res, m⟩
    rw [ran] at mem
    cases res with
    | ok _ => cases mem
    | error stop =>
      obtain rfl : d = Diagnostic.ofStop stop := List.mem_singleton.1 mem
      exact absurd static (Diagnostic.not_static_ofStop stop)

/-- A unit refused before it runs, for a lexing, parsing or scope error, leaves the session exactly
as it was. -/
theorem run_refused (s : Session) (source : String) (refused : ∃ d ∈ (s.run source).2.errors, d.Static) :
    (s.run source).1 = s := by
  unfold run at refused ⊢
  cases read : Stmt.ofSource source with
  | error ds => rfl
  | ok stmts =>
    rw [read] at refused
    exact runStmts_refused s stmts refused

/-- A lone expression refused before it runs leaves the session exactly as it was. -/
theorem evaluate_refused (s : Session) (source : String) {ds : List Diagnostic}
    (failed : (s.evaluate source).2.result = .error ds) (refused : ∃ d ∈ ds, d.Static) :
    (s.evaluate source).1 = s := by
  unfold evaluate at failed ⊢
  rcases scanned : Token.scanAll source with ⟨tokens, lexErrors⟩
  simp only [scanned] at failed ⊢
  split
  · rfl
  · next clean =>
    rw [if_neg clean] at failed
    split
    · rfl
    · next e parsed =>
      rw [parsed] at failed
      split
      · rfl
      · next r resolved =>
        -- the expression ran: the only error is how its run stopped
        simp only [resolved] at failed
        rcases ran : (Interp.evaluate s.fuel r).run.run { s.machine with output := "" } with ⟨res, m⟩
        rw [ran] at failed
        cases res with
        | ok v => cases failed
        | error stop =>
          cases failed
          obtain ⟨d, mem, static⟩ := refused
          obtain rfl : d = Diagnostic.ofStop stop := List.mem_singleton.1 mem
          exact absurd static (Diagnostic.not_static_ofStop stop)

/-! ### Units that run -/

/-- A session that carries on from another: the same settings, and a sound store grown from its
store, with every frame, enclosing link and binding kept. -/
structure Continues (s s' : Session) : Prop where
  echo : s'.echo = s.echo
  fuel : s'.fuel = s.fuel
  grows : s.machine.store.Grows s'.machine.store
  sound : s'.machine.store.Sound

theorem Continues.refl {s : Session} (sound : s.machine.store.Sound) : s.Continues s :=
  ⟨rfl, rfl, Store.Grows.refl _, sound⟩

theorem Continues.trans {s s' s'' : Session} (first : s.Continues s') (second : s'.Continues s'') :
    s.Continues s'' :=
  ⟨second.echo.trans first.echo, second.fuel.trans first.fuel, first.grows.trans second.grows, second.sound⟩

/-- A session that takes the machine a run left, whatever the run's result, carries on from one
whose store was sound if the run left the store steady. -/
theorem continues_of_steady {α : Type} {s : Session} {x : Run α}
    (steady : Run.Steady x { s.machine with output := "" }) :
    s.Continues { s with machine := (x.run.run { s.machine with output := "" }).2 } :=
  ⟨rfl, rfl, steady.1, steady.2.1⟩

/-- Running statements carries the session on, whether the run finishes or stops. -/
theorem runStmts_continues (s : Session) {source : String} {stmts : List Stmt} (read : Stmt.ofSource source = .ok stmts)
    (sound : s.machine.store.Sound) : s.Continues (s.runStmts stmts).1 := by
  unfold runStmts
  cases resolved : Stmt.resolveScopes stmts with
  | error es => exact Continues.refl sound
  | ok r =>
    obtain ⟨clean, rfl⟩ := Stmt.resolveScopes_ok resolved
    exact continues_of_steady
      (Interp.interpret_steady s.fuel s.echo stmts (m := { s.machine with output := "" }) sound
        (Stmt.ofSource_formed read) clean)

/-- What a unit's first statements did stays done whatever comes after them: the store the unit
leaves has grown from the one they leave, also when a later statement stops the unit on a fault. -/
theorem run_keeps_finished (s : Session) {source : String} {pre post : List Stmt}
    (read : Stmt.ofSource source = .ok (pre ++ post)) (clean : Stmt.scopeFaultsAll Scope.Context.top (pre ++ post) = [])
    (sound : s.machine.store.Sound) :
    ((Interp.interpret s.fuel s.echo (Stmt.addressedAll [] pre)).run.run { s.machine with output := "" }).2.store.Grows
      (s.run source).1.machine.store := by
  have formed := (Stmt.formedAll_append pre post).1 (Stmt.ofSource_formed read)
  obtain ⟨cleanPre, cleanPost⟩ := List.append_eq_nil_iff.1 (Stmt.scopeFaultsAll_top_append pre post ▸ clean)
  have resolved : Stmt.resolveScopes (pre ++ post) = .ok (Stmt.addressedAll [] (pre ++ post)) := by
    rw [Stmt.resolveScopes_of_clean clean]
  have steadyPre := Interp.interpret_steady s.fuel s.echo pre (m := { s.machine with output := "" }) sound formed.1 cleanPre
  unfold Run.Steady at steadyPre
  simp only [run, read, runStmts, resolved, Stmt.addressedAll_top_append]
  rcases Interp.interpret_append s.fuel s.echo (Stmt.addressedAll [] pre) (Stmt.addressedAll [] post)
    { s.machine with output := "" } with early | ⟨m₁, first, rest⟩
  · rw [early]
    exact Store.Grows.refl _
  · -- the later statements run from the sound store the first ones left
    rw [rest, first]
    rw [first] at steadyPre
    exact (Interp.interpret_steady s.fuel s.echo post steadyPre.2.1 formed.2 cleanPost).1

/-- A unit, run or refused, carries the session on: it keeps the settings and leaves a sound store
that has kept every frame, link and binding, also when a runtime fault stopped it. -/
theorem run_continues (s : Session) (source : String) (sound : s.machine.store.Sound) :
    s.Continues (s.run source).1 := by
  unfold run
  cases read : Stmt.ofSource source with
  | error ds => exact Continues.refl sound
  | ok stmts => exact runStmts_continues s read sound

/-- A lone expression, evaluated or refused, carries the session on. -/
theorem evaluate_continues (s : Session) (source : String) (sound : s.machine.store.Sound) :
    s.Continues (s.evaluate source).1 := by
  unfold evaluate
  rcases scanned : Token.scanAll source with ⟨tokens, lexErrors⟩
  simp only
  split
  · exact Continues.refl sound
  · split
    · exact Continues.refl sound
    · next e parsed =>
      split
      · exact Continues.refl sound
      · next r resolved =>
        obtain ⟨clean, rfl⟩ := Expr.resolveScopes_ok resolved
        have formed : e.Formed := Expr.parse_formed (by rw [scanned]; exact parsed)
        exact continues_of_steady (Interp.evaluate_steady s.fuel sound formed clean)

end Session

/-- Every failure leaves a session consistent. A unit or a lone expression refused for a lexing,
parsing or scope error leaves the session exactly as it was. Every statement and expression leaves
current the frame it found, whether it finishes, returns or stops on a runtime fault at any depth of
blocks, calls, initializers and class declarations; so a unit, run or refused, leaves the session's
frame as it was, a session started fresh runs every unit in the globals frame, and there a unit runs
as the rules run it at the top level. A unit that runs keeps the session's settings and leaves the
machine it stopped with, whose store is sound and has kept every frame, enclosing link and binding;
and what the unit's first statements did stays done whatever its later statements do. So the
bindings made before a fault stay visible to the next unit. -/
theorem session_failures_keep_consistent (s : Session) (source : String) (sound : s.machine.store.Sound) :
    ((∃ d ∈ (s.run source).2.errors, d.Static) → (s.run source).1 = s) ∧
    (∀ ds, (s.evaluate source).2.result = .error ds → (∃ d ∈ ds, d.Static) → (s.evaluate source).1 = s) ∧
    (∀ fuel st (m : Machine), ((Interp.execute fuel st).run.run m).2.env = m.env) ∧
    (∀ fuel e (m : Machine), ((Interp.evaluate fuel e).run.run m).2.env = m.env) ∧
    (s.run source).1.machine.env = s.machine.env ∧ (s.evaluate source).1.machine.env = s.machine.env ∧
    (∀ echo (units : List String),
      (units.foldl (fun s unit => (s.run unit).1) (Session.new echo)).machine.env = Store.globals) ∧
    (∀ fuel echo stmts (m : Machine), m.env = Store.globals →
      (Interp.interpret fuel echo stmts).run.run m = (Run.interpret fuel echo stmts).run.run m) ∧
    s.Continues (s.run source).1 ∧ s.Continues (s.evaluate source).1 ∧
    ∀ pre post, Stmt.ofSource source = .ok (pre ++ post) → Stmt.scopeFaultsAll Scope.Context.top (pre ++ post) = [] →
      ((Interp.interpret s.fuel s.echo (Stmt.addressedAll [] pre)).run.run { s.machine with output := "" }).2.store.Grows
        (s.run source).1.machine.store :=
  ⟨s.run_refused source, fun _ failed refused => s.evaluate_refused source failed refused,
    Interp.execute_restores, Interp.evaluate_restores, s.run_env source, s.evaluate_env source,
    fun _ units => Session.foldl_run_env units _ rfl, fun fuel echo stmts => Interp.interpret_eq fuel echo stmts,
    s.run_continues source sound, s.evaluate_continues source sound,
    fun _ _ read clean => s.run_keeps_finished read clean sound⟩

/-- A fresh session is sound; a unit that binds a global and then calls `nil` is one such run. -/
theorem session_failures_keep_consistent_fresh :
    let s := Session.new false
    let source := "var a = 1; nil();"
    s.machine.store.Sound ∧
      (((∃ d ∈ (s.run source).2.errors, d.Static) → (s.run source).1 = s) ∧
        (∀ ds, (s.evaluate source).2.result = .error ds → (∃ d ∈ ds, d.Static) → (s.evaluate source).1 = s) ∧
        (∀ fuel st (m : Machine), ((Interp.execute fuel st).run.run m).2.env = m.env) ∧
        (∀ fuel e (m : Machine), ((Interp.evaluate fuel e).run.run m).2.env = m.env) ∧
        (s.run source).1.machine.env = s.machine.env ∧ (s.evaluate source).1.machine.env = s.machine.env ∧
        (∀ echo (units : List String),
          (units.foldl (fun s unit => (s.run unit).1) (Session.new echo)).machine.env = Store.globals) ∧
        (∀ fuel echo stmts (m : Machine), m.env = Store.globals →
          (Interp.interpret fuel echo stmts).run.run m = (Run.interpret fuel echo stmts).run.run m) ∧
        s.Continues (s.run source).1 ∧ s.Continues (s.evaluate source).1 ∧
        ∀ pre post, Stmt.ofSource source = .ok (pre ++ post) →
          Stmt.scopeFaultsAll Scope.Context.top (pre ++ post) = [] →
          ((Interp.interpret s.fuel s.echo (Stmt.addressedAll [] pre)).run.run { s.machine with output := "" }).2.store.Grows
            (s.run source).1.machine.store) :=
  ⟨Machine.sound_new, session_failures_keep_consistent (Session.new false) "var a = 1; nil();" Machine.sound_new⟩

end Lox
