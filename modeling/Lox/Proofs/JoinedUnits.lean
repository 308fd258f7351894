import Lox.Proofs.Renumbering
import Lox.Proofs.GrammarTransfer
import Lox.Proofs.Returns
import Lox.Proofs.ScanLines
/-!
Units run in turn in one session against the text of both joined by a newline. The joined text
reads as the first unit's statements followed by the second's moved down by the first unit's `k`
lines (`Stmt.ofSource_join`), and the scope rules and the addressing split the same way at the top
level. So the joined unit runs the first unit's statements and then, as no top-level `return`
ends it early, the second's renumbered; the session runs the second unit's own statements from
where the first left off.

The two runs differ only in lines, but in lines of two kinds: those of the first unit's functions,
which the second unit may call, are the same in both, and those of the second unit differ by `k`.
No single renumbering maps one run to the other. Both are renumberings of a third, joint program,
the first unit on even lines and the second on odd ones (`Joint.program`): read back by halving,
it is what the session runs, and read back by halving and moving the odd lines down by `k`, it is
the joined unit (`Run.renumbering`). The joint program's lines stay within the two units' lines, so
a renumbering that keeps those keeps the program and hence its outcome (`Joint.clamp`), and a
fault's line is one of them. The session's report of the second unit is then the joined unit's,
each fault's line read in its own unit (`unitLine`, `session_units_run_as_joined`).
-/
namespace Lox

/-! ### Units that pass the static checks -/

/-- A unit scans, parses and passes the scope rules. -/
def Session.Checked (source : String) : Prop :=
  ∃ stmts, Stmt.ofSource source = .ok stmts ∧ Stmt.scopeFaultsAll Scope.Context.top stmts = []

/-- Whether a unit scans, parses and passes the scope rules. -/
def Session.checks (source : String) : Bool :=
  match Stmt.ofSource source with
  | .ok stmts => (Stmt.scopeFaultsAll Scope.Context.top stmts).isEmpty
  | .error _ => false

theorem Session.checks_iff (source : String) : Session.checks source = true ↔ Session.Checked source := by
  unfold Session.checks Session.Checked
  cases Stmt.ofSource source with
  | ok stmts => simp
  | error ds => simp

instance (source : String) : Decidable (Session.Checked source) :=
  decidable_of_iff _ (Session.checks_iff source)

example : Session.Checked "var a = 1;\nprint a;" := by decide +kernel

example : ¬ Session.Checked "return 1;" := by decide +kernel

/-! ### Renumbering, continued -/

theorem Stmt.mapLinesAll_append (g : Nat → Nat) (A B : List Stmt) :
    Stmt.mapLinesAll g (A ++ B) = Stmt.mapLinesAll g A ++ Stmt.mapLinesAll g B := by
  induction A with
  | nil => rfl
  | cons s A ih => simp only [List.cons_append, Stmt.mapLinesAll, ih]

theorem Stop.mapLines_id (stop : Stop) : stop.mapLines id = stop := by
  cases stop <;> rfl

theorem Store.empty_mapLines (g : Nat → Nat) : Store.empty.mapLines g = Store.empty := by
  simp [Store.empty, Store.mapLines, Frame.mapLines, Slots.mapLines]

/-- A fresh machine holds no function: every renumbering leaves it alone. -/
theorem Machine.fresh_mapLines (g : Nat → Nat) (clock : Float) :
    ({ Machine.new with clock := clock } : Machine).mapLines g "" = { Machine.new with clock := clock } := by
  simp only [Machine.mapLines, Machine.new, String.empty_append]
  rw [← Store.define_mapLines, Store.empty_mapLines]
  rfl

theorem Diagnostic.ofStop_mapLines (g : Nat → Nat) (stop : Stop) :
    Diagnostic.ofStop (stop.mapLines g) = (Diagnostic.ofStop stop).mapLines g := by
  cases stop <;> rfl

/-! ### Numbering two units apart -/

/-- Where line `ℓ` of the text `first ++ "\n" ++ second` lies in its own unit, when `first` has `k`
lines: lines up to `k` are the first unit's, and later ones are the second's, moved up by `k`. -/
def unitLine (k ℓ : Nat) : Nat := if ℓ ≤ k then ℓ else ℓ - k

namespace Joint

/-- The first unit's lines in the joint numbering: the even ones. -/
def first (ℓ : Nat) : Nat := 2 * ℓ

/-- The second unit's lines in the joint numbering: the odd ones. -/
def second (ℓ : Nat) : Nat := 2 * ℓ + 1

/-- Back from the joint numbering to each unit's own lines. -/
def own (ℓ : Nat) : Nat := ℓ / 2

/-- Back from the joint numbering to the lines of the joined text, when the first unit has `k` lines. -/
def joined (k ℓ : Nat) : Nat := if ℓ % 2 = 0 then ℓ / 2 else ℓ / 2 + k

/-- The joint numbering with the first unit's lines cut at `k` and the second's raised to `1`:
it leaves alone every line of two units whose lines start at `1` and the first's end at `k`. -/
def clamp (k ℓ : Nat) : Nat := if ℓ % 2 = 0 then min ℓ (2 * k) else max ℓ 3

theorem own_first : own ∘ first = id := by
  funext ℓ
  show (2 * ℓ) / 2 = ℓ
  omega

theorem own_second : own ∘ second = id := by
  funext ℓ
  show (2 * ℓ + 1) / 2 = ℓ
  omega

theorem joined_first (k : Nat) : joined k ∘ first = id := by
  funext ℓ
  show joined k (2 * ℓ) = ℓ
  rw [joined, if_pos (by omega)]
  omega

theorem joined_second (k : Nat) : joined k ∘ second = (· + k) := by
  funext ℓ
  show joined k (2 * ℓ + 1) = ℓ + k
  rw [joined, if_neg (by omega)]
  omega

theorem clamp_first (k : Nat) : clamp k ∘ first = first ∘ (min · k) := by
  funext ℓ
  show clamp k (2 * ℓ) = 2 * min ℓ k
  rw [clamp, if_pos (by omega)]
  omega

theorem clamp_second (k : Nat) : clamp k ∘ second = second ∘ (max · 1) := by
  funext ℓ
  show clamp k (2 * ℓ + 1) = 2 * max ℓ 1 + 1
  rw [clamp, if_neg (by omega)]
  omega

/-- A joint line the clamp leaves alone is in the first unit, at most `2k`, or in the second, past
its first line: the two numberings back agree through `unitLine`. -/
theorem unitLine_joined {k ℓ : Nat} (fixed : clamp k ℓ = ℓ) : unitLine k (joined k ℓ) = own ℓ := by
  simp only [clamp] at fixed
  simp only [unitLine, joined, own]
  split_ifs at fixed ⊢ <;> omega

/-- The joint program: the first unit's statements on even lines, then the second's on odd ones. -/
def program (A B : List Stmt) : List Stmt := Stmt.mapLinesAll first A ++ Stmt.mapLinesAll second B

theorem program_mapLines (g : Nat → Nat) (A B : List Stmt) :
    Stmt.mapLinesAll g (program A B) = Stmt.mapLinesAll (g ∘ first) A ++ Stmt.mapLinesAll (g ∘ second) B := by
  rw [program, Stmt.mapLinesAll_append, Stmt.mapLinesAll_comp, Stmt.mapLinesAll_comp]

end Joint

/-- A stop at a line the clamp leaves alone: its line in its own unit is `unitLine` of its line in
the joined text. -/
theorem Stop.mapLines_own {k : Nat} {stop : Stop} (fixed : stop.mapLines (Joint.clamp k) = stop) :
    stop.mapLines Joint.own = (stop.mapLines (Joint.joined k)).mapLines (unitLine k) := by
  cases stop with
  | exhausted => rfl
  | fault e =>
    injection fixed with same
    have line : Joint.clamp k e.token.line = e.token.line := congrArg (fun e => e.token.line) same
    simp [Stop.mapLines, RuntimeError.mapLines, Token.mapLines, Joint.unitLine_joined line]

namespace Run

variable (fuel : Nat) (echo : Bool)

/-- Two units run in turn from a machine that no renumbering changes, the first to its end,
against the joined unit: the same output, and the second's result is the joined one's with a
fault's line read in its own unit. -/
theorem interpret_units_join {M₀ : Machine} (fresh : ∀ g, M₀.mapLines g "" = M₀) {A B : List Stmt} {k : Nat}
    {m₁ : Machine} (free : Stmt.returnFreeAll A = true)
    (fixA : Stmt.mapLinesAll (min · k) A = A) (fixB : Stmt.mapLinesAll (max · 1) B = B)
    (ran : (interpret fuel echo A).run.run M₀ = (.ok (), m₁)) :
    m₁.output ++ ((interpret fuel echo B).run.run { m₁ with output := "" }).2.output =
        ((interpret fuel echo (A ++ Stmt.mapLinesAll (· + k) B)).run.run M₀).2.output ∧
      ((interpret fuel echo B).run.run { m₁ with output := "" }).1 =
        ((interpret fuel echo (A ++ Stmt.mapLinesAll (· + k) B)).run.run M₀).1.mapError (Stop.mapLines (unitLine k)) := by
  -- every numbering back from the joint one runs as the joint program renumbered
  have renumbered : ∀ g : Nat → Nat, g 0 = 0 →
      (interpret fuel echo (Stmt.mapLinesAll g (Joint.program A B))).run.run M₀ =
        mapOutcome g "" id ((interpret fuel echo (Joint.program A B)).run.run M₀) := by
    intro g zero
    have runs := interpret_renumbers g "" zero fuel echo (Joint.program A B) M₀
    rwa [fresh] at runs
  have own := renumbered Joint.own rfl
  have joined := renumbered (Joint.joined k) rfl
  have clamped := renumbered (Joint.clamp k) rfl
  rw [Joint.program_mapLines, Joint.own_first, Joint.own_second, Stmt.mapLinesAll_id, Stmt.mapLinesAll_id] at own
  rw [Joint.program_mapLines, Joint.joined_first, Joint.joined_second, Stmt.mapLinesAll_id] at joined
  rw [Joint.program_mapLines, Joint.clamp_first, Joint.clamp_second, ← Stmt.mapLinesAll_comp, ← Stmt.mapLinesAll_comp,
    fixA, fixB, ← Joint.program] at clamped
  -- the session runs the second unit where the first left off, its output started afresh
  have session : (interpret fuel echo (A ++ B)).run.run M₀ =
      mapOutcome id m₁.output id ((interpret fuel echo B).run.run { m₁ with output := "" }) := by
    rw [interpret_append_returnFree fuel echo B A free ran]
    have runs := interpret_renumbers id m₁.output rfl fuel echo B { m₁ with output := "" }
    rw [Stmt.mapLinesAll_id, Machine.mapLines_id, String.append_empty] at runs
    exact runs
  rw [own] at session
  rw [joined]
  generalize (interpret fuel echo (Joint.program A B)).run.run M₀ = out at session clamped ⊢
  generalize (interpret fuel echo B).run.run { m₁ with output := "" } = second at session ⊢
  have outputs := congrArg (fun o => o.2.output) session
  have results := congrArg Prod.fst session
  have fixed := congrArg Prod.fst clamped
  simp only [mapOutcome_snd, mapOutcome_fst, Machine.mapLines_output, String.empty_append] at outputs results fixed ⊢
  refine ⟨outputs.symm, ?_⟩
  rcases out with ⟨stop | _, mJ⟩ <;> rcases second with ⟨stop₂ | _, m₂⟩ <;>
    simp only [Except.map, Except.mapError_ok, Except.mapError_error, Except.error.injEq, reduceCtorEq, id]
      at results fixed ⊢
  -- a fault: the same stop, read back from the joint numbering in each unit
  rw [Stop.mapLines_id] at results
  rw [← results, Stop.mapLines_own fixed.symm]

end Run

/-! ### The units and the joined text -/

theorem Stmt.ofSource_ok {source : String} {stmts : List Stmt} (read : Stmt.ofSource source = .ok stmts) :
    (Token.scanAll source).2 = [] ∧ Stmt.parseProgram (Token.scanAll source).1 = .ok stmts := by
  unfold Stmt.ofSource at read
  rcases scanned : Token.scanAll source with ⟨tokens, lexErrors⟩
  rw [scanned] at read
  simp only at read
  split at read
  · next parsed =>
    split at read
    · next clean =>
      cases read
      exact ⟨List.isEmpty_iff.1 clean, parsed⟩
    · cases read
  · cases read

theorem Stmt.ofSource_of_ok {source : String} {stmts : List Stmt} (clean : (Token.scanAll source).2 = [])
    (parsed : Stmt.parseProgram (Token.scanAll source).1 = .ok stmts) : Stmt.ofSource source = .ok stmts := by
  unfold Stmt.ofSource
  rcases scanned : Token.scanAll source with ⟨tokens, lexErrors⟩
  rw [scanned] at clean parsed
  simp only at clean parsed ⊢
  rw [parsed, clean]
  rfl

/-- Two units that read, joined by a newline, read as the first's statements and then the
second's moved down by the first unit's lines. -/
theorem Stmt.ofSource_join {first second : String} {S₁ S₂ : List Stmt} (read₁ : Stmt.ofSource first = .ok S₁)
    (read₂ : Stmt.ofSource second = .ok S₂) :
    Stmt.ofSource (first ++ "\n" ++ second) =
      .ok (S₁ ++ Stmt.mapLinesAll (· + (first.toList.count '\n' + 1)) S₂) := by
  obtain ⟨clean₁, parsed₁⟩ := Stmt.ofSource_ok read₁
  obtain ⟨clean₂, parsed₂⟩ := Stmt.ofSource_ok read₂
  obtain ⟨T₁, last₁, tokens₁, spelled₁⟩ := Token.scanAll_ends first
  obtain ⟨T₂, last₂, tokens₂, spelled₂⟩ := Token.scanAll_ends second
  have joined := Token.scanAll_join first second clean₁
  rw [tokens₁, tokens₂, clean₂] at joined
  rw [tokens₁] at parsed₁
  rw [tokens₂] at parsed₂
  apply Stmt.ofSource_of_ok
  · rw [joined]
    rfl
  · rw [joined]
    simp only [List.dropLast_concat, List.map_append, List.map_cons, List.map_nil, ← List.append_assoc]
    exact Stmt.parseProgram_join _ rfl rfl rfl (fun t mem => (spelled₁ t mem).2) (fun t mem => (spelled₂ t mem).2)
      parsed₁ parsed₂

/-- A renumbering that keeps every line of a text keeps the statements it reads as. -/
theorem Stmt.ofSource_mapLines_of_lines {source : String} {stmts : List Stmt} (read : Stmt.ofSource source = .ok stmts)
    {g : Nat → Nat} (fixes : ∀ ℓ, 1 ≤ ℓ → ℓ ≤ source.toList.count '\n' + 1 → g ℓ = ℓ) :
    Stmt.mapLinesAll g stmts = stmts := by
  obtain ⟨-, parsed⟩ := Stmt.ofSource_ok read
  obtain ⟨T, last, tokens, spelled⟩ := Token.scanAll_ends source
  have lines := Token.scanAll_lines source
  rw [tokens] at parsed lines
  refine Stmt.mapLinesAll_of_tokens g rfl (fun t mem => (spelled t mem).2) parsed fun t mem => ?_
  obtain ⟨low, high⟩ := lines t (List.mem_append_left _ mem)
  simp only [Token.mapLines, fixes _ low high]

/-- A unit that passes the static checks, in a session whose current frame is the globals, runs its
addressed statements from the session's machine with the output started afresh. -/
theorem Session.run_checked (s : Session) {source : String} {stmts : List Stmt} (read : Stmt.ofSource source = .ok stmts)
    (clean : Stmt.scopeFaultsAll Scope.Context.top stmts = []) (top : s.machine.env = Store.globals) :
    s.run source =
      ({ s with machine := ((Run.interpret s.fuel s.echo (Stmt.addressedAll [] stmts)).run.run
          { s.machine with output := "" }).2 },
        ⟨((Run.interpret s.fuel s.echo (Stmt.addressedAll [] stmts)).run.run { s.machine with output := "" }).2.output,
          match ((Run.interpret s.fuel s.echo (Stmt.addressedAll [] stmts)).run.run
              { s.machine with output := "" }).1 with
          | .ok _ => []
          | .error stop => [Diagnostic.ofStop stop]⟩) := by
  unfold Session.run Session.runStmts
  rw [read]
  dsimp only
  rw [Stmt.resolveScopes_of_clean clean]
  have same : (Interp.interpret s.fuel s.echo (Stmt.addressedAll [] stmts)).run.run
      ⟨s.machine.store, "", s.machine.nextId, s.machine.clock, s.machine.env⟩ =
      (Run.interpret s.fuel s.echo (Stmt.addressedAll [] stmts)).run.run
      ⟨s.machine.store, "", s.machine.nextId, s.machine.clock, s.machine.env⟩ :=
    Interp.interpret_eq s.fuel s.echo _ _ top
  dsimp only
  rw [same]
  rfl

/-- In a fresh session, two units that pass the static checks, the first running without a fault,
run in turn as the text of both joined by a newline runs: together they print what it prints, and
the second reports what it reports, a fault's line read in its own unit. A fault inside a function
of the first unit is on the same line in both; a fault in the second unit's own lines is `k` lines
further down in the joined text, where `k` is the number of lines of the first unit. -/
theorem session_units_run_as_joined (echo : Bool) (clock : Float) (fuel : Nat) (first second : String)
    (checked₁ : Session.Checked first) (checked₂ : Session.Checked second)
    (ran : ((⟨{ Machine.new with clock := clock }, echo, fuel⟩ : Session).run first).2.errors = []) :
    let s : Session := ⟨{ Machine.new with clock := clock }, echo, fuel⟩
    (s.run first).2.output ++ ((s.run first).1.run second).2.output = (s.run (first ++ "\n" ++ second)).2.output ∧
      ((s.run first).1.run second).2.errors =
        (s.run (first ++ "\n" ++ second)).2.errors.map (Diagnostic.mapLines (unitLine (first.toList.count '\n' + 1))) := by
  intro s
  obtain ⟨S₁, read₁, clean₁⟩ := checked₁
  obtain ⟨S₂, read₂, clean₂⟩ := checked₂
  have read := Stmt.ofSource_join read₁ read₂
  have clean : Stmt.scopeFaultsAll Scope.Context.top
      (S₁ ++ Stmt.mapLinesAll (· + (first.toList.count '\n' + 1)) S₂) = [] := by
    rw [Stmt.scopeFaultsAll_top_append, Stmt.scopeFaultsAll_mapLines, clean₁, clean₂]
    rfl
  -- the first unit's lines lie between `1` and `k`, the second's start at `1`
  have fixA : Stmt.mapLinesAll (min · (first.toList.count '\n' + 1)) (Stmt.addressedAll [] S₁) =
      Stmt.addressedAll [] S₁ := by
    rw [← Stmt.addressedAll_mapLines, Stmt.ofSource_mapLines_of_lines read₁ fun ℓ _ high => Nat.min_eq_left high]
  have fixB : Stmt.mapLinesAll (max · 1) (Stmt.addressedAll [] S₂) = Stmt.addressedAll [] S₂ := by
    rw [← Stmt.addressedAll_mapLines, Stmt.ofSource_mapLines_of_lines read₂ fun ℓ low _ => Nat.max_eq_left low]
  rw [Session.run_checked s read₁ clean₁ rfl] at ran ⊢
  -- the first unit leaves the globals frame current for the second
  rw [Session.run_checked s read clean rfl,
    Session.run_checked _ read₂ clean₂ ((Run.blind_interpret s.fuel s.echo _).env _), Stmt.addressedAll_top_append,
    Stmt.addressedAll_mapLines]
  generalize ranFirst : (Run.interpret s.fuel s.echo (Stmt.addressedAll [] S₁)).run.run { s.machine with output := "" } = out₁
    at ran ⊢
  rcases out₁ with ⟨stop | _, m₁⟩
  · cases ran
  obtain ⟨outputs, results⟩ :=
    Run.interpret_units_join fuel echo (by exact fun g => Machine.fresh_mapLines g clock)
      (Stmt.returnFreeAll_top clean₁) fixA fixB ranFirst
  refine ⟨outputs, ?_⟩
  simp only at results ⊢
  rw [results]
  generalize ((Run.interpret s.fuel s.echo (Stmt.addressedAll [] S₁ ++
      Stmt.mapLinesAll (· + (first.toList.count '\n' + 1)) (Stmt.addressedAll [] S₂))).run.run
      { s.machine with output := "" }).1 = joined
  cases joined with
  | ok _ => rfl
  | error stop => simp [Except.mapError_error, Diagnostic.ofStop_mapLines]

/-- A function declared in one unit, reading a global of that unit, called from the next. -/
theorem session_units_run_as_joined_closure :
    let first := "var a = \"x\";\nfun f() { print a; }"
    let s : Session := ⟨{ Machine.new with clock := 0 }, false, Session.defaultFuel⟩
    Session.Checked first ∧ Session.Checked "f();" ∧ (s.run first).2.errors = [] ∧
      ((s.run first).2.output ++ ((s.run first).1.run "f();").2.output = (s.run (first ++ "\n" ++ "f();")).2.output ∧
        ((s.run first).1.run "f();").2.errors =
          (s.run (first ++ "\n" ++ "f();")).2.errors.map (Diagnostic.mapLines (unitLine (first.toList.count '\n' + 1)))) :=
  have checked₁ : Session.Checked "var a = \"x\";\nfun f() { print a; }" := by decide +kernel
  have checked₂ : Session.Checked "f();" := by decide +kernel
  have ran : ((⟨{ Machine.new with clock := 0 }, false, Session.defaultFuel⟩ : Session).run
      "var a = \"x\";\nfun f() { print a; }").2.errors = [] := List.isEmpty_iff.1 (by decide +kernel)
  ⟨checked₁, checked₂, ran, session_units_run_as_joined false 0 Session.defaultFuel _ _ checked₁ checked₂ ran⟩

/-- A fault inside a function of the first unit, called from the second, is on line 1 both in the
second unit's report and in the joined text's: it is not moved down by the first unit's line. -/
theorem session_units_fault_in_first_unit :
    Session.Checked "fun f() { return 1 + nil; }" ∧ Session.Checked "f();" ∧
      ((Session.new false).run "fun f() { return 1 + nil; }").2.errors = [] ∧
      (((Session.new false).run "fun f() { return 1 + nil; }").1.run "f();").2.errors.map Diagnostic.line =
        [some 1] ∧
      ((Session.new false).run ("fun f() { return 1 + nil; }" ++ "\n" ++ "f();")).2.errors.map Diagnostic.line =
        [some 1] :=
  ⟨by decide +kernel, by decide +kernel, List.isEmpty_iff.1 (by decide +kernel), by decide +kernel, by decide +kernel⟩

end Lox
