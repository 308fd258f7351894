import Lox.Proofs.KeywordFrames
/-!
Units run in whatever frame is current. A session runs each unit in its machine's current frame
(`Lox.Proofs.CurrentFrame`), which is the globals frame in every session that started fresh. The
scope pass addresses every top-level reference to the globals, so what a unit does to the store
depends on its frame only where it declares a name there. From any current frame, even one the
store does not hold, a unit of the parser's shape that passes the scope pass leaves a sound store
grown from the one it found, with every binding of `this` and `super` kept
(`Interp.interpret_steady`); so does every unit a session runs (`Session.run_steady`).
-/
namespace Lox

namespace Store

/-- Binding a name in a frame the store does not hold changes nothing. -/
theorem define_of_le {s : Store} {frame : Nat} (dangling : s.frames.size ≤ frame) (name : String) (v : Option Value) :
    s.define frame name v = s := by
  simp only [Store.define]
  congr 1
  apply Array.ext
  · simp
  · intro i h₁ _
    simp only [Array.getElem_modify]
    rw [if_neg]
    simp only [Array.size_modify] at h₁
    omega

/-- From a frame the store did not hold, no binding of a name other than `super` is found, also
once a frame binding `super` enclosed by it is made, which may take its index. -/
theorem owner_alloc_super {s : Store} {frame : Nat} (dangling : s.frames.size ≤ frame) {name : String}
    (other : name ≠ "super") (v : Option Value) :
    ((s.alloc frame).1.define s.frames.size "super" v).owner frame name = none := by
  rw [Store.owner]
  rcases Nat.lt_or_eq_of_le dangling with beyond | same
  · have missing : ((s.alloc frame).1.define s.frames.size "super" v).frames[frame]? = none := by
      rw [frame_define,if_neg (Nat.ne_of_lt beyond),frame_alloc,if_neg (Nat.ne_of_gt beyond)]
      exact Array.getElem?_eq_none dangling
    rw [missing]
  · subst same
    simp [frame_define,frame_alloc,Slots.lookup_put_ne other]

end Store

namespace Run

variable {α β : Type}

/-! ### Runs that leave the store steady -/

/-- A run that leaves a sound store grown from the one it found, with every binding of `this` and
`super` kept. -/
def Steady (x : Run α) (m : Machine) : Prop :=
  m.store.Grows (x.run.run m).2.store ∧ (x.run.run m).2.store.Sound ∧ m.store.Keeps (x.run.run m).2.store

theorem Steady.of_safe {x : Run α} {m : Machine} {P : α → Machine → Prop} (safe : Safe x m P)
    (keeping : Keeping x m) : Steady x m := by
  unfold Safe at safe
  unfold Keeping at keeping
  unfold Steady
  revert safe keeping
  rcases x.run.run m with ⟨r, m'⟩
  rintro ⟨grows, sound, -⟩ keeping
  exact ⟨grows, sound, keeping⟩

/-- A run that leaves the store as it was. -/
theorem Steady.unchanged {x : Run α} {m : Machine} (sound : m.store.Sound) (same : (x.run.run m).2.store = m.store) :
    Steady x m := by
  unfold Steady
  rw [same]
  exact ⟨Store.Grows.refl _, sound, Store.Keeps.refl _⟩

theorem Steady.bind {x : Run α} {f : α → Run β} {m : Machine} (first : Steady x m)
    (rest : ∀ a m', x.run.run m = (.ok a, m') → m'.store.Sound → Steady (f a) m') : Steady (x >>= f) m := by
  unfold Steady at first ⊢
  rw [run_bind]
  revert first rest
  rcases x.run.run m with ⟨r, m'⟩
  rintro ⟨grows, sound, keeps⟩ rest
  cases r with
  | ok a =>
    obtain ⟨grows', sound', keeps'⟩ := rest a m' rfl sound
    exact ⟨grows.trans grows', sound', keeps.trans keeps'⟩
  | error stop => exact ⟨grows, sound, keeps⟩

/-- Sequencing after a run that keeps the agreement, whose result the rest may rely on. -/
theorem Steady.after {x : Run α} {f : α → Run β} {m : Machine} {Q : α → Machine → Prop} (safe : Safe x m Q)
    (keeping : Keeping x m) (rest : ∀ a m', m.store.Grows m'.store → m'.store.Sound → Q a m' → Steady (f a) m') :
    Steady (x >>= f) m := by
  refine Steady.bind (Steady.of_safe safe keeping) fun a m' ran _ => ?_
  obtain ⟨grows, sound, holds⟩ := safe.ok ran
  exact rest a m' grows sound holds

theorem Steady.step {x : Run α} {f : α → Run β} {m m' : Machine} {a : α} (ran : x.run.run m = (.ok a, m'))
    (grows : m.store.Grows m'.store) (keeps : m.store.Keeps m'.store) (rest : Steady (f a) m') :
    Steady (x >>= f) m := by
  unfold Steady at rest ⊢
  rw [run_bind,ran]
  obtain ⟨grows', sound', keeps'⟩ := rest
  exact ⟨grows.trans grows', sound', keeps.trans keeps'⟩

/-- Steadiness reads the run from one machine only. -/
theorem Steady.of_run {x y : Run α} {m : Machine} (same : x.run.run m = y.run.run m) (steady : Steady y m) :
    Steady x m := by
  unfold Steady
  rw [same]
  exact steady

theorem Steady.ite {c : Prop} [Decidable c] {x y : Run α} {m : Machine} (yes : Steady x m) (no : Steady y m) :
    Steady (if c then x else y) m := by
  split
  · exact yes
  · exact no

/-- An ordinary name bound to a sound value, in any frame or in none. -/
theorem define_steady {m : Machine} {frame : Nat} {name : String} {v : Value} (sound : m.store.Sound)
    (ordinary : Scope.Ordinary name) (valued : v.Sound m.store) : Steady (define frame name (some v)) m := by
  have fits := Value.fits_of_ordinary ordinary v
  have grows := m.store.grows_define frame name fits
  exact ⟨grows, sound.define frame name fits (valued.grow grows), m.store.keeps_define frame name (some v) (.inl ordinary)⟩

/-! ### The top level from any frame -/

/-- A top-level expression runs in any frame, whose frames need cover no scope. -/
theorem exprSite_top {m : Machine} (env : Nat) (sound : m.store.Sound) : ExprSite m env [] [] none .none :=
  ⟨sound, trivial, Scope.layout_top, rfl⟩

/-- An expression evaluated where it was resolved, then the rest: steady when the rest is, from
every sound store grown from the first in which the expression's value is sound. -/
theorem Steady.afterEval {f : Value → Run β} {m : Machine} {n env : Nat} {view scopes : List (List String)}
    {init : Option String} {cls : Scope.ClassContext} {e : Expr} (site : ExprSite m env view scopes init cls)
    (formed : e.Formed) (clean : e.scopeFaults init cls = [])
    (rest : ∀ v m', m.store.Grows m'.store → m'.store.Sound → v.Sound m'.store → Steady (f v) m') :
    Steady (eval n env (e.addressed scopes) >>= f) m :=
  Steady.after ((agreeing n).eval e site formed clean) ((fixing n).eval e site formed clean) rest

/-- The top-level rules at one amount of fuel, steady from any current frame. -/
structure Settled (fuel : Nat) : Prop where
  exec : ∀ {m : Machine} (env : Nat) (st : Stmt), m.store.Sound → st.Formed →
    st.scopeFaults Scope.Context.top = [] → Steady (exec fuel env (st.addressed [])) m
  loop : ∀ {m : Machine} (env : Nat) (c : Expr) (body : Stmt), m.store.Sound → c.Formed → body.Formed →
    c.scopeFaults none .none = [] → body.scopeFaults Scope.Context.top = [] →
    Steady (loop fuel env (c.addressed []) (body.addressed [])) m

theorem settled_zero : Settled 0 where
  exec _ _ sound _ _ := by rw [exec]; exact Steady.unchanged sound rfl
  loop _ _ _ sound _ _ _ _ := by rw [loop]; exact Steady.unchanged sound rfl

section Succ

variable {n : Nat} {m : Machine} (ih : Settled n)

/-- A class declared in a frame the store does not hold: its name cannot be bound there, so it
stops on an undefined variable, having at most made the frame binding `super`. -/
theorem exec_classDecl_dangling {env : Nat} {name : Token} {sup : Option Expr} {methods : List FunDecl}
    (sound : m.store.Sound) (dangling : m.store.frames.size ≤ env) (formed : (Stmt.classDecl name sup methods).Formed)
    (clean : (Stmt.classDecl name sup methods).scopeFaults Scope.Context.top = []) :
    Steady (exec (n + 1) env ((Stmt.classDecl name sup methods).addressed [])) m := by
  obtain ⟨ordinary, superIdent, -⟩ := formed
  have other : name.lexeme ≠ "super" := ordinary.2
  cases sup with
  | none =>
    simp only [Stmt.addressed,Option.map_none]
    rw [exec]
    refine Steady.unchanged sound ?_
    simp only [run_bind,run_pure,run_define,run_fresh,run_get,Store.define_of_le dangling,run_tabulate]
    rw [Store.owner,Array.getElem?_eq_none dangling]
    rfl
  | some e =>
    obtain ⟨superName, superAddr, rfl⟩ := superIdent e rfl
    simp only [Stmt.addressed,Option.map_some,Expr.addressed,Scope.declareIn]
    rw [exec]
    -- reading the superclass's name changes nothing, so the frame is still not held
    have read : ((eval n env (.ident superName (Scope.locate superName.lexeme []))).run.run m).2 = m := by
      cases n with
      | zero => rw [eval]; rfl
      | succ k => rw [eval]; exact lookUp_machine _ _ _ m
    refine Steady.bind (Steady.unchanged sound (congrArg Machine.store read)) fun v m₁ ran _ => ?_
    have same : m = m₁ := by rw [← read, ran]
    subst same
    have valued : v.Sound m.store :=
      ((agreeing n).eval (.ident superName superAddr) (exprSite_top env sound) trivial
        (by simp [Expr.scopeFaults])).ok ran |>.2.2
    cases v
    case cls c =>
      unfold Steady
      simp only [superclassOf,run_bind,run_pure,run_define,run_alloc,run_fresh,run_get,Store.define_of_le dangling,
        run_tabulate]
      simp only [Store.owner_alloc_super dangling other,run_bind,run_pure]
      -- the frame binding `super` is all that is left of the declaration
      have superFits : (Value.cls c).Fits "super" := ⟨fun named => by simp at named, fun _ => ⟨c, rfl⟩⟩
      have grows := (m.store.grows_alloc env).trans
        ((m.store.alloc env).1.grows_define m.store.frames.size "super" superFits)
      exact ⟨grows, (sound.alloc env).define _ "super" superFits (valued.grow grows),
        m.store.keeps_alloc_define env "super" _⟩
    all_goals exact Steady.unchanged sound rfl

include ih

/-- A top-level statement from any current frame. Only a declaration touches the frame: a class
goes as at a site when the frame is held and stops otherwise; every other declaration binds an
ordinary name, which keeps the store sound wherever it is bound. -/
theorem exec_settled {env : Nat} (st : Stmt) (sound : m.store.Sound) (formed : st.Formed)
    (clean : st.scopeFaults Scope.Context.top = []) : Steady (exec (n + 1) env (st.addressed [])) m := by
  have site := exprSite_top env sound
  cases st with
  | expression e =>
    simp only [Stmt.addressed]
    rw [exec]
    exact Steady.afterEval site formed clean fun _ m' _ sound' _ => Steady.unchanged sound' rfl
  | print e =>
    simp only [Stmt.addressed]
    rw [exec]
    refine Steady.afterEval site formed clean fun v m' _ sound' _ => ?_
    exact Steady.step (run_write _ m') (Store.Grows.refl _) (Store.Keeps.refl _) (Steady.unchanged sound' rfl)
  | varDecl name init =>
    obtain ⟨ordinary, formedInit⟩ := formed
    cases init with
    | none =>
      simp only [Stmt.addressed,Option.map_none]
      rw [exec]
      refine Steady.step (run_pure _ m) (Store.Grows.refl _) (Store.Keeps.refl _) ?_
      exact Steady.bind (define_steady sound ordinary trivial) fun _ m' _ sound' => Steady.unchanged sound' rfl
    | some e =>
      have faults := (List.append_eq_nil_iff.1 clean).2
      have inner : ExprSite m env [] (Scope.declareIn name.lexeme []) (Scope.initializing [] name) .none :=
        ⟨sound, trivial, Scope.layout_top, Scope.pending_initializing [] ordinary⟩
      simp only [Stmt.addressed,Option.map_some]
      rw [exec]
      refine Steady.afterEval inner formedInit faults fun v m' _ sound' valued => ?_
      exact Steady.bind (define_steady sound' ordinary valued) fun _ m'' _ sound'' => Steady.unchanged sound'' rfl
  | block body =>
    simp only [Stmt.addressed]
    rw [exec]
    -- the block's own frame is held even where the current one is not
    have valid : m.store.frames.size < (m.store.alloc env).1.frames.size := by simp [Store.alloc_frames_size]
    have inner : StmtSite { m with store := (m.store.alloc env).1 } m.store.frames.size
        { Scope.Context.top with scopes := [[]] } :=
      ⟨sound.alloc env, ⟨fun _ none => absurd none List.not_mem_nil, env, m.store.parentOf_alloc_self env, trivial⟩,
        valid, Scope.layout_top.push List.not_mem_nil List.not_mem_nil⟩
    exact Steady.step (run_alloc env m) (m.store.grows_alloc env) (m.store.keeps_alloc env)
      (Steady.of_safe ((agreeing n).execBlock body inner formed clean) ((fixing n).execBlock body inner formed clean))
  | ifElse c t e =>
    obtain ⟨formedC, formedT, -, formedE⟩ := formed
    simp only [Stmt.scopeFaults,List.append_eq_nil_iff] at clean
    obtain ⟨⟨faultsC, faultsT⟩, faultsE⟩ := clean
    rw [Scope.Context.top_scopes,Scope.afterStmt_nil] at faultsE
    have branch : ∀ {m₁ : Machine}, m₁.store.Sound → Steady (exec n env (t.addressed [])) m₁ :=
      fun sound₁ => ih.exec env t sound₁ formedT faultsT
    cases e with
    | none =>
      simp only [Stmt.addressed,Stmt.addressedOpt]
      rw [exec]
      exact Steady.afterEval site formedC faultsC fun _ m₁ _ sound₁ _ =>
        Steady.ite (branch sound₁) (Steady.unchanged sound₁ rfl)
    | some s =>
      simp only [Stmt.addressed,Stmt.addressedOpt,Scope.afterStmt_nil]
      rw [exec]
      exact Steady.afterEval site formedC faultsC fun _ m₁ _ sound₁ _ =>
        Steady.ite (branch sound₁) (ih.exec env s sound₁ formedE.1 faultsE)
  | whileLoop c b =>
    obtain ⟨formedC, formedB, -⟩ := formed
    obtain ⟨faultsC, faultsB⟩ := List.append_eq_nil_iff.1 clean
    simp only [Stmt.addressed]
    rw [exec]
    exact ih.loop env c b sound formedC formedB faultsC faultsB
  | function d =>
    obtain ⟨name, params, body⟩ := d
    obtain ⟨named, ordinary, formedBody⟩ := formed
    have faults := (List.append_eq_nil_iff.1 clean).2
    simp only [Stmt.addressed]
    rw [exec]
    refine Steady.step (run_fresh m) (Store.Grows.refl _) (Store.Keeps.refl _) ?_
    rw [FunDecl.name_addressed]
    -- a function declared at the top level closes over the frame, which need cover no scope
    refine Steady.bind (define_steady sound named ?_) fun _ m' _ sound' => Steady.unchanged sound' rfl
    exact ⟨{ Scope.Context.top with scopes := Scope.declareIn name.lexeme [] }, .function, .mk name params body, rfl,
      ⟨named, ordinary, formedBody⟩, faults, (Scope.layout_top.declare named).params ordinary, trivial,
      fun no => (Bool.false_ne_true no).elim⟩
  | returnStmt kw v =>
    simp [Stmt.scopeFaults,Scope.Context.top] at clean
  | classDecl name sup methods =>
    by_cases valid : env < m.store.frames.size
    · have site : StmtSite m env Scope.Context.top := ⟨sound, trivial, valid, Scope.layout_top⟩
      exact Steady.of_safe ((agreeing (n + 1)).exec _ site formed clean) ((fixing (n + 1)).exec _ site formed clean)
    · exact exec_classDecl_dangling sound (Nat.le_of_not_lt valid) formed clean

/-- A top-level loop from any current frame: the condition and the body each run there. -/
theorem loop_settled {env : Nat} (c : Expr) (body : Stmt) (sound : m.store.Sound) (formedC : c.Formed)
    (formedB : body.Formed) (faultsC : c.scopeFaults none .none = []) (faultsB : body.scopeFaults Scope.Context.top = []) :
    Steady (loop (n + 1) env (c.addressed []) (body.addressed [])) m := by
  have site := exprSite_top env sound
  rw [loop]
  refine Steady.afterEval site formedC faultsC fun _ m₁ _ sound₁ _ => Steady.ite ?_ (Steady.unchanged sound₁ rfl)
  refine Steady.bind (ih.exec env body sound₁ formedB faultsB) fun flow m₂ _ sound₂ => ?_
  cases flow with
  | normal => exact ih.loop env c body sound₂ formedC formedB faultsC faultsB
  | returned v => exact Steady.unchanged sound₂ rfl

theorem settled_succ : Settled (n + 1) where
  exec _ st sound formed clean := exec_settled ih st sound formed clean
  loop _ c body sound formedC formedB faultsC faultsB := loop_settled ih c body sound formedC formedB faultsC faultsB

end Succ

/-- Every top-level rule is steady from any current frame, whatever the fuel. -/
theorem settled : ∀ n, Settled n
  | 0 => settled_zero
  | n + 1 => settled_succ (settled n)

end Run

namespace Interp

open Run

/-- A top-level expression of the parser's shape that passes the scope pass leaves the store
steady, evaluated in whatever frame is current. -/
theorem evaluate_steady (fuel : Nat) {m : Machine} {e : Expr} (sound : m.store.Sound) (formed : e.Formed)
    (clean : e.scopeFaults none .none = []) : Steady (evaluate fuel (e.addressed [])) m := by
  have site := exprSite_top m.env sound
  exact Steady.of_run (evaluate_eq fuel _ m)
    (Steady.of_safe ((agreeing fuel).eval e site formed clean) ((fixing fuel).eval e site formed clean))

/-- A unit of the parser's shape that passes the scope pass leaves the store steady, run statement
by statement in whatever frame is current: each runs as its rule of `Run` does there. -/
theorem interpret_steady (fuel : Nat) (echo : Bool) : ∀ (stmts : List Stmt) {m : Machine}, m.store.Sound →
    Stmt.FormedAll stmts → Stmt.scopeFaultsAll Scope.Context.top stmts = [] →
    Steady (interpret fuel echo (Stmt.addressedAll [] stmts)) m
  | [], m, sound, _, _ => by
    rw [Stmt.addressedAll,interpret]
    exact Steady.unchanged sound rfl
  | st :: rest, m, sound, formed, clean => by
    obtain ⟨firstClean, restClean⟩ := Stmt.scopeFaultsAll_top_cons clean
    have next : ∀ {m' : Machine}, m'.store.Sound → Steady (interpret fuel echo (Stmt.addressedAll [] rest)) m' :=
      fun sound' => interpret_steady fuel echo rest sound' formed.2 restClean
    have first : Steady (execute fuel (st.addressed [])) m :=
      Steady.of_run (execute_eq fuel _ m) ((settled fuel).exec m.env st sound formed.1 firstClean)
    rw [Stmt.addressedAll_top_cons]
    cases st with
    | expression e =>
      simp only [Stmt.addressed]
      rw [interpret]
      apply Steady.ite
      · refine Steady.bind (evaluate_steady fuel sound formed.1 firstClean) fun v m₁ _ sound₁ => ?_
        exact Steady.step (run_write _ m₁) (Store.Grows.refl _) (Store.Keeps.refl _) (next sound₁)
      · exact Steady.bind first fun _ m₁ _ sound₁ => next sound₁
    | _ =>
      rw [interpret]
      · refine Steady.bind first fun flow m₁ _ sound₁ => ?_
        cases flow with
        | normal => exact next sound₁
        | returned v => exact Steady.unchanged sound₁ rfl
      all_goals
        intro _ same
        cases same

end Interp

namespace Session

/-- A unit run in a session with a sound store, refused, finished or stopped, leaves a sound store
grown from the session's, with every binding of `this` and `super` kept, in whatever frame the
session has current. -/
theorem run_steady (s : Session) (source : String) (sound : s.machine.store.Sound) :
    s.machine.store.Grows (s.run source).1.machine.store ∧ (s.run source).1.machine.store.Sound ∧
      s.machine.store.Keeps (s.run source).1.machine.store := by
  unfold Session.run
  cases read : Stmt.ofSource source with
  | error ds => exact ⟨Store.Grows.refl _, sound, Store.Keeps.refl _⟩
  | ok stmts =>
    simp only
    unfold Session.runStmts
    cases resolved : Stmt.resolveScopes stmts with
    | error es => exact ⟨Store.Grows.refl _, sound, Store.Keeps.refl _⟩
    | ok r =>
      simp only
      obtain ⟨clean, rfl⟩ := Stmt.resolveScopes_ok resolved
      have steady := Interp.interpret_steady s.fuel s.echo stmts (m := { s.machine with output := "" }) sound
        (Stmt.ofSource_formed read) clean
      unfold Run.Steady at steady
      revert steady
      rcases (Interp.interpret s.fuel s.echo (Stmt.addressedAll [] stmts)).run.run { s.machine with output := "" } with
        ⟨res, m'⟩
      exact id

/-- A unit run in a session with a sound store keeps every binding of `this` and `super` the
session had. -/
theorem run_keeps (s : Session) (source : String) (sound : s.machine.store.Sound) :
    s.machine.store.Keeps (s.run source).1.machine.store :=
  (s.run_steady source sound).2.2

end Session

end Lox
