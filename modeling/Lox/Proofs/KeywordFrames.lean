import Lox.Proofs.CurrentFrame
/-!
The bindings of `this` and `super` never change. The interpreter binds `this` only in the frame it
makes to bind a method to an instance, and `super` only in the frame it makes for a subclass's
methods, each in a frame that binds nothing yet; every other name it binds comes from the program,
where the parser's shape allows only ordinary names. So once a frame binds `this` or `super`, every
later store binds it there to the same value (`Store.Keeps`). Every rule of the interpreter keeps
these bindings from a site where its code agrees with the scopes (`Run.fixing`, by induction on the
fuel beside `Run.agreeing`).
-/
namespace Lox

namespace Store

/-- A later store keeps every binding of `this` and `super` an earlier one had. -/
def Keeps (s s' : Store) : Prop :=
  ∀ frame name v, ¬ Scope.Ordinary name → s.findIn frame name = .value v → s'.findIn frame name = .value v

theorem Keeps.refl (s : Store) : s.Keeps s := fun _ _ _ _ found => found

theorem Keeps.trans {s s' s'' : Store} (first : s.Keeps s') (second : s'.Keeps s'') : s.Keeps s'' :=
  fun frame name v keyword found => second frame name v keyword (first frame name v keyword found)

/-- Binding an ordinary name, or a name the frame does not bind yet, keeps them. -/
theorem keeps_define (s : Store) (frame : Nat) (name : String) (v : Option Value)
    (allowed : Scope.Ordinary name ∨ s.findIn frame name = .missing) : s.Keeps (s.define frame name v) := by
  intro other n w keyword found
  have apart : other ≠ frame ∨ n ≠ name := by
    by_cases here : other = frame
    · refine .inr fun named => ?_
      subst here named
      rcases allowed with ordinary | missing
      · exact keyword ordinary
      · rw [missing] at found
        cases found
    · exact .inl here
  rw [findIn_define_of_ne apart]
  exact found

theorem keeps_of_frames {s s' : Store} (same : s'.frames = s.frames) : s.Keeps s' := by
  intro frame name v _ found
  exact (findIn_of_frame_eq (by rw [same]) name).trans found

theorem keeps_alloc (s : Store) (p : Nat) : s.Keeps (s.alloc p).1 := by
  intro frame name v _ found
  rwa [findIn_of_frame_eq (frame_alloc_old p (frame_lt_of_findIn found))]

/-- A frame just made binds `this` and `super` as the program asks, keeping every other frame. -/
theorem keeps_alloc_define (s : Store) (p : Nat) (name : String) (v : Option Value) :
    s.Keeps ((s.alloc p).1.define s.frames.size name v) :=
  (s.keeps_alloc p).trans (keeps_define _ _ name v (.inr (s.findIn_alloc_self p name)))

/-- Binding ordinary names in turn keeps them. -/
theorem keeps_foldl_define (frame : Nat) : ∀ (pairs : List (Token × Value)) (s : Store),
    (∀ p ∈ pairs, Scope.Ordinary p.1.lexeme) → s.Keeps (pairs.foldl (fun s p => s.define frame p.1.lexeme (some p.2)) s)
  | [], s, _ => Keeps.refl s
  | p :: pairs, s, ordinary =>
    (keeps_define s frame _ _ (.inl (ordinary p List.mem_cons_self))).trans
      (keeps_foldl_define frame pairs _ fun q mem => ordinary q (List.mem_cons_of_mem _ mem))

end Store

namespace Run

variable {α β : Type}

/-! ### Runs that keep `this` and `super` -/

/-- A run keeps the bindings of `this` and `super` of the store it starts from. -/
def Keeping (x : Run α) (m : Machine) : Prop := m.store.Keeps (x.run.run m).2.store

theorem Keeping.unchanged {x : Run α} {m : Machine} (same : (x.run.run m).2 = m) : Keeping x m := by
  unfold Keeping
  rw [same]
  exact Store.Keeps.refl _

theorem Keeping.pure {a : α} {m : Machine} : Keeping (Pure.pure a) m := Keeping.unchanged rfl

theorem Keeping.stop {stop : Stop} {m : Machine} : Keeping (throw stop : Run α) m := Keeping.unchanged rfl

theorem Keeping.fail {t : Token} {f : RuntimeFault} {m : Machine} : Keeping (Run.fail t f : Run α) m :=
  Keeping.unchanged rfl

/-- Sequencing: the first run keeps them, and so does the rest from wherever it left. -/
theorem Keeping.bind {x : Run α} {f : α → Run β} {m : Machine} (first : Keeping x m)
    (rest : ∀ a m', x.run.run m = (.ok a, m') → Keeping (f a) m') : Keeping (x >>= f) m := by
  unfold Keeping at first ⊢
  rw [run_bind]
  revert first rest
  rcases x.run.run m with ⟨r, m'⟩
  intro first rest
  cases r with
  | ok a => exact first.trans (rest a m' rfl)
  | error stop => exact first

/-- Sequencing after a run that also keeps the agreement, whose rest starts from a site. -/
theorem Keeping.after {x : Run α} {f : α → Run β} {m : Machine} {Q : α → Machine → Prop} (safe : Safe x m Q)
    (first : Keeping x m) (rest : ∀ a m', m.store.Grows m'.store → m'.store.Sound → Q a m' → Keeping (f a) m') :
    Keeping (x >>= f) m := by
  refine Keeping.bind first fun a m' ran => ?_
  obtain ⟨grows, sound, holds⟩ := safe.ok ran
  exact rest a m' grows sound holds

theorem Keeping.step {x : Run α} {f : α → Run β} {m m' : Machine} {a : α} (ran : x.run.run m = (.ok a, m'))
    (keeps : m.store.Keeps m'.store) (rest : Keeping (f a) m') : Keeping (x >>= f) m := by
  unfold Keeping at rest ⊢
  rw [run_bind,ran]
  exact keeps.trans rest

theorem Keeping.ite {c : Prop} [Decidable c] {x y : Run α} {m : Machine} (yes : Keeping x m) (no : Keeping y m) :
    Keeping (if c then x else y) m := by
  split
  · exact yes
  · exact no

/-! ### Reading and binding names -/

/-- Reading a name changes nothing. -/
theorem lookUp_machine (env : Nat) (name : Token) (addr : Address) (m : Machine) :
    ((lookUp env name addr).run.run m).2 = m := by
  simp only [lookUp,run_bind,run_get]
  split <;> rfl

theorem lookUp_keeping {env : Nat} {name : Token} {addr : Address} {m : Machine} : Keeping (lookUp env name addr) m :=
  Keeping.unchanged (lookUp_machine env name addr m)

/-- An assignment binds an ordinary name. -/
theorem assignTo_keeping {env : Nat} {name : Token} {addr : Address} {v : Value} {m : Machine}
    (ordinary : Scope.Ordinary name.lexeme) : Keeping (assignTo env name addr v) m := by
  unfold Keeping
  simp only [assignTo,run_bind,run_get]
  split
  · exact m.store.keeps_define _ _ _ (.inl ordinary)
  · exact Store.Keeps.refl _

/-- Binding a method binds `this` in a frame it has just made. -/
theorem bindMethod_keeping {method : Closure} {ref : Nat} {c : ClassDef} {m : Machine} :
    Keeping (bindMethod method ref c) m := by
  unfold Keeping
  simp only [bindMethod,run_bind,run_alloc,run_define,run_fresh,run_pure]
  exact m.store.keeps_alloc_define method.env "this" _

theorem getProperty_keeping {name : Token} {ref : Nat} {c : ClassDef} {m : Machine} :
    Keeping (getProperty name ref c) m := by
  refine Keeping.step (run_get m) (Store.Keeps.refl _) ?_
  split
  · exact Keeping.pure
  · split
    · exact Keeping.bind bindMethod_keeping fun _ _ _ => Keeping.pure
    · exact Keeping.fail

theorem superclassOf_keeping {e : Expr} {v : Value} {m : Machine} : Keeping (superclassOf e v) m := by
  unfold superclassOf
  split
  · exact Keeping.pure
  · exact Keeping.fail

/-! ### Every rule keeps them -/

/-- The rules of the interpreter at one amount of fuel keep the bindings of `this` and `super`,
from the sites where they keep the agreement. -/
structure Fixing (fuel : Nat) : Prop where
  eval : ∀ {m env view scopes init cls} (e : Expr), ExprSite m env view scopes init cls → e.Formed →
    e.scopeFaults init cls = [] → Keeping (eval fuel env (e.addressed scopes)) m
  evalArgs : ∀ {m env view scopes init cls} (args : List Expr), ExprSite m env view scopes init cls →
    Expr.FormedAll args → Expr.scopeFaultsAll init cls args = [] → Keeping (evalArgs fuel env (Expr.addressedAll scopes args)) m
  callValue : ∀ {m paren callee args}, m.store.Sound → callee.Sound m.store → (∀ v ∈ args, v.Sound m.store) →
    Keeping (callValue fuel paren callee args) m
  callClosure : ∀ {m f args}, m.store.Sound → f.Callable m.store → (∀ v ∈ args, v.Sound m.store) →
    args.length = f.arity → Keeping (callClosure fuel f args) m
  exec : ∀ {m env ctx} (st : Stmt), StmtSite m env ctx → st.Formed → st.scopeFaults ctx = [] →
    Keeping (exec fuel env (st.addressed ctx.scopes)) m
  execBlock : ∀ {m env ctx} (ss : List Stmt), StmtSite m env ctx → Stmt.FormedAll ss →
    Stmt.scopeFaultsAll ctx ss = [] → Keeping (execBlock fuel env (Stmt.addressedAll ctx.scopes ss)) m
  loop : ∀ {m env ctx} (c : Expr) (body : Stmt), StmtSite m env ctx → c.Formed → body.Formed →
    body.declares = [] → c.scopeFaults none ctx.cls = [] → body.scopeFaults ctx = [] →
    Keeping (loop fuel env (c.addressed ctx.scopes) (body.addressed ctx.scopes)) m

theorem fixing_zero : Fixing 0 where
  eval _ _ _ _ := by rw [eval]; exact Keeping.stop
  evalArgs _ _ _ _ := by rw [evalArgs]; exact Keeping.stop
  callValue _ _ _ := by rw [callValue]; exact Keeping.stop
  callClosure _ _ _ _ := by rw [callClosure]; exact Keeping.stop
  exec _ _ _ _ := by rw [exec]; exact Keeping.stop
  execBlock _ _ _ _ := by rw [execBlock]; exact Keeping.stop
  loop _ _ _ _ _ _ _ _ := by rw [loop]; exact Keeping.stop

/-! ### Expressions -/

section Expressions

variable {n : Nat} {m : Machine} {env : Nat} {view scopes : List (List String)} {init : Option String}
  {cls : Scope.ClassContext}

/-- `super` reads two bindings and binds the method it finds in a new frame, whatever the site. -/
theorem eval_super_keeping {kw method : Token} {a : Address} :
    Keeping (eval (n + 1) env ((Expr.superGet kw method a).addressed scopes)) m := by
  simp only [Expr.addressed]
  rcases Scope.locate kw.lexeme scopes with _ | d
  · rw [eval]
    exact Keeping.fail
  · rw [eval]
    refine Keeping.bind lookUp_keeping fun v m₁ ran => ?_
    have same : m₁ = m := by rw [← lookUp_machine env kw _ m, ran]
    subst same
    split
    · split
      · exact Keeping.fail
      · refine Keeping.bind lookUp_keeping fun w m₂ ran' => ?_
        have same : m₂ = m₁ := by rw [← lookUp_machine env _ _ m₁, ran']
        subst same
        split
        · split
          · exact Keeping.bind bindMethod_keeping fun _ _ _ => Keeping.pure
          · exact Keeping.fail
        · exact Keeping.fail
    · exact Keeping.fail

variable (A : Agreeing n) (ih : Fixing n)
include A ih

theorem eval_keeping (e : Expr) (site : ExprSite m env view scopes init cls) (formed : e.Formed)
    (clean : e.scopeFaults init cls = []) : Keeping (eval (n + 1) env (e.addressed scopes)) m := by
  cases e with
  | literal v =>
    simp only [Expr.addressed]
    rw [eval]
    exact Keeping.pure
  | grouping inner =>
    simp only [Expr.addressed]
    rw [eval]
    exact ih.eval inner site formed clean
  | unary op r =>
    simp only [Expr.addressed]
    rw [eval]
    refine Keeping.after (A.eval r site formed clean) (ih.eval r site formed clean) fun v m' _ _ _ => ?_
    split
    · split
      · exact Keeping.pure
      · exact Keeping.fail
    · exact Keeping.pure
    · exact Keeping.fail
  | binary l op r =>
    have faults := List.append_eq_nil_iff.1 clean
    simp only [Expr.addressed]
    rw [eval]
    refine Keeping.after (A.eval l site formed.1 faults.1) (ih.eval l site formed.1 faults.1)
      fun a m₁ grows₁ sound₁ _ => ?_
    have site₁ := site.next grows₁ sound₁
    refine Keeping.bind (ih.eval r site₁ formed.2 faults.2) fun b m₂ _ => ?_
    split
    · exact Keeping.pure
    · exact Keeping.stop
  | logical l op r =>
    have faults := List.append_eq_nil_iff.1 clean
    simp only [Expr.addressed]
    rw [eval]
    refine Keeping.after (A.eval l site formed.1 faults.1) (ih.eval l site formed.1 faults.1)
      fun a m₁ grows₁ sound₁ _ => ?_
    exact Keeping.ite Keeping.pure (ih.eval r (site.next grows₁ sound₁) formed.2 faults.2)
  | ident name a =>
    simp only [Expr.addressed]
    rw [eval]
    exact lookUp_keeping
  | assign name v a =>
    simp only [Expr.addressed]
    rw [eval]
    refine Keeping.bind (ih.eval v site formed.2 clean) fun value m₁ _ => ?_
    exact Keeping.bind (assignTo_keeping formed.1) fun _ _ _ => Keeping.pure
  | call f paren args =>
    have faults := List.append_eq_nil_iff.1 clean
    simp only [Expr.addressed]
    rw [eval]
    refine Keeping.after (A.eval f site formed.1 faults.1) (ih.eval f site formed.1 faults.1)
      fun callee m₁ grows₁ sound₁ valued => ?_
    have site₁ := site.next grows₁ sound₁
    refine Keeping.after (A.evalArgs args site₁ formed.2 faults.2) (ih.evalArgs args site₁ formed.2 faults.2)
      fun argv m₂ grows₂ sound₂ args => ?_
    exact ih.callValue sound₂ (valued.grow grows₂) args
  | get o name =>
    simp only [Expr.addressed]
    rw [eval]
    refine Keeping.bind (ih.eval o site formed clean) fun obj m₁ _ => ?_
    split
    · exact getProperty_keeping
    · exact Keeping.fail
  | set o name v =>
    have faults := List.append_eq_nil_iff.1 clean
    simp only [Expr.addressed]
    rw [eval]
    refine Keeping.after (A.eval o site formed.1 faults.2) (ih.eval o site formed.1 faults.2)
      fun obj m₁ grows₁ sound₁ _ => ?_
    split
    · refine Keeping.bind (ih.eval v (site.next grows₁ sound₁) formed.2 faults.1) fun value m₂ _ => ?_
      exact Keeping.step (run_modify _ m₂) (Store.keeps_of_frames rfl) Keeping.pure
    · exact Keeping.fail
  | thisRef kw a =>
    simp only [Expr.addressed]
    rw [eval]
    exact lookUp_keeping
  | superGet kw method a => exact eval_super_keeping

theorem evalArgs_keeping (args : List Expr) (site : ExprSite m env view scopes init cls) (formed : Expr.FormedAll args)
    (clean : Expr.scopeFaultsAll init cls args = []) :
    Keeping (evalArgs (n + 1) env (Expr.addressedAll scopes args)) m := by
  cases args with
  | nil =>
    rw [Expr.addressedAll,evalArgs]
    exact Keeping.pure
  | cons a rest =>
    have faults := List.append_eq_nil_iff.1 clean
    rw [Expr.addressedAll,evalArgs]
    refine Keeping.after (A.eval a site formed.1 faults.1) (ih.eval a site formed.1 faults.1)
      fun v m₁ grows₁ sound₁ _ => ?_
    exact Keeping.bind (ih.evalArgs rest (site.next grows₁ sound₁) formed.2 faults.2) fun _ _ _ => Keeping.pure

end Expressions

/-! ### Calls -/

section Calls

variable {n : Nat} {m : Machine} {paren : Token} {args : List Value}

theorem Keeping.checked {x : Run β} {arity : Nat} (rest : args.length = arity → Keeping x m) :
    Keeping ((if (args.length != arity) = true then Run.fail paren (.arityMismatch arity args.length) else Pure.pure ()) >>=
      fun _ => x) m := by
  by_cases same : args.length = arity
  · rw [if_neg (by simp [same])]
    exact Keeping.step (run_pure () m) (Store.Keeps.refl _) (rest same)
  · rw [if_pos (by simp [same])]
    exact Keeping.stop

variable (ih : Fixing n)
include ih

/-- A call binds the parameters, ordinary names, in a frame it has just made, and runs the body
from there. -/
theorem callClosure_keeping {f : Closure} (sound : m.store.Sound) (callable : f.Callable m.store)
    (argsSound : ∀ v ∈ args, v.Sound m.store) (arity : args.length = f.arity) :
    Keeping (callClosure (n + 1) f args) m := by
  obtain ⟨ctx, kind, ⟨name, params, body⟩, decl, ⟨-, ordinary, formed⟩, clean, layout, covers, -⟩ := callable
  have paramsOf : f.decl.params = params := by rw [decl]; rfl
  have bodyOf : f.decl.body = Stmt.addressedAll (Scope.paramScope params :: ctx.scopes) body := by rw [decl]; rfl
  rw [FunDecl.scopeFaults] at clean
  rw [Closure.arity,paramsOf] at arity
  rw [callClosure,paramsOf,bodyOf]
  obtain ⟨-, site⟩ := callFrame_site kind sound ordinary layout covers argsSound arity
  have named : ∀ p ∈ params.zip args, Scope.Ordinary p.1.lexeme := fun p mem => ordinary p.1 (List.of_mem_zip mem).1
  refine Keeping.step (run_alloc f.env m) (m.store.keeps_alloc f.env) ?_
  refine Keeping.step (run_forIn_define _ (fun p m => rfl) _ _) (Store.keeps_foldl_define _ _ _ named) ?_
  refine Keeping.bind (ih.execBlock body site formed (List.append_eq_nil_iff.1 clean).2) fun flow m₃ _ => ?_
  split
  · exact lookUp_keeping
  · split <;> exact Keeping.pure

/-- Calling a class makes an instance, which keeps every frame, and runs its initializer bound to
it. -/
theorem callValue_keeping (sound : m.store.Sound) {callee : Value} (valued : callee.Sound m.store)
    (argsSound : ∀ v ∈ args, v.Sound m.store) : Keeping (callValue (n + 1) paren callee args) m := by
  cases callee with
  | fn f =>
    rw [callValue]
    exact Keeping.checked fun same => ih.callClosure sound valued argsSound same
  | native native =>
    cases native
    rw [callValue]
    exact Keeping.checked fun _ => Keeping.step (run_get m) (Store.Keeps.refl _) Keeping.pure
  | cls c =>
    rw [callValue]
    refine Keeping.checked fun same => ?_
    have grows₁ := m.store.grows_newObject
    have cls := ClassDef.Sound.grow grows₁ valued
    refine Keeping.step (run_newObject m) (Store.keeps_of_frames rfl) ?_
    cases found : c.findMethod "init" with
    | none => exact Keeping.pure
    | some init =>
      refine Keeping.after (bindMethod_safe sound.newObject (cls.findMethod found) cls) bindMethod_keeping
        fun bound m₂ grows₂ sound₂ isBound => ?_
      have arity : args.length = bound.arity := by
        simp only [ClassDef.arity,found] at same
        simp [Closure.arity,isBound.2,same]
      have argsSound₂ v (mem : v ∈ args) := (argsSound v mem).grow (grows₁.trans grows₂)
      exact Keeping.bind (ih.callClosure sound₂ isBound.1 argsSound₂ arity) fun _ _ _ => Keeping.pure
  | _ =>
    rw [callValue]
    · exact Keeping.fail
    all_goals (intro _ differs; cases differs)

end Calls

/-! ### Statements -/

section Statements

variable {n : Nat} {m : Machine} {env : Nat} {ctx : Scope.Context}

theorem define_keeping {frame : Nat} {name : String} {v : Option Value} (ordinary : Scope.Ordinary name) :
    Keeping (define frame name v) m :=
  m.store.keeps_define frame name v (.inl ordinary)

/-- A class declaration binds its name, an ordinary one, and binds `super` only in the frame it
makes for its methods. -/
theorem exec_classDecl_keeping (ih : Fixing n) {name : Token} {sup : Option Expr}
    {methods : List FunDecl} (site : StmtSite m env ctx) (formed : (Stmt.classDecl name sup methods).Formed)
    (clean : (Stmt.classDecl name sup methods).scopeFaults ctx = []) :
    Keeping (exec (n + 1) env ((Stmt.classDecl name sup methods).addressed ctx.scopes)) m := by
  obtain ⟨ordinary, superIdent, -⟩ := formed
  cases sup with
  | none =>
    simp only [Stmt.addressed,Option.map_none]
    rw [exec]
    unfold Keeping
    simp only [run_bind,run_pure,run_define,run_fresh,run_get]
    rw [run_forIn_table]
    case entry =>
      intro d t m
      rfl
    simp only
    refine (m.store.keeps_define env name.lexeme none (.inl ordinary)).trans ?_
    split
    · simp only [run_bind,run_define,run_pure]
      exact Store.keeps_define _ _ _ _ (.inl ordinary)
    · exact Store.Keeps.refl _
  | some e =>
    obtain ⟨superName, superAddr, rfl⟩ := superIdent e rfl
    obtain ⟨inner, identClean⟩ := site.superclass ordinary clean
    simp only [Stmt.addressed,Option.map_some]
    rw [exec]
    refine Keeping.bind (ih.eval _ inner trivial identClean) fun v m₁ _ => ?_
    refine Keeping.bind superclassOf_keeping fun c₀ m₂ _ => ?_
    refine Keeping.step (run_pure _ m₂) (Store.Keeps.refl _) ?_
    unfold Keeping
    simp only [run_bind,run_pure,run_define,run_alloc,run_fresh,run_get]
    rw [run_forIn_table]
    case entry =>
      intro d t m
      rfl
    simp only
    -- the class's name is declared, and `super` bound in the frame made for the methods
    have declared := m₂.store.keeps_define env name.lexeme none (.inl ordinary)
    refine (declared.trans (Store.keeps_alloc_define _ env "super" (some (.cls c₀)))).trans ?_
    split
    · simp only [run_bind,run_define,run_pure]
      exact Store.keeps_define _ _ _ _ (.inl ordinary)
    · exact Store.Keeps.refl _

variable (A : Agreeing n) (ih : Fixing n)
include A ih

/-- The other statements bind only the ordinary names they declare, in the current frame. -/
theorem exec_keeping (st : Stmt) (site : StmtSite m env ctx) (formed : st.Formed) (clean : st.scopeFaults ctx = []) :
    Keeping (exec (n + 1) env (st.addressed ctx.scopes)) m := by
  cases st with
  | expression e =>
    simp only [Stmt.addressed]
    rw [exec]
    exact Keeping.bind (ih.eval e site.expr formed clean) fun _ _ _ => Keeping.pure
  | print e =>
    simp only [Stmt.addressed]
    rw [exec]
    refine Keeping.bind (ih.eval e site.expr formed clean) fun v m₁ _ => ?_
    exact Keeping.step (run_write _ m₁) (Store.keeps_of_frames rfl) Keeping.pure
  | varDecl name init =>
    obtain ⟨ordinary, formedInit⟩ := formed
    cases init with
    | none =>
      simp only [Stmt.addressed,Option.map_none]
      rw [exec]
      exact Keeping.step (run_pure _ m) (Store.Keeps.refl _) (Keeping.bind (define_keeping ordinary) fun _ _ _ => Keeping.pure)
    | some e =>
      have faults := (List.append_eq_nil_iff.1 clean).2
      have inner : ExprSite m env ctx.scopes (Scope.declareIn name.lexeme ctx.scopes) (Scope.initializing ctx.scopes name)
          ctx.cls := ⟨site.sound, site.covers, site.layout, Scope.pending_initializing ctx.scopes ordinary⟩
      simp only [Stmt.addressed,Option.map_some]
      rw [exec]
      refine Keeping.bind (ih.eval e inner formedInit faults) fun v m₁ _ => ?_
      exact Keeping.bind (define_keeping ordinary) fun _ _ _ => Keeping.pure
  | block body =>
    simp only [Stmt.addressed]
    rw [exec]
    have valid : m.store.frames.size < (m.store.alloc env).1.frames.size := by simp [Store.alloc_frames_size]
    have inner : StmtSite { m with store := (m.store.alloc env).1 } m.store.frames.size { ctx with scopes := [] :: ctx.scopes } :=
      ⟨site.sound.alloc env, ⟨fun _ none => absurd none List.not_mem_nil, env, m.store.parentOf_alloc_self env,
        site.covers.grow (m.store.grows_alloc env)⟩, valid, site.layout.push List.not_mem_nil List.not_mem_nil⟩
    exact Keeping.step (run_alloc env m) (m.store.keeps_alloc env) (ih.execBlock body inner formed clean)
  | ifElse c t e =>
    obtain ⟨formedC, formedT, plainT, formedE⟩ := formed
    simp only [Stmt.scopeFaults,List.append_eq_nil_iff] at clean
    obtain ⟨⟨faultsC, faultsT⟩, faultsE⟩ := clean
    rw [Scope.afterStmt_of_declares plainT] at faultsE
    -- the condition runs first; then one branch, or none, where the condition left the frames
    have branches : ∀ (other : Run Flow), (∀ {m₁ : Machine}, StmtSite m₁ env ctx → Keeping other m₁) →
        Keeping (do if (← eval n env (c.addressed ctx.scopes)).truthy then exec n env (t.addressed ctx.scopes) else other) m := by
      intro other keepsOther
      refine Keeping.after (A.eval c site.expr formedC faultsC) (ih.eval c site.expr formedC faultsC)
        fun v m₁ grows₁ sound₁ _ => ?_
      have site₁ := site.next grows₁ sound₁
      exact Keeping.ite (ih.exec t site₁ formedT faultsT) (keepsOther site₁)
    cases e with
    | none =>
      simp only [Stmt.addressed,Stmt.addressedOpt]
      rw [exec]
      exact branches _ fun _ => Keeping.pure
    | some s =>
      simp only [Stmt.addressed,Stmt.addressedOpt,Scope.afterStmt_of_declares plainT]
      rw [exec]
      exact branches _ fun site₁ => ih.exec s site₁ formedE.1 faultsE
  | whileLoop c b =>
    obtain ⟨formedC, formedB, plainB⟩ := formed
    obtain ⟨faultsC, faultsB⟩ := List.append_eq_nil_iff.1 clean
    simp only [Stmt.addressed]
    rw [exec]
    exact ih.loop c b site formedC formedB plainB faultsC faultsB
  | function d =>
    obtain ⟨name, params, body⟩ := d
    simp only [Stmt.addressed]
    rw [exec]
    refine Keeping.step (run_fresh m) (Store.Keeps.refl _) ?_
    rw [FunDecl.name_addressed]
    exact Keeping.bind (define_keeping formed.1) fun _ _ _ => Keeping.pure
  | returnStmt kw v =>
    cases v with
    | none =>
      simp only [Stmt.addressed,Option.map_none]
      rw [exec]
      exact Keeping.pure
    | some e =>
      simp only [Stmt.scopeFaults,List.append_eq_nil_iff] at clean
      simp only [Stmt.addressed,Option.map_some]
      rw [exec]
      exact Keeping.bind (ih.eval e site.expr formed clean.2.2) fun _ _ _ => Keeping.pure
  | classDecl name sup methods => exact exec_classDecl_keeping ih site formed clean

theorem execBlock_keeping (ss : List Stmt) (site : StmtSite m env ctx) (formed : Stmt.FormedAll ss)
    (clean : Stmt.scopeFaultsAll ctx ss = []) : Keeping (execBlock (n + 1) env (Stmt.addressedAll ctx.scopes ss)) m := by
  cases ss with
  | nil =>
    rw [Stmt.addressedAll,execBlock]
    exact Keeping.pure
  | cons s rest =>
    have faults := List.append_eq_nil_iff.1 clean
    rw [Stmt.addressedAll,execBlock]
    refine Keeping.after (A.exec s site formed.1 faults.1) (ih.exec s site formed.1 faults.1)
      fun flow m₁ grows₁ sound₁ finished => ?_
    cases flow with
    | normal =>
      have site₁ : StmtSite m₁ env { ctx with scopes := Scope.afterStmt ctx.scopes s } :=
        ⟨sound₁, finished.2, Nat.lt_of_lt_of_le site.frame grows₁.size, site.layout.afterStmt formed.1⟩
      exact ih.execBlock rest site₁ formed.2 faults.2
    | returned v => exact Keeping.pure

theorem loop_keeping (c : Expr) (body : Stmt) (site : StmtSite m env ctx) (formedC : c.Formed) (formedB : body.Formed)
    (plainB : body.declares = []) (faultsC : c.scopeFaults none ctx.cls = []) (faultsB : body.scopeFaults ctx = []) :
    Keeping (loop (n + 1) env (c.addressed ctx.scopes) (body.addressed ctx.scopes)) m := by
  rw [loop]
  refine Keeping.after (A.eval c site.expr formedC faultsC) (ih.eval c site.expr formedC faultsC)
    fun v m₁ grows₁ sound₁ _ => ?_
  have site₁ := site.next grows₁ sound₁
  refine Keeping.ite ?_ Keeping.pure
  refine Keeping.after (A.exec body site₁ formedB faultsB) (ih.exec body site₁ formedB faultsB)
    fun flow m₂ grows₂ sound₂ _ => ?_
  cases flow with
  | normal => exact ih.loop c body (site₁.next grows₂ sound₂) formedC formedB plainB faultsC faultsB
  | returned v => exact Keeping.pure

end Statements

/-- Each rule keeps the bindings of `this` and `super` with one more unit of fuel than the rules it
calls. -/
theorem fixing_succ {n : Nat} (A : Agreeing n) (ih : Fixing n) : Fixing (n + 1) where
  eval e site formed clean := eval_keeping A ih e site formed clean
  evalArgs args site formed clean := evalArgs_keeping A ih args site formed clean
  callValue sound valued args := callValue_keeping ih sound valued args
  callClosure sound callable args arity := callClosure_keeping ih sound callable args arity
  exec st site formed clean := exec_keeping A ih st site formed clean
  execBlock ss site formed clean := execBlock_keeping A ih ss site formed clean
  loop c body site formedC formedB plainB faultsC faultsB :=
    loop_keeping A ih c body site formedC formedB plainB faultsC faultsB

/-- Every rule keeps the bindings of `this` and `super`, whatever the fuel. -/
theorem fixing : ∀ n, Fixing n
  | 0 => fixing_zero
  | n + 1 => fixing_succ (agreeing n) (fixing n)

end Run

end Lox
