import Mathlib.Logic.Relation
import Lox.Proofs.AnyFrame
import Lox.Proofs.JoinedUnits
/-!
References find their frames at every step. A run of the interpreter is a tree of calls of its
rules, each rule calling the rules of its parts from the machine the parts before them left
(`Run.Calls`). A call is sited when its code was resolved in scopes that the frames from its frame
outwards cover (`Run.Call.Sited`, the hypotheses of `Run.Agreeing`); every call a sited call makes
is sited (`Run.Calls.sited`), so every call the run reaches is (`Run.Call.Sited.reaches`). At a
sited evaluation a reference answers as the scope pass promised (`Run.Call.Answers`): a variable
or `this` finds an assigned value at its distance, an assignment finds the frame that binds its
name, and `super` finds a class with `this` one frame nearer.

So no reference the scope pass resolved to a distance ever misses: among the faults of a reference,
a run raises only "Undefined variable", and only at a reference the scope pass left to the globals
(`Run.Call.undefined_at_global`). A session started fresh runs every unit in the globals frame from a
sound store, so all of this holds at every step of every unit it runs
(`session_references_follow_scopes`).
-/
namespace Lox

/-- The faults of a reference that the frames do not hold as the scope pass promised it: a variable
read before it is assigned, and a `this` or `super` that is missing or of the wrong kind. -/
def RuntimeFault.Misplaced : RuntimeFault → Prop
  | .unassignedVariable _ | .unresolvedSuper | .superNotClass | .unresolvedThis | .thisNotInstance => True
  | _ => False

/-- A fault the agreement allows is no fault of a misplaced reference. -/
theorem RuntimeFault.Agrees.placed {s : Store} {f : RuntimeFault} (agrees : f.Agrees s) : ¬ f.Misplaced := by
  intro misplaced
  cases f <;> first | exact (agrees : False) | exact (misplaced : False)

namespace Run

/-! ### The calls of a run -/

/-- A call of one of the interpreter's rules: the rule, its fuel and arguments, and the machine it
starts from. -/
inductive Call where
  | eval (fuel env : Nat) (e : Expr) (m : Machine)
  | evalArgs (fuel env : Nat) (args : List Expr) (m : Machine)
  | callValue (fuel : Nat) (paren : Token) (callee : Value) (args : List Value) (m : Machine)
  | callClosure (fuel : Nat) (f : Closure) (args : List Value) (m : Machine)
  | exec (fuel env : Nat) (st : Stmt) (m : Machine)
  | execBlock (fuel env : Nat) (ss : List Stmt) (m : Machine)
  | loop (fuel env : Nat) (c : Expr) (body : Stmt) (m : Machine)

/-- `Calls c c'`: the call `c` makes the call `c'` itself, from the machine that the steps of `c`
before it left. -/
inductive Calls : Call → Call → Prop
  | grouping {n env : Nat} {e : Expr} {m : Machine} :
      Calls (.eval (n + 1) env (.grouping e) m) (.eval n env e m)
  | operand {n env : Nat} {op : Token} {r : Expr} {m : Machine} :
      Calls (.eval (n + 1) env (.unary op r) m) (.eval n env r m)
  | left {n env : Nat} {l r : Expr} {op : Token} {m : Machine} :
      Calls (.eval (n + 1) env (.binary l op r) m) (.eval n env l m)
  | right {n env : Nat} {l r : Expr} {op : Token} {m m' : Machine} {a : Value}
      (ran : (eval n env l).run.run m = (.ok a, m')) :
      Calls (.eval (n + 1) env (.binary l op r) m) (.eval n env r m')
  | logicalLeft {n env : Nat} {l r : Expr} {op : Token} {m : Machine} :
      Calls (.eval (n + 1) env (.logical l op r) m) (.eval n env l m)
  | logicalRight {n env : Nat} {l r : Expr} {op : Token} {m m' : Machine} {a : Value}
      (ran : (eval n env l).run.run m = (.ok a, m'))
      (undecided : (op.kind = .orKw ∧ a.truthy = false) ∨ (op.kind ≠ .orKw ∧ a.truthy = true)) :
      Calls (.eval (n + 1) env (.logical l op r) m) (.eval n env r m')
  | assigned {n env : Nat} {name : Token} {v : Expr} {a : Address} {m : Machine} :
      Calls (.eval (n + 1) env (.assign name v a) m) (.eval n env v m)
  | callee {n env : Nat} {f : Expr} {paren : Token} {args : List Expr} {m : Machine} :
      Calls (.eval (n + 1) env (.call f paren args) m) (.eval n env f m)
  | arguments {n env : Nat} {f : Expr} {paren : Token} {args : List Expr} {m m' : Machine} {callee : Value}
      (ran : (eval n env f).run.run m = (.ok callee, m')) :
      Calls (.eval (n + 1) env (.call f paren args) m) (.evalArgs n env args m')
  | apply {n env : Nat} {f : Expr} {paren : Token} {args : List Expr} {m m₁ m₂ : Machine} {callee : Value}
      {argv : List Value} (ran : (eval n env f).run.run m = (.ok callee, m₁))
      (ranArgs : (evalArgs n env args).run.run m₁ = (.ok argv, m₂)) :
      Calls (.eval (n + 1) env (.call f paren args) m) (.callValue n paren callee argv m₂)
  | object {n env : Nat} {o : Expr} {name : Token} {m : Machine} :
      Calls (.eval (n + 1) env (.get o name) m) (.eval n env o m)
  | target {n env : Nat} {o v : Expr} {name : Token} {m : Machine} :
      Calls (.eval (n + 1) env (.set o name v) m) (.eval n env o m)
  | stored {n env : Nat} {o v : Expr} {name : Token} {m m' : Machine} {ref : Nat} {c : ClassDef}
      (ran : (eval n env o).run.run m = (.ok (.obj ref c), m')) :
      Calls (.eval (n + 1) env (.set o name v) m) (.eval n env v m')
  | head {n env : Nat} {a : Expr} {rest : List Expr} {m : Machine} :
      Calls (.evalArgs (n + 1) env (a :: rest) m) (.eval n env a m)
  | tail {n env : Nat} {a : Expr} {rest : List Expr} {m m' : Machine} {v : Value}
      (ran : (eval n env a).run.run m = (.ok v, m')) :
      Calls (.evalArgs (n + 1) env (a :: rest) m) (.evalArgs n env rest m')
  | function {n : Nat} {paren : Token} {f : Closure} {args : List Value} {m : Machine}
      (arity : args.length = f.arity) :
      Calls (.callValue (n + 1) paren (.fn f) args m) (.callClosure n f args m)
  | initializer {n : Nat} {paren : Token} {c : ClassDef} {args : List Value} {init bound : Closure} {m m' : Machine}
      (arity : args.length = c.arity) (found : c.findMethod "init" = some init)
      (binds : (bindMethod init m.store.objects.size c).run.run { m with store := m.store.newObject.1 } =
        (.ok bound, m')) :
      Calls (.callValue (n + 1) paren (.cls c) args m) (.callClosure n bound args m')
  | body {n : Nat} {f : Closure} {args : List Value} {m : Machine} :
      Calls (.callClosure (n + 1) f args m)
        (.execBlock n m.store.frames.size f.decl.body
          { m with store := ((f.decl.params.zip args).foldl
              (fun s p => s.define m.store.frames.size p.1.lexeme (some p.2)) (m.store.alloc f.env).1) })
  | expression {n env : Nat} {e : Expr} {m : Machine} :
      Calls (.exec (n + 1) env (.expression e) m) (.eval n env e m)
  | print {n env : Nat} {e : Expr} {m : Machine} :
      Calls (.exec (n + 1) env (.print e) m) (.eval n env e m)
  | initial {n env : Nat} {name : Token} {e : Expr} {m : Machine} :
      Calls (.exec (n + 1) env (.varDecl name (some e)) m) (.eval n env e m)
  | block {n env : Nat} {body : List Stmt} {m : Machine} :
      Calls (.exec (n + 1) env (.block body) m)
        (.execBlock n m.store.frames.size body { m with store := (m.store.alloc env).1 })
  | condition {n env : Nat} {c : Expr} {t : Stmt} {e : Option Stmt} {m : Machine} :
      Calls (.exec (n + 1) env (.ifElse c t e) m) (.eval n env c m)
  | thenBranch {n env : Nat} {c : Expr} {t : Stmt} {e : Option Stmt} {m m' : Machine} {v : Value}
      (ran : (eval n env c).run.run m = (.ok v, m')) (truthy : v.truthy = true) :
      Calls (.exec (n + 1) env (.ifElse c t e) m) (.exec n env t m')
  | elseBranch {n env : Nat} {c : Expr} {t s : Stmt} {m m' : Machine} {v : Value}
      (ran : (eval n env c).run.run m = (.ok v, m')) (falsy : v.truthy = false) :
      Calls (.exec (n + 1) env (.ifElse c t (some s)) m) (.exec n env s m')
  | whileLoop {n env : Nat} {c : Expr} {body : Stmt} {m : Machine} :
      Calls (.exec (n + 1) env (.whileLoop c body) m) (.loop n env c body m)
  | returned {n env : Nat} {kw : Token} {e : Expr} {m : Machine} :
      Calls (.exec (n + 1) env (.returnStmt kw (some e)) m) (.eval n env e m)
  | superclass {n env : Nat} {name : Token} {e : Expr} {methods : List FunDecl} {m : Machine} :
      Calls (.exec (n + 1) env (.classDecl name (some e) methods) m) (.eval n env e m)
  | first {n env : Nat} {s : Stmt} {rest : List Stmt} {m : Machine} :
      Calls (.execBlock (n + 1) env (s :: rest) m) (.exec n env s m)
  | next {n env : Nat} {s : Stmt} {rest : List Stmt} {m m' : Machine}
      (ran : (exec n env s).run.run m = (.ok .normal, m')) :
      Calls (.execBlock (n + 1) env (s :: rest) m) (.execBlock n env rest m')
  | test {n env : Nat} {c : Expr} {body : Stmt} {m : Machine} :
      Calls (.loop (n + 1) env c body m) (.eval n env c m)
  | iteration {n env : Nat} {c : Expr} {body : Stmt} {m m' : Machine} {v : Value}
      (ran : (eval n env c).run.run m = (.ok v, m')) (truthy : v.truthy = true) :
      Calls (.loop (n + 1) env c body m) (.exec n env body m')
  | again {n env : Nat} {c : Expr} {body : Stmt} {m m₁ m₂ : Machine} {v : Value}
      (ran : (eval n env c).run.run m = (.ok v, m₁)) (truthy : v.truthy = true)
      (ranBody : (exec n env body).run.run m₁ = (.ok .normal, m₂)) :
      Calls (.loop (n + 1) env c body m) (.loop n env c body m₂)

namespace Call

/-- A call from a site where its code agrees with the scopes it was resolved in: what the rules
need to keep the agreement (`Run.Agreeing`). -/
def Sited : Call → Prop
  | eval _ env e m => ∃ (view scopes : List (List String)) (init : Option String) (cls : Scope.ClassContext)
      (e₀ : Expr), e = e₀.addressed scopes ∧ ExprSite m env view scopes init cls ∧ e₀.Formed ∧
      e₀.scopeFaults init cls = []
  | evalArgs _ env args m => ∃ (view scopes : List (List String)) (init : Option String)
      (cls : Scope.ClassContext) (args₀ : List Expr), args = Expr.addressedAll scopes args₀ ∧
      ExprSite m env view scopes init cls ∧ Expr.FormedAll args₀ ∧ Expr.scopeFaultsAll init cls args₀ = []
  | callValue _ _ callee args m => m.store.Sound ∧ callee.Sound m.store ∧ ∀ v ∈ args, v.Sound m.store
  | callClosure _ f args m =>
      m.store.Sound ∧ f.Callable m.store ∧ (∀ v ∈ args, v.Sound m.store) ∧ args.length = f.arity
  | exec _ env st m => ∃ (ctx : Scope.Context) (st₀ : Stmt), st = st₀.addressed ctx.scopes ∧
      StmtSite m env ctx ∧ st₀.Formed ∧ st₀.scopeFaults ctx = []
  | execBlock _ env ss m => ∃ (ctx : Scope.Context) (ss₀ : List Stmt), ss = Stmt.addressedAll ctx.scopes ss₀ ∧
      StmtSite m env ctx ∧ Stmt.FormedAll ss₀ ∧ Stmt.scopeFaultsAll ctx ss₀ = []
  | loop _ env c body m => ∃ (ctx : Scope.Context) (c₀ : Expr) (body₀ : Stmt), c = c₀.addressed ctx.scopes ∧
      body = body₀.addressed ctx.scopes ∧ StmtSite m env ctx ∧ c₀.Formed ∧ body₀.Formed ∧ body₀.declares = [] ∧
      c₀.scopeFaults none ctx.cls = [] ∧ body₀.scopeFaults ctx = []

end Call

/-- Top-level statements run in the globals frame, which covers the empty list of scopes. -/
theorem StmtSite.top {m : Machine} (sound : m.store.Sound) : StmtSite m Store.globals Scope.Context.top :=
  ⟨sound, trivial, sound.globals, Scope.layout_top⟩

/-- A block's statements run in the frame it makes, under the current one, which holds no name yet. -/
theorem StmtSite.block {m : Machine} {env : Nat} {ctx : Scope.Context} (site : StmtSite m env ctx) :
    StmtSite { m with store := (m.store.alloc env).1 } m.store.frames.size { ctx with scopes := [] :: ctx.scopes } :=
  have valid : m.store.frames.size < (m.store.alloc env).1.frames.size := by simp [Store.alloc_frames_size]
  ⟨site.sound.alloc env, ⟨fun _ none => absurd none List.not_mem_nil, env, m.store.parentOf_alloc_self env,
    site.covers.grow (m.store.grows_alloc env)⟩, valid, site.layout.push List.not_mem_nil List.not_mem_nil⟩

/-- A callable function called with sound arguments of its count runs its resolved body in a new
frame that binds its parameters: the store grows, and the frame covers the body's scopes. -/
theorem Closure.Callable.body {f : Closure} {args : List Value} {m : Machine} (sound : m.store.Sound)
    (callable : f.Callable m.store) (argsSound : ∀ v ∈ args, v.Sound m.store) (arity : args.length = f.arity) :
    ∃ (ctx : Scope.Context) (body : List Stmt), f.decl.body = Stmt.addressedAll ctx.scopes body ∧
      Stmt.FormedAll body ∧ Stmt.scopeFaultsAll ctx body = [] ∧
      m.store.Grows ((f.decl.params.zip args).foldl (fun s p => s.define m.store.frames.size p.1.lexeme (some p.2))
        (m.store.alloc f.env).1) ∧
      StmtSite { m with store := ((f.decl.params.zip args).foldl
        (fun s p => s.define m.store.frames.size p.1.lexeme (some p.2)) (m.store.alloc f.env).1) }
        m.store.frames.size ctx := by
  obtain ⟨ctx, kind, ⟨name, params, body⟩, decl, ⟨-, ordinary, formed⟩, clean, layout, covers, -⟩ := callable
  have paramsOf : f.decl.params = params := by rw [decl]; rfl
  have bodyOf : f.decl.body = Stmt.addressedAll (Scope.paramScope params :: ctx.scopes) body := by rw [decl]; rfl
  rw [Closure.arity, paramsOf] at arity
  rw [FunDecl.scopeFaults] at clean
  obtain ⟨grows, site⟩ := callFrame_site kind sound ordinary layout covers argsSound arity
  rw [paramsOf]
  exact ⟨_, body, bodyOf, formed, (List.append_eq_nil_iff.1 clean).2, (m.store.grows_alloc f.env).trans grows, site⟩

/-- The name a class declaration declares in an existing frame is still owned there once the
frame binding `super` is made under it. -/
theorem Store.owner_super_self {s : Store} {frame : Nat} (valid : frame < s.frames.size) (name : String)
    (v : Option Value) :
    (((s.define frame name none).alloc frame).1.define s.frames.size "super" v).owner frame name = some frame := by
  have valid' : frame < ((s.alloc frame).1.define s.frames.size "super" v).frames.size := by
    simp [Store.alloc_frames_size]
    omega
  rw [Store.define_alloc valid, Store.define_comm _ (Nat.ne_of_lt valid)]
  exact Store.owner_define_self valid' name none

/-- A top-level program, addressed, starts with its first statement addressed in the empty list of
scopes. -/
theorem Stmt.addressedAll_top_eq_cons {st : Stmt} {rest stmts : List Stmt} (same : st :: rest = Stmt.addressedAll [] stmts) :
    ∃ st₀ rest₀, stmts = st₀ :: rest₀ ∧ st = st₀.addressed [] ∧ rest = Stmt.addressedAll [] rest₀ := by
  cases stmts with
  | nil => cases same
  | cons st₀ rest₀ =>
    rw [Stmt.addressedAll_top_cons] at same
    injection same with first later
    exact ⟨st₀, rest₀, rfl, first, later⟩

section References

variable {m : Machine} {env : Nat} {view scopes : List (List String)} {init : Option String}
  {cls : Scope.ClassContext}

/-- A variable that passes the scope rules is not the one its initializer declares, so it is
located in the scopes the frames cover. -/
theorem ExprSite.locate_ident {name : Token} {a : Address} (site : ExprSite m env view scopes init cls)
    (clean : (Expr.ident name a).scopeFaults init cls = []) :
    Scope.locate name.lexeme scopes = Scope.locate name.lexeme view := by
  refine site.pending.locate fun named => ?_
  simp [Expr.scopeFaults, named] at clean

/-- A `this` that passes the scope rules stands inside a class, whose layout puts `this` in a
scope: the reference is resolved to that scope's distance. -/
theorem ExprSite.locate_this {kw : Token} {a : Address} (site : ExprSite m env view scopes init cls)
    (formed : (Expr.thisRef kw a).Formed) (clean : (Expr.thisRef kw a).scopeFaults init cls = []) :
    kw.lexeme = "this" ∧ ∃ d, Scope.locate kw.lexeme scopes = .scoped d ∧ Scope.locate "this" view = .scoped d := by
  have within : cls ≠ .none := by
    intro outside
    simp [Expr.scopeFaults, outside] at clean
  have named : kw.lexeme = "this" := formed
  obtain ⟨d, found⟩ := site.layout.1 within
  refine ⟨named, d, ?_, found⟩
  rw [site.locate_keyword fun ordinary => ordinary.1 named, named, found]

/-- A `super` that passes the scope rules stands inside a subclass, whose layout puts `super` in a
scope one beyond the scope of `this`. -/
theorem ExprSite.locate_super {kw method : Token} {a : Address} (site : ExprSite m env view scopes init cls)
    (formed : (Expr.superGet kw method a).Formed) (clean : (Expr.superGet kw method a).scopeFaults init cls = []) :
    kw.lexeme = "super" ∧ ∃ d, Scope.locate kw.lexeme scopes = .scoped (d + 1) ∧
      Scope.locate "super" view = .scoped (d + 1) ∧ Scope.locate "this" view = .scoped d := by
  have sub : cls = .sub := by cases cls <;> simp_all [Expr.scopeFaults]
  have named : kw.lexeme = "super" := formed
  obtain ⟨d, super, this⟩ := site.layout.2 sub
  refine ⟨named, d, ?_, super, this⟩
  rw [site.locate_keyword fun ordinary => ordinary.2 named, named, super]

/-- A part run after an earlier part of the same expression runs where that one did, in the store
the earlier part leaves. -/
theorem ExprSite.after {n : Nat} {m' : Machine} {e : Expr} {v : Value} (site : ExprSite m env view scopes init cls)
    (formed : e.Formed) (clean : e.scopeFaults init cls = [])
    (ran : (eval n env (e.addressed scopes)).run.run m = (.ok v, m')) : ExprSite m' env view scopes init cls := by
  obtain ⟨grows, sound, -⟩ := ((agreeing n).eval e site formed clean).ok ran
  exact site.next grows sound

/-- A part of a statement run after its condition runs where the statement does. -/
theorem StmtSite.afterEval {n : Nat} {ctx : Scope.Context} {m' : Machine} {c : Expr} {v : Value}
    (site : StmtSite m env ctx) (formed : c.Formed) (clean : c.scopeFaults none ctx.cls = [])
    (ran : (eval n env (c.addressed ctx.scopes)).run.run m = (.ok v, m')) : StmtSite m' env ctx := by
  obtain ⟨grows, sound, -⟩ := ((agreeing n).eval c site.expr formed clean).ok ran
  exact site.next grows sound

end References


/-! ### Every call a sited call makes is sited -/

/-- One call keeps the agreement: each call a sited call makes is sited, from the site its parts
leave. The site of a later part comes from the agreement the earlier parts keep. -/
theorem Calls.sited {c c' : Call} (step : Calls c c') (sited : c.Sited) : c'.Sited := by
  cases step with
  | grouping =>
    obtain ⟨view, scopes, init, cls, e₀, same, site, formed, clean⟩ := sited
    cases e₀ <;> simp only [Expr.addressed, reduceCtorEq, Expr.grouping.injEq] at same
    subst same
    exact ⟨view, scopes, init, cls, _, rfl, site, formed, clean⟩
  | operand =>
    obtain ⟨view, scopes, init, cls, e₀, same, site, formed, clean⟩ := sited
    cases e₀ <;> simp only [Expr.addressed, reduceCtorEq, Expr.unary.injEq] at same
    obtain ⟨rfl, rfl⟩ := same
    exact ⟨view, scopes, init, cls, _, rfl, site, formed, clean⟩
  | left =>
    obtain ⟨view, scopes, init, cls, e₀, same, site, formed, clean⟩ := sited
    cases e₀ <;> simp only [Expr.addressed, reduceCtorEq, Expr.binary.injEq] at same
    obtain ⟨rfl, rfl, rfl⟩ := same
    exact ⟨view, scopes, init, cls, _, rfl, site, formed.1, (List.append_eq_nil_iff.1 clean).1⟩
  | right ran =>
    obtain ⟨view, scopes, init, cls, e₀, same, site, formed, clean⟩ := sited
    cases e₀ <;> simp only [Expr.addressed, reduceCtorEq, Expr.binary.injEq] at same
    obtain ⟨rfl, rfl, rfl⟩ := same
    have faults := List.append_eq_nil_iff.1 clean
    exact ⟨view, scopes, init, cls, _, rfl, site.after formed.1 faults.1 ran, formed.2, faults.2⟩
  | logicalLeft =>
    obtain ⟨view, scopes, init, cls, e₀, same, site, formed, clean⟩ := sited
    cases e₀ <;> simp only [Expr.addressed, reduceCtorEq, Expr.logical.injEq] at same
    obtain ⟨rfl, rfl, rfl⟩ := same
    exact ⟨view, scopes, init, cls, _, rfl, site, formed.1, (List.append_eq_nil_iff.1 clean).1⟩
  | logicalRight ran =>
    obtain ⟨view, scopes, init, cls, e₀, same, site, formed, clean⟩ := sited
    cases e₀ <;> simp only [Expr.addressed, reduceCtorEq, Expr.logical.injEq] at same
    obtain ⟨rfl, rfl, rfl⟩ := same
    have faults := List.append_eq_nil_iff.1 clean
    exact ⟨view, scopes, init, cls, _, rfl, site.after formed.1 faults.1 ran, formed.2, faults.2⟩
  | assigned =>
    obtain ⟨view, scopes, init, cls, e₀, same, site, formed, clean⟩ := sited
    cases e₀ <;> simp only [Expr.addressed, reduceCtorEq, Expr.assign.injEq] at same
    obtain ⟨rfl, rfl, -⟩ := same
    exact ⟨view, scopes, init, cls, _, rfl, site, formed.2, clean⟩
  | callee =>
    obtain ⟨view, scopes, init, cls, e₀, same, site, formed, clean⟩ := sited
    cases e₀ <;> simp only [Expr.addressed, reduceCtorEq, Expr.call.injEq] at same
    obtain ⟨rfl, rfl, rfl⟩ := same
    exact ⟨view, scopes, init, cls, _, rfl, site, formed.1, (List.append_eq_nil_iff.1 clean).1⟩
  | arguments ran =>
    obtain ⟨view, scopes, init, cls, e₀, same, site, formed, clean⟩ := sited
    cases e₀ <;> simp only [Expr.addressed, reduceCtorEq, Expr.call.injEq] at same
    obtain ⟨rfl, rfl, rfl⟩ := same
    have faults := List.append_eq_nil_iff.1 clean
    exact ⟨view, scopes, init, cls, _, rfl, site.after formed.1 faults.1 ran, formed.2, faults.2⟩
  | apply ran ranArgs =>
    obtain ⟨view, scopes, init, cls, e₀, same, site, formed, clean⟩ := sited
    cases e₀ <;> simp only [Expr.addressed, reduceCtorEq, Expr.call.injEq] at same
    obtain ⟨rfl, rfl, rfl⟩ := same
    have faults := List.append_eq_nil_iff.1 clean
    obtain ⟨grows₁, sound₁, valued⟩ := ((agreeing _).eval _ site formed.1 faults.1).ok ran
    obtain ⟨grows₂, sound₂, args⟩ :=
      ((agreeing _).evalArgs _ (site.next grows₁ sound₁) formed.2 faults.2).ok ranArgs
    exact ⟨sound₂, valued.grow grows₂, args⟩
  | object =>
    obtain ⟨view, scopes, init, cls, e₀, same, site, formed, clean⟩ := sited
    cases e₀ <;> simp only [Expr.addressed, reduceCtorEq, Expr.get.injEq] at same
    obtain ⟨rfl, rfl⟩ := same
    exact ⟨view, scopes, init, cls, _, rfl, site, formed, clean⟩
  | target =>
    obtain ⟨view, scopes, init, cls, e₀, same, site, formed, clean⟩ := sited
    cases e₀ <;> simp only [Expr.addressed, reduceCtorEq, Expr.set.injEq] at same
    obtain ⟨rfl, rfl, rfl⟩ := same
    exact ⟨view, scopes, init, cls, _, rfl, site, formed.1, (List.append_eq_nil_iff.1 clean).2⟩
  | stored ran =>
    obtain ⟨view, scopes, init, cls, e₀, same, site, formed, clean⟩ := sited
    cases e₀ <;> simp only [Expr.addressed, reduceCtorEq, Expr.set.injEq] at same
    obtain ⟨rfl, rfl, rfl⟩ := same
    have faults := List.append_eq_nil_iff.1 clean
    exact ⟨view, scopes, init, cls, _, rfl, site.after formed.1 faults.2 ran, formed.2, faults.1⟩
  | head =>
    obtain ⟨view, scopes, init, cls, args₀, same, site, formed, clean⟩ := sited
    cases args₀ <;> simp only [Expr.addressedAll, reduceCtorEq, List.cons.injEq] at same
    obtain ⟨rfl, rfl⟩ := same
    exact ⟨view, scopes, init, cls, _, rfl, site, formed.1, (List.append_eq_nil_iff.1 clean).1⟩
  | tail ran =>
    obtain ⟨view, scopes, init, cls, args₀, same, site, formed, clean⟩ := sited
    cases args₀ <;> simp only [Expr.addressedAll, reduceCtorEq, List.cons.injEq] at same
    obtain ⟨rfl, rfl⟩ := same
    have faults := List.append_eq_nil_iff.1 clean
    exact ⟨view, scopes, init, cls, _, rfl, site.after formed.1 faults.1 ran, formed.2, faults.2⟩
  | function arity =>
    obtain ⟨sound, callable, args⟩ := sited
    exact ⟨sound, callable, args, arity⟩
  | @initializer n paren c args init bound m m' arity found binds =>
    obtain ⟨sound, valued, args⟩ := sited
    have grows₁ := m.store.grows_newObject
    have cls := ClassDef.Sound.grow grows₁ valued
    obtain ⟨grows₂, sound₂, callable, decl⟩ :=
      (bindMethod_safe sound.newObject (cls.findMethod found) cls).ok binds
    refine ⟨sound₂, callable, fun v mem => (args v mem).grow (grows₁.trans grows₂), ?_⟩
    simp only [ClassDef.arity, found] at arity
    simp [Closure.arity, decl, arity]
  | body =>
    obtain ⟨sound, callable, argsSound, arity⟩ := sited
    obtain ⟨ctx, body, same, formed, clean, -, site⟩ := Closure.Callable.body sound callable argsSound arity
    exact ⟨ctx, body, same, site, formed, clean⟩
  | expression =>
    obtain ⟨ctx, st₀, same, site, formed, clean⟩ := sited
    cases st₀ <;> simp only [Stmt.addressed, reduceCtorEq, Stmt.expression.injEq] at same
    subst same
    exact ⟨ctx.scopes, ctx.scopes, none, ctx.cls, _, rfl, site.expr, formed, clean⟩
  | print =>
    obtain ⟨ctx, st₀, same, site, formed, clean⟩ := sited
    cases st₀ <;> simp only [Stmt.addressed, reduceCtorEq, Stmt.print.injEq] at same
    subst same
    exact ⟨ctx.scopes, ctx.scopes, none, ctx.cls, _, rfl, site.expr, formed, clean⟩
  | initial =>
    obtain ⟨ctx, st₀, same, site, formed, clean⟩ := sited
    cases st₀ <;> simp only [Stmt.addressed, reduceCtorEq, Stmt.varDecl.injEq] at same
    obtain ⟨rfl, same⟩ := same
    obtain ⟨e₀, rfl, rfl⟩ := Option.map_eq_some_iff.1 same.symm
    obtain ⟨ordinary, formedInit⟩ := formed
    exact ⟨ctx.scopes, _, _, ctx.cls, e₀, rfl,
      ⟨site.sound, site.covers, site.layout, Scope.pending_initializing ctx.scopes ordinary⟩, formedInit,
      (List.append_eq_nil_iff.1 clean).2⟩
  | block =>
    obtain ⟨ctx, st₀, same, site, formed, clean⟩ := sited
    cases st₀ <;> simp only [Stmt.addressed, reduceCtorEq, Stmt.block.injEq] at same
    subst same
    exact ⟨_, _, rfl, site.block, formed, clean⟩
  | condition =>
    obtain ⟨ctx, st₀, same, site, formed, clean⟩ := sited
    cases st₀ <;> simp only [Stmt.addressed, reduceCtorEq, Stmt.ifElse.injEq] at same
    obtain ⟨rfl, rfl, rfl⟩ := same
    simp only [Stmt.scopeFaults, List.append_eq_nil_iff] at clean
    exact ⟨ctx.scopes, ctx.scopes, none, ctx.cls, _, rfl, site.expr, formed.1, clean.1.1⟩
  | thenBranch ran truthy =>
    obtain ⟨ctx, st₀, same, site, formed, clean⟩ := sited
    cases st₀ <;> simp only [Stmt.addressed, reduceCtorEq, Stmt.ifElse.injEq] at same
    obtain ⟨rfl, rfl, rfl⟩ := same
    simp only [Stmt.scopeFaults, List.append_eq_nil_iff] at clean
    exact ⟨ctx, _, rfl, site.afterEval formed.1 clean.1.1 ran, formed.2.1, clean.1.2⟩
  | elseBranch ran falsy =>
    obtain ⟨ctx, st₀, same, site, formed, clean⟩ := sited
    cases st₀ <;> simp only [Stmt.addressed, reduceCtorEq, Stmt.ifElse.injEq] at same
    obtain ⟨rfl, rfl, same⟩ := same
    obtain ⟨formedC, -, plainT, formedE⟩ := formed
    simp only [Stmt.scopeFaults, List.append_eq_nil_iff] at clean
    -- the branch declares nothing, so the else branch sees the scopes the statement does
    rename_i e₀
    cases e₀ with
    | none => cases same
    | some s₀ =>
      simp only [Stmt.addressedOpt, Option.some.injEq] at same
      subst same
      have faults := clean.2
      rw [Scope.afterStmt_of_declares plainT] at faults ⊢
      exact ⟨ctx, s₀, rfl, site.afterEval formedC clean.1.1 ran, formedE.1, faults⟩
  | whileLoop =>
    obtain ⟨ctx, st₀, same, site, formed, clean⟩ := sited
    cases st₀ <;> simp only [Stmt.addressed, reduceCtorEq, Stmt.whileLoop.injEq] at same
    obtain ⟨rfl, rfl⟩ := same
    obtain ⟨faultsC, faultsB⟩ := List.append_eq_nil_iff.1 clean
    exact ⟨ctx, _, _, rfl, rfl, site, formed.1, formed.2.1, formed.2.2, faultsC, faultsB⟩
  | returned =>
    obtain ⟨ctx, st₀, same, site, formed, clean⟩ := sited
    cases st₀ <;> simp only [Stmt.addressed, reduceCtorEq, Stmt.returnStmt.injEq] at same
    obtain ⟨rfl, same⟩ := same
    obtain ⟨e₀, rfl, rfl⟩ := Option.map_eq_some_iff.1 same.symm
    simp only [Stmt.scopeFaults, List.append_eq_nil_iff] at clean
    exact ⟨ctx.scopes, ctx.scopes, none, ctx.cls, e₀, rfl, site.expr, formed, clean.2.2⟩
  | superclass =>
    obtain ⟨ctx, st₀, same, site, formed, clean⟩ := sited
    cases st₀ <;> simp only [Stmt.addressed, reduceCtorEq, Stmt.classDecl.injEq] at same
    obtain ⟨rfl, same, -⟩ := same
    obtain ⟨e₀, rfl, rfl⟩ := Option.map_eq_some_iff.1 same.symm
    obtain ⟨ordinary, superIdent, -⟩ := formed
    obtain ⟨superName, superAddr, rfl⟩ := superIdent _ rfl
    obtain ⟨inner, faults⟩ := site.superclass ordinary clean
    exact ⟨ctx.scopes, _, _, ctx.cls, _, rfl, inner, trivial, faults⟩
  | first =>
    obtain ⟨ctx, ss₀, same, site, formed, clean⟩ := sited
    cases ss₀ <;> simp only [Stmt.addressedAll, reduceCtorEq, List.cons.injEq] at same
    obtain ⟨rfl, rfl⟩ := same
    exact ⟨ctx, _, rfl, site, formed.1, (List.append_eq_nil_iff.1 clean).1⟩
  | next ran =>
    obtain ⟨ctx, ss₀, same, site, formed, clean⟩ := sited
    cases ss₀ <;> simp only [Stmt.addressedAll, reduceCtorEq, List.cons.injEq] at same
    obtain ⟨rfl, rfl⟩ := same
    have faults := List.append_eq_nil_iff.1 clean
    obtain ⟨grows, sound, -, covers⟩ := ((agreeing _).exec _ site formed.1 faults.1).ok ran
    exact ⟨{ ctx with scopes := Scope.afterStmt ctx.scopes _ }, _, rfl,
      ⟨sound, covers, Nat.lt_of_lt_of_le site.frame grows.size, site.layout.afterStmt formed.1⟩, formed.2, faults.2⟩
  | test =>
    obtain ⟨ctx, c₀, body₀, rfl, rfl, site, formedC, -, -, faultsC, -⟩ := sited
    exact ⟨ctx.scopes, ctx.scopes, none, ctx.cls, c₀, rfl, site.expr, formedC, faultsC⟩
  | iteration ran truthy =>
    obtain ⟨ctx, c₀, body₀, rfl, rfl, site, formedC, formedB, -, faultsC, faultsB⟩ := sited
    exact ⟨ctx, body₀, rfl, site.afterEval formedC faultsC ran, formedB, faultsB⟩
  | again ran truthy ranBody =>
    obtain ⟨ctx, c₀, body₀, rfl, rfl, site, formedC, formedB, plainB, faultsC, faultsB⟩ := sited
    have site₁ := site.afterEval formedC faultsC ran
    obtain ⟨grows₂, sound₂, -⟩ := ((agreeing _).exec _ site₁ formedB faultsB).ok ranBody
    exact ⟨ctx, c₀, body₀, rfl, rfl, site₁.next grows₂ sound₂, formedC, formedB, plainB, faultsC, faultsB⟩

/-- Every call a run reaches from a sited call is sited. -/
theorem Call.Sited.reaches {c c' : Call} (sited : c.Sited) (reached : Relation.ReflTransGen Calls c c') :
    c'.Sited := by
  induction reached with
  | refl => exact sited
  | tail _ step earlier => exact step.sited earlier

/-! ### What a reference finds -/

namespace Call

/-- What the scope pass promises a reference as it is evaluated in the frame `env`: a variable
resolved to a distance finds an assigned value there; `this` is resolved to a distance and finds an
instance there; an assignment resolved to a distance finds a frame there, one that binds the name or
the current frame, where a variable its own initializer assigns is not yet bound; `super` is
resolved to a distance beyond `this` and finds a class there, with `this` an instance one frame
nearer. Other calls are promised nothing. -/
def Answers : Call → Prop
  | eval _ env (.ident name (.scoped d)) m => ∃ v, m.store.getAt env d name.lexeme = .value v
  | eval _ env (.thisRef _ a) m => ∃ d ref c, a = .scoped d ∧ m.store.getAt env d "this" = .value (.obj ref c)
  | eval _ env (.assign name _ (.scoped d)) m =>
      ∃ a, m.store.ancestor env d = some a ∧ (m.store.Binds a name.lexeme ∨ d = 0)
  | eval _ env (.superGet _ _ a) m => ∃ d, a = .scoped (d + 1) ∧
      (∃ c, m.store.getAt env (d + 1) "super" = .value (.cls c)) ∧
      ∃ ref c, m.store.getAt env d "this" = .value (.obj ref c)
  | _ => True

/-- Every sited evaluation of a reference finds what the scope pass promised it. -/
theorem Sited.answers {c : Call} (sited : c.Sited) : c.Answers := by
  cases c with
  | eval n env e m =>
    obtain ⟨view, scopes, init, cls, e₀, rfl, site, formed, clean⟩ := sited
    cases e₀ with
    | ident name a =>
      simp only [Expr.addressed]
      rw [site.locate_ident clean]
      rcases found : Scope.locate name.lexeme view with _ | d
      · trivial
      · obtain ⟨v, read, -⟩ := site.covers.getAt found
        exact ⟨v, read⟩
    | thisRef kw a =>
      obtain ⟨-, d, located, found⟩ := site.locate_this formed clean
      obtain ⟨v, read, fits⟩ := site.covers.getAt found
      obtain ⟨ref, c, rfl⟩ := fits.1 rfl
      simp only [Expr.addressed]
      rw [located]
      exact ⟨d, ref, c, rfl, read⟩
    | assign name v a =>
      simp only [Expr.addressed]
      rcases found : Scope.locate name.lexeme scopes with _ | d
      · trivial
      · exact site.assigns found
    | superGet kw method a =>
      obtain ⟨-, d, located, super, this⟩ := site.locate_super formed clean
      obtain ⟨v, read, fits⟩ := site.covers.getAt super
      obtain ⟨sc, rfl⟩ := fits.2 rfl
      obtain ⟨w, read', fits'⟩ := site.covers.getAt this
      obtain ⟨ref, c, rfl⟩ := fits'.1 rfl
      simp only [Expr.addressed]
      rw [located]
      exact ⟨d, rfl, ⟨sc, read⟩, ref, c, read'⟩
    | literal | grouping | unary | binary | logical | call | get | set => trivial
  | evalArgs | callValue | callClosure | exec | execBlock | loop => trivial

end Call

/-! ### Who raises "Undefined variable" -/

/-- The stop a run ends with, if it ends with one. -/
def stopOf {α : Type} : Except Stop α → Option Stop
  | .error stop => some stop
  | .ok _ => none

namespace Call

/-- The stop a call ends with, if it ends with one. -/
def stop : Call → Option Stop
  | eval fuel env e m => stopOf ((Run.eval fuel env e).run.run m).1
  | evalArgs fuel env args m => stopOf ((Run.evalArgs fuel env args).run.run m).1
  | callValue fuel paren callee args m => stopOf ((Run.callValue fuel paren callee args).run.run m).1
  | callClosure fuel f args m => stopOf ((Run.callClosure fuel f args).run.run m).1
  | exec fuel env st m => stopOf ((Run.exec fuel env st).run.run m).1
  | execBlock fuel env ss m => stopOf ((Run.execBlock fuel env ss).run.run m).1
  | loop fuel env c body m => stopOf ((Run.loop fuel env c body).run.run m).1

/-- An evaluation of a reference the scope pass left to the globals: a read of a global variable or
an assignment to one. -/
def Global : Call → Prop
  | eval _ _ (.ident _ .global) _ => True
  | eval _ _ (.assign _ _ .global) _ => True
  | _ => False

/-- A stop that a call passes on from a call it made. -/
def Passes (c : Call) (s : Stop) : Prop := ∃ c', Calls c c' ∧ c'.stop = some s

end Call

@[simp] theorem run_fail {α : Type} (t : Token) (f : RuntimeFault) (m : Machine) :
    (fail t f : Run α).run.run m = (.error (.fault ⟨t, f⟩), m) := rfl

/-- A run that stops stops in its first part or, after that part finished, in the rest. -/
theorem stopOf_bind {α β : Type} {x : Run α} {f : α → Run β} {m : Machine} {s : Stop}
    (stopped : stopOf ((x >>= f).run.run m).1 = some s) :
    stopOf (x.run.run m).1 = some s ∨ ∃ a m', x.run.run m = (.ok a, m') ∧ stopOf ((f a).run.run m').1 = some s := by
  revert stopped
  rw [run_bind]
  rcases x.run.run m with ⟨_ | a, m'⟩
  · exact .inl
  · exact fun rest => .inr ⟨a, m', rfl, rest⟩

/-- Binding a method to an instance never stops. -/
theorem stopOf_bindMethod (method : Closure) (ref : Nat) (c : ClassDef) (m : Machine) :
    stopOf ((bindMethod method ref c).run.run m).1 = none := rfl

/-- A property read stops only on a property the instance and its class lack. -/
theorem getProperty_stop {name : Token} {ref : Nat} {c : ClassDef} {m : Machine} {err : RuntimeError}
    (stopped : stopOf ((getProperty name ref c).run.run m).1 = some (.fault err)) :
    err.fault = .undefinedProperty name.lexeme := by
  simp only [getProperty, run_bind, run_get] at stopped
  split at stopped
  · cases stopped
  · split at stopped
    · rcases stopOf_bind stopped with bound | ⟨f, m', -, rest⟩
      · rw [stopOf_bindMethod] at bound
        cases bound
      · cases rest
    · cases stopped
      rfl

section Passing

variable {n env : Nat} {m : Machine} {err : RuntimeError} {x : String}

/-- A sited evaluation that stops on "Undefined variable" passes the stop on from the evaluation of
a part, or is a global reference that found no binding: a reference resolved to a distance finds
its binding, and no other step of an evaluation looks a name up. -/
theorem eval_passes {e : Expr} (sited : (Call.eval (n + 1) env e m).Sited)
    (stopped : (Call.eval (n + 1) env e m).stop = some (.fault err)) (undefined : err.fault = .undefinedVariable x) :
    (Call.eval (n + 1) env e m).Passes (.fault err) ∨ (Call.eval (n + 1) env e m).Global := by
  obtain ⟨view, scopes, init, cls, e₀, rfl, site, formed, clean⟩ := sited
  unfold Call.stop at stopped
  cases e₀ with
  | literal v =>
    simp only [Expr.addressed] at stopped
    rw [eval] at stopped
    cases stopped
  | grouping inner =>
    simp only [Expr.addressed] at stopped ⊢
    rw [eval] at stopped
    exact .inl ⟨_, .grouping, stopped⟩
  | unary op r =>
    simp only [Expr.addressed] at stopped ⊢
    rw [eval] at stopped
    rcases stopOf_bind stopped with here | ⟨v, m₁, -, rest⟩
    · exact .inl ⟨_, .operand, here⟩
    -- the operator itself fails only on its operand's kind
    exfalso
    split at rest
    · split at rest
      · cases rest
      · cases rest
        cases undefined
    · cases rest
    · cases rest
      cases undefined
  | binary l op r =>
    simp only [Expr.addressed] at stopped ⊢
    rw [eval] at stopped
    rcases stopOf_bind stopped with here | ⟨a, m₁, ran, rest⟩
    · exact .inl ⟨_, .left, here⟩
    rcases stopOf_bind rest with here | ⟨b, m₂, -, rest⟩
    · exact .inl ⟨_, .right ran, here⟩
    exfalso
    split at rest
    · cases rest
    · next failure failed =>
      cases rest
      rcases (binaryOp_error failed).2 with same | same | ⟨_, _, same⟩ | ⟨_, _, same⟩ <;>
        rw [same] at undefined <;> cases undefined
  | logical l op r =>
    simp only [Expr.addressed] at stopped ⊢
    rw [eval] at stopped
    rcases stopOf_bind stopped with here | ⟨a, m₁, ran, rest⟩
    · exact .inl ⟨_, .logicalLeft, here⟩
    -- the right operand runs only when the left one does not decide
    split at rest
    · next orKw =>
      dsimp only at rest
      split at rest
      · cases rest
      · next falsy => exact .inl ⟨_, .logicalRight ran (.inl ⟨orKw, by simpa using falsy⟩), rest⟩
    · next _ other =>
      dsimp only at rest
      split at rest
      · cases rest
      · next truthy => exact .inl ⟨_, .logicalRight ran (.inr ⟨other, by simpa using truthy⟩), rest⟩
  | ident name a =>
    simp only [Expr.addressed] at stopped ⊢
    rw [site.locate_ident clean] at stopped ⊢
    rcases found : Scope.locate name.lexeme view with _ | d
    · exact .inr trivial
    · exfalso
      rw [found, eval] at stopped
      obtain ⟨v, ran, -, -⟩ := lookUp_scoped site.sound site.covers found
      rw [ran] at stopped
      cases stopped
  | assign name v a =>
    simp only [Expr.addressed] at stopped ⊢
    rw [eval] at stopped
    rcases stopOf_bind stopped with here | ⟨value, m₁, ran, rest⟩
    · exact .inl ⟨_, .assigned, here⟩
    rcases found : Scope.locate name.lexeme scopes with _ | d
    · exact .inr trivial
    · exfalso
      -- the assignment's frame is reached from the frame, as before its value was computed
      obtain ⟨a, up⟩ := (site.after formed.2 clean ran).reaches name.lexeme d found
      rw [found] at rest
      simp only [assignTo, run_bind, run_get, up, run_define, run_pure] at rest
      cases rest
  | call f paren args =>
    simp only [Expr.addressed] at stopped ⊢
    rw [eval] at stopped
    rcases stopOf_bind stopped with here | ⟨callee, m₁, ran, rest⟩
    · exact .inl ⟨_, .callee, here⟩
    rcases stopOf_bind rest with here | ⟨argv, m₂, ranArgs, rest⟩
    · exact .inl ⟨_, .arguments ran, here⟩
    exact .inl ⟨_, .apply ran ranArgs, rest⟩
  | get o name =>
    simp only [Expr.addressed] at stopped ⊢
    rw [eval] at stopped
    rcases stopOf_bind stopped with here | ⟨obj, m₁, -, rest⟩
    · exact .inl ⟨_, .object, here⟩
    exfalso
    cases obj with
    | obj ref c =>
      rw [getProperty_stop rest] at undefined
      cases undefined
    | _ =>
      cases rest
      cases undefined
  | set o name v =>
    simp only [Expr.addressed] at stopped ⊢
    rw [eval] at stopped
    rcases stopOf_bind stopped with here | ⟨obj, m₁, ran, rest⟩
    · exact .inl ⟨_, .target, here⟩
    cases obj with
    | obj ref c =>
      rcases stopOf_bind rest with here | ⟨value, m₂, -, rest⟩
      · exact .inl ⟨_, .stored ran, here⟩
      · cases rest
    | _ =>
      exfalso
      cases rest
      cases undefined
  | thisRef kw a =>
    exfalso
    obtain ⟨named, d, located, found⟩ := site.locate_this formed clean
    simp only [Expr.addressed] at stopped
    rw [located, eval] at stopped
    obtain ⟨v, ran, -, -⟩ := lookUp_scoped site.sound site.covers (named ▸ found)
    rw [ran] at stopped
    cases stopped
  | superGet kw method a =>
    exfalso
    obtain ⟨named, d, located, super, this⟩ := site.locate_super formed clean
    have found : Scope.locate kw.lexeme view = .scoped (d + 1) := by rw [named, super]
    simp only [Expr.addressed] at stopped
    rw [located, eval] at stopped
    obtain ⟨v, ran, -, fits⟩ := lookUp_scoped site.sound site.covers found
    obtain ⟨sc, rfl⟩ := fits.2 named
    have thisFound : Scope.locate (Token.lexeme ⟨.identifier, "this", kw.line⟩) view = .scoped d := this
    obtain ⟨w, ran', -, fits'⟩ := lookUp_scoped site.sound site.covers thisFound
    obtain ⟨ref, c, rfl⟩ := fits'.1 rfl
    rw [run_bind, ran] at stopped
    simp only at stopped
    rw [run_bind, ran'] at stopped
    simp only at stopped
    split at stopped
    · rcases stopOf_bind stopped with bound | ⟨f, m', -, rest⟩
      · rw [stopOf_bindMethod] at bound
        cases bound
      · cases rest
    · cases stopped
      cases undefined

/-- Arguments stop only where the evaluation of one of them stops. -/
theorem evalArgs_passes {args : List Expr} {s : Stop} (stopped : (Call.evalArgs (n + 1) env args m).stop = some s) :
    (Call.evalArgs (n + 1) env args m).Passes s := by
  rw [Call.stop] at stopped
  cases args with
  | nil =>
    rw [evalArgs] at stopped
    cases stopped
  | cons a rest =>
    rw [evalArgs] at stopped
    rcases stopOf_bind stopped with here | ⟨v, m₁, ran, rest⟩
    · exact ⟨_, .head, here⟩
    rcases stopOf_bind rest with here | ⟨vs, m₂, -, last⟩
    · exact ⟨_, .tail ran, here⟩
    · cases last

/-- The argument count check stops only on a count that differs from the arity. -/
theorem stopOf_checked {β : Type} {paren : Token} {args : List Value} {arity : Nat} {x : Run β} {s : Stop}
    (stopped : stopOf (((if (args.length != arity) = true then fail paren (.arityMismatch arity args.length)
      else Pure.pure ()) >>= fun _ => x).run.run m).1 = some s) :
    s = .fault ⟨paren, .arityMismatch arity args.length⟩ ∨ (args.length = arity ∧ stopOf (x.run.run m).1 = some s) := by
  by_cases same : args.length = arity
  · rw [if_neg (by simp [same])] at stopped
    exact .inr ⟨same, stopped⟩
  · rw [if_pos (by simp [same])] at stopped
    injection stopped with found
    exact .inl found.symm

/-- A call stops on "Undefined variable" only where the function it runs stops so: a class's
instance and bound initializer are made without a lookup. -/
theorem callValue_passes {paren : Token} {callee : Value} {args : List Value}
    (stopped : (Call.callValue (n + 1) paren callee args m).stop = some (.fault err))
    (undefined : err.fault = .undefinedVariable x) : (Call.callValue (n + 1) paren callee args m).Passes (.fault err) := by
  rw [Call.stop] at stopped
  cases callee with
  | fn f =>
    rw [callValue] at stopped
    rcases stopOf_checked stopped with mismatch | ⟨arity, rest⟩
    · cases mismatch
      cases undefined
    · exact ⟨_, .function arity, rest⟩
  | native native =>
    cases native
    rw [callValue] at stopped
    rcases stopOf_checked stopped with mismatch | ⟨-, rest⟩
    · cases mismatch
      cases undefined
    · cases rest
  | cls c =>
    rw [callValue] at stopped
    rcases stopOf_checked stopped with mismatch | ⟨arity, rest⟩
    · cases mismatch
      cases undefined
    rw [run_bind, run_newObject] at rest
    cases found : c.findMethod "init" with
    | none =>
      simp only [found, run_pure] at rest
      cases rest
    | some init =>
      simp only [found] at rest
      rcases stopOf_bind rest with here | ⟨bound, m₂, binds, rest⟩
      · rw [stopOf_bindMethod] at here
        cases here
      rcases stopOf_bind rest with here | ⟨-, m₃, -, last⟩
      · exact ⟨_, .initializer arity found binds, here⟩
      · cases last
  | _ =>
    rw [callValue] at stopped
    · cases stopped
      cases undefined
    all_goals (intro _ differs; cases differs)

/-- A function call stops only where its body stops: an initializer's own frame binds `this`, in
the store the body leaves too, so reading it back cannot stop. -/
theorem callClosure_passes {f : Closure} {args : List Value} {s : Stop}
    (sited : (Call.callClosure (n + 1) f args m).Sited) (stopped : (Call.callClosure (n + 1) f args m).stop = some s) :
    (Call.callClosure (n + 1) f args m).Passes s := by
  obtain ⟨sound, callable, argsSound, arity⟩ := sited
  rw [Call.stop, callClosure, run_bind, run_alloc] at stopped
  dsimp only at stopped
  rw [run_bind, run_forIn_define _ (fun p m => rfl)] at stopped
  rcases stopOf_bind stopped with here | ⟨flow, m₃, ran, rest⟩
  · exact ⟨_, .body, here⟩
  exfalso
  obtain ⟨ctx, body, same, formed, clean, grows₂, site⟩ := Closure.Callable.body sound callable argsSound arity
  rw [same] at ran
  obtain ⟨grows₃, sound₃, -⟩ := ((agreeing n).execBlock body site formed clean).ok ran
  split at rest
  · next initFlag =>
    obtain ⟨outer, kind, decl, -, -, -, -, covers, isInit⟩ := callable
    have found : Scope.locate (Token.lexeme ⟨.identifier, "this", f.decl.name.line⟩) outer.scopes = .scoped 0 :=
      isInit initFlag
    obtain ⟨v, read, -, -⟩ := lookUp_scoped sound₃ (covers.grow (grows₂.trans grows₃)) found
    rw [read] at rest
    cases rest
  · split at rest <;> cases rest

/-- A sited statement stops on "Undefined variable" only where a part it runs stops so: a class
declaration binds its name in the current frame, an existing one, before it looks the name up to
store the class. -/
theorem exec_passes {st : Stmt} (sited : (Call.exec (n + 1) env st m).Sited)
    (stopped : (Call.exec (n + 1) env st m).stop = some (.fault err)) (undefined : err.fault = .undefinedVariable x) :
    (Call.exec (n + 1) env st m).Passes (.fault err) := by
  obtain ⟨ctx, st₀, rfl, site, formed, clean⟩ := sited
  rw [Call.stop] at stopped
  cases st₀ with
  | expression e =>
    simp only [Stmt.addressed] at stopped ⊢
    rw [exec] at stopped
    rcases stopOf_bind stopped with here | ⟨v, m₁, -, rest⟩
    · exact ⟨_, .expression, here⟩
    · cases rest
  | print e =>
    simp only [Stmt.addressed] at stopped ⊢
    rw [exec] at stopped
    rcases stopOf_bind stopped with here | ⟨v, m₁, -, rest⟩
    · exact ⟨_, .print, here⟩
    · cases rest
  | varDecl name init =>
    simp only [Stmt.addressed] at stopped ⊢
    cases init with
    | none =>
      rw [Option.map_none, exec] at stopped
      cases stopped
    | some e =>
      rw [Option.map_some, exec] at stopped
      rcases stopOf_bind stopped with here | ⟨v, m₁, -, rest⟩
      · exact ⟨_, .initial, here⟩
      · cases rest
  | block body =>
    simp only [Stmt.addressed] at stopped ⊢
    rw [exec, run_bind, run_alloc] at stopped
    exact ⟨_, .block, stopped⟩
  | ifElse c t e =>
    -- the rule's equations are split on whether there is an else branch
    cases e <;> simp only [Stmt.addressed, Stmt.addressedOpt] at stopped ⊢ <;> rw [exec] at stopped <;>
      rcases stopOf_bind stopped with here | ⟨v, m₁, ran, rest⟩
    all_goals first
      | exact ⟨_, .condition, here⟩
      | split at rest
        · next truthy => exact ⟨_, .thenBranch ran truthy, rest⟩
        · next falsy =>
          first
            | cases rest
            | exact ⟨_, .elseBranch ran (by simpa using falsy), rest⟩
  | whileLoop c body =>
    simp only [Stmt.addressed] at stopped ⊢
    rw [exec] at stopped
    exact ⟨_, .whileLoop, stopped⟩
  | function decl =>
    simp only [Stmt.addressed] at stopped
    rw [exec] at stopped
    cases stopped
  | returnStmt kw value =>
    simp only [Stmt.addressed] at stopped ⊢
    cases value with
    | none =>
      rw [Option.map_none, exec] at stopped
      cases stopped
    | some e =>
      rw [Option.map_some, exec] at stopped
      rcases stopOf_bind stopped with here | ⟨v, m₁, -, rest⟩
      · exact ⟨_, .returned, here⟩
      · cases rest
  | classDecl name sup methods =>
    cases sup with
    | none =>
      exfalso
      simp only [Stmt.addressed, Option.map_none] at stopped
      rw [exec] at stopped
      simp only [run_bind, run_pure, run_define, run_fresh, run_get, run_tabulate,
        Store.owner_define_self site.frame] at stopped
      cases stopped
    | some e =>
      simp only [Stmt.addressed, Option.map_some] at stopped ⊢
      rw [exec] at stopped
      rcases stopOf_bind stopped with here | ⟨sc, m₂, ran, rest⟩
      · exact ⟨_, .superclass, here⟩
      exfalso
      obtain ⟨ordinary, superIdent, -⟩ := formed
      obtain ⟨superName, superAddr, rfl⟩ := superIdent e rfl
      obtain ⟨inner, identClean⟩ := site.superclass ordinary clean
      obtain ⟨grows, -, -⟩ := ((agreeing n).eval (.ident superName superAddr) inner trivial identClean).ok ran
      have valid : env < m₂.store.frames.size := Nat.lt_of_lt_of_le site.frame grows.size
      -- the superclass must be a class; after it, nothing looks a name up that is not bound
      rcases stopOf_bind rest with here | ⟨c₀, m₃, ranSuper, rest⟩
      · unfold superclassOf at here
        split at here
        · cases here
        · cases here
          cases undefined
      unfold superclassOf at ranSuper
      split at ranSuper
      · cases ranSuper
        simp only [run_bind, run_pure, run_define, run_alloc, run_fresh, run_get, run_tabulate] at rest
        simp only [Store.define_frames_size, Store.owner_super_self valid, run_bind, run_define, run_pure] at rest
        cases rest
      · cases ranSuper

/-- Statements in turn stop only where one of them stops. -/
theorem execBlock_passes {ss : List Stmt} {s : Stop} (stopped : (Call.execBlock (n + 1) env ss m).stop = some s) :
    (Call.execBlock (n + 1) env ss m).Passes s := by
  rw [Call.stop] at stopped
  cases ss with
  | nil =>
    rw [execBlock] at stopped
    cases stopped
  | cons st rest =>
    rw [execBlock] at stopped
    rcases stopOf_bind stopped with here | ⟨flow, m₁, ran, rest⟩
    · exact ⟨_, .first, here⟩
    cases flow with
    | normal => exact ⟨_, .next ran, rest⟩
    | returned v => cases rest

/-- A loop stops only where its condition or its body stops. -/
theorem loop_passes {c : Expr} {body : Stmt} {s : Stop} (stopped : (Call.loop (n + 1) env c body m).stop = some s) :
    (Call.loop (n + 1) env c body m).Passes s := by
  rw [Call.stop, loop] at stopped
  rcases stopOf_bind stopped with here | ⟨v, m₁, ran, rest⟩
  · exact ⟨_, .test, here⟩
  split at rest
  · next truthy =>
    rcases stopOf_bind rest with here | ⟨flow, m₂, ranBody, rest⟩
    · exact ⟨_, .iteration ran truthy, here⟩
    cases flow with
    | normal => exact ⟨_, .again ran truthy ranBody, rest⟩
    | returned v => cases rest
  · cases rest

end Passing

/-- The fuel a call runs on. -/
def Call.fuel : Call → Nat
  | .eval fuel .. | .evalArgs fuel .. | .callValue fuel .. | .callClosure fuel .. | .exec fuel .. | .execBlock fuel ..
  | .loop fuel .. => fuel

/-- Each call runs on less fuel than the call that makes it. -/
theorem Calls.fuel_lt {c c' : Call} (step : Calls c c') : c'.fuel < c.fuel := by
  cases step <;> simp [Call.fuel]

/-- With no fuel every rule stops at once, on exhaustion. -/
theorem Call.stop_fuel_zero {c : Call} (empty : c.fuel = 0) : c.stop = some .exhausted := by
  cases c <;> simp only [Call.fuel] at empty <;> subst empty <;> rw [Call.stop]
  case eval => rw [Run.eval]; rfl
  case evalArgs => rw [Run.evalArgs]; rfl
  case callValue => rw [Run.callValue]; rfl
  case callClosure => rw [Run.callClosure]; rfl
  case exec => rw [Run.exec]; rfl
  case execBlock => rw [Run.execBlock]; rfl
  case loop => rw [Run.loop]; rfl

/-- A sited call that stops on "Undefined variable" passes the stop on from a call it makes, or is
the evaluation of a global reference. -/
theorem Call.Sited.passes {c : Call} {err : RuntimeError} {x : String} (sited : c.Sited)
    (stopped : c.stop = some (.fault err)) (undefined : err.fault = .undefinedVariable x) :
    c.Passes (.fault err) ∨ c.Global := by
  -- with no fuel every rule stops on exhaustion, which is no fault
  obtain ⟨n, fuel⟩ : ∃ n, c.fuel = n + 1 := by
    cases empty : c.fuel with
    | zero =>
      rw [Call.stop_fuel_zero empty] at stopped
      cases stopped
    | succ n => exact ⟨n, rfl⟩
  cases c <;> simp only [Call.fuel] at fuel <;> subst fuel
  case eval => exact eval_passes sited stopped undefined
  case evalArgs => exact .inl (evalArgs_passes stopped)
  case callValue => exact .inl (callValue_passes stopped undefined)
  case callClosure => exact .inl (callClosure_passes sited stopped)
  case exec => exact .inl (exec_passes sited stopped undefined)
  case execBlock => exact .inl (execBlock_passes stopped)
  case loop => exact .inl (loop_passes stopped)

/-- Every "Undefined variable" a sited call stops on is met at a global reference the call reaches,
which stops on it. -/
theorem Call.Sited.undefined_at_global {c : Call} {err : RuntimeError} {x : String} (sited : c.Sited)
    (stopped : c.stop = some (.fault err)) (undefined : err.fault = .undefinedVariable x) :
    ∃ g, Relation.ReflTransGen Calls c g ∧ g.Global ∧ g.stop = some (.fault err) := by
  -- the stop passes from call to call, each on less fuel, until a global reference raises it
  obtain ⟨k, fuel⟩ : ∃ k, c.fuel = k := ⟨_, rfl⟩
  induction k using Nat.strongRecOn generalizing c with
  | ind k ih =>
    rcases sited.passes stopped undefined with ⟨c', step, stopped'⟩ | global
    · obtain ⟨g, reached, global, raised⟩ := ih c'.fuel (fuel ▸ step.fuel_lt) (step.sited sited) stopped' rfl
      exact ⟨g, Relation.ReflTransGen.head step reached, global, raised⟩
    · exact ⟨c, .refl, global, stopped⟩

/-! ### Which faults a sited call stops on -/

/-- A run that keeps the agreement and stops, stops as the agreement allows. -/
theorem Safe.stopped {α : Type} {x : Run α} {m : Machine} {P : α → Machine → Prop} {s : Stop} (safe : Safe x m P)
    (stopped : stopOf (x.run.run m).1 = some s) : s.Agrees (x.run.run m).2.store := by
  unfold Safe at safe
  generalize x.run.run m = out at safe stopped ⊢
  obtain ⟨r, m'⟩ := out
  cases r with
  | error stop =>
    cases stopped
    exact safe.2.2
  | ok a => cases stopped

/-- A sited call stops only as the agreement allows, in the store it leaves. -/
theorem Call.Sited.agrees {c : Call} {s : Stop} (sited : c.Sited) (stopped : c.stop = some s) :
    ∃ store : Store, s.Agrees store := by
  cases c with
  | eval fuel env e m =>
    obtain ⟨view, scopes, init, cls, e₀, rfl, site, formed, clean⟩ := sited
    exact ⟨_, ((agreeing fuel).eval e₀ site formed clean).stopped stopped⟩
  | evalArgs fuel env args m =>
    obtain ⟨view, scopes, init, cls, args₀, rfl, site, formed, clean⟩ := sited
    exact ⟨_, ((agreeing fuel).evalArgs args₀ site formed clean).stopped stopped⟩
  | callValue fuel paren callee args m =>
    obtain ⟨sound, valued, argsSound⟩ := sited
    exact ⟨_, ((agreeing fuel).callValue sound valued argsSound).stopped stopped⟩
  | callClosure fuel f args m =>
    obtain ⟨sound, callable, argsSound, arity⟩ := sited
    exact ⟨_, ((agreeing fuel).callClosure sound callable argsSound arity).stopped stopped⟩
  | exec fuel env st m =>
    obtain ⟨ctx, st₀, rfl, site, formed, clean⟩ := sited
    exact ⟨_, ((agreeing fuel).exec st₀ site formed clean).stopped stopped⟩
  | execBlock fuel env ss m =>
    obtain ⟨ctx, ss₀, rfl, site, formed, clean⟩ := sited
    exact ⟨_, ((agreeing fuel).execBlock ss₀ site formed clean).stopped stopped⟩
  | loop fuel env c body m =>
    obtain ⟨ctx, c₀, body₀, rfl, rfl, site, formedC, formedB, plainB, faultsC, faultsB⟩ := sited
    exact ⟨_, ((agreeing fuel).loop c₀ body₀ site formedC formedB plainB faultsC faultsB).stopped stopped⟩

/-- What the scope pass promises a call about the faults it stops on: none of a misplaced
reference, and "Undefined variable" only where a global reference it reaches stops so. -/
def Call.Placed (c : Call) : Prop :=
  ∀ err, c.stop = some (.fault err) → ¬ err.fault.Misplaced ∧
    ∀ x, err.fault = .undefinedVariable x → ∃ g, Relation.ReflTransGen Calls c g ∧ g.Global ∧ g.stop = some (.fault err)

/-- Every sited call stops only on the faults the scope pass leaves possible. -/
theorem Call.Sited.placed {c : Call} (sited : c.Sited) : c.Placed := by
  intro err stopped
  obtain ⟨store, agrees⟩ := sited.agrees stopped
  exact ⟨RuntimeFault.Agrees.placed agrees, fun _ undefined => sited.undefined_at_global stopped undefined⟩

/-! ### The calls of a unit -/

/-- The calls a unit's run makes at the top level, from the machine it starts from: each statement
in turn runs in the globals frame, a top-level expression evaluated when the run echoes, until one
does not finish normally. -/
inductive TopCall (fuel : Nat) (echo : Bool) : List Stmt → Machine → Call → Prop
  | evaluates {e : Expr} {rest : List Stmt} {m : Machine} (echoes : echo = true) :
      TopCall fuel echo (.expression e :: rest) m (.eval fuel Store.globals e m)
  | executes {st : Stmt} {rest : List Stmt} {m : Machine} (plain : ∀ e, st = .expression e → echo = false) :
      TopCall fuel echo (st :: rest) m (.exec fuel Store.globals st m)
  | echoed {e : Expr} {rest : List Stmt} {m m' : Machine} {v : Value} {c : Call} (echoes : echo = true)
      (ran : (eval fuel Store.globals e).run.run m = (.ok v, m'))
      (later : TopCall fuel echo rest { m' with output := m'.output ++ v.display ++ "\n" } c) :
      TopCall fuel echo (.expression e :: rest) m c
  | executed {st : Stmt} {rest : List Stmt} {m m' : Machine} {c : Call} (plain : ∀ e, st = .expression e → echo = false)
      (ran : (exec fuel Store.globals st).run.run m = (.ok .normal, m')) (later : TopCall fuel echo rest m' c) :
      TopCall fuel echo (st :: rest) m c

/-- An expression statement that finishes finishes normally. -/
theorem exec_expression_normal {fuel env : Nat} {e : Expr} {m m' : Machine} {flow : Flow}
    (ran : (exec fuel env (.expression e)).run.run m = (.ok flow, m')) : flow = .normal := by
  cases fuel with
  | zero =>
    rw [exec] at ran
    cases ran
  | succ n =>
    rw [exec, run_bind] at ran
    split at ran
    · cases ran
      rfl
    · cases ran

/-- A unit's run stops only where one of its top-level calls stops. -/
theorem TopCall.of_stop (fuel : Nat) (echo : Bool) : ∀ (stmts : List Stmt) (m : Machine) {s : Stop},
    stopOf ((interpret fuel echo stmts).run.run m).1 = some s → ∃ c, TopCall fuel echo stmts m c ∧ c.stop = some s
  | [], m, s, stopped => by
    rw [interpret] at stopped
    cases stopped
  | st :: rest, m, s, stopped => by
    cases st with
    | expression e =>
      rw [interpret] at stopped
      split at stopped
      · next echoes =>
        rcases stopOf_bind stopped with here | ⟨v, m₁, ran, later⟩
        · exact ⟨_, .evaluates echoes, here⟩
        rw [run_bind, run_write] at later
        obtain ⟨c, call, stopped'⟩ := TopCall.of_stop fuel echo rest _ later
        exact ⟨c, .echoed echoes ran call, stopped'⟩
      · next quiet =>
        have plain : ∀ e', Stmt.expression e = .expression e' → echo = false := fun _ _ => by simpa using quiet
        rcases stopOf_bind stopped with here | ⟨flow, m₁, ran, later⟩
        · exact ⟨_, .executes plain, here⟩
        obtain rfl := exec_expression_normal ran
        obtain ⟨c, call, stopped'⟩ := TopCall.of_stop fuel echo rest _ later
        exact ⟨c, .executed plain ran call, stopped'⟩
    | _ =>
      rw [interpret] at stopped
      · rcases stopOf_bind stopped with here | ⟨flow, m₁, ran, later⟩
        · exact ⟨_, .executes (fun _ same => by cases same), here⟩
        cases flow with
        | normal =>
          obtain ⟨c, call, stopped'⟩ := TopCall.of_stop fuel echo rest _ later
          exact ⟨c, .executed (fun _ same => by cases same) ran call, stopped'⟩
        | returned v => cases later
      · intro _ same
        cases same

/-- A unit's statements run in the globals frame of a sound store, which covers the empty list of
scopes they were resolved in: so every top-level call of a unit that passes the scope rules is
sited. -/
theorem TopCall.sited {fuel : Nat} {echo : Bool} {r : List Stmt} {m : Machine} {c : Call}
    (top : TopCall fuel echo r m c) : ∀ {stmts : List Stmt}, r = Stmt.addressedAll [] stmts → m.store.Sound →
      Stmt.FormedAll stmts → Stmt.scopeFaultsAll Scope.Context.top stmts = [] → c.Sited := by
  -- induction on the statements run before the call; each leaves a sound store
  induction top with
  | evaluates echoes =>
    intro stmts same sound formed clean
    obtain ⟨st₀, rest₀, rfl, first, -⟩ := Stmt.addressedAll_top_eq_cons same
    cases st₀ <;> simp only [Stmt.addressed, reduceCtorEq, Stmt.expression.injEq] at first
    subst first
    exact ⟨[], [], none, .none, _, rfl, exprSite_top _ sound, formed.1, (Stmt.scopeFaultsAll_top_cons clean).1⟩
  | executes plain =>
    intro stmts same sound formed clean
    obtain ⟨st₀, rest₀, rfl, rfl, -⟩ := Stmt.addressedAll_top_eq_cons same
    exact ⟨Scope.Context.top, st₀, rfl, (StmtSite.top sound), formed.1,
      (Stmt.scopeFaultsAll_top_cons clean).1⟩
  | echoed echoes ran later ih =>
    intro stmts same sound formed clean
    obtain ⟨st₀, rest₀, rfl, first, rfl⟩ := Stmt.addressedAll_top_eq_cons same
    obtain ⟨firstClean, restClean⟩ := Stmt.scopeFaultsAll_top_cons clean
    cases st₀ <;> simp only [Stmt.addressed, reduceCtorEq, Stmt.expression.injEq] at first
    subst first
    obtain ⟨-, sound₁, -⟩ := ((agreeing fuel).eval _ (exprSite_top _ sound) formed.1 firstClean).ok ran
    exact ih rfl sound₁ formed.2 restClean
  | executed plain ran later ih =>
    intro stmts same sound formed clean
    obtain ⟨st₀, rest₀, rfl, rfl, rfl⟩ := Stmt.addressedAll_top_eq_cons same
    obtain ⟨firstClean, restClean⟩ := Stmt.scopeFaultsAll_top_cons clean
    obtain ⟨-, sound₁, -⟩ :=
      ((agreeing fuel).exec st₀ (StmtSite.top sound) formed.1 firstClean).ok ran
    exact ih rfl sound₁ formed.2 restClean

end Run

namespace Session

/-- Units run in turn in a session with a sound store leave it sound. -/
theorem foldl_run_sound (units : List String) : ∀ (s : Session), s.machine.store.Sound →
    (units.foldl (fun s unit => (Session.run s unit).1) s).machine.store.Sound := by
  induction units with
  | nil => exact fun _ sound => sound
  | cons unit units ih => exact fun s sound => ih _ (s.run_steady unit sound).2.1

end Session

/-- Scope pass and interpreter agree at every step of every unit a session runs. In a session
started fresh, after any units at all, a unit that scans, parses and resolves runs its resolved
statements from the session's machine in the globals frame. Every call that run reaches finds each
reference where the scope pass promised it: a variable or `this` an assigned value at its distance,
an assignment the frame declaring its name, `super` a class with `this` an instance one frame
nearer. No call stops on the fault of a misplaced reference, and one that stops on "Undefined
variable" reaches a global reference that raises it. Every runtime error the unit reports is the
stop of one of its top-level calls. -/
theorem session_references_follow_scopes (echo : Bool) (clock : Float) (fuel : Nat) (earlier : List String) (source : String)
    {stmts r : List Stmt} (read : Stmt.ofSource source = .ok stmts) (resolved : Stmt.resolveScopes stmts = .ok r) :
    let s := earlier.foldl (fun s unit => (s.run unit).1) (⟨{ Machine.new with clock := clock }, echo, fuel⟩ : Session)
    let m := { s.machine with output := "" }
    (s.run source).1.machine = ((Run.interpret s.fuel s.echo r).run.run m).2 ∧
      (∀ d ∈ (s.run source).2.errors, ∃ c stop, Run.TopCall s.fuel s.echo r m c ∧ c.stop = some stop ∧
        d = Diagnostic.ofStop stop) ∧
      ∀ c c', Run.TopCall s.fuel s.echo r m c → Relation.ReflTransGen Run.Calls c c' → c'.Answers ∧ c'.Placed := by
  intro s m
  obtain ⟨clean, rfl⟩ := Stmt.resolveScopes_ok resolved
  have top : s.machine.env = Store.globals := Session.foldl_run_env earlier _ rfl
  have sound : s.machine.store.Sound := Session.foldl_run_sound earlier _ Machine.sound_new
  rw [s.run_checked read clean top]
  refine ⟨rfl, ?_, ?_⟩
  · -- a reported runtime error is the stop the run ended with
    intro d reported
    dsimp only at reported
    split at reported
    · cases reported
    · next stop result =>
      obtain ⟨c, call, stopped⟩ := Run.TopCall.of_stop s.fuel s.echo _ m (by rw [result]; rfl)
      exact ⟨c, stop, call, stopped, List.mem_singleton.1 reported⟩
  · intro c c' call reached
    have sited := (call.sited rfl sound (Stmt.ofSource_formed read) clean).reaches reached
    exact ⟨sited.answers, sited.placed⟩

/-- A subclass method that calls its superclass's through `super`, after a unit that declared the
superclass, is one such unit. -/
theorem session_references_follow_scopes_super :
    let source := "class B < A { get() { var y = super.get(); { y = y + 1; } return y; } } print B().get();"
    let s := ["class A { init() { this.x = 1; } get() { return this.x; } }"].foldl (fun s unit => (s.run unit).1)
      (⟨{ Machine.new with clock := 0 }, false, Session.defaultFuel⟩ : Session)
    let m := { s.machine with output := "" }
    ∃ stmts r, Stmt.ofSource source = .ok stmts ∧ Stmt.resolveScopes stmts = .ok r ∧
      (s.run source).1.machine = ((Run.interpret s.fuel s.echo r).run.run m).2 ∧
      (∀ d ∈ (s.run source).2.errors, ∃ c stop, Run.TopCall s.fuel s.echo r m c ∧ c.stop = some stop ∧
        d = Diagnostic.ofStop stop) ∧
      ∀ c c', Run.TopCall s.fuel s.echo r m c → Relation.ReflTransGen Run.Calls c c' → c'.Answers ∧ c'.Placed := by
  intro source s m
  have checked : Session.Checked source := by decide +kernel
  obtain ⟨stmts, read, clean⟩ := checked
  have resolved := Stmt.resolveScopes_of_clean clean
  exact ⟨stmts, _, read, resolved,
    session_references_follow_scopes false 0 Session.defaultFuel _ source read resolved⟩

end Lox
