import Lox.Proofs.KeywordFrames
import Lox.Proofs.SessionFailures
/-!
Method dispatch and `super` dispatch. Reading a property of an instance finds a field the instance
has, or else the method its class finds, bound to the instance in a new frame that binds `this` to
it (`Run.getProperty_dispatches`). A class declaration tabulates its body's methods, the latest
definition of a name first, over one frame that binds `super` to its superclass
(`Run.exec_classDecl_tabulates`); so the method a class built by declarations finds is the last
definition of the name in the nearest body up the chain that defines it
(`ClassDef.Built.findMethod`). Since the bindings of `this` and `super` never change
(`Lox.Proofs.KeywordFrames`), a bound method keeps its receiver through every later run, and
`super` in a method of a class reads that class's superclass, never the receiver's class
(`Run.bound_this`, `Run.bound_super`).
-/
namespace Lox

/-! ### Method tables -/

/-- The last method of a class body with a given name. -/
def FunDecl.lastNamed (name : String) (methods : List FunDecl) : Option FunDecl :=
  (methods.filter fun d => d.name.lexeme == name).getLast?

theorem FunDecl.lastNamed_cons (name : String) (d : FunDecl) (ds : List FunDecl) :
    FunDecl.lastNamed name (d :: ds) =
      (FunDecl.lastNamed name ds).or (if d.name.lexeme = name then some d else none) := by
  by_cases named : d.name.lexeme = name
  · have split : d :: ds.filter (fun d => d.name.lexeme == name) = [d] ++ ds.filter (fun d => d.name.lexeme == name) := rfl
    simp only [FunDecl.lastNamed,List.filter_cons,named,beq_self_eq_true,if_true,split,List.getLast?_append]
    rfl
  · simp [FunDecl.lastNamed,named]

/-- A class's table finds, under a name, the last method of the body with that name, and only
without one what the table held before. -/
theorem methodTable_lookup (menv : Nat) (name : String) : ∀ (methods : List FunDecl) (t : List (String × Closure))
    (first : Nat), ((Run.methodTable menv methods t first).lookup name).map Closure.decl =
      (FunDecl.lastNamed name methods).or ((t.lookup name).map Closure.decl)
  | [], t, _ => by simp [Run.methodTable,FunDecl.lastNamed]
  | d :: ds, t, first => by
    rw [Run.methodTable,methodTable_lookup menv name ds,FunDecl.lastNamed_cons,Option.or_assoc]
    congr 1
    by_cases named : d.name.lexeme = name
    · simp [named]
    · have differs : (name == d.name.lexeme) = false := by simpa using Ne.symm named
      simp [List.lookup_cons,named,differs]

/-- Every method of a table built over `menv` closes over `menv`. -/
theorem methodTable_env {menv : Nat} : ∀ (methods : List FunDecl) (t : List (String × Closure)) (first : Nat),
    ∀ p ∈ Run.methodTable menv methods t first, p ∈ t ∨ p.2.env = menv
  | [], _, _, p, mem => .inl mem
  | d :: ds, t, first, p, mem => by
    rcases methodTable_env ds _ (first + 1) p mem with old | own
    · rcases List.mem_cons.1 old with rfl | kept
      · exact .inr rfl
      · exact .inl kept
    · exact .inr own

/-! ### Classes as declarations build them -/

namespace ClassDef

/-- The superclass of a class. -/
def superclass : ClassDef → Option ClassDef
  | .mk _ _ sup _ => sup

/-- A class's method table. -/
def methods : ClassDef → List (String × Closure)
  | .mk _ _ _ methods => methods

theorem findMethod_eq (c : ClassDef) (name : String) :
    c.findMethod name = (c.methods.lookup name).or (c.superclass.bind fun s => s.findMethod name) := by
  obtain ⟨id, n, sup, table⟩ := c
  rw [ClassDef.findMethod.eq_def]
  simp only [ClassDef.methods,ClassDef.superclass]
  cases table.lookup name with
  | some f => rfl
  | none => cases sup <;> rfl

/-- A class tabulates a body of methods as its declaration does: each method, in the order written,
closed over one frame, which binds `super` to the superclass when there is one. -/
def Tabulates (s : Store) (body : List FunDecl) (c : ClassDef) : Prop :=
  ∃ menv first, c.methods = Run.methodTable menv body [] first ∧
    ∀ S, c.superclass = some S → s.findIn menv "super" = .value (.cls S)

/-- A class hierarchy as class declarations build it: each class on the chain tabulates its body.
`bodies` lists the bodies from the class up the chain. -/
inductive Built (s : Store) : ClassDef → List (List FunDecl) → Prop
  | root {c : ClassDef} {body : List FunDecl} : c.superclass = none → c.Tabulates s body → Built s c [body]
  | sub {c S : ClassDef} {body : List FunDecl} {bodies : List (List FunDecl)} :
      c.superclass = some S → c.Tabulates s body → Built s S bodies → Built s c (body :: bodies)

theorem Tabulates.keep {s s' : Store} (keeps : s.Keeps s') {body : List FunDecl} {c : ClassDef}
    (tabulates : c.Tabulates s body) : c.Tabulates s' body := by
  obtain ⟨menv, first, table, super⟩ := tabulates
  exact ⟨menv, first, table, fun S named => keeps menv "super" _ (fun ordinary => ordinary.2 rfl) (super S named)⟩

/-- A hierarchy stays built while the bindings of `super` are kept. -/
theorem Built.keep {s s' : Store} (keeps : s.Keeps s') {c : ClassDef} {bodies : List (List FunDecl)}
    (built : c.Built s bodies) : c.Built s' bodies := by
  induction built with
  | root none tabulates => exact .root none (tabulates.keep keeps)
  | sub named tabulates _ ih => exact .sub named (tabulates.keep keeps) ih

/-- Every method of a class that tabulates a body, with a superclass, closes over a frame binding
`super` to that superclass. -/
theorem Tabulates.super {s : Store} {body : List FunDecl} {c S : ClassDef} (tabulates : c.Tabulates s body)
    (named : c.superclass = some S) : ∀ p ∈ c.methods, s.findIn p.2.env "super" = .value (.cls S) := by
  obtain ⟨menv, first, table, super⟩ := tabulates
  intro p mem
  rw [table] at mem
  rcases methodTable_env body [] first p mem with none | own
  · cases none
  · rw [own]
    exact super S named

/-- The method a class built by declarations finds under a name is the last definition of the
name in the nearest body, up the chain, that defines it. -/
theorem Built.findMethod {s : Store} {c : ClassDef} {bodies : List (List FunDecl)} (built : c.Built s bodies)
    (name : String) : (c.findMethod name).map Closure.decl = bodies.findSome? (FunDecl.lastNamed name) := by
  induction built with
  | @root c body none tabulates =>
    obtain ⟨menv, first, table, -⟩ := tabulates
    have own := methodTable_lookup menv name body [] first
    rw [c.findMethod_eq,none,table]
    simp only [Option.bind_none,Option.or_none] at own ⊢
    rw [own]
    simp only [List.findSome?_cons,List.findSome?_nil]
    split <;> simp_all
  | @sub c S body bodies named tabulates _ ih =>
    obtain ⟨menv, first, table, -⟩ := tabulates
    have own := methodTable_lookup menv name body [] first
    rw [c.findMethod_eq,named,table,Option.bind_some,Option.map_or,ih]
    simp only [List.lookup_nil,Option.map_none,Option.or_none] at own
    rw [own,List.findSome?_cons]
    split <;> simp_all

end ClassDef

/-- Going up `a + b` links is going up `a`, then `b` more. -/
theorem Store.ancestor_add (s : Store) (a b : Nat) :
    ∀ frame, s.ancestor frame (a + b) = (s.ancestor frame a).bind fun up => s.ancestor up b := by
  induction a with
  | zero => intro frame; simp [Store.ancestor]
  | succ a ih =>
    intro frame
    rw [Nat.add_right_comm,Store.ancestor,Store.ancestor]
    split
    · exact ih _
    · rfl

namespace Run

/-! ### Binding the method found -/

/-- What looking a method up from a class `K` gives for the instance `ref` of a class `c`: the
method `K` finds, bound in a new frame, under the method's own, that binds `this` to the instance;
or, when `K` finds none, an undefined property at the name, with the machine unchanged. -/
def Dispatches (K : ClassDef) (name : Token) (ref : Nat) (c : ClassDef) (m : Machine) :
    Except Stop Value × Machine → Prop
  | (.ok (.fn g), m') => ∃ f, K.findMethod name.lexeme = some f ∧ g.decl = f.decl ∧ g.isInit = f.isInit ∧
      m'.store.parentOf g.env = some f.env ∧ m'.store.findIn g.env "this" = .value (.obj ref c)
  | (.error (.fault err), m') => K.findMethod name.lexeme = none ∧ err = ⟨name, .undefinedProperty name.lexeme⟩ ∧ m' = m
  | _ => False

theorem bindMethod_run (f : Closure) (ref : Nat) (c : ClassDef) (m : Machine) :
    (bindMethod f ref c).run.run m = (.ok { f with id := m.nextId, env := m.store.frames.size },
      { m with store := (m.store.alloc f.env).1.define m.store.frames.size "this" (some (.obj ref c)),
               nextId := m.nextId + 1 }) := rfl

/-- Binding the method a class finds, or failing when it finds none, dispatches. -/
theorem dispatches_found (K : ClassDef) (name : Token) (ref : Nat) (c : ClassDef) (m : Machine) :
    Dispatches K name ref c m ((match K.findMethod name.lexeme with
      | some f => do return Value.fn (← bindMethod f ref c)
      | none => fail name (.undefinedProperty name.lexeme) : Run Value).run.run m) := by
  cases found : K.findMethod name.lexeme with
  | none => exact ⟨found, rfl, rfl⟩
  | some f =>
    simp only [run_bind,bindMethod_run,run_pure,Dispatches]
    have valid : m.store.frames.size < (m.store.alloc f.env).1.frames.size := by simp [Store.alloc_frames_size]
    refine ⟨f, found, rfl, rfl, ?_, Store.findIn_define_self _ _ "this" _ valid⟩
    rw [Store.parentOf_define]
    exact m.store.parentOf_alloc_self f.env

/-- A property the instance has as a field is read from the fields. -/
theorem getProperty_field {name : Token} {ref : Nat} {c : ClassDef} {m : Machine} {v : Value}
    (set : m.store.field? ref name.lexeme = some v) : (getProperty name ref c).run.run m = (.ok v, m) := by
  simp only [getProperty,run_bind,run_get,set]
  rfl

/-- A property the instance has no field for is the method its class finds, bound to it. -/
theorem getProperty_dispatches {name : Token} {ref : Nat} {c : ClassDef} {m : Machine}
    (unset : m.store.field? ref name.lexeme = none) :
    Dispatches c name ref c m ((getProperty name ref c).run.run m) := by
  simp only [getProperty,run_bind,run_get,unset]
  exact dispatches_found c name ref c m

/-- Reading a property evaluates the object, then reads the property of the instance it is. -/
theorem eval_get_obj {n env : Nat} {o : Expr} {name : Token} {m m₁ : Machine} {ref : Nat} {c : ClassDef}
    (object : (eval n env o).run.run m = (.ok (.obj ref c), m₁)) :
    (eval (n + 1) env (.get o name)).run.run m = (getProperty name ref c).run.run m₁ := by
  rw [eval,run_bind,object]

/-! ### `this` and `super` from a bound method's frames -/

/-- `this`, one link above a frame at depth `k` under a bound method's frame, is the instance the
method was bound to. -/
theorem eval_this_bound {n env k T ref : Nat} {kw : Token} {c : ClassDef} {m : Machine} (named : kw.lexeme = "this")
    (up : m.store.ancestor env (k + 1) = some T) (this : m.store.findIn T "this" = .value (.obj ref c)) :
    (eval (n + 1) env (.thisRef kw (.scoped (k + 1)))).run.run m = (.ok (.obj ref c), m) := by
  simp only [eval,lookUp,run_bind,run_get,Store.getAt,up,named,this]
  rfl

/-- `super`, two links above a frame at depth `k` under a bound method's frame, reads the class the
method's own frame binds as `super` and binds the method that class finds to the instance the
bound method's frame binds as `this`. -/
theorem eval_super_bound {n env k T M ref : Nat} {kw method : Token} {S c : ClassDef} {m : Machine}
    (named : kw.lexeme = "super") (up : m.store.ancestor env (k + 1) = some T) (parent : m.store.parentOf T = some M)
    (super : m.store.findIn M "super" = .value (.cls S)) (this : m.store.findIn T "this" = .value (.obj ref c)) :
    Dispatches S method ref c m ((eval (n + 1) env (.superGet kw method (.scoped (k + 2)))).run.run m) := by
  have above : m.store.ancestor env (k + 2) = some M := by
    rw [m.store.ancestor_add (k + 1) 1,up,Option.bind_some,Store.ancestor_succ_of_parentOf parent]
    rfl
  simp only [eval,lookUp,run_bind,run_get,Store.getAt,above,named,super,run_pure]
  simp only [up,this,run_pure]
  exact dispatches_found S method ref c m

/-! ### Classes as declarations build them -/

/-- A class declaration that finishes binds its name, in the current frame, to a class of that
name which tabulates the methods of its body, with a superclass exactly when it names one. -/
theorem exec_classDecl_tabulates {n : Nat} {m m' : Machine} {env : Nat} {ctx : Scope.Context} {name : Token}
    {sup : Option Expr} {methods : List FunDecl} {flow : Flow} (site : StmtSite m env ctx)
    (formed : (Stmt.classDecl name sup methods).Formed) (clean : (Stmt.classDecl name sup methods).scopeFaults ctx = [])
    (ran : (exec (n + 1) env ((Stmt.classDecl name sup methods).addressed ctx.scopes)).run.run m = (.ok flow, m')) :
    ∃ c, m'.store.findIn env name.lexeme = .value (.cls c) ∧ c.name = name.lexeme ∧ c.superclass.isSome = sup.isSome ∧
      c.Tabulates m'.store (FunDecl.addressedAll (Scope.classScopes (Scope.declareIn name.lexeme ctx.scopes) sup.isSome)
        methods) := by
  obtain ⟨ordinary, superIdent, -⟩ := formed
  cases sup with
  | none =>
    simp only [Stmt.addressed,Option.map_none] at ran
    rw [exec] at ran
    simp only [run_bind,run_pure,run_define,run_fresh,run_get] at ran
    rw [run_forIn_table] at ran
    case entry =>
      intro d t m
      rfl
    simp only [Store.owner_define_self site.frame,run_bind,run_define,run_pure,Store.define_define] at ran
    obtain ⟨-, rfl⟩ := Prod.mk.inj ran
    exact ⟨_, Store.findIn_define_self _ _ _ _ site.frame, rfl, rfl, env, m.nextId, rfl, fun S none => by cases none⟩
  | some e =>
    obtain ⟨superName, superAddr, rfl⟩ := superIdent e rfl
    obtain ⟨inner, identClean⟩ := site.superclass ordinary clean
    have safe := (agreeing n).eval (.ident superName superAddr) inner trivial identClean
    unfold Safe at safe
    simp only [Stmt.addressed,Option.map_some] at ran
    rw [exec] at ran
    simp only [run_bind] at ran
    revert safe ran
    generalize (eval n env ((Expr.ident superName superAddr).addressed (Scope.declareIn name.lexeme ctx.scopes))).run.run m = first
    rcases first with ⟨_ | v, m₁⟩
    · intro _ ran
      cases ran
    · rintro ⟨grows₁, -, -⟩ ran
      cases v with
      | cls c₀ =>
        simp only [superclassOf,run_bind,run_pure,run_define,run_alloc,run_fresh,run_get] at ran
        rw [run_forIn_table] at ran
        case entry =>
          intro d t m
          rfl
        -- the methods close over a new frame binding `super`; the name, declared before it and
        -- bound after, is bound as if once
        have valid₁ : env < m₁.store.frames.size := Nat.lt_of_lt_of_le site.frame grows₁.size
        let base := (m₁.store.alloc env).1.define m₁.store.frames.size "super" (some (.cls c₀))
        have allocated : m₁.store.frames.size < (m₁.store.alloc env).1.frames.size := by simp [Store.alloc_frames_size]
        have valid : env < base.frames.size := by simp [base,Store.alloc_frames_size]; omega
        have moved : ((m₁.store.define env name.lexeme none).alloc env).1.define m₁.store.frames.size "super"
            (some (.cls c₀)) = base.define env name.lexeme none := by
          rw [Store.define_alloc valid₁,Store.define_comm _ (Nat.ne_of_lt valid₁)]
        simp only [Store.define_frames_size,moved,Store.owner_define_self valid,run_bind,run_define,run_pure,
          Store.define_define] at ran
        obtain ⟨-, rfl⟩ := Prod.mk.inj ran
        refine ⟨_, Store.findIn_define_self _ _ _ _ valid, rfl, rfl, m₁.store.frames.size, _, rfl, fun S named => ?_⟩
        cases named
        rw [Store.findIn_define_of_ne (.inl (Nat.ne_of_gt valid₁))]
        exact Store.findIn_define_self _ _ _ _ allocated
      | _ => cases ran

/-! ### Bound methods later on -/

section Bound

variable {g f : Closure} {ref : Nat} {c : ClassDef} {m₂ m' : Machine}

/-- Whatever runs after a method is bound, `this` one link above any frame at depth `k` under its
frame is still the instance it was bound to: so the body reads and writes that instance's fields
as they are when it runs. -/
theorem bound_this (this : m₂.store.findIn g.env "this" = .value (.obj ref c)) (keeps : m₂.store.Keeps m'.store)
    {n env k : Nat} (up : m'.store.ancestor env (k + 1) = some g.env) {kw : Token} (named : kw.lexeme = "this") :
    (eval (n + 1) env (.thisRef kw (.scoped (k + 1)))).run.run m' = (.ok (.obj ref c), m') :=
  eval_this_bound named up (keeps g.env "this" _ (fun ordinary => ordinary.1 rfl) this)

/-- Whatever runs after a method of a class `D` with superclass `S` is bound, `super` two links
above any frame at depth `k` under its frame dispatches from `S`, to the instance the method was
bound to, whatever that instance's class. -/
theorem bound_super (parent : m₂.store.parentOf g.env = some f.env) (this : m₂.store.findIn g.env "this" = .value (.obj ref c))
    (grows : m₂.store.Grows m'.store) (keeps : m₂.store.Keeps m'.store) {D S : ClassDef} {body : List FunDecl}
    (named : D.superclass = some S) (tabulates : D.Tabulates m₂.store body) (method : ∃ p ∈ D.methods, p.2 = f)
    {n env k : Nat} (up : m'.store.ancestor env (k + 1) = some g.env) {kw name : Token} (isSuper : kw.lexeme = "super") :
    Dispatches S name ref c m' ((eval (n + 1) env (.superGet kw name (.scoped (k + 2)))).run.run m') := by
  obtain ⟨p, mem, rfl⟩ := method
  have super := tabulates.super named p mem
  exact eval_super_bound isSuper up (grows.parents _ _ parent) (keeps _ "super" _ (fun ordinary => ordinary.2 rfl) super)
    (keeps g.env "this" _ (fun ordinary => ordinary.1 rfl) this)

end Bound

end Run

/-- Method dispatch and `super` dispatch. Reading a property of an instance gives the instance's
field if it has one set, and otherwise the method its class finds, bound to that very instance, or
an undefined property. A class declaration tabulates its body's methods over a frame that binds
its superclass, so in a hierarchy built by declarations the method found is the last definition of
the name in the nearest class up the chain that defines it. A bound method keeps, through every
later run, its instance as `this`, so it sees the fields the instance has when it runs; and `super`
in a method of a class with superclass `S` dispatches from `S`, bound to the current instance,
whatever that instance's class, never from the method's own class or a subclass. Every unit a
session runs keeps the frames and these bindings. -/
theorem method_dispatch_follows_declarations :
    (∀ (n env : Nat) (o : Expr) (name : Token) (m m₁ : Machine) (ref : Nat) (c : ClassDef),
      (Run.eval n env o).run.run m = (.ok (.obj ref c), m₁) →
        (∀ v, m₁.store.field? ref name.lexeme = some v → (Run.eval (n + 1) env (.get o name)).run.run m = (.ok v, m₁)) ∧
        (m₁.store.field? ref name.lexeme = none →
          Run.Dispatches c name ref c m₁ ((Run.eval (n + 1) env (.get o name)).run.run m))) ∧
    (∀ (s : Store) (c : ClassDef) (bodies : List (List FunDecl)), c.Built s bodies → ∀ name : String,
      (c.findMethod name).map Closure.decl = bodies.findSome? (FunDecl.lastNamed name)) ∧
    (∀ (n : Nat) (m m' : Machine) (env : Nat) (ctx : Scope.Context) (name : Token) (sup : Option Expr)
      (methods : List FunDecl) (flow : Flow), Run.StmtSite m env ctx → (Stmt.classDecl name sup methods).Formed →
      (Stmt.classDecl name sup methods).scopeFaults ctx = [] →
      (Run.exec (n + 1) env ((Stmt.classDecl name sup methods).addressed ctx.scopes)).run.run m = (.ok flow, m') →
      ∃ c, m'.store.findIn env name.lexeme = .value (.cls c) ∧ c.name = name.lexeme ∧ c.superclass.isSome = sup.isSome ∧
        c.Tabulates m'.store
          (FunDecl.addressedAll (Scope.classScopes (Scope.declareIn name.lexeme ctx.scopes) sup.isSome) methods)) ∧
    (∀ (g f : Closure) (ref : Nat) (c : ClassDef) (m₂ m' : Machine),
      m₂.store.parentOf g.env = some f.env → m₂.store.findIn g.env "this" = .value (.obj ref c) →
      m₂.store.Grows m'.store → m₂.store.Keeps m'.store → ∀ (n env k : Nat), m'.store.ancestor env (k + 1) = some g.env →
        (∀ kw : Token, kw.lexeme = "this" →
          (Run.eval (n + 1) env (.thisRef kw (.scoped (k + 1)))).run.run m' = (.ok (.obj ref c), m')) ∧
        (∀ (D S : ClassDef) (body : List FunDecl), D.superclass = some S → D.Tabulates m₂.store body →
          (∃ p ∈ D.methods, p.2 = f) → ∀ kw name : Token, kw.lexeme = "super" →
            Run.Dispatches S name ref c m' ((Run.eval (n + 1) env (.superGet kw name (.scoped (k + 2)))).run.run m'))) ∧
    (∀ (s : Session) (source : String), s.machine.store.Sound →
      s.machine.store.Grows (s.run source).1.machine.store ∧ s.machine.store.Keeps (s.run source).1.machine.store) := by
  refine ⟨?_, fun s c bodies built name => built.findMethod name, ?_, ?_, ?_⟩
  · intro n env o name m m₁ ref c object
    rw [Run.eval_get_obj object]
    exact ⟨fun v set => Run.getProperty_field set, Run.getProperty_dispatches⟩
  · intro n m m' env ctx name sup methods flow site formed clean ran
    exact Run.exec_classDecl_tabulates site formed clean ran
  · intro g f ref c m₂ m' parent this grows keeps n env k up
    exact ⟨fun kw named => Run.bound_this this keeps up named,
      fun D S body named tabulates method kw name isSuper =>
        Run.bound_super parent this grows keeps named tabulates method up isSuper⟩
  · intro s source sound
    exact ⟨(s.run_continues source sound).grows, s.run_keeps source sound⟩

/-- A class `B` declared over `A`, whose body defines `m` twice, finds `A`'s second definition. -/
theorem method_dispatch_follows_declarations_inherited :
    let first : FunDecl := ⟨⟨.identifier, "m", 1⟩, [], []⟩
    let second : FunDecl := ⟨⟨.identifier, "m", 2⟩, [], []⟩
    let other : FunDecl := ⟨⟨.identifier, "n", 3⟩, [], []⟩
    let A := ClassDef.mk 1 "A" none (Run.methodTable 0 [first, second] [] 0)
    let s := (Store.empty.alloc 0).1.define 1 "super" (some (.cls A))
    let B := ClassDef.mk 4 "B" (some A) (Run.methodTable 1 [other] [] 3)
    B.Built s [[other], [first, second]] ∧ (B.findMethod "m").map Closure.decl = some second := by
  intro first second other A s B
  have built : B.Built s [[other], [first, second]] :=
    .sub rfl ⟨1, 3, rfl, fun S named => by cases named; rfl⟩ (.root rfl ⟨0, 0, rfl, fun _ none => by cases none⟩)
  exact ⟨built, (method_dispatch_follows_declarations.2.1 s B _ built "m").trans rfl⟩

end Lox
