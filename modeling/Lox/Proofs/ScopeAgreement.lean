import Lox.Proofs.FrameChain
/-!
The interpreter agrees with the scope rules. A program that scans, parses and passes the scope
pass runs with the frames from the current one outwards covering the scopes each reference was
resolved in, at every step: the current frame's chain covers the scopes of the code being run,
and every function, bound method and class in the store covers the scopes of its body
(`Store.Sound`). So a local reference always finds its binding, assigned and of the right kind,
at the distance the scope pass gave it (`Store.Covers.getAt`, `Store.Covers.ancestor`); an
assignment writes the frame of the scope that declared the name; `super` finds a class and the
frame below it `this`, an instance. A run of such a program therefore stops on no fault that these
agreements rule out: no variable read before it has a value, no unresolved `super` or `this`, no
`super` that is not a class or `this` that is not an instance, and "Undefined variable" only for a
name the globals do not bind (`RuntimeFault.Agrees`).

The rules of the interpreter take fuel; `Run.agreeing` proves the agreement for every amount of it
at once, by induction, each rule from the rules it calls with one less, and `Run.interpret_safe`
for the statements of a unit run in the globals frame.
-/
namespace Lox

/-- The runtime faults that frames covering the scopes of the code still leave possible: no read of
an unassigned variable, no `super` or `this` missing or of the wrong kind, and an undefined
variable only where the globals bind no such name. -/
def RuntimeFault.Agrees (s : Store) : RuntimeFault → Prop
  | .undefinedVariable name => s.findIn Store.globals name = .missing
  | .unassignedVariable _ | .unresolvedSuper | .superNotClass | .unresolvedThis | .thisNotInstance => False
  | _ => True

/-- A stop that frames covering the scopes leave possible. -/
def Stop.Agrees (s : Store) : Stop → Prop
  | .fault e => e.fault.Agrees s
  | .exhausted => True

/-- How a statement finished, with a sound value if it returned one. -/
def Flow.Sound (s : Store) : Flow → Prop
  | .returned v => v.Sound s
  | .normal => True

namespace Run

variable {α β : Type}

/-! ### Runs that keep the agreement -/

/-- What a run must leave, from a store `s`: a sound store grown from `s`, and either a result
that satisfies `P` or a stop that the agreement allows. -/
def Leaves (s : Store) (P : α → Machine → Prop) : Except Stop α × Machine → Prop
  | (r, m) => s.Grows m.store ∧ m.store.Sound ∧ match r with
    | .ok a => P a m
    | .error stop => stop.Agrees m.store

/-- A run from a machine leaves what `P` asks for. -/
def Safe (x : Run α) (m : Machine) (P : α → Machine → Prop) : Prop :=
  Leaves m.store P (x.run.run m)

theorem run_bind (x : Run α) (f : α → Run β) (m : Machine) :
    (x >>= f).run.run m = match x.run.run m with
      | (.ok a, m') => (f a).run.run m'
      | (.error e, m') => (.error e, m') := by
  show (ExceptT.bind x f).run.run m = _
  simp only [ExceptT.bind,ExceptT.run,ExceptT.mk,bind,StateT.bind,StateT.run]
  rcases x m with ⟨r, m'⟩
  cases r <;> rfl

@[simp] theorem run_pure (a : α) (m : Machine) : (pure a : Run α).run.run m = (.ok a, m) := rfl

@[simp] theorem run_get (m : Machine) : (get : Run Machine).run.run m = (.ok m, m) := rfl

@[simp] theorem run_define (frame : Nat) (name : String) (v : Option Value) (m : Machine) :
    (define frame name v).run.run m = (.ok (), { m with store := m.store.define frame name v }) := rfl

@[simp] theorem run_alloc (p : Nat) (m : Machine) :
    (alloc p).run.run m = (.ok m.store.frames.size, { m with store := (m.store.alloc p).1 }) := rfl

@[simp] theorem run_fresh (m : Machine) : fresh.run.run m = (.ok m.nextId, { m with nextId := m.nextId + 1 }) := rfl

@[simp] theorem run_newObject (m : Machine) :
    newObject.run.run m = (.ok m.store.objects.size, { m with store := m.store.newObject.1 }) := rfl

@[simp] theorem run_modify (f : Machine → Machine) (m : Machine) :
    (modify f : Run PUnit).run.run m = (.ok PUnit.unit, f m) := rfl

@[simp] theorem run_write (line : String) (m : Machine) :
    (write line).run.run m = (.ok (), { m with output := m.output ++ line ++ "\n" }) := rfl

theorem Leaves.grown {s s' : Store} {P : α → Machine → Prop} {out : Except Stop α × Machine} (grows : s.Grows s')
    (leaves : Leaves s' P out) : Leaves s P out := by
  obtain ⟨r, m⟩ := out
  obtain ⟨grows', sound, holds⟩ := leaves
  exact ⟨grows.trans grows', sound, holds⟩

theorem Safe.pure {a : α} {m : Machine} {P : α → Machine → Prop} (sound : m.store.Sound) (holds : P a m) :
    Safe (Pure.pure a) m P :=
  ⟨Store.Grows.refl _, sound, holds⟩

theorem Safe.stop {m : Machine} {P : α → Machine → Prop} {stop : Stop} (sound : m.store.Sound)
    (agrees : stop.Agrees m.store) : Safe (throw stop) m P :=
  ⟨Store.Grows.refl _, sound, agrees⟩

theorem Safe.fail {m : Machine} {P : α → Machine → Prop} {t : Token} {f : RuntimeFault} (sound : m.store.Sound)
    (agrees : f.Agrees m.store) : Safe (Run.fail t f) m P :=
  Safe.stop sound agrees

/-- Sequencing: the first run keeps the agreement, and so does the rest from wherever it left. -/
theorem Safe.bind {x : Run α} {f : α → Run β} {m : Machine} {Q : α → Machine → Prop} {P : β → Machine → Prop}
    (first : Safe x m Q) (rest : ∀ a m', m.store.Grows m'.store → m'.store.Sound → Q a m' → Safe (f a) m' P) :
    Safe (x >>= f) m P := by
  unfold Safe at first ⊢
  rw [run_bind]
  revert first
  rcases x.run.run m with ⟨r, m'⟩
  rintro ⟨grows, sound, holds⟩
  cases r with
  | ok a => exact (rest a m' grows sound holds).grown grows
  | error stop => exact ⟨grows, sound, holds⟩

/-- A step that cannot fail, followed by a run that keeps the agreement. -/
theorem Safe.step {x : Run α} {f : α → Run β} {m m' : Machine} {a : α} {P : β → Machine → Prop}
    (ran : x.run.run m = (.ok a, m')) (grows : m.store.Grows m'.store) (rest : Safe (f a) m' P) :
    Safe (x >>= f) m P := by
  unfold Safe
  rw [run_bind,ran]
  exact rest.grown grows

/-- A choice between two runs that both keep the agreement keeps it. -/
theorem Safe.ite {c : Prop} [Decidable c] {x y : Run α} {m : Machine} {P : α → Machine → Prop} (yes : Safe x m P)
    (no : Safe y m P) : Safe (if c then x else y) m P := by
  split
  · exact yes
  · exact no

theorem Safe.weaken {x : Run α} {m : Machine} {Q P : α → Machine → Prop} (safe : Safe x m Q)
    (weaker : ∀ a m', m.store.Grows m'.store → Q a m' → P a m') : Safe x m P := by
  unfold Safe at safe ⊢
  revert safe
  rcases x.run.run m with ⟨r, m'⟩
  rintro ⟨grows, sound, holds⟩
  cases r with
  | ok a => exact ⟨grows, sound, weaker a m' grows holds⟩
  | error stop => exact ⟨grows, sound, holds⟩

/-- A run that keeps the agreement and finishes leaves a sound store grown from the one it found. -/
theorem Safe.ok {x : Run α} {m m' : Machine} {P : α → Machine → Prop} {a : α} (safe : Safe x m P)
    (ran : x.run.run m = (.ok a, m')) : m.store.Grows m'.store ∧ m'.store.Sound ∧ P a m' := by
  unfold Safe at safe
  rw [ran] at safe
  exact safe

/-! ### Reading and writing bindings -/

/-- A name bound to a sound value that fits it is bound safely. -/
theorem define_safe {m : Machine} {frame : Nat} {name : String} {v : Value} (sound : m.store.Sound)
    (fits : v.Fits name) (valued : v.Sound m.store) : Safe (define frame name (some v)) m fun _ _ => True := by
  have grows := m.store.grows_define frame name fits
  exact ⟨grows, sound.define frame name fits (valued.grow grows), trivial⟩

/-- A reference the frames cover reads a sound value that fits its name, and changes nothing. -/
theorem lookUp_scoped {env : Nat} {name : Token} {view : List (List String)} {d : Nat} {m : Machine}
    (sound : m.store.Sound) (covers : m.store.Covers env view) (found : Scope.locate name.lexeme view = .scoped d) :
    ∃ v, (lookUp env name (.scoped d)).run.run m = (.ok v, m) ∧ v.Sound m.store ∧ v.Fits name.lexeme := by
  obtain ⟨a, up, v, bound, fits⟩ := covers.ancestor found
  have read : m.store.getAt env d name.lexeme = .value v := by simp [Store.getAt,up,bound]
  refine ⟨v, ?_, sound.findIn bound, fits⟩
  simp only [lookUp,run_bind,run_get,read]
  rfl

/-- A reference read at the address the scope rules give it keeps the agreement. -/
theorem lookUp_safe {env : Nat} {name : Token} {view : List (List String)} {m : Machine} (sound : m.store.Sound)
    (covers : m.store.Covers env view) :
    Safe (lookUp env name (Scope.locate name.lexeme view)) m fun v m' => v.Sound m'.store := by
  rcases found : Scope.locate name.lexeme view with _ | d
  · rcases sound.find Store.globals name.lexeme with ⟨v, read, valued⟩ | missing
    · unfold Safe
      simp only [lookUp,run_bind,run_get,read,run_pure]
      exact ⟨Store.Grows.refl _, sound, valued⟩
    · unfold Safe
      simp only [lookUp,run_bind,run_get,missing]
      exact Safe.fail sound (Store.findIn_globals_of_find missing)
  · obtain ⟨v, ran, valued, -⟩ := lookUp_scoped sound covers found
    unfold Safe
    rw [ran]
    exact ⟨Store.Grows.refl _, sound, valued⟩

/-- An assignment to an ordinary name, at a global address or at one whose frame exists, keeps
the agreement. -/
theorem assignTo_safe {env : Nat} {name : Token} {addr : Address} {v : Value} {m : Machine}
    (sound : m.store.Sound) (ordinary : Scope.Ordinary name.lexeme) (valued : v.Sound m.store)
    (reaches : ∀ d, addr = .scoped d → ∃ a, m.store.ancestor env d = some a) :
    Safe (assignTo env name addr v) m fun _ _ => True := by
  have fits := Value.fits_of_ordinary ordinary v
  rcases addr with _ | d
  · cases owned : m.store.owner Store.globals name.lexeme with
    | none =>
      unfold Safe
      simp only [assignTo,run_bind,run_get,owned]
      exact Safe.fail sound (Store.findIn_globals_of_owner owned)
    | some frame =>
      unfold Safe
      simp only [assignTo,run_bind,run_get,owned]
      exact define_safe sound fits valued
  · obtain ⟨a, up⟩ := reaches d rfl
    unfold Safe
    simp only [assignTo,run_bind,run_get,up]
    exact define_safe sound fits valued

/-- A method bound to an instance of a sound class is a function, of the method's declaration,
whose frame covers its scopes. -/
theorem bindMethod_safe {method : Closure} {ref : Nat} {c : ClassDef} {m : Machine} (sound : m.store.Sound)
    (isMethod : method.Method m.store) (cls : c.Sound m.store) :
    Safe (bindMethod method ref c) m fun f m' => f.Callable m'.store ∧ f.decl = method.decl := by
  obtain ⟨ctx, kind, d, outer, inThis, decl, formed, clean, layout, covers⟩ := isMethod
  let frame := m.store.frames.size
  let allocated := (m.store.alloc method.env).1
  let bound := allocated.define frame "this" (some (.obj ref c))
  have fits : (Value.obj ref c).Fits "this" := ⟨fun _ => ⟨ref, c, rfl⟩, fun named => by simp at named⟩
  have grows : m.store.Grows bound := (m.store.grows_alloc method.env).trans (allocated.grows_define frame "this" fits)
  have valid : frame < allocated.frames.size := by simp [allocated,frame,Store.alloc_frames_size]
  have framed : bound.Covers frame (["this"] :: outer) := by
    refine ⟨?_, method.env, ?_, covers.grow grows⟩
    · intro n mem
      simp only [List.mem_singleton] at mem
      subst mem
      exact Store.binds_define_self valid "this" fits
    · rw [Store.parentOf_define]
      exact m.store.parentOf_alloc_self method.env
  unfold Safe
  simp only [bindMethod,run_bind,run_alloc,run_define,run_fresh,run_pure]
  refine ⟨grows, ?_, ?_⟩
  · exact (sound.alloc method.env).define frame "this" fits (cls.grow grows)
  · refine ⟨⟨ctx, kind, d, decl, formed, clean, layout, inThis ▸ framed, fun _ => ?_⟩, rfl⟩
    rw [inThis]
    simp [Scope.locate]

/-- A property read from an instance of a sound class keeps the agreement. -/
theorem getProperty_safe {name : Token} {ref : Nat} {c : ClassDef} {m : Machine} (sound : m.store.Sound)
    (cls : c.Sound m.store) : Safe (getProperty name ref c) m fun v m' => v.Sound m'.store := by
  refine Safe.step (run_get m) (Store.Grows.refl _) ?_
  cases field : m.store.field? ref name.lexeme with
  | some v => exact Safe.pure sound (sound.field field)
  | none =>
    simp only
    cases found : c.findMethod name.lexeme with
    | none => exact Safe.fail sound trivial
    | some method =>
      exact Safe.bind (bindMethod_safe sound (cls.findMethod found) cls) fun f m' _ sound' bound =>
        Safe.pure sound' bound.1

/-- A superclass is a class, or the declaration stops with a fault the agreement allows. -/
theorem superclassOf_safe {e : Expr} {v : Value} {m : Machine} (sound : m.store.Sound) (valued : v.Sound m.store) :
    Safe (superclassOf e v) m fun c m' => c.Sound m'.store := by
  unfold superclassOf
  cases v with
  | cls c => exact Safe.pure sound valued
  | _ => exact Safe.fail sound trivial

/-- What a literal denotes is sound in any store. -/
theorem Literal.value_sound (lit : Literal) (s : Store) : lit.value.Sound s := by
  cases lit <;> trivial

/-- The binary operators compute plain values, and fail only on the operands' kinds or a zero
divisor. -/
theorem binaryOp_sound {op : Token} {a b v : Value} (s : Store) (computed : binaryOp op a b = .ok v) : v.Sound s := by
  rcases binaryOp_ok computed with ⟨_, rfl⟩ | ⟨_, rfl⟩ | ⟨_, rfl⟩ <;> trivial

theorem binaryOp_agrees {op : Token} {a b : Value} {err : RuntimeError} (s : Store)
    (failed : binaryOp op a b = .error err) : err.fault.Agrees s := by
  rcases (binaryOp_error failed).2 with same | same | ⟨_, _, same⟩ | ⟨_, _, same⟩ <;> rw [same] <;> trivial

/-! ### Binding parameters and building method tables -/

/-- Binding parameters in turn is defining each in the frame. -/
theorem run_forIn_define {frame : Nat} (body : Token × Value → PUnit → Run (ForInStep PUnit))
    (binds : ∀ p m, (body p PUnit.unit).run.run m =
      (.ok (.yield PUnit.unit), { m with store := m.store.define frame p.1.lexeme (some p.2) }))
    (pairs : List (Token × Value)) (m : Machine) :
    (forIn pairs PUnit.unit body).run.run m =
      (.ok PUnit.unit, { m with store := pairs.foldl (fun s p => s.define frame p.1.lexeme (some p.2)) m.store }) := by
  induction pairs generalizing m with
  | nil => rfl
  | cons p pairs ih =>
    rw [List.forIn_cons,run_bind,binds]
    exact ih _

/-- Defining names in turn, each to a value that fits it, grows a store, keeps it sound when the
values are, and leaves every name bound. -/
theorem grows_foldl_define {frame : Nat} : ∀ (pairs : List (Token × Value)) (s : Store),
    (∀ p ∈ pairs, p.2.Fits p.1.lexeme) → frame < s.frames.size →
    s.Grows (pairs.foldl (fun s p => s.define frame p.1.lexeme (some p.2)) s) ∧
      (∀ p ∈ pairs, (pairs.foldl (fun s p => s.define frame p.1.lexeme (some p.2)) s).Binds frame p.1.lexeme) ∧
      (s.Sound → (∀ p ∈ pairs, p.2.Sound s) → (pairs.foldl (fun s p => s.define frame p.1.lexeme (some p.2)) s).Sound)
  | [], s, _, _ => ⟨Store.Grows.refl s, by simp, fun sound _ => sound⟩
  | p :: pairs, s, fits, valid => by
    have first := s.grows_define frame p.1.lexeme (fits p List.mem_cons_self)
    have valid' : frame < (s.define frame p.1.lexeme (some p.2)).frames.size := by simpa using valid
    obtain ⟨grows, binds, sound⟩ := grows_foldl_define pairs _ (fun q mem => fits q (List.mem_cons_of_mem _ mem)) valid'
    refine ⟨first.trans grows, ?_, ?_⟩
    · intro q mem
      rcases List.mem_cons.1 mem with rfl | later
      · exact grows.binds _ _ (Store.binds_define_self valid _ (fits q List.mem_cons_self))
      · exact binds q later
    · intro sound₀ valued
      refine sound (sound₀.define frame p.1.lexeme (fits p List.mem_cons_self)
        ((valued p List.mem_cons_self).grow first)) ?_
      intro q mem
      exact (valued q (List.mem_cons_of_mem _ mem)).grow first

/-- The table a class declaration builds: each method as a closure over `menv`, numbered from
`id`, the latest first. -/
def methodTable (menv : Nat) : List FunDecl → List (String × Closure) → Nat → List (String × Closure)
  | [], t, _ => t
  | d :: ds, t, id => methodTable menv ds ((d.name.lexeme, ⟨id, d, menv, d.name.lexeme == "init"⟩) :: t) (id + 1)

theorem run_forIn_table {menv : Nat} (body : FunDecl → List (String × Closure) → Run (ForInStep (List (String × Closure))))
    (entry : ∀ d t m, (body d t).run.run m =
      (.ok (.yield ((d.name.lexeme, ⟨m.nextId, d, menv, d.name.lexeme == "init"⟩) :: t)), { m with nextId := m.nextId + 1 }))
    (ds : List FunDecl) (t : List (String × Closure)) (m : Machine) :
    (forIn ds t body).run.run m = (.ok (methodTable menv ds t m.nextId), { m with nextId := m.nextId + ds.length }) := by
  induction ds generalizing t m with
  | nil => rfl
  | cons d ds ih =>
    rw [List.forIn_cons,run_bind,entry]
    simp only [methodTable]
    rw [ih]
    simp [Nat.add_assoc,Nat.add_comm 1]

/-! ### Where code runs -/


/-- Where an expression runs: a sound store whose frames from `env` cover the scopes `view`, in a
layout fit for the class context; the expression was resolved in `scopes`, which are `view` with
perhaps the variable it initializes declared. -/
structure ExprSite (m : Machine) (env : Nat) (view scopes : List (List String)) (init : Option String)
    (cls : Scope.ClassContext) : Prop where
  sound : m.store.Sound
  covers : m.store.Covers env view
  layout : Scope.Layout view cls
  pending : Scope.Pending view init scopes

/-- Where a statement runs: a sound store whose frames from `env`, an existing frame, cover the
scopes of the context, in a layout fit for its class. -/
structure StmtSite (m : Machine) (env : Nat) (ctx : Scope.Context) : Prop where
  sound : m.store.Sound
  covers : m.store.Covers env ctx.scopes
  frame : env < m.store.frames.size
  layout : Scope.Layout ctx.scopes ctx.cls

section Sites

variable {m m' : Machine} {env : Nat} {view scopes : List (List String)} {init : Option String}
  {cls : Scope.ClassContext} {ctx : Scope.Context}

/-- A site stays one after any run that grows the store and leaves it sound. -/
theorem ExprSite.next (site : ExprSite m env view scopes init cls) (grows : m.store.Grows m'.store)
    (sound : m'.store.Sound) : ExprSite m' env view scopes init cls :=
  ⟨sound, site.covers.grow grows, site.layout, site.pending⟩

theorem StmtSite.next (site : StmtSite m env ctx) (grows : m.store.Grows m'.store) (sound : m'.store.Sound) :
    StmtSite m' env ctx :=
  ⟨sound, site.covers.grow grows, Nat.lt_of_lt_of_le site.frame grows.size, site.layout⟩

/-- An expression of a statement runs where the statement does, with no variable pending. -/
theorem StmtSite.expr (site : StmtSite m env ctx) : ExprSite m env ctx.scopes ctx.scopes none ctx.cls :=
  ⟨site.sound, site.covers, site.layout, rfl⟩

/-- A variable being initialized is an ordinary name, so never `this` or `super`. -/
theorem ExprSite.ordinary (site : ExprSite m env view scopes init cls) {x : String} (named : init = some x) :
    Scope.Ordinary x := by
  have pending := site.pending
  subst named
  exact pending.2

theorem ExprSite.locate_keyword (site : ExprSite m env view scopes init cls) {x : String}
    (keyword : ¬ Scope.Ordinary x) : Scope.locate x scopes = Scope.locate x view :=
  site.pending.locate fun named => keyword (site.ordinary named)

/-- An assignment resolved to a distance finds a frame there: one that binds the name, or the
current one, where the variable its own initializer assigns is declared but not yet bound. -/
theorem ExprSite.assigns (site : ExprSite m env view scopes init cls) {name : String} {d : Nat}
    (found : Scope.locate name scopes = .scoped d) :
    ∃ a, m.store.ancestor env d = some a ∧ (m.store.Binds a name ∨ d = 0) := by
  by_cases named : init = some name
  · have pending := site.pending
    subst named
    rw [pending.1] at found
    rcases Scope.locate_declareIn_self name view with global | here
    · rw [global] at found
      cases found
    · rw [here] at found
      cases found
      exact ⟨env, rfl, .inr rfl⟩
  · rw [site.pending.locate named] at found
    obtain ⟨a, up, binds⟩ := site.covers.ancestor found
    exact ⟨a, up, .inl binds⟩

/-- Every address of an assignment has its frame: the pending variable's is the current one. -/
theorem ExprSite.reaches (site : ExprSite m env view scopes init cls) (name : String) :
    ∀ d, Scope.locate name scopes = .scoped d → ∃ a, m.store.ancestor env d = some a := by
  intro d found
  obtain ⟨a, up, -⟩ := site.assigns found
  exact ⟨a, up⟩

/-- A class's superclass is read with the class's name declared but not yet bound, and keeps the
rules as a reference to another name there: it is not the class itself. -/
theorem StmtSite.superclass {name superName : Token} {superAddr : Address} {methods : List FunDecl}
    (site : StmtSite m env ctx) (ordinary : Scope.Ordinary name.lexeme)
    (clean : (Stmt.classDecl name (some (.ident superName superAddr)) methods).scopeFaults ctx = []) :
    ExprSite m env ctx.scopes (Scope.declareIn name.lexeme ctx.scopes) (some name.lexeme) ctx.cls ∧
      (Expr.ident superName superAddr).scopeFaults (some name.lexeme) ctx.cls = [] := by
  simp only [Stmt.scopeFaults,List.append_eq_nil_iff] at clean
  have differs : superName.lexeme ≠ name.lexeme := by
    intro same
    simp [Scope.selfInheritance,same] at clean
  exact ⟨⟨site.sound, site.covers, site.layout, rfl, ordinary⟩, by simp [Expr.scopeFaults,Ne.symm differs]⟩

end Sites

/-- The rules of the interpreter at one amount of fuel: each keeps the agreement from a site
where the code it runs was resolved without faults and has the parser's shape. -/
structure Agreeing (fuel : Nat) : Prop where
  eval : ∀ {m env view scopes init cls} (e : Expr), ExprSite m env view scopes init cls → e.Formed →
    e.scopeFaults init cls = [] → Safe (eval fuel env (e.addressed scopes)) m fun v m' => v.Sound m'.store
  evalArgs : ∀ {m env view scopes init cls} (args : List Expr), ExprSite m env view scopes init cls →
    Expr.FormedAll args → Expr.scopeFaultsAll init cls args = [] →
    Safe (evalArgs fuel env (Expr.addressedAll scopes args)) m fun vs m' => ∀ v ∈ vs, v.Sound m'.store
  callValue : ∀ {m paren callee args}, m.store.Sound → callee.Sound m.store → (∀ v ∈ args, v.Sound m.store) →
    Safe (callValue fuel paren callee args) m fun v m' => v.Sound m'.store
  callClosure : ∀ {m f args}, m.store.Sound → f.Callable m.store → (∀ v ∈ args, v.Sound m.store) →
    args.length = f.arity → Safe (callClosure fuel f args) m fun v m' => v.Sound m'.store
  exec : ∀ {m env ctx} (st : Stmt), StmtSite m env ctx → st.Formed → st.scopeFaults ctx = [] →
    Safe (exec fuel env (st.addressed ctx.scopes)) m fun flow m' =>
      flow.Sound m'.store ∧ m'.store.Covers env (Scope.afterStmt ctx.scopes st)
  execBlock : ∀ {m env ctx} (ss : List Stmt), StmtSite m env ctx → Stmt.FormedAll ss →
    Stmt.scopeFaultsAll ctx ss = [] →
    Safe (execBlock fuel env (Stmt.addressedAll ctx.scopes ss)) m fun flow m' => flow.Sound m'.store
  loop : ∀ {m env ctx} (c : Expr) (body : Stmt), StmtSite m env ctx → c.Formed → body.Formed →
    body.declares = [] → c.scopeFaults none ctx.cls = [] → body.scopeFaults ctx = [] →
    Safe (loop fuel env (c.addressed ctx.scopes) (body.addressed ctx.scopes)) m fun flow m' => flow.Sound m'.store

/-- With no fuel every rule stops at once, on exhaustion. -/
theorem agreeing_zero : Agreeing 0 where
  eval _ site _ _ := by rw [eval]; exact Safe.stop site.sound trivial
  evalArgs _ site _ _ := by rw [evalArgs]; exact Safe.stop site.sound trivial
  callValue sound _ _ := by rw [callValue]; exact Safe.stop sound trivial
  callClosure sound _ _ _ := by rw [callClosure]; exact Safe.stop sound trivial
  exec _ site _ _ := by rw [exec]; exact Safe.stop site.sound trivial
  execBlock _ site _ _ := by rw [execBlock]; exact Safe.stop site.sound trivial
  loop _ _ site _ _ _ _ _ := by rw [loop]; exact Safe.stop site.sound trivial

/-! ### Expressions -/

section Expressions

variable {n : Nat} {m : Machine} {env : Nat} {view scopes : List (List String)} {init : Option String}
  {cls : Scope.ClassContext}

theorem eval_ident {name : Token} {a : Address} (site : ExprSite m env view scopes init cls)
    (clean : (Expr.ident name a).scopeFaults init cls = []) :
    Safe (eval (n + 1) env ((Expr.ident name a).addressed scopes)) m fun v m' => v.Sound m'.store := by
  have other : init ≠ some name.lexeme := by
    intro named
    simp [Expr.scopeFaults,named] at clean
  simp only [Expr.addressed]
  rw [eval,site.pending.locate other]
  exact lookUp_safe site.sound site.covers

theorem eval_this {kw : Token} {a : Address} (site : ExprSite m env view scopes init cls)
    (formed : (Expr.thisRef kw a).Formed) :
    Safe (eval (n + 1) env ((Expr.thisRef kw a).addressed scopes)) m fun v m' => v.Sound m'.store := by
  simp only [Expr.addressed]
  rw [eval,site.locate_keyword fun ordinary => ordinary.1 formed]
  exact lookUp_safe site.sound site.covers

/-- `super` in a subclass's method finds a class at its distance and `this`, an instance, one
frame nearer. -/
theorem eval_super {kw method : Token} {a : Address} (site : ExprSite m env view scopes init cls)
    (formed : (Expr.superGet kw method a).Formed) (clean : (Expr.superGet kw method a).scopeFaults init cls = []) :
    Safe (eval (n + 1) env ((Expr.superGet kw method a).addressed scopes)) m fun v m' => v.Sound m'.store := by
  have sub : cls = .sub := by cases cls <;> simp_all [Expr.scopeFaults]
  have named : kw.lexeme = "super" := formed
  obtain ⟨d, super, this⟩ := site.layout.2 sub
  have found : Scope.locate kw.lexeme view = .scoped (d + 1) := by rw [named,super]
  simp only [Expr.addressed]
  rw [site.locate_keyword fun ordinary => ordinary.2 named,found,eval]
  obtain ⟨v, ran, valued, fits⟩ := lookUp_scoped site.sound site.covers found
  refine Safe.step ran (Store.Grows.refl _) ?_
  obtain ⟨sc, rfl⟩ := fits.2 named
  have thisFound : Scope.locate (Token.lexeme ⟨.identifier, "this", kw.line⟩) view = .scoped d := this
  obtain ⟨w, ran', valued', fits'⟩ := lookUp_scoped site.sound site.covers thisFound
  obtain ⟨ref, c, rfl⟩ := fits'.1 rfl
  refine Safe.step ran' (Store.Grows.refl _) ?_
  have superclass : sc.Sound m.store := valued
  cases found : sc.findMethod method.lexeme with
  | none => exact Safe.fail site.sound trivial
  | some mth =>
    exact Safe.bind (bindMethod_safe site.sound (superclass.findMethod found) valued') fun f m' _ sound' bound =>
      Safe.pure sound' bound.1

variable (ih : Agreeing n)
include ih

theorem eval_unary {op : Token} {r : Expr} (site : ExprSite m env view scopes init cls)
    (formed : (Expr.unary op r).Formed) (clean : (Expr.unary op r).scopeFaults init cls = []) :
    Safe (eval (n + 1) env ((Expr.unary op r).addressed scopes)) m fun v m' => v.Sound m'.store := by
  simp only [Expr.addressed]
  rw [eval]
  refine Safe.bind (ih.eval r site formed clean) fun v m' _ sound _ => ?_
  split
  · split
    · exact Safe.pure sound trivial
    · exact Safe.fail sound trivial
  · exact Safe.pure sound trivial
  · exact Safe.fail sound trivial

theorem eval_binary {l r : Expr} {op : Token} (site : ExprSite m env view scopes init cls)
    (formed : (Expr.binary l op r).Formed) (clean : (Expr.binary l op r).scopeFaults init cls = []) :
    Safe (eval (n + 1) env ((Expr.binary l op r).addressed scopes)) m fun v m' => v.Sound m'.store := by
  have faults := List.append_eq_nil_iff.1 clean
  simp only [Expr.addressed]
  rw [eval]
  refine Safe.bind (ih.eval l site formed.1 faults.1) fun a m₁ grows₁ sound₁ _ => ?_
  refine Safe.bind (ih.eval r (site.next grows₁ sound₁) formed.2 faults.2) fun b m₂ _ sound₂ _ => ?_
  cases computed : binaryOp op a b with
  | ok v => exact Safe.pure sound₂ (binaryOp_sound _ computed)
  | error err => exact Safe.stop sound₂ (binaryOp_agrees _ computed)

theorem eval_logical {l r : Expr} {op : Token} (site : ExprSite m env view scopes init cls)
    (formed : (Expr.logical l op r).Formed) (clean : (Expr.logical l op r).scopeFaults init cls = []) :
    Safe (eval (n + 1) env ((Expr.logical l op r).addressed scopes)) m fun v m' => v.Sound m'.store := by
  have faults := List.append_eq_nil_iff.1 clean
  simp only [Expr.addressed]
  rw [eval]
  refine Safe.bind (ih.eval l site formed.1 faults.1) fun a m₁ grows₁ sound₁ valued => ?_
  exact Safe.ite (Safe.pure sound₁ valued) (ih.eval r (site.next grows₁ sound₁) formed.2 faults.2)

/-- An assignment writes the frame its address names, which the frames reach. -/
theorem eval_assign {name : Token} {v : Expr} {a : Address} (site : ExprSite m env view scopes init cls)
    (formed : (Expr.assign name v a).Formed) (clean : (Expr.assign name v a).scopeFaults init cls = []) :
    Safe (eval (n + 1) env ((Expr.assign name v a).addressed scopes)) m fun v m' => v.Sound m'.store := by
  simp only [Expr.addressed]
  rw [eval]
  refine Safe.bind (ih.eval v site formed.2 clean) fun value m₁ grows₁ sound₁ valued => ?_
  have reaches := (site.next grows₁ sound₁).reaches name.lexeme
  refine Safe.bind (assignTo_safe sound₁ formed.1 valued reaches) fun _ m₂ grows₂ sound₂ _ => ?_
  exact Safe.pure sound₂ (valued.grow grows₂)

theorem eval_call {f : Expr} {paren : Token} {args : List Expr} (site : ExprSite m env view scopes init cls)
    (formed : (Expr.call f paren args).Formed) (clean : (Expr.call f paren args).scopeFaults init cls = []) :
    Safe (eval (n + 1) env ((Expr.call f paren args).addressed scopes)) m fun v m' => v.Sound m'.store := by
  have faults := List.append_eq_nil_iff.1 clean
  simp only [Expr.addressed]
  rw [eval]
  refine Safe.bind (ih.eval f site formed.1 faults.1) fun callee m₁ grows₁ sound₁ valued => ?_
  refine Safe.bind (ih.evalArgs args (site.next grows₁ sound₁) formed.2 faults.2) fun argv m₂ grows₂ sound₂ args => ?_
  exact ih.callValue sound₂ (valued.grow grows₂) args

theorem eval_get {o : Expr} {name : Token} (site : ExprSite m env view scopes init cls)
    (formed : (Expr.get o name).Formed) (clean : (Expr.get o name).scopeFaults init cls = []) :
    Safe (eval (n + 1) env ((Expr.get o name).addressed scopes)) m fun v m' => v.Sound m'.store := by
  simp only [Expr.addressed]
  rw [eval]
  refine Safe.bind (ih.eval o site formed clean) fun obj m₁ _ sound₁ valued => ?_
  cases obj with
  | obj ref c => exact getProperty_safe sound₁ valued
  | _ => exact Safe.fail sound₁ trivial

/-- A field write evaluates the object first, then the value it stores. -/
theorem eval_set {o v : Expr} {name : Token} (site : ExprSite m env view scopes init cls)
    (formed : (Expr.set o name v).Formed) (clean : (Expr.set o name v).scopeFaults init cls = []) :
    Safe (eval (n + 1) env ((Expr.set o name v).addressed scopes)) m fun v m' => v.Sound m'.store := by
  have faults := List.append_eq_nil_iff.1 clean
  simp only [Expr.addressed]
  rw [eval]
  refine Safe.bind (ih.eval o site formed.1 faults.2) fun obj m₁ grows₁ sound₁ _ => ?_
  cases obj with
  | obj ref c =>
    refine Safe.bind (ih.eval v (site.next grows₁ sound₁) formed.2 faults.1) fun value m₂ _ sound₂ valued => ?_
    have grows := m₂.store.grows_setField ref name.lexeme value
    exact Safe.step (run_modify _ m₂) grows (Safe.pure (sound₂.setField ref name.lexeme valued) (valued.grow grows))
  | _ => exact Safe.fail sound₁ trivial

theorem evalArgs_safe {args : List Expr} (site : ExprSite m env view scopes init cls) (formed : Expr.FormedAll args)
    (clean : Expr.scopeFaultsAll init cls args = []) :
    Safe (evalArgs (n + 1) env (Expr.addressedAll scopes args)) m fun vs m' => ∀ v ∈ vs, v.Sound m'.store := by
  cases args with
  | nil =>
    rw [Expr.addressedAll,evalArgs]
    exact Safe.pure site.sound (by simp)
  | cons a rest =>
    have faults := List.append_eq_nil_iff.1 clean
    rw [Expr.addressedAll,evalArgs]
    refine Safe.bind (ih.eval a site formed.1 faults.1) fun v m₁ grows₁ sound₁ valued => ?_
    refine Safe.bind (ih.evalArgs rest (site.next grows₁ sound₁) formed.2 faults.2) fun vs m₂ grows₂ sound₂ others => ?_
    refine Safe.pure sound₂ fun w mem => ?_
    rcases List.mem_cons.1 mem with rfl | later
    · exact valued.grow grows₂
    · exact others w later

end Expressions

/-! ### Calls -/

section Calls

variable {n : Nat} {m : Machine} {paren : Token} {args : List Value}

/-- The arity check passes on to the rest when the count is right, and stops with a fault the
agreement allows when it is not. -/
theorem Safe.checked {β : Type} {x : Run β} {P : β → Machine → Prop} {arity : Nat} (sound : m.store.Sound)
    (rest : args.length = arity → Safe x m P) :
    Safe ((if (args.length != arity) = true then Run.fail paren (.arityMismatch arity args.length) else Pure.pure ()) >>=
      fun _ => x) m P := by
  by_cases same : args.length = arity
  · rw [if_neg (by simp [same])]
    exact Safe.step (run_pure () m) (Store.Grows.refl _) (rest same)
  · rw [if_pos (by simp [same])]
    exact Safe.stop sound trivial

/-- Where a call's body runs: in a new frame under the function's own that binds each parameter to
its argument, so that the frames cover the parameters' scope and the scopes outside it. -/
theorem callFrame_site {f : Closure} {ctx : Scope.Context} (kind : Scope.FunctionContext) {params : List Token}
    (sound : m.store.Sound) (ordinary : ∀ p ∈ params, Scope.Ordinary p.lexeme)
    (layout : Scope.Layout (Scope.paramScope params :: ctx.scopes) ctx.cls) (covers : m.store.Covers f.env ctx.scopes)
    (argsSound : ∀ v ∈ args, v.Sound m.store) (arity : args.length = params.length) :
    (m.store.alloc f.env).1.Grows ((params.zip args).foldl (fun s p => s.define m.store.frames.size p.1.lexeme (some p.2))
        (m.store.alloc f.env).1) ∧
      StmtSite { m with store := ((params.zip args).foldl (fun s p => s.define m.store.frames.size p.1.lexeme (some p.2))
        (m.store.alloc f.env).1) } m.store.frames.size ⟨Scope.paramScope params :: ctx.scopes, kind, ctx.cls⟩ := by
  let frame := m.store.frames.size
  let allocated := (m.store.alloc f.env).1
  have grows₁ := m.store.grows_alloc f.env
  have fits : ∀ p ∈ params.zip args, p.2.Fits p.1.lexeme := fun p mem =>
    Value.fits_of_ordinary (ordinary p.1 (List.of_mem_zip mem).1) p.2
  have valid : frame < allocated.frames.size := by simp [allocated,frame,Store.alloc_frames_size]
  obtain ⟨grows₂, binds, bound⟩ := grows_foldl_define (params.zip args) allocated fits valid
  have sound₂ := bound (sound.alloc f.env) fun p mem => (argsSound p.2 (List.of_mem_zip mem).2).grow grows₁
  let bindings := (params.zip args).foldl (fun s p => s.define frame p.1.lexeme (some p.2)) allocated
  have named : ∀ x ∈ Scope.paramScope params, bindings.Binds frame x := by
    intro x mem
    obtain ⟨p, listed, rfl⟩ := List.mem_map.1 mem
    have paired : p ∈ (params.zip args).map Prod.fst := by rw [List.map_fst_zip (Nat.le_of_eq arity.symm)]; exact listed
    obtain ⟨q, mem', rfl⟩ := List.mem_map.1 paired
    exact binds q mem'
  exact ⟨grows₂, sound₂, ⟨named, f.env, grows₂.parents frame f.env (m.store.parentOf_alloc_self f.env),
    covers.grow (grows₁.trans grows₂)⟩, Nat.lt_of_lt_of_le valid grows₂.size, layout⟩

/-- A call runs the function's body in a new frame, under the function's own, that binds each
parameter to its argument: so the frames cover the body's scopes. An initializer then reads `this`
from the function's own frame, which binds it. -/
theorem callClosure_safe (ih : Agreeing n) {f : Closure} (sound : m.store.Sound) (callable : f.Callable m.store)
    (argsSound : ∀ v ∈ args, v.Sound m.store) (arity : args.length = f.arity) :
    Safe (callClosure (n + 1) f args) m fun v m' => v.Sound m'.store := by
  obtain ⟨ctx, kind, ⟨name, params, body⟩, decl, ⟨-, ordinary, formed⟩, clean, layout, covers, isInit⟩ := callable
  have paramsOf : f.decl.params = params := by rw [decl]; rfl
  have bodyOf : f.decl.body = Stmt.addressedAll (Scope.paramScope params :: ctx.scopes) body := by rw [decl]; rfl
  rw [FunDecl.scopeFaults] at clean
  rw [Closure.arity,paramsOf] at arity
  rw [callClosure,paramsOf,bodyOf]
  have grows₁ := m.store.grows_alloc f.env
  obtain ⟨grows₂, site⟩ := callFrame_site kind sound ordinary layout covers argsSound arity
  refine Safe.step (run_alloc f.env m) grows₁ ?_
  refine Safe.step (run_forIn_define _ (fun p m => rfl) _ _) grows₂ ?_
  refine Safe.bind (ih.execBlock body site formed (List.append_eq_nil_iff.1 clean).2) fun flow m₃ grows₃ sound₃ returned => ?_
  by_cases initFlag : f.isInit = true
  · rw [if_pos initFlag]
    have found : Scope.locate (Token.lexeme ⟨.identifier, "this", f.decl.name.line⟩) ctx.scopes = .scoped 0 :=
      isInit initFlag
    obtain ⟨v, ran, valued, -⟩ := lookUp_scoped sound₃ (covers.grow (grows₁.trans (grows₂.trans grows₃))) found
    unfold Safe
    rw [ran]
    exact ⟨Store.Grows.refl _, sound₃, valued⟩
  · rw [if_neg initFlag]
    cases flow with
    | returned v => exact Safe.pure sound₃ returned
    | normal => exact Safe.pure sound₃ trivial

variable (ih : Agreeing n)
include ih

/-- Calling a function, a native or a class: a class makes an instance and runs its initializer
bound to it. -/
theorem callValue_safe (sound : m.store.Sound) {callee : Value} (valued : callee.Sound m.store)
    (argsSound : ∀ v ∈ args, v.Sound m.store) :
    Safe (callValue (n + 1) paren callee args) m fun v m' => v.Sound m'.store := by
  cases callee with
  | fn f =>
    rw [callValue]
    exact Safe.checked sound fun same => ih.callClosure sound valued argsSound same
  | native native =>
    cases native
    rw [callValue]
    exact Safe.checked sound fun _ => Safe.step (run_get m) (Store.Grows.refl _) (Safe.pure sound trivial)
  | cls c =>
    rw [callValue]
    refine Safe.checked sound fun same => ?_
    have grows₁ := m.store.grows_newObject
    have sound₁ := sound.newObject
    have cls := ClassDef.Sound.grow grows₁ valued
    refine Safe.step (run_newObject m) grows₁ ?_
    cases found : c.findMethod "init" with
    | none => exact Safe.pure sound₁ cls
    | some init =>
      refine Safe.bind (bindMethod_safe sound₁ (cls.findMethod found) cls) fun bound m₂ grows₂ sound₂ isBound => ?_
      have arity : args.length = bound.arity := by
        simp only [ClassDef.arity,found] at same
        simp [Closure.arity,isBound.2,same]
      have argsSound₂ v (mem : v ∈ args) := (argsSound v mem).grow (grows₁.trans grows₂)
      refine Safe.bind (ih.callClosure sound₂ isBound.1 argsSound₂ arity) fun _ m₃ grows₃ sound₃ _ => ?_
      exact Safe.pure sound₃ (cls.grow (grows₂.trans grows₃))
  | _ =>
    rw [callValue]
    · exact Safe.fail sound trivial
    all_goals (intro _ differs; cases differs)

end Calls

/-! ### Statements -/

section Statements

variable {n : Nat} {m : Machine} {env : Nat} {ctx : Scope.Context}

/-- A declaration that ends with a name bound in the current frame of a sound store grown from
the start, to a value that fits it, leaves what a statement must, with the name declared, if the
value is sound once the frames cover the scopes with the name declared. -/
theorem declared_leaves {s base : Store} {mach : Machine} {scopes : List (List String)} (grows : s.Grows base)
    (sound : base.Sound) (covers : base.Covers env scopes) (valid : env < base.frames.size) {name : String} {v : Value}
    (fits : v.Fits name)
    (valued : (base.define env name (some v)).Covers env (Scope.declareIn name scopes) → v.Sound (base.define env name (some v)))
    (bound : mach.store = base.define env name (some v)) :
    Leaves s (fun (flow : Flow) (m' : Machine) => flow.Sound m'.store ∧ m'.store.Covers env (Scope.declareIn name scopes))
      (.ok Flow.normal, mach) := by
  have grows' := base.grows_define env name fits
  have declared := (covers.grow grows').declare (Store.binds_define_self valid name fits)
  obtain ⟨store, output, nextId, clock, current⟩ := mach
  subst bound
  exact ⟨grows.trans grows', sound.define env name fits (valued declared), trivial, declared⟩

/-- Declaring a name in the current frame, to a value sound once it is bound, keeps the agreement
and covers the scopes with the name declared. -/
theorem declare_safe (site : StmtSite m env ctx) {name : String} {v : Value} (fits : v.Fits name)
    (valued : (m.store.define env name (some v)).Covers env (Scope.declareIn name ctx.scopes) →
      v.Sound (m.store.define env name (some v))) :
    Safe (define env name (some v) >>= fun _ => Pure.pure Flow.normal) m
      fun flow m' => flow.Sound m'.store ∧ m'.store.Covers env (Scope.declareIn name ctx.scopes) :=
  declared_leaves (Store.Grows.refl _) site.sound site.covers site.frame fits valued rfl

/-- The methods a class declaration tabulates are methods of the class: each resolved inside the
`this` scope, with the frame it closes over covering the scopes outside that one. -/
theorem methodTable_methods {s : Store} {mctx : Scope.Context} {outer : List (List String)} {menv : Nat}
    (inThis : mctx.scopes = ["this"] :: outer) (layout : Scope.Layout mctx.scopes mctx.cls) (covers : s.Covers menv outer) :
    ∀ (methods : List FunDecl) (t : List (String × Closure)) (id : Nat), FunDecl.FormedAll methods →
      FunDecl.scopeFaultsMethods mctx methods = [] → (∀ p ∈ t, p.2.Method s) →
      ∀ p ∈ methodTable menv (FunDecl.addressedAll mctx.scopes methods) t id, p.2.Method s
  | [], _, _, _, _, old => old
  | .mk name params body :: ds, t, id, formed, clean, old => by
    have faults := List.append_eq_nil_iff.1 clean
    obtain ⟨⟨named, ordinary, formedBody⟩, formedRest⟩ := formed
    refine methodTable_methods inThis layout covers ds _ (id + 1) formedRest faults.2 ?_
    intro p mem
    rcases List.mem_cons.1 mem with rfl | kept
    · exact ⟨mctx, _, .mk name params body, outer, inThis, rfl, ⟨named, ordinary, formedBody⟩, faults.1,
        layout.params ordinary, covers⟩
    · exact old p kept

/-- A function is declared, before its body is resolved, in the scope it stands in: so the frame
it closes over, once the function is bound there, covers the scopes of its body. -/
theorem exec_function {d : FunDecl} (site : StmtSite m env ctx) (formed : (Stmt.function d).Formed)
    (clean : (Stmt.function d).scopeFaults ctx = []) :
    Safe (exec (n + 1) env ((Stmt.function d).addressed ctx.scopes)) m
      fun flow m' => flow.Sound m'.store ∧ m'.store.Covers env (Scope.afterStmt ctx.scopes (.function d)) := by
  obtain ⟨name, params, body⟩ := d
  obtain ⟨named, ordinary, formedBody⟩ := formed
  have faults := (List.append_eq_nil_iff.1 clean).2
  have fits := Value.fits_of_ordinary named
  let inner := Scope.declareIn name.lexeme ctx.scopes
  simp only [Stmt.addressed]
  rw [exec]
  refine Safe.step (run_fresh m) (Store.Grows.refl _) ?_
  rw [FunDecl.name_addressed]
  refine declare_safe (site.next (Store.Grows.refl _) site.sound) (fits _) fun covers => ?_
  exact ⟨{ ctx with scopes := inner }, .function, .mk name params body, rfl, ⟨named, ordinary, formedBody⟩, faults,
    (site.layout.declare named).params ordinary, covers, fun no => (Bool.false_ne_true no).elim⟩

variable (ih : Agreeing n)
include ih

theorem exec_expression {e : Expr} (site : StmtSite m env ctx) (formed : (Stmt.expression e).Formed)
    (clean : (Stmt.expression e).scopeFaults ctx = []) :
    Safe (exec (n + 1) env ((Stmt.expression e).addressed ctx.scopes)) m
      fun flow m' => flow.Sound m'.store ∧ m'.store.Covers env (Scope.afterStmt ctx.scopes (.expression e)) := by
  simp only [Stmt.addressed]
  rw [exec]
  refine Safe.bind (ih.eval e site.expr formed clean) fun _ m' grows sound _ => ?_
  exact Safe.pure sound ⟨trivial, site.covers.grow grows⟩

theorem exec_print {e : Expr} (site : StmtSite m env ctx) (formed : (Stmt.print e).Formed)
    (clean : (Stmt.print e).scopeFaults ctx = []) :
    Safe (exec (n + 1) env ((Stmt.print e).addressed ctx.scopes)) m
      fun flow m' => flow.Sound m'.store ∧ m'.store.Covers env (Scope.afterStmt ctx.scopes (.print e)) := by
  simp only [Stmt.addressed]
  rw [exec]
  refine Safe.bind (ih.eval e site.expr formed clean) fun v m' grows sound _ => ?_
  exact Safe.step (run_write _ m') (Store.Grows.refl _) (Safe.pure sound ⟨trivial, site.covers.grow grows⟩)

/-- A variable's initializer runs with the variable declared but not yet bound; the variable is
then bound in the current frame. -/
theorem exec_varDecl {name : Token} {init : Option Expr} (site : StmtSite m env ctx) (formed : (Stmt.varDecl name init).Formed)
    (clean : (Stmt.varDecl name init).scopeFaults ctx = []) :
    Safe (exec (n + 1) env ((Stmt.varDecl name init).addressed ctx.scopes)) m
      fun flow m' => flow.Sound m'.store ∧ m'.store.Covers env (Scope.afterStmt ctx.scopes (.varDecl name init)) := by
  obtain ⟨ordinary, formedInit⟩ := formed
  have fits := Value.fits_of_ordinary ordinary
  cases init with
  | none =>
    simp only [Stmt.addressed,Option.map_none]
    rw [exec]
    exact Safe.step (run_pure _ m) (Store.Grows.refl _) (declare_safe site (fits _) fun _ => trivial)
  | some e =>
    have faults := (List.append_eq_nil_iff.1 clean).2
    have inner : ExprSite m env ctx.scopes (Scope.declareIn name.lexeme ctx.scopes) (Scope.initializing ctx.scopes name)
        ctx.cls := ⟨site.sound, site.covers, site.layout, Scope.pending_initializing ctx.scopes ordinary⟩
    simp only [Stmt.addressed,Option.map_some]
    rw [exec]
    refine Safe.bind (ih.eval e inner formedInit faults) fun v m' grows sound valued => ?_
    exact declare_safe (site.next grows sound) (fits v) fun _ => valued.grow (m'.store.grows_define env _ (fits v))

/-- A block runs its statements in a new frame under the current one. -/
theorem exec_block {body : List Stmt} (site : StmtSite m env ctx) (formed : (Stmt.block body).Formed)
    (clean : (Stmt.block body).scopeFaults ctx = []) :
    Safe (exec (n + 1) env ((Stmt.block body).addressed ctx.scopes)) m
      fun flow m' => flow.Sound m'.store ∧ m'.store.Covers env (Scope.afterStmt ctx.scopes (.block body)) := by
  simp only [Stmt.addressed]
  rw [exec]
  have grows := m.store.grows_alloc env
  have valid : m.store.frames.size < (m.store.alloc env).1.frames.size := by simp [Store.alloc_frames_size]
  have inner : StmtSite { m with store := (m.store.alloc env).1 } m.store.frames.size { ctx with scopes := [] :: ctx.scopes } :=
    ⟨site.sound.alloc env, ⟨fun _ none => absurd none List.not_mem_nil, env, m.store.parentOf_alloc_self env,
      site.covers.grow grows⟩, valid, site.layout.push List.not_mem_nil List.not_mem_nil⟩
  refine Safe.step (run_alloc env m) grows ((ih.execBlock body inner formed clean).weaken ?_)
  exact fun flow m' grows' returned => ⟨returned, site.covers.grow (grows.trans grows')⟩

/-- A branch runs where its condition left the frames; neither declares anything. -/
theorem exec_ifElse {c : Expr} {t : Stmt} {e : Option Stmt} (site : StmtSite m env ctx)
    (formed : (Stmt.ifElse c t e).Formed) (clean : (Stmt.ifElse c t e).scopeFaults ctx = []) :
    Safe (exec (n + 1) env ((Stmt.ifElse c t e).addressed ctx.scopes)) m
      fun flow m' => flow.Sound m'.store ∧ m'.store.Covers env (Scope.afterStmt ctx.scopes (.ifElse c t e)) := by
  obtain ⟨formedC, formedT, plainT, formedE⟩ := formed
  have plainE : Stmt.declaresOpt e = [] := by
    cases e with
    | none => rfl
    | some s => exact formedE.2
  simp only [Stmt.scopeFaults,List.append_eq_nil_iff] at clean
  obtain ⟨⟨faultsC, faultsT⟩, faultsE⟩ := clean
  have after : Scope.afterStmt ctx.scopes t = ctx.scopes := Scope.afterStmt_of_declares plainT
  have whole : Scope.afterStmt ctx.scopes (.ifElse c t e) = ctx.scopes :=
    Scope.afterStmt_of_declares (by simp [Stmt.declares,plainT,plainE])
  rw [after] at faultsE
  have branch : ∀ {m₁ : Machine}, StmtSite m₁ env ctx → Safe (exec n env (t.addressed ctx.scopes)) m₁
      fun flow m' => flow.Sound m'.store ∧ m'.store.Covers env ctx.scopes := fun site₁ =>
    (ih.exec t site₁ formedT faultsT).weaken fun flow m' _ finished => ⟨finished.1, after ▸ finished.2⟩
  cases e with
  | none =>
    simp only [Stmt.addressed,Stmt.addressedOpt]
    rw [exec,whole]
    refine Safe.bind (ih.eval c site.expr formedC faultsC) fun v m₁ grows₁ sound₁ _ => ?_
    have site₁ := site.next grows₁ sound₁
    exact Safe.ite (branch site₁) (Safe.pure sound₁ ⟨trivial, site₁.covers⟩)
  | some s =>
    have plainS : Scope.afterStmt ctx.scopes s = ctx.scopes := Scope.afterStmt_of_declares formedE.2
    simp only [Stmt.addressed,Stmt.addressedOpt,after]
    rw [exec,whole]
    refine Safe.bind (ih.eval c site.expr formedC faultsC) fun v m₁ grows₁ sound₁ _ => ?_
    have site₁ := site.next grows₁ sound₁
    refine Safe.ite (branch site₁) ?_
    exact (ih.exec s site₁ formedE.1 faultsE).weaken fun flow m' _ finished => ⟨finished.1, plainS ▸ finished.2⟩

theorem exec_whileLoop {c : Expr} {b : Stmt} (site : StmtSite m env ctx) (formed : (Stmt.whileLoop c b).Formed)
    (clean : (Stmt.whileLoop c b).scopeFaults ctx = []) :
    Safe (exec (n + 1) env ((Stmt.whileLoop c b).addressed ctx.scopes)) m
      fun flow m' => flow.Sound m'.store ∧ m'.store.Covers env (Scope.afterStmt ctx.scopes (.whileLoop c b)) := by
  obtain ⟨formedC, formedB, plainB⟩ := formed
  obtain ⟨faultsC, faultsB⟩ := List.append_eq_nil_iff.1 clean
  simp only [Stmt.addressed]
  rw [exec,Scope.afterStmt_of_declares (show (Stmt.whileLoop c b).declares = [] from plainB)]
  exact (ih.loop c b site formedC formedB plainB faultsC faultsB).weaken fun flow m' grows returned =>
    ⟨returned, site.covers.grow grows⟩

theorem exec_returnStmt {kw : Token} {v : Option Expr} (site : StmtSite m env ctx) (formed : (Stmt.returnStmt kw v).Formed)
    (clean : (Stmt.returnStmt kw v).scopeFaults ctx = []) :
    Safe (exec (n + 1) env ((Stmt.returnStmt kw v).addressed ctx.scopes)) m
      fun flow m' => flow.Sound m'.store ∧ m'.store.Covers env (Scope.afterStmt ctx.scopes (.returnStmt kw v)) := by
  cases v with
  | none =>
    simp only [Stmt.addressed,Option.map_none]
    rw [exec]
    exact Safe.pure site.sound ⟨trivial, site.covers⟩
  | some e =>
    simp only [Stmt.scopeFaults,List.append_eq_nil_iff] at clean
    simp only [Stmt.addressed,Option.map_some]
    rw [exec]
    refine Safe.bind (ih.eval e site.expr formed clean.2.2) fun v m' grows sound valued => ?_
    exact Safe.pure sound ⟨valued, site.covers.grow grows⟩

/-- A class is declared, its superclass read, a frame binding `super` made when there is one, and
the methods tabulated over the frame they close over; the class is then bound in the current frame.
The name is declared unassigned before and assigned after, but no code runs in between, so the
store passes from sound to sound as if the class were bound once. -/
theorem exec_classDecl {name : Token} {sup : Option Expr} {methods : List FunDecl} (site : StmtSite m env ctx)
    (formed : (Stmt.classDecl name sup methods).Formed) (clean : (Stmt.classDecl name sup methods).scopeFaults ctx = []) :
    Safe (exec (n + 1) env ((Stmt.classDecl name sup methods).addressed ctx.scopes)) m
      fun flow m' => flow.Sound m'.store ∧ m'.store.Covers env (Scope.afterStmt ctx.scopes (.classDecl name sup methods)) := by
  obtain ⟨ordinary, superIdent, formedMethods⟩ := formed
  have fits := Value.fits_of_ordinary ordinary
  cases sup with
  | none =>
    simp only [Stmt.scopeFaults,List.append_nil,List.append_eq_nil_iff] at clean
    simp only [Stmt.addressed,Option.map_none]
    rw [exec]
    unfold Safe
    simp only [run_bind,run_pure,run_define,run_fresh,run_get]
    rw [run_forIn_table]
    case entry =>
      intro d t m
      rfl
    simp only [Store.owner_define_self site.frame,run_bind,run_define,run_pure]
    refine declared_leaves (Store.Grows.refl _) site.sound site.covers site.frame (fits _) (fun covers => ?_)
      (Store.define_define ..)
    exact ⟨methodTable_methods rfl (Scope.layout_classScopes _ _) covers methods [] _ formedMethods clean.2
      fun _ none => absurd none List.not_mem_nil, trivial⟩
  | some e =>
    obtain ⟨superName, superAddr, rfl⟩ := superIdent e rfl
    obtain ⟨inner, identClean⟩ := site.superclass ordinary clean
    simp only [Stmt.scopeFaults,List.append_eq_nil_iff] at clean
    simp only [Stmt.addressed,Option.map_some]
    rw [exec]
    refine Safe.bind (ih.eval _ inner trivial identClean) fun v m₁ grows₁ sound₁ valued => ?_
    refine Safe.bind (superclassOf_safe sound₁ valued) fun c₀ m₂ grows₂ sound₂ superclass => ?_
    have site₂ := site.next (grows₁.trans grows₂) sound₂
    refine Safe.step (run_pure _ m₂) (Store.Grows.refl _) ?_
    unfold Safe
    simp only [run_bind,run_pure,run_define,run_alloc,run_fresh,run_get]
    rw [run_forIn_table]
    case entry =>
      intro d t m
      rfl
    -- the methods close over a new frame binding `super`; the class's own name, declared before it
    -- and bound after, is bound as if once, to the class
    let frame := m₂.store.frames.size
    let base := (m₂.store.alloc env).1.define frame "super" (some (.cls c₀))
    have superFits : (Value.cls c₀).Fits "super" := ⟨fun named => by simp at named, fun _ => ⟨c₀, rfl⟩⟩
    have allocated : frame < (m₂.store.alloc env).1.frames.size := by simp [frame,Store.alloc_frames_size]
    have grows := (m₂.store.grows_alloc env).trans ((m₂.store.alloc env).1.grows_define frame "super" superFits)
    have sound : base.Sound := (sound₂.alloc env).define frame "super" superFits (superclass.grow grows)
    have valid : env < base.frames.size := Nat.lt_of_lt_of_le site₂.frame grows.size
    have moved : ((m₂.store.define env name.lexeme none).alloc env).1.define m₂.store.frames.size "super"
        (some (.cls c₀)) = base.define env name.lexeme none := by
      rw [Store.define_alloc site₂.frame,Store.define_comm _ (Nat.ne_of_lt site₂.frame)]
    simp only [Store.define_frames_size,moved,Store.owner_define_self valid,run_bind,run_define,run_pure]
    have bound : ∀ v, base.Grows (base.define env name.lexeme (some v)) := fun v => base.grows_define env name.lexeme (fits v)
    have framed : ∀ v, (base.define env name.lexeme (some v)).Covers env (Scope.declareIn name.lexeme ctx.scopes) →
        (base.define env name.lexeme (some v)).Covers frame (["super"] :: Scope.declareIn name.lexeme ctx.scopes) := by
      intro v covers
      refine ⟨fun x named => ?_, env, ?_, covers⟩
      · rw [List.mem_singleton.1 named]
        exact (bound v).binds frame "super" (Store.binds_define_self allocated "super" superFits)
      · rw [Store.parentOf_define,Store.parentOf_define]
        exact m₂.store.parentOf_alloc_self env
    refine declared_leaves grows sound (site₂.covers.grow grows) valid (fits _) (fun covers => ?_) (Store.define_define ..)
    exact ⟨methodTable_methods rfl (Scope.layout_classScopes _ _) (framed _ covers) methods [] _ formedMethods clean.2
      (fun _ none => absurd none List.not_mem_nil), superclass.grow (grows.trans (bound _))⟩

theorem execBlock_safe {ss : List Stmt} (site : StmtSite m env ctx) (formed : Stmt.FormedAll ss)
    (clean : Stmt.scopeFaultsAll ctx ss = []) :
    Safe (execBlock (n + 1) env (Stmt.addressedAll ctx.scopes ss)) m fun flow m' => flow.Sound m'.store := by
  cases ss with
  | nil =>
    rw [Stmt.addressedAll,execBlock]
    exact Safe.pure site.sound trivial
  | cons s rest =>
    have faults := List.append_eq_nil_iff.1 clean
    rw [Stmt.addressedAll,execBlock]
    refine Safe.bind (ih.exec s site formed.1 faults.1) fun flow m₁ grows₁ sound₁ finished => ?_
    cases flow with
    | normal =>
      -- the rest runs in the scopes the statement left, which the frames now cover
      have site₁ : StmtSite m₁ env { ctx with scopes := Scope.afterStmt ctx.scopes s } :=
        ⟨sound₁, finished.2, Nat.lt_of_lt_of_le site.frame grows₁.size, site.layout.afterStmt formed.1⟩
      exact ih.execBlock rest site₁ formed.2 faults.2
    | returned v => exact Safe.pure sound₁ finished.1

/-- A loop tests its condition and runs its body, which declares nothing, where it started. -/
theorem loop_safe {c : Expr} {body : Stmt} (site : StmtSite m env ctx) (formedC : c.Formed) (formedB : body.Formed)
    (plainB : body.declares = []) (faultsC : c.scopeFaults none ctx.cls = []) (faultsB : body.scopeFaults ctx = []) :
    Safe (loop (n + 1) env (c.addressed ctx.scopes) (body.addressed ctx.scopes)) m fun flow m' => flow.Sound m'.store := by
  rw [loop]
  refine Safe.bind (ih.eval c site.expr formedC faultsC) fun v m₁ grows₁ sound₁ _ => ?_
  have site₁ := site.next grows₁ sound₁
  refine Safe.ite ?_ (Safe.pure sound₁ trivial)
  refine Safe.bind (ih.exec body site₁ formedB faultsB) fun flow m₂ grows₂ sound₂ finished => ?_
  cases flow with
  | normal => exact ih.loop c body (site₁.next grows₂ sound₂) formedC formedB plainB faultsC faultsB
  | returned v => exact Safe.pure sound₂ finished.1

end Statements

/-- Each rule keeps the agreement with one more unit of fuel than the rules it calls. -/
theorem agreeing_succ {n : Nat} (ih : Agreeing n) : Agreeing (n + 1) where
  eval e site formed clean := by
    cases e with
    | literal v =>
      simp only [Expr.addressed]
      rw [eval]
      exact Safe.pure site.sound (Literal.value_sound v _)
    | grouping inner =>
      simp only [Expr.addressed]
      rw [eval]
      exact ih.eval inner site formed clean
    | unary op r => exact eval_unary ih site formed clean
    | binary l op r => exact eval_binary ih site formed clean
    | logical l op r => exact eval_logical ih site formed clean
    | ident name a => exact eval_ident site clean
    | assign name v a => exact eval_assign ih site formed clean
    | call f paren args => exact eval_call ih site formed clean
    | get o name => exact eval_get ih site formed clean
    | set o name v => exact eval_set ih site formed clean
    | thisRef kw a => exact eval_this site formed
    | superGet kw method a => exact eval_super site formed clean
  evalArgs _ site formed clean := evalArgs_safe ih site formed clean
  callValue sound valued args := callValue_safe ih sound valued args
  callClosure sound callable args arity := callClosure_safe ih sound callable args arity
  exec st site formed clean := by
    cases st with
    | expression e => exact exec_expression ih site formed clean
    | print e => exact exec_print ih site formed clean
    | varDecl name init => exact exec_varDecl ih site formed clean
    | block body => exact exec_block ih site formed clean
    | ifElse c t e => exact exec_ifElse ih site formed clean
    | whileLoop c b => exact exec_whileLoop ih site formed clean
    | function d => exact exec_function site formed clean
    | returnStmt kw v => exact exec_returnStmt ih site formed clean
    | classDecl name sup methods => exact exec_classDecl ih site formed clean
  execBlock _ site formed clean := execBlock_safe ih site formed clean
  loop _ _ site formedC formedB plainB faultsC faultsB := loop_safe ih site formedC formedB plainB faultsC faultsB

/-- Every rule keeps the agreement, whatever the fuel. -/
theorem agreeing : ∀ n, Agreeing n
  | 0 => agreeing_zero
  | n + 1 => agreeing_succ (agreeing n)

/-- The top level keeps the agreement statement by statement: each runs in the globals frame,
which covers the empty list of scopes the top level resolves in. -/
theorem interpret_safe (fuel : Nat) (echo : Bool) : ∀ (stmts : List Stmt) {m : Machine}, m.store.Sound →
    Stmt.FormedAll stmts → Stmt.scopeFaultsAll Scope.Context.top stmts = [] →
    Safe (interpret fuel echo (Stmt.addressedAll [] stmts)) m fun _ _ => True
  | [], m, sound, _, _ => by
    rw [Stmt.addressedAll,interpret]
    exact Safe.pure sound trivial
  | st :: rest, m, sound, formed, clean => by
    obtain ⟨first, restClean⟩ := Stmt.scopeFaultsAll_top_cons clean
    have next : ∀ {m' : Machine}, m'.store.Sound → Safe (interpret fuel echo (Stmt.addressedAll [] rest)) m' fun _ _ => True :=
      fun sound' => interpret_safe fuel echo rest sound' formed.2 restClean
    have site : StmtSite m Store.globals Scope.Context.top := ⟨sound, trivial, sound.globals, Scope.layout_top⟩
    rw [Stmt.addressedAll_top_cons]
    cases st with
    | expression e =>
      simp only [Stmt.addressed]
      rw [interpret]
      apply Safe.ite
      · refine Safe.bind ((agreeing fuel).eval e site.expr formed.1 first) fun v m₁ _ sound₁ _ => ?_
        exact Safe.step (run_write _ m₁) (Store.Grows.refl _) (next sound₁)
      · exact Safe.bind ((agreeing fuel).exec (.expression e) site formed.1 first) fun _ m₁ _ sound₁ _ => next sound₁
    | _ =>
      rw [interpret]
      · refine Safe.bind ((agreeing fuel).exec _ site formed.1 first) fun flow m₁ _ sound₁ _ => ?_
        cases flow with
        | normal => exact next sound₁
        | returned v => exact Safe.pure sound₁ trivial
      · intro _ same
        simp [Stmt.addressed] at same

end Run

/-! ### Sessions -/

theorem Store.sound_empty : Store.empty.Sound where
  globals := by simp [Store.empty,Store.globals]
  bindings frame fr framed p mem := by
    simp only [Store.empty,List.getElem?_toArray] at framed
    cases frame with
    | zero =>
      simp only [List.getElem?_cons_zero,Option.some.injEq] at framed
      subst framed
      cases mem
    | succ frame => simp at framed
  fields r fs fielded := by simp [Store.empty] at fielded

/-- A fresh machine's store, whose globals bind only `clock`, is sound. -/
theorem Machine.sound_new : Machine.new.store.Sound :=
  Store.sound_empty.define Store.globals "clock" (Value.fits_of_ordinary ⟨by decide, by decide⟩ _) trivial

end Lox
