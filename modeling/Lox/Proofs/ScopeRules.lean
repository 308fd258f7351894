import Lox.Scope
/-!
The static rules of the scope pass, written as functions over the syntax, and the proof that the
pass follows them. A reference is addressed by the innermost scope that has declared its name
before it (`Expr.addressed`, `Stmt.addressed`); the faults are the breaches of the rules, in the
order of the walk (`Expr.scopeFaults`, `Stmt.scopeFaults`). The rules see each scope as the names
it has declared so far, and see the declared-but-undefined state of a `var` only as "this is the
initializer of local `x`". `resolveScopes_follows_rules`: the pass answers the faults when there
are any, and the addressed program otherwise.
-/
namespace Lox

namespace Scope

/-- The address of a name: the distance to the innermost scope that declares it, or global. -/
def locate (name : String) : List (List String) → Address
  | [] => .global
  | top :: rest =>
    if name ∈ top then .scoped 0
    else match locate name rest with
      | .scoped d => .scoped (d + 1)
      | .global => .global

/-- Declares a name in the innermost scope; the top level keeps no names. -/
def declareIn (name : String) : List (List String) → List (List String)
  | [] => []
  | top :: rest => (name :: top) :: rest

/-- Declaring a name that the innermost scope already declares. -/
def redeclaration (scopes : List (List String)) (name : Token) : List ScopeError :=
  match scopes with
  | top :: _ => if name.lexeme ∈ top then [⟨name, .redeclared⟩] else []
  | [] => []

/-- The local variable whose initializer is being read: none at the top level. -/
def initializing (scopes : List (List String)) (name : Token) : Option String :=
  match scopes with
  | [] => none
  | _ :: _ => some name.lexeme

/-- The scope a function's parameters open. -/
def paramScope (params : List Token) : List String := params.map Token.lexeme

/-- Parameters named like an earlier one of the same list. -/
def parameterFaults (seen : List String) : List Token → List ScopeError
  | [] => []
  | p :: ps => redeclaration [seen] p ++ parameterFaults (p.lexeme :: seen) ps

/-- The scopes around the methods of a class: `this`, inside `super` when there is a superclass. -/
def classScopes (scopes : List (List String)) (hasSuper : Bool) : List (List String) :=
  ["this"] :: if hasSuper then ["super"] :: scopes else scopes

/-- A class named as its own superclass. -/
def selfInheritance (name : Token) : Expr → List ScopeError
  | .ident superName _ => if superName.lexeme = name.lexeme then [⟨superName, .inheritsFromItself⟩] else []
  | _ => []

/-- A method named `init` is an initializer. -/
def methodKind (m : FunDecl) : FunctionContext :=
  if m.name.lexeme = "init" then .initializer else .method

/-- Where a statement stands, for the rules: the names each enclosing scope declares so far,
newest first, and the innermost function and class. -/
structure Context where
  scopes : List (List String)
  fn : FunctionContext
  cls : ClassContext

/-- The top level: no scopes, outside every function and class. -/
def Context.top : Context := ⟨[], .none, .none⟩

@[simp] theorem Context.top_scopes : Context.top.scopes = [] := rfl

end Scope

mutual

/-- The names a statement declares in the scope it stands in: a declaration its own name, an `if`
or a loop the names its branches declare (the parser never makes a branch a declaration). -/
def Stmt.declares : Stmt → List Token
  | .varDecl name _ => [name]
  | .function d => [d.name]
  | .classDecl name _ _ => [name]
  | .ifElse _ t e => t.declares ++ Stmt.declaresOpt e
  | .whileLoop _ b => b.declares
  | _ => []

/-- The names an optional statement declares. -/
def Stmt.declaresOpt : Option Stmt → List Token
  | some s => s.declares
  | none => []

end

/-- The scopes after a statement: the names it declares added to the innermost scope. -/
def Scope.afterStmt (scopes : List (List String)) (s : Stmt) : List (List String) :=
  s.declares.foldl (fun scopes name => declareIn name.lexeme scopes) scopes

/-! ### The addresses -/

mutual

/-- The expression with each reference addressed in `scopes`. -/
def Expr.addressed (scopes : List (List String)) : Expr → Expr
  | .literal v => .literal v
  | .grouping e => .grouping (e.addressed scopes)
  | .unary op r => .unary op (r.addressed scopes)
  | .binary l op r => .binary (l.addressed scopes) op (r.addressed scopes)
  | .logical l op r => .logical (l.addressed scopes) op (r.addressed scopes)
  | .ident name _ => .ident name (Scope.locate name.lexeme scopes)
  | .assign name v _ => .assign name (v.addressed scopes) (Scope.locate name.lexeme scopes)
  | .call f paren args => .call (f.addressed scopes) paren (Expr.addressedAll scopes args)
  | .get o name => .get (o.addressed scopes) name
  | .set o name v => .set (o.addressed scopes) name (v.addressed scopes)
  | .thisRef kw _ => .thisRef kw (Scope.locate kw.lexeme scopes)
  | .superGet kw m _ => .superGet kw m (Scope.locate kw.lexeme scopes)

/-- Each expression of a list addressed in `scopes`. -/
def Expr.addressedAll (scopes : List (List String)) : List Expr → List Expr
  | [] => []
  | e :: es => e.addressed scopes :: Expr.addressedAll scopes es

end

mutual

/-- The statement with each reference addressed in `scopes`. A `var` is declared before its
initializer is read, a function before its body, a class before its superclass. -/
def Stmt.addressed (scopes : List (List String)) : Stmt → Stmt
  | .expression e => .expression (e.addressed scopes)
  | .print e => .print (e.addressed scopes)
  | .varDecl name init => .varDecl name (init.map (·.addressed (Scope.declareIn name.lexeme scopes)))
  | .block body => .block (Stmt.addressedAll ([] :: scopes) body)
  | .ifElse c t e => .ifElse (c.addressed scopes) (t.addressed scopes) (Stmt.addressedOpt (Scope.afterStmt scopes t) e)
  | .whileLoop c b => .whileLoop (c.addressed scopes) (b.addressed scopes)
  | .function d => .function (d.addressed (Scope.declareIn d.name.lexeme scopes))
  | .returnStmt kw v => .returnStmt kw (v.map (·.addressed scopes))
  | .classDecl name sup methods =>
    let inClass := Scope.declareIn name.lexeme scopes
    .classDecl name (sup.map (·.addressed inClass))
      (FunDecl.addressedAll (Scope.classScopes inClass sup.isSome) methods)

/-- An optional statement addressed in `scopes`. -/
def Stmt.addressedOpt (scopes : List (List String)) : Option Stmt → Option Stmt
  | some s => some (s.addressed scopes)
  | none => none

/-- Statements addressed in turn, each seeing the names declared before it. -/
def Stmt.addressedAll (scopes : List (List String)) : List Stmt → List Stmt
  | [] => []
  | s :: ss => s.addressed scopes :: Stmt.addressedAll (Scope.afterStmt scopes s) ss

/-- A function's body addressed inside the scope of its parameters. -/
def FunDecl.addressed (scopes : List (List String)) : FunDecl → FunDecl
  | .mk name params body => .mk name params (Stmt.addressedAll (Scope.paramScope params :: scopes) body)

/-- Each method of a list addressed in `scopes`. -/
def FunDecl.addressedAll (scopes : List (List String)) : List FunDecl → List FunDecl
  | [] => []
  | d :: ds => d.addressed scopes :: FunDecl.addressedAll scopes ds

end

/-! ### The faults -/

mutual

/-- The faults of an expression in the order of the walk, where `initializing` is the local
variable whose initializer it is and `cls` the innermost class: a read of that variable, `this`
outside every class, and `super` outside every class or in a class without a superclass. -/
def Expr.scopeFaults (initializing : Option String) (cls : Scope.ClassContext) : Expr → List ScopeError
  | .literal _ => []
  | .grouping e => e.scopeFaults initializing cls
  | .unary _ r => r.scopeFaults initializing cls
  | .binary l _ r => l.scopeFaults initializing cls ++ r.scopeFaults initializing cls
  | .logical l _ r => l.scopeFaults initializing cls ++ r.scopeFaults initializing cls
  | .ident name _ => if initializing = some name.lexeme then [⟨name, .readsOwnInitializer⟩] else []
  | .assign _ v _ => v.scopeFaults initializing cls
  | .call f _ args => f.scopeFaults initializing cls ++ Expr.scopeFaultsAll initializing cls args
  | .get o _ => o.scopeFaults initializing cls
  -- a property write walks its value before its object
  | .set o _ v => v.scopeFaults initializing cls ++ o.scopeFaults initializing cls
  | .thisRef kw _ => if cls = .none then [⟨kw, .thisOutsideClass⟩] else []
  | .superGet kw _ _ =>
    match cls with
    | .none => [⟨kw, .superOutsideClass⟩]
    | .plain => [⟨kw, .superWithoutSuperclass⟩]
    | .sub => []

/-- The faults of a list of expressions, in order. -/
def Expr.scopeFaultsAll (initializing : Option String) (cls : Scope.ClassContext) : List Expr → List ScopeError
  | [] => []
  | e :: es => e.scopeFaults initializing cls ++ Expr.scopeFaultsAll initializing cls es

end

mutual

/-- The faults of a statement in the order of the walk: a name declared twice in one local
scope, `return` outside every function, a value returned from an initializer, a class
inheriting from itself, and the faults of the expressions it holds. -/
def Stmt.scopeFaults (ctx : Scope.Context) : Stmt → List ScopeError
  | .expression e => e.scopeFaults none ctx.cls
  | .print e => e.scopeFaults none ctx.cls
  | .varDecl name init =>
    Scope.redeclaration ctx.scopes name ++
      (init.map (·.scopeFaults (Scope.initializing ctx.scopes name) ctx.cls)).getD []
  | .block body => Stmt.scopeFaultsAll { ctx with scopes := [] :: ctx.scopes } body
  | .ifElse c t e =>
    c.scopeFaults none ctx.cls ++ t.scopeFaults ctx ++
      Stmt.scopeFaultsOpt { ctx with scopes := Scope.afterStmt ctx.scopes t } e
  | .whileLoop c b => c.scopeFaults none ctx.cls ++ b.scopeFaults ctx
  | .function d =>
    Scope.redeclaration ctx.scopes d.name ++
      d.scopeFaults { ctx with scopes := Scope.declareIn d.name.lexeme ctx.scopes } .function
  | .returnStmt kw v =>
    (if ctx.fn = .none then [⟨kw, .returnAtTopLevel⟩] else []) ++
      match v with
      | some e => (if ctx.fn = .initializer then [⟨kw, .returnValueFromInit⟩] else []) ++ e.scopeFaults none ctx.cls
      | none => []
  | .classDecl name sup methods =>
    let inClass := Scope.declareIn name.lexeme ctx.scopes
    Scope.redeclaration ctx.scopes name ++
      (match sup with
        | some e => Scope.selfInheritance name e ++ e.scopeFaults none .sub
        | none => []) ++
      FunDecl.scopeFaultsMethods
        ⟨Scope.classScopes inClass sup.isSome, ctx.fn, if sup.isSome then .sub else .plain⟩ methods

/-- The faults of an optional statement. -/
def Stmt.scopeFaultsOpt (ctx : Scope.Context) : Option Stmt → List ScopeError
  | some s => s.scopeFaults ctx
  | none => []

/-- The faults of statements in turn, each seeing the names declared before it. -/
def Stmt.scopeFaultsAll (ctx : Scope.Context) : List Stmt → List ScopeError
  | [] => []
  | s :: ss => s.scopeFaults ctx ++ Stmt.scopeFaultsAll { ctx with scopes := Scope.afterStmt ctx.scopes s } ss

/-- The faults of a function of the given kind: its parameters, then its body, which shares their
scope. -/
def FunDecl.scopeFaults (ctx : Scope.Context) (kind : Scope.FunctionContext) : FunDecl → List ScopeError
  | .mk _ params body =>
    Scope.parameterFaults [] params ++
      Stmt.scopeFaultsAll ⟨Scope.paramScope params :: ctx.scopes, kind, ctx.cls⟩ body

/-- The faults of the methods of a class, each an initializer if it is named `init`. -/
def FunDecl.scopeFaultsMethods (ctx : Scope.Context) : List FunDecl → List ScopeError
  | [] => []
  | m :: ms => m.scopeFaults ctx (Scope.methodKind m) ++ FunDecl.scopeFaultsMethods ctx ms

end

/-! ### What the pass does to its state -/

namespace Scope

/-- The state with faults added to those found. -/
def State.note (st : State) (faults : List ScopeError) : State :=
  { st with errors := st.errors ++ faults.toArray }

@[simp] theorem State.note_scopes (st : State) (faults : List ScopeError) : (st.note faults).scopes = st.scopes := rfl
@[simp] theorem State.note_fn (st : State) (faults : List ScopeError) : (st.note faults).fn = st.fn := rfl
@[simp] theorem State.note_cls (st : State) (faults : List ScopeError) : (st.note faults).cls = st.cls := rfl

@[simp] theorem State.note_nil (st : State) : st.note [] = st := by
  simp [State.note]

@[simp] theorem State.note_note (st : State) (a b : List ScopeError) : (st.note a).note b = st.note (a ++ b) := by
  simp [State.note,Array.append_assoc]

theorem run_bind {α β : Type} (x : M α) (f : α → M β) (st : State) :
    (x >>= f).run st = (f (x.run st).1).run (x.run st).2 := rfl

@[simp] theorem run_pure {α : Type} (a : α) (st : State) : (pure a : M α).run st = (a, st) := rfl

theorem run_map {α β : Type} (f : α → β) (x : M α) (st : State) :
    (f <$> x).run st = (f (x.run st).1, (x.run st).2) := rfl

@[simp] theorem run_get (st : State) : (get : M State).run st = (st, st) := rfl

theorem report_run (t : Token) (fault : ScopeFault) (st : State) :
    (report t fault).run st = ((), st.note [⟨t, fault⟩]) := rfl

theorem address_run (name : String) (st : State) : (address name).run st = (lookup name st.scopes, st) := rfl

/-- The names the innermost scope has declared but not yet defined. -/
def undefinedTop : List Names → String → Bool
  | top :: _, n => top.lookup n == some false
  | [], _ => false

/-- The pass's scopes declare the names the rules see, scope by scope. -/
def Tracks : List Names → List (List String) → Prop
  | [], [] => True
  | ns :: names, top :: scopes => (∀ n, (ns.lookup n).isSome ↔ n ∈ top) ∧ Tracks names scopes
  | _, _ => False

/-- A name is found where the rules find it. -/
theorem Tracks.lookup {names : List Names} {scopes : List (List String)} (tracks : Tracks names scopes)
    (n : String) : lookup n names = locate n scopes := by
  induction names generalizing scopes with
  | nil =>
    cases scopes with
    | nil => rfl
    | cons => exact tracks.elim
  | cons ns names ih =>
    cases scopes with
    | nil => exact tracks.elim
    | cons top scopes =>
      obtain ⟨same, rest⟩ := tracks
      by_cases mem : n ∈ top
      · simp [Scope.lookup,locate,mem,(same n).2 mem]
      · have absent : (ns.lookup n).isSome = false := Bool.eq_false_iff.2 fun found => mem ((same n).1 found)
        rw [Scope.lookup,locate,if_neg (by simp [absent]),if_neg mem]
        -- the two walks take one more link on the same answer from the scopes further out
        cases found : locate n scopes <;> simp only [ih rest,found]

/-! ### Names set in a scope -/

theorem Names.mem_set {ns : Names} {n : String} {d : Bool} {e : String × Bool} (mem : e ∈ ns.set n d) :
    e = (n, d) ∨ e ∈ ns := by
  induction ns with
  | nil => simpa [Names.set] using mem
  | cons p ns ih =>
    obtain ⟨m, old⟩ := p
    by_cases same : m = n
    · simp only [Names.set,same,beq_self_eq_true,if_true,List.mem_cons] at mem
      rcases mem with here | there
      · exact .inl here
      · exact .inr (List.mem_cons_of_mem _ there)
    · have differ : (m == n) = false := by simpa using same
      simp only [Names.set,differ,Bool.false_eq_true,if_false,List.mem_cons] at mem
      rcases mem with here | there
      · exact .inr (here ▸ List.mem_cons_self)
      · rcases ih there with set | old
        · exact .inl set
        · exact .inr (List.mem_cons_of_mem _ old)

theorem Names.mem_of_lookup {ns : Names} {n : String} {d : Bool} (found : ns.lookup n = some d) : (n, d) ∈ ns := by
  induction ns with
  | nil => simp at found
  | cons p ns ih =>
    obtain ⟨m, old⟩ := p
    by_cases same : n = m
    · subst same
      simp only [List.lookup_cons,beq_self_eq_true,Option.some.injEq] at found
      simp [found]
    · have differ : (n == m) = false := by simpa using same
      simp only [List.lookup_cons,differ] at found
      exact List.mem_cons_of_mem _ (ih found)

@[simp] theorem Names.lookup_set_self (ns : Names) (n : String) (d : Bool) : (ns.set n d).lookup n = some d := by
  induction ns with
  | nil => simp [Names.set]
  | cons p ns ih =>
    obtain ⟨m, old⟩ := p
    by_cases same : m = n
    · simp [Names.set,same]
    · have differ : (m == n) = false := by simpa using same
      have differ' : (n == m) = false := by simpa using Ne.symm same
      simp only [Names.set,differ,Bool.false_eq_true,if_false,List.lookup_cons,differ',ih]

theorem Names.lookup_set_ne (ns : Names) {n m : String} (d : Bool) (ne : n ≠ m) :
    (ns.set n d).lookup m = ns.lookup m := by
  induction ns with
  | nil => simp [Names.set,Ne.symm ne]
  | cons p ns ih =>
    obtain ⟨k, old⟩ := p
    by_cases same : k = n
    · subst same
      have differ : (m == k) = false := by simpa using Ne.symm ne
      simp only [Names.set,beq_self_eq_true,if_true,List.lookup_cons,differ]
    · have differ : (k == n) = false := by simpa using same
      simp only [Names.set,differ,Bool.false_eq_true,if_false,List.lookup_cons,ih]

@[simp] theorem Names.set_set (ns : Names) (n : String) (a b : Bool) : (ns.set n a).set n b = ns.set n b := by
  induction ns with
  | nil => simp [Names.set]
  | cons p ns ih =>
    obtain ⟨m, old⟩ := p
    by_cases same : m = n
    · simp [Names.set,same]
    · have differ : (m == n) = false := by simpa using same
      simp only [Names.set,differ,Bool.false_eq_true,if_false,ih]

/-- The innermost scope with a name set to `done`; the top level stays as it is. -/
def setTop (name : String) (done : Bool) : List Names → List Names
  | [] => []
  | top :: rest => top.set name done :: rest

@[simp] theorem setTop_cons (n : String) (d : Bool) (top : Names) (rest : List Names) :
    setTop n d (top :: rest) = top.set n d :: rest := rfl

@[simp] theorem setTop_setTop (names : List Names) (n : String) (a b : Bool) :
    setTop n b (setTop n a names) = setTop n b names := by
  cases names <;> simp [setTop]

theorem mark_run (name : String) (done : Bool) (st : State) :
    (mark name done).run st = ((), { st with scopes := setTop name done st.scopes }) := by
  obtain ⟨names, fn, cls, errors⟩ := st
  cases names <;> rfl

/-- Declaring a name in the innermost scope keeps the rules' view of it. -/
theorem Tracks.declare {names : List Names} {scopes : List (List String)} (tracks : Tracks names scopes)
    (n : String) (d : Bool) : Tracks (setTop n d names) (declareIn n scopes) := by
  cases names with
  | nil =>
    cases scopes with
    | nil => trivial
    | cons => exact tracks.elim
  | cons top rest =>
    cases scopes with
    | nil => exact tracks.elim
    | cons top' rest' =>
      obtain ⟨same, tracks⟩ := tracks
      refine ⟨fun m => ?_, tracks⟩
      by_cases here : n = m
      · subst here
        simp
      · simp [Names.lookup_set_ne top d here,same m,Ne.symm here]

theorem declare_run {scopes : List (List String)} (name : Token) (st : State) (tracks : Tracks st.scopes scopes) :
    (declare name).run st =
      ((), { st.note (redeclaration scopes name) with scopes := setTop name.lexeme false st.scopes }) := by
  obtain ⟨names, fn, cls, errors⟩ := st
  cases names with
  | nil =>
    cases scopes with
    | nil => rfl
    | cons => exact tracks.elim
  | cons top rest =>
    cases scopes with
    | nil => exact tracks.elim
    | cons top' rest' =>
      have same := tracks.1 name.lexeme
      by_cases mem : name.lexeme ∈ top'
      · have found : (top.lookup name.lexeme).isSome = true := same.2 mem
        simp only [declare,run_bind,run_get,found,if_true,report_run,mark_run,redeclaration,mem,setTop]
        rfl
      · have absent : (top.lookup name.lexeme).isSome = false := Bool.eq_false_iff.2 fun found => mem (same.1 found)
        simp only [declare,run_bind,run_get,absent,Bool.false_eq_true,if_false,mark_run,redeclaration,mem,setTop,
          State.note_nil]

/-- Every name of the pass's scopes is defined. -/
def Settled (names : List Names) : Prop := ∀ ns ∈ names, ∀ e ∈ ns, e.2 = true

theorem Settled.define {names : List Names} (settled : Settled names) (n : String) :
    Settled (setTop n true names) := by
  cases names with
  | nil => exact settled
  | cons top rest =>
    intro ns mem e inNs
    rcases List.mem_cons.1 mem with here | there
    · subst here
      rcases Names.mem_set inNs with set | old
      · simp [set]
      · exact settled top (by simp) e old
    · exact settled ns (List.mem_cons_of_mem _ there) e inNs

/-- Where every name is defined, none is pending. -/
theorem Settled.nonePending {names : List Names} (settled : Settled names) (n : String) :
    Scope.undefinedTop names n = false := by
  cases names with
  | nil => rfl
  | cons top rest =>
    cases found : top.lookup n with
    | none => simp [Scope.undefinedTop,found]
    | some d =>
      have := settled top (by simp) _ (Names.mem_of_lookup found)
      simp_all [Scope.undefinedTop]

/-- Right after a `var` is declared, its name is the one pending. -/
theorem Settled.pending_declared {names : List Names} {scopes : List (List String)} (settled : Settled names)
    (tracks : Tracks names scopes) (name : Token) (n : String) :
    Scope.undefinedTop (Scope.setTop name.lexeme false names) n = decide (initializing scopes name = some n) := by
  cases names with
  | nil =>
    cases scopes with
    | nil => simp [Scope.undefinedTop,Scope.setTop,initializing]
    | cons => exact tracks.elim
  | cons top rest =>
    cases scopes with
    | nil => exact tracks.elim
    | cons top' rest' =>
      by_cases here : name.lexeme = n
      · subst here
        simp [Scope.undefinedTop,Scope.setTop,initializing]
      · have := settled.nonePending n
        simp only [Scope.undefinedTop] at this
        simp [Scope.undefinedTop,Scope.setTop,initializing,Names.lookup_set_ne top false here,this,here]

/-! ### Expressions -/

section
variable {scopes : List (List String)} {initializing : Option String}

theorem address_tracks (name : String) (st : State) (tracks : Tracks st.scopes scopes) :
    (address name).run st = (locate name scopes, st) := by
  rw [address_run,tracks.lookup]

theorem address_note (name : String) (st : State) (faults : List ScopeError) (tracks : Tracks st.scopes scopes) :
    (address name).run (st.note faults) = (locate name scopes, st.note faults) :=
  address_tracks name (st.note faults) tracks

mutual

/-- Resolving an expression addresses its references and notes its faults, and changes nothing
else, when the scopes track `scopes` and `initializing` is the one name pending. -/
theorem resolveExpr_run : ∀ (e : Expr) (st : State), Tracks st.scopes scopes →
    (∀ n, undefinedTop st.scopes n = decide (initializing = some n)) →
    (resolveExpr e).run st = (e.addressed scopes, st.note (e.scopeFaults initializing st.cls))
  | .literal v, st, _, _ => by simp only [resolveExpr,run_pure,Expr.addressed,Expr.scopeFaults,State.note_nil]
  | .grouping e, st, tracks, pending => by
    simp only [resolveExpr,run_bind,run_pure,resolveExpr_run e st tracks pending,Expr.addressed,Expr.scopeFaults]
  | .unary op r, st, tracks, pending => by
    simp only [resolveExpr,run_bind,run_pure,resolveExpr_run r st tracks pending,Expr.addressed,Expr.scopeFaults]
  | .binary l op r, st, tracks, pending => by
    simp only [resolveExpr,run_bind,resolveExpr_run l st tracks pending]
    rw [resolveExpr_run r (st.note _) tracks pending]
    simp only [run_pure,Expr.addressed,Expr.scopeFaults,State.note_note,State.note_cls]
  | .logical l op r, st, tracks, pending => by
    simp only [resolveExpr,run_bind,resolveExpr_run l st tracks pending]
    rw [resolveExpr_run r (st.note _) tracks pending]
    simp only [run_pure,Expr.addressed,Expr.scopeFaults,State.note_note,State.note_cls]
  | .ident name a, st, tracks, pending => by
    have addr := fun faults => address_note name.lexeme st faults tracks
    have addr₀ := address_tracks name.lexeme st tracks
    have check := pending name.lexeme
    simp only [resolveExpr,run_bind,run_get]
    -- the pass looks for the name among the pending ones of the innermost scope
    cases hs : st.scopes with
    | nil =>
      have other : initializing ≠ some name.lexeme := by simpa [undefinedTop,hs] using check
      simp only [run_bind,addr₀,run_pure,Expr.addressed,Expr.scopeFaults,other,if_false,State.note_nil]
    | cons top rest =>
      rw [hs] at check
      simp only [undefinedTop] at check
      dsimp only
      rw [check]
      by_cases reads : initializing = some name.lexeme
      · simp only [reads,decide_true,if_true,run_bind,report_run,addr,run_pure,Expr.addressed,
          Expr.scopeFaults]
      · simp only [reads,decide_false,Bool.false_eq_true,if_false,run_bind,addr₀,run_pure,Expr.addressed,
          Expr.scopeFaults,State.note_nil]
  | .assign name v a, st, tracks, pending => by
    simp only [resolveExpr,run_bind,resolveExpr_run v st tracks pending,address_note _ st _ tracks,run_pure,
      Expr.addressed,Expr.scopeFaults]
  | .call f paren args, st, tracks, pending => by
    simp only [resolveExpr,run_bind,resolveExpr_run f st tracks pending]
    rw [resolveExprs_run args (st.note _) tracks pending]
    simp only [run_pure,Expr.addressed,Expr.scopeFaults,State.note_note,State.note_cls]
  | .get o name, st, tracks, pending => by
    simp only [resolveExpr,run_bind,run_pure,resolveExpr_run o st tracks pending,Expr.addressed,Expr.scopeFaults]
  | .set o name v, st, tracks, pending => by
    simp only [resolveExpr,run_bind,resolveExpr_run v st tracks pending]
    rw [resolveExpr_run o (st.note _) tracks pending]
    simp only [run_pure,Expr.addressed,Expr.scopeFaults,State.note_note,State.note_cls]
  | .thisRef kw a, st, tracks, _ => by
    have addr := fun faults => address_note kw.lexeme st faults tracks
    have addr₀ := address_tracks kw.lexeme st tracks
    simp only [resolveExpr,run_bind,run_get]
    by_cases outside : st.cls = .none
    · simp only [outside,beq_self_eq_true,if_true,run_bind,report_run,addr,run_pure,Expr.addressed,
        Expr.scopeFaults]
    · have inside : (st.cls == .none) = false := by simpa using outside
      simp only [inside,Bool.false_eq_true,if_false,run_bind,run_pure,addr₀,Expr.addressed,Expr.scopeFaults,
        outside,State.note_nil]
  | .superGet kw m a, st, tracks, _ => by
    have addr := fun faults => address_note kw.lexeme st faults tracks
    have addr₀ := address_tracks kw.lexeme st tracks
    simp only [resolveExpr,run_bind,run_get]
    cases hc : st.cls with
    | none => simp only [run_bind,report_run,addr,run_pure,Expr.addressed,Expr.scopeFaults]
    | plain => simp only [run_bind,report_run,addr,run_pure,Expr.addressed,Expr.scopeFaults]
    | sub => simp only [run_bind,run_pure,addr₀,Expr.addressed,Expr.scopeFaults,State.note_nil]

/-- Resolving a list of expressions resolves each in turn. -/
theorem resolveExprs_run : ∀ (es : List Expr) (st : State), Tracks st.scopes scopes →
    (∀ n, undefinedTop st.scopes n = decide (initializing = some n)) →
    (resolveExprs es).run st = (Expr.addressedAll scopes es, st.note (Expr.scopeFaultsAll initializing st.cls es))
  | [], st, _, _ => by simp only [resolveExprs,run_pure,Expr.addressedAll,Expr.scopeFaultsAll,State.note_nil]
  | e :: es, st, tracks, pending => by
    simp only [resolveExprs,run_bind,resolveExpr_run e st tracks pending]
    rw [resolveExprs_run es (st.note _) tracks pending]
    simp only [run_pure,Expr.addressedAll,Expr.scopeFaultsAll,State.note_note,State.note_cls]

end

theorem resolveOptExpr_run (init : Option Expr) (st : State) (tracks : Tracks st.scopes scopes)
    (pending : ∀ n, undefinedTop st.scopes n = decide (initializing = some n)) :
    (resolveOptExpr init).run st =
      (init.map (·.addressed scopes), st.note ((init.map (·.scopeFaults initializing st.cls)).getD [])) := by
  cases init with
  | none => simp only [resolveOptExpr,run_pure,Option.map_none,Option.getD_none,State.note_nil]
  | some e => simp only [resolveOptExpr,run_bind,resolveExpr_run e st tracks pending,run_pure,Option.map_some,
      Option.getD_some]

end

/-! ### Statements -/

theorem run_modify (f : State → State) (st : State) : (modify f : M Unit).run st = ((), f st) := rfl

theorem beginScope_run (st : State) : beginScope.run st = ((), { st with scopes := [] :: st.scopes }) := rfl

theorem endScope_run (st : State) : endScope.run st = ((), { st with scopes := st.scopes.drop 1 }) := rfl

/-- The pass's scopes after a statement: each name it declares set, and defined, in the innermost
scope. -/
def namesAfter (names : List Names) (s : Stmt) : List Names :=
  s.declares.foldl (fun names name => setTop name.lexeme true names) names

/-- The pass's scopes after an optional statement. -/
def namesAfterOpt (names : List Names) : Option Stmt → List Names
  | some s => namesAfter names s
  | none => names

/-- The pass's scopes after statements in turn. -/
def namesAfterAll (names : List Names) (ss : List Stmt) : List Names := ss.foldl namesAfter names

/-- Setting names changes only the innermost scope. -/
theorem setTop_fold_tail (names : List Names) (declared : List Token) :
    (declared.foldl (fun names name => setTop name.lexeme true names) names).tail = names.tail := by
  induction declared generalizing names with
  | nil => rfl
  | cons name declared ih =>
    rw [List.foldl_cons,ih]
    cases names <;> rfl

/-- A statement changes only the innermost scope. -/
theorem namesAfterAll_tail (names : List Names) (ss : List Stmt) :
    (namesAfterAll names ss).tail = names.tail := by
  induction ss generalizing names with
  | nil => rfl
  | cons s ss ih =>
    simp only [namesAfterAll,List.foldl_cons] at ih ⊢
    rw [ih,namesAfter,setTop_fold_tail]

theorem Tracks.fold {names : List Names} {scopes : List (List String)} (tracks : Tracks names scopes)
    (declared : List Token) :
    Tracks (declared.foldl (fun names name => Scope.setTop name.lexeme true names) names)
      (declared.foldl (fun scopes name => declareIn name.lexeme scopes) scopes) := by
  induction declared generalizing names scopes with
  | nil => exact tracks
  | cons name declared ih => exact ih (tracks.declare _ true)

theorem Settled.fold {names : List Names} (settled : Settled names) (declared : List Token) :
    Settled (declared.foldl (fun names name => Scope.setTop name.lexeme true names) names) := by
  induction declared generalizing names with
  | nil => exact settled
  | cons name declared ih => exact ih (settled.define _)

/-- The pass's state stands where the context does: its scopes track the context's, every name in
them is defined, and the innermost function and class are the context's. -/
structure Agrees (st : State) (ctx : Context) : Prop where
  tracks : Tracks st.scopes ctx.scopes
  settled : Settled st.scopes
  fn : st.fn = ctx.fn
  cls : st.cls = ctx.cls

/-- After a statement the pass still stands where the rules do. -/
theorem Agrees.after {st : State} {ctx : Context} (agrees : Agrees st ctx) (s : Stmt) (faults : List ScopeError) :
    Agrees { st.note faults with scopes := namesAfter st.scopes s } { ctx with scopes := afterStmt ctx.scopes s } :=
  ⟨agrees.tracks.fold _,agrees.settled.fold _,agrees.fn,agrees.cls⟩

theorem Tracks.enter {names : List Names} {scopes : List (List String)} (tracks : Tracks names scopes) :
    Tracks ([] :: names) ([] :: scopes) :=
  ⟨fun n => by simp,tracks⟩

theorem Settled.enter {names : List Names} (settled : Settled names) : Settled ([] :: names) := by
  intro ns mem e inNs
  rcases List.mem_cons.1 mem with here | there
  · simp [here] at inNs
  · exact settled ns there e inNs

/-- A scope holding one defined name, as a class's `this` and `super` scopes. -/
theorem Tracks.single {names : List Names} {scopes : List (List String)} (tracks : Tracks names scopes) (n : String) :
    Tracks ([(n, true)] :: names) ([n] :: scopes) := by
  refine ⟨fun m => ?_,tracks⟩
  by_cases same : m = n
  · simp [same]
  · have differ : (m == n) = false := by simpa using same
    simp [List.lookup_cons,differ,same]

theorem Settled.single {names : List Names} (settled : Settled names) (n : String) : Settled ([(n, true)] :: names) := by
  intro ns mem e inNs
  rcases List.mem_cons.1 mem with here | there
  · subst here
    simp_all
  · exact settled ns there e inNs

theorem namesAfter_ifElse (names : List Names) (c : Expr) (t : Stmt) (e : Option Stmt) :
    namesAfter names (.ifElse c t e) = namesAfterOpt (namesAfter names t) e := by
  cases e <;> simp [namesAfter,namesAfterOpt,Stmt.declares,Stmt.declaresOpt,List.foldl_append]

theorem Agrees.note {st : State} {ctx : Context} (agrees : Agrees st ctx) (faults : List ScopeError) :
    Agrees (st.note faults) ctx :=
  ⟨agrees.tracks,agrees.settled,agrees.fn,agrees.cls⟩

/-- After a name is declared and defined the pass still stands where the rules do. -/
theorem Agrees.declare {st : State} {ctx : Context} (agrees : Agrees st ctx) (name : String) (faults : List ScopeError) :
    Agrees { st.note faults with scopes := setTop name true st.scopes }
      { ctx with scopes := declareIn name ctx.scopes } :=
  ⟨agrees.tracks.declare _ true,agrees.settled.define _,agrees.fn,agrees.cls⟩

theorem Agrees.enter {st : State} {ctx : Context} (agrees : Agrees st ctx) :
    Agrees { st with scopes := [] :: st.scopes } { ctx with scopes := [] :: ctx.scopes } :=
  ⟨agrees.tracks.enter,agrees.settled.enter,agrees.fn,agrees.cls⟩

theorem Agrees.pending {st : State} {ctx : Context} (agrees : Agrees st ctx) (n : String) :
    undefinedTop st.scopes n = decide ((none : Option String) = some n) := by
  simp [agrees.settled.nonePending n]

/-- An expression in a statement is resolved with no variable pending, in the context's class. -/
theorem resolveExpr_agrees (e : Expr) (ctx : Context) (st : State) (agrees : Agrees st ctx) :
    (resolveExpr e).run st = (e.addressed ctx.scopes, st.note (e.scopeFaults none ctx.cls)) := by
  rw [resolveExpr_run e st agrees.tracks agrees.pending,agrees.cls]

theorem declareIn_fold (params : List Token) (top : List String) (rest : List (List String)) :
    params.foldl (fun scopes name => declareIn name.lexeme scopes) (top :: rest) =
      ((params.map Token.lexeme).reverse ++ top) :: rest := by
  induction params generalizing top with
  | nil => rfl
  | cons p ps ih =>
    rw [List.foldl_cons,show declareIn p.lexeme (top :: rest) = (p.lexeme :: top) :: rest from rfl,ih]
    simp

/-- The scopes after a function's parameters track the scope the rules give them. -/
theorem Tracks.params {names : List Names} {scopes : List (List String)} (tracks : Tracks names scopes)
    (params : List Token) :
    Tracks (params.foldl (fun names p => setTop p.lexeme true names) ([] :: names)) (paramScope params :: scopes) := by
  have folded := tracks.enter.fold params
  rw [declareIn_fold] at folded
  generalize params.foldl (fun names p => setTop p.lexeme true names) ([] :: names) = after at folded ⊢
  cases after with
  | nil => exact folded.elim
  | cons ns rest => exact ⟨fun n => (folded.1 n).trans (by simp [paramScope]),folded.2⟩

theorem define_run (name : Token) (st : State) :
    (define name).run st = ((), { st with scopes := setTop name.lexeme true st.scopes }) :=
  mark_run name.lexeme true st

theorem redeclaration_cons (top : List String) (rest : List (List String)) (name : Token) :
    redeclaration (top :: rest) name = redeclaration [top] name := rfl

/-- The loop over a function's parameters declares and defines each in the innermost scope, in
order, noting each one named like an earlier one. -/
theorem params_run (params : List Token) (st : State) (seen : List String) (scopes : List (List String))
    (tracks : Tracks st.scopes (seen :: scopes)) :
    (forIn params PUnit.unit fun p _ => do declare p; define p; pure (ForInStep.yield PUnit.unit) : M PUnit).run st =
      (PUnit.unit, { st.note (parameterFaults seen params) with
        scopes := params.foldl (fun names p => setTop p.lexeme true names) st.scopes }) := by
  induction params generalizing st seen with
  | nil => simp only [List.forIn_nil,run_pure,parameterFaults,State.note_nil,List.foldl_nil]
  | cons p ps ih =>
    simp only [List.forIn_cons,run_bind,declare_run p st tracks,define_run,setTop_setTop,run_pure]
    rw [ih { st.note (redeclaration (seen :: scopes) p) with scopes := setTop p.lexeme true st.scopes }
      (p.lexeme :: seen) (tracks.declare p.lexeme true)]
    simp [State.note,parameterFaults,redeclaration_cons,Array.append_assoc]

/-- The check of a class against its superclass notes the fault of inheriting from itself. -/
theorem selfCheck_run (name : Token) (e : Expr) (next : M Stmt) (st : State) :
    (match e with
      | .ident superName _ =>
        if (superName.lexeme == name.lexeme) = true then do report superName .inheritsFromItself; next else next
      | _ => next).run st = next.run (st.note (selfInheritance name e)) := by
  split
  · next superName _ =>
    by_cases same : superName.lexeme = name.lexeme
    · rw [if_pos (by simp [same]),run_bind,report_run]
      simp [same,selfInheritance]
    · rw [if_neg (by simp [same])]
      simp [same,selfInheritance]
  · next other =>
    have quiet : selfInheritance name e = [] := by
      unfold selfInheritance
      split
      · next superName _ => exact absurd rfl (other superName _)
      · rfl
    rw [quiet,State.note_nil]

mutual

/-- Resolving a statement addresses its references, notes its faults and declares its name, when
the pass stands where the rules do. -/
theorem resolveStmt_run : ∀ (s : Stmt) (ctx : Context) (st : State), Agrees st ctx →
    (resolveStmt s).run st =
      (s.addressed ctx.scopes, { st.note (s.scopeFaults ctx) with scopes := namesAfter st.scopes s })
  | .expression e, ctx, st, agrees => by
    simp only [resolveStmt,run_bind,resolveExpr_run e st agrees.tracks agrees.pending,run_pure,agrees.cls]
    rfl
  | .print e, ctx, st, agrees => by
    simp only [resolveStmt,run_bind,resolveExpr_run e st agrees.tracks agrees.pending,run_pure,agrees.cls]
    rfl
  | .varDecl name init, ctx, st, agrees => by
    -- the name is declared, pending while its initializer is read, then defined
    simp only [resolveStmt,run_bind,declare_run name st agrees.tracks]
    rw [resolveOptExpr_run init _ (agrees.tracks.declare _ false) (agrees.settled.pending_declared agrees.tracks name)]
    simp only [define,mark_run,run_pure,Stmt.addressed,Stmt.scopeFaults,namesAfter,Stmt.declares]
    simp [State.note,agrees.cls,Array.append_assoc]
  | .block body, ctx, st, agrees => by
    simp only [resolveStmt,run_bind,beginScope_run]
    rw [resolveStmts_run body _ _ agrees.enter]
    simp only [endScope_run,run_pure,Stmt.addressed,Stmt.scopeFaults,namesAfter,Stmt.declares,List.foldl_nil,
      List.drop_one]
    simp [State.note,namesAfterAll_tail]
  | .ifElse c t e, ctx, st, agrees => by
    simp only [resolveStmt,run_bind,resolveExpr_run c st agrees.tracks agrees.pending]
    rw [resolveStmt_run t ctx _ (agrees.note _)]
    rw [resolveOptStmt_run e _ _ ((agrees.note _).after t _)]
    simp only [run_pure,Stmt.addressed,Stmt.scopeFaults,namesAfter_ifElse]
    simp [State.note,agrees.cls,Array.append_assoc]
  | .whileLoop c b, ctx, st, agrees => by
    simp only [resolveStmt,run_bind,resolveExpr_run c st agrees.tracks agrees.pending]
    rw [resolveStmt_run b ctx _ (agrees.note _)]
    simp only [run_pure,Stmt.addressed,Stmt.scopeFaults,namesAfter,Stmt.declares]
    simp [State.note,agrees.cls,Array.append_assoc]
  | .function d, ctx, st, agrees => by
    simp only [resolveStmt,run_bind,declare_run d.name st agrees.tracks,define,mark_run,setTop_setTop]
    rw [resolveFunction_run d .function _ _ (agrees.declare _ _)]
    simp only [run_pure,Stmt.addressed,Stmt.scopeFaults,namesAfter,Stmt.declares]
    simp [State.note,Array.append_assoc]
  | .returnStmt kw v, ctx, st, agrees => by
    -- both checks read the innermost function
    have atTop : (st.fn == .none) = decide (ctx.fn = .none) := by rw [agrees.fn]; cases ctx.fn <;> rfl
    have atInit : (st.fn == .initializer) = decide (ctx.fn = .initializer) := by rw [agrees.fn]; cases ctx.fn <;> rfl
    simp only [resolveStmt,run_bind,run_get,State.note_fn,atTop]
    cases v with
    | none =>
      by_cases top : ctx.fn = .none
      · rw [if_pos (decide_eq_true top)]
        simp only [run_bind,report_run,run_pure,Stmt.addressed,Option.map_none,Stmt.scopeFaults,top,if_true,
          List.append_nil,namesAfter,Stmt.declares,List.foldl_nil]
        rfl
      · rw [if_neg (by simpa using top)]
        simp only [run_pure,Stmt.addressed,Option.map_none,Stmt.scopeFaults,top,if_false,List.append_nil,namesAfter,
          Stmt.declares,List.foldl_nil,State.note_nil]
    | some e =>
      have value := fun faults => resolveExpr_agrees e ctx (st.note faults) (agrees.note faults)
      by_cases top : ctx.fn = .none
      · rw [if_pos (decide_eq_true top)]
        simp only [run_bind,report_run,run_get,State.note_fn,atInit,top,reduceCtorEq,decide_false,Bool.false_eq_true,
          if_false,value,run_pure,State.note_note,Stmt.addressed,Option.map_some,Stmt.scopeFaults,if_true,
          List.nil_append,namesAfter,Stmt.declares,List.foldl_nil]
        rfl
      · rw [if_neg (by simpa using top)]
        simp only [run_bind,run_get,atInit]
        by_cases init : ctx.fn = .initializer
        · rw [if_pos (decide_eq_true init)]
          simp only [run_bind,report_run,value,run_pure,Stmt.addressed,Option.map_some,Stmt.scopeFaults,init,
            reduceCtorEq,if_true,if_false,List.nil_append,State.note_note,namesAfter,Stmt.declares,List.foldl_nil]
          rfl
        · rw [if_neg (by simpa using init)]
          simp only [run_bind,resolveExpr_agrees e ctx st agrees,run_pure,Stmt.addressed,Option.map_some,Stmt.scopeFaults,
            top,init,if_false,List.nil_append,namesAfter,Stmt.declares,List.foldl_nil]
          rfl
  | .classDecl name sup methods, ctx, st, agrees => by
    simp only [resolveStmt,run_bind,run_get,run_modify]
    rw [declare_run name { st with cls := .plain } agrees.tracks]
    simp only [define_run,setTop_setTop]
    cases sup with
    | none =>
      simp only [run_bind,run_pure,beginScope_run,mark_run,Option.isSome_none,Bool.false_eq_true,if_false]
      rw [resolveMethods_run methods ⟨classScopes (declareIn name.lexeme ctx.scopes) false, ctx.fn, .plain⟩ _ ?_]
      · simp only [endScope_run,run_modify]
        simp [State.note,Stmt.addressed,Stmt.scopeFaults,namesAfter,Stmt.declares,Array.append_assoc]
      · exact ⟨(agrees.tracks.declare _ true).single "this",(agrees.settled.define _).single "this",agrees.fn,rfl⟩
    | some e =>
      -- the superclass is checked against the class's name, then resolved inside the class
      -- the pass's own match on the superclass unfolds to the one `selfCheck_run` is stated with
      erw [selfCheck_run]
      simp only [run_bind,run_modify]
      rw [resolveExpr_agrees _ ⟨declareIn name.lexeme ctx.scopes, ctx.fn, .sub⟩ _ ?_]
      · simp only [beginScope_run,mark_run,run_pure,Option.isSome_some,if_true,setTop_cons]
        rw [resolveMethods_run methods ⟨classScopes (declareIn name.lexeme ctx.scopes) true, ctx.fn, .sub⟩ _ ?_]
        · simp only [run_bind,endScope_run,run_modify,run_pure]
          simp [State.note,Stmt.addressed,Stmt.scopeFaults,namesAfter,Stmt.declares,Array.append_assoc]
        · exact ⟨((agrees.tracks.declare _ true).single "super").single "this",
            ((agrees.settled.define _).single "super").single "this",agrees.fn,rfl⟩
      · exact ⟨agrees.tracks.declare _ true,agrees.settled.define _,agrees.fn,rfl⟩

/-- Resolving an optional statement. -/
theorem resolveOptStmt_run : ∀ (s : Option Stmt) (ctx : Context) (st : State), Agrees st ctx →
    (resolveOptStmt s).run st =
      (Stmt.addressedOpt ctx.scopes s, { st.note (Stmt.scopeFaultsOpt ctx s) with scopes := namesAfterOpt st.scopes s })
  | none, ctx, st, _ => by
    simp only [resolveOptStmt,run_pure,Stmt.addressedOpt,Stmt.scopeFaultsOpt,State.note_nil,namesAfterOpt]
  | some s, ctx, st, agrees => by
    simp only [resolveOptStmt,run_bind,resolveStmt_run s ctx st agrees,run_pure,Stmt.addressedOpt,
      Stmt.scopeFaultsOpt,namesAfterOpt]

/-- Resolving statements in turn, each where the ones before it leave the pass. -/
theorem resolveStmts_run : ∀ (ss : List Stmt) (ctx : Context) (st : State), Agrees st ctx →
    (resolveStmts ss).run st =
      (Stmt.addressedAll ctx.scopes ss, { st.note (Stmt.scopeFaultsAll ctx ss) with scopes := namesAfterAll st.scopes ss })
  | [], ctx, st, _ => by
    simp only [resolveStmts,run_pure,Stmt.addressedAll,Stmt.scopeFaultsAll,State.note_nil]
    rfl
  | s :: ss, ctx, st, agrees => by
    simp only [resolveStmts,run_bind,resolveStmt_run s ctx st agrees]
    rw [resolveStmts_run ss _ _ (agrees.after s _)]
    simp only [run_pure,Stmt.addressedAll,Stmt.scopeFaultsAll]
    simp [State.note,namesAfterAll,Array.append_assoc]

/-- Resolving a function of the given kind: its parameters and body inside one new scope, the
pass's scopes and innermost function as they were after it. -/
theorem resolveFunction_run : ∀ (d : FunDecl) (kind : FunctionContext) (ctx : Context) (st : State), Agrees st ctx →
    (resolveFunction d kind).run st = (d.addressed ctx.scopes, st.note (d.scopeFaults ctx kind))
  | .mk name params body, kind, ctx, st, agrees => by
    simp only [resolveFunction,run_bind,run_get,run_modify,beginScope_run]
    rw [params_run params { st with scopes := [] :: st.scopes, fn := kind } [] ctx.scopes agrees.tracks.enter]
    -- the body runs in the scope of the parameters, inside the function
    have inside : Agrees { { st with scopes := [] :: st.scopes, fn := kind }.note (parameterFaults [] params) with
        scopes := params.foldl (fun names p => setTop p.lexeme true names) ([] :: st.scopes) }
        ⟨paramScope params :: ctx.scopes, kind, ctx.cls⟩ :=
      ⟨agrees.tracks.params params,agrees.settled.enter.fold params,rfl,agrees.cls⟩
    rw [resolveStmts_run body _ _ inside]
    simp only [endScope_run,run_pure,FunDecl.addressed,FunDecl.scopeFaults,List.drop_one]
    simp [State.note,namesAfterAll_tail,setTop_fold_tail,Array.append_assoc]

/-- Resolving the methods of a class in turn. -/
theorem resolveMethods_run : ∀ (ms : List FunDecl) (ctx : Context) (st : State), Agrees st ctx →
    (resolveMethods ms).run st = (FunDecl.addressedAll ctx.scopes ms, st.note (FunDecl.scopeFaultsMethods ctx ms))
  | [], ctx, st, _ => by simp only [resolveMethods,run_pure,FunDecl.addressedAll,FunDecl.scopeFaultsMethods,State.note_nil]
  | m :: ms, ctx, st, agrees => by
    have kind : (if (m.name.lexeme == "init") = true then FunctionContext.initializer else .method) = methodKind m := by
      simp [methodKind]
    simp only [resolveMethods,run_bind,kind,resolveFunction_run m _ ctx st agrees]
    rw [resolveMethods_run ms ctx (st.note _) (agrees.note _)]
    simp only [run_pure,FunDecl.addressedAll,FunDecl.scopeFaultsMethods,State.note_note]

end

end Scope

/-! ### The pass follows the rules -/

/-- The pass starts at the top level. -/
theorem Scope.start_agrees : Scope.Agrees Scope.start Scope.Context.top :=
  ⟨trivial,fun _ absent => absurd absent List.not_mem_nil,rfl,rfl⟩

/-- The scope pass answers the faults the rules find, in the order of the walk, when there are any,
and otherwise the program with every reference addressed as the rules address it. -/
theorem resolveScopes_follows_rules (stmts : List Stmt) :
    Stmt.resolveScopes stmts =
      if Stmt.scopeFaultsAll Scope.Context.top stmts = [] then .ok (Stmt.addressedAll [] stmts)
      else .error (Stmt.scopeFaultsAll Scope.Context.top stmts) := by
  unfold Stmt.resolveScopes
  rw [Scope.resolveStmts_run stmts _ _ Scope.start_agrees]
  by_cases clean : Stmt.scopeFaultsAll Scope.Context.top stmts = []
  · rw [if_pos clean]
    simp [clean,Scope.State.note,Scope.start]
  · rw [if_neg clean]
    simp [clean,Scope.State.note,Scope.start]

/-- A program the scope pass accepts breaks no rule, and comes back with every reference addressed
as the rules address it. -/
theorem Stmt.resolveScopes_ok {stmts r : List Stmt} (resolved : Stmt.resolveScopes stmts = .ok r) :
    Stmt.scopeFaultsAll Scope.Context.top stmts = [] ∧ r = Stmt.addressedAll [] stmts := by
  unfold Stmt.resolveScopes at resolved
  rw [Scope.resolveStmts_run stmts _ _ Scope.start_agrees] at resolved
  by_cases clean : Stmt.scopeFaultsAll Scope.Context.top stmts = []
  · simp [clean,Scope.State.note,Scope.start] at resolved
    exact ⟨clean, resolved.symm⟩
  · simp [clean,Scope.State.note,Scope.start] at resolved

/-- A program that breaks no scope rule is accepted, with every reference addressed as the rules
address it. -/
theorem Stmt.resolveScopes_of_clean {stmts : List Stmt} (clean : Stmt.scopeFaultsAll Scope.Context.top stmts = []) :
    Stmt.resolveScopes stmts = .ok (Stmt.addressedAll [] stmts) := by
  unfold Stmt.resolveScopes
  rw [Scope.resolveStmts_run stmts _ _ Scope.start_agrees]
  simp [clean,Scope.State.note,Scope.start]

/-- `{ var a = a; }` reads a local in its own initializer. -/
example : (Stmt.scopeFaultsAll Scope.Context.top
    [.block [.varDecl ⟨.identifier, "a", 1⟩ (some (.ident ⟨.identifier, "a", 1⟩ .global))]]).map (·.fault) =
      [.readsOwnInitializer] := by
  decide

end Lox
