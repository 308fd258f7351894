import Lox.Session
import Lox.Proofs.ScopeRules
/-!
Renumbering the lines of everything a run holds. A line number is only ever copied from one token
to another and reported: no rule of the scope pass or of the interpreter compares two lines or
computes with one. This module renumbers the lines of tokens, programs, values, stores and
machines by a map `g : Nat → Nat` (`mapLines`), proves that renumbering by one map then another is
renumbering by their composite, and that every operation of the store and every scope rule
commutes with a renumbering. A machine is renumbered together with output written before it
(`Machine.mapLines g before`), which the interpreter only ever appends to.
-/
namespace Lox

/-- A token whose line is renumbered by `g`. -/
def Token.mapLines (g : Nat → Nat) (t : Token) : Token := { t with line := g t.line }

mutual

/-- An expression whose tokens' lines are renumbered by `g`. -/
def Expr.mapLines (g : Nat → Nat) : Expr → Expr
  | .literal v => .literal v
  | .grouping e => .grouping (e.mapLines g)
  | .unary op r => .unary (op.mapLines g) (r.mapLines g)
  | .binary l op r => .binary (l.mapLines g) (op.mapLines g) (r.mapLines g)
  | .logical l op r => .logical (l.mapLines g) (op.mapLines g) (r.mapLines g)
  | .ident n a => .ident (n.mapLines g) a
  | .assign n v a => .assign (n.mapLines g) (v.mapLines g) a
  | .call f paren args => .call (f.mapLines g) (paren.mapLines g) (Expr.mapLinesAll g args)
  | .get o n => .get (o.mapLines g) (n.mapLines g)
  | .set o n v => .set (o.mapLines g) (n.mapLines g) (v.mapLines g)
  | .thisRef kw a => .thisRef (kw.mapLines g) a
  | .superGet kw m a => .superGet (kw.mapLines g) (m.mapLines g) a

/-- Each expression of a list renumbered. -/
def Expr.mapLinesAll (g : Nat → Nat) : List Expr → List Expr
  | [] => []
  | e :: es => e.mapLines g :: Expr.mapLinesAll g es

end

mutual

/-- A statement whose tokens' lines are renumbered by `g`. -/
def Stmt.mapLines (g : Nat → Nat) : Stmt → Stmt
  | .expression e => .expression (e.mapLines g)
  | .print e => .print (e.mapLines g)
  | .varDecl name init => .varDecl (name.mapLines g) (init.map (Expr.mapLines g))
  | .block body => .block (Stmt.mapLinesAll g body)
  | .ifElse c t e => .ifElse (c.mapLines g) (t.mapLines g) (Stmt.mapLinesOpt g e)
  | .whileLoop c b => .whileLoop (c.mapLines g) (b.mapLines g)
  | .function d => .function (d.mapLines g)
  | .returnStmt kw v => .returnStmt (kw.mapLines g) (v.map (Expr.mapLines g))
  | .classDecl name sup methods =>
    .classDecl (name.mapLines g) (sup.map (Expr.mapLines g)) (FunDecl.mapLinesAll g methods)

/-- An optional statement renumbered. -/
def Stmt.mapLinesOpt (g : Nat → Nat) : Option Stmt → Option Stmt
  | some s => some (s.mapLines g)
  | none => none

/-- Each statement of a list renumbered. -/
def Stmt.mapLinesAll (g : Nat → Nat) : List Stmt → List Stmt
  | [] => []
  | s :: ss => s.mapLines g :: Stmt.mapLinesAll g ss

/-- A function whose name, parameters and body are renumbered. -/
def FunDecl.mapLines (g : Nat → Nat) : FunDecl → FunDecl
  | .mk name params body => .mk (name.mapLines g) (params.map (Token.mapLines g)) (Stmt.mapLinesAll g body)

/-- Each function of a list renumbered. -/
def FunDecl.mapLinesAll (g : Nat → Nat) : List FunDecl → List FunDecl
  | [] => []
  | d :: ds => d.mapLines g :: FunDecl.mapLinesAll g ds

end

/-- A function value whose declaration is renumbered. -/
def Closure.mapLines (g : Nat → Nat) (f : Closure) : Closure := { f with decl := f.decl.mapLines g }

/-- A class whose methods, and whose superclass's, are renumbered. -/
def ClassDef.mapLines (g : Nat → Nat) : ClassDef → ClassDef
  | .mk id name sup methods =>
    .mk id name
      (match sup with
        | some s => some (s.mapLines g)
        | none => none)
      (methods.map fun p => (p.1, p.2.mapLines g))

/-- A value whose functions and classes are renumbered. -/
def Value.mapLines (g : Nat → Nat) : Value → Value
  | .nil => .nil
  | .bool b => .bool b
  | .number x => .number x
  | .str s => .str s
  | .fn f => .fn (f.mapLines g)
  | .native n => .native n
  | .cls c => .cls (c.mapLines g)
  | .obj ref c => .obj ref (c.mapLines g)

/-- What a name finds, renumbered. -/
def Found.mapLines (g : Nat → Nat) : Found → Found
  | .value v => .value (v.mapLines g)
  | .unassigned => .unassigned
  | .missing => .missing

/-- Bindings whose values are renumbered. -/
def Slots.mapLines (g : Nat → Nat) (sl : Slots) : Slots := sl.map fun p => (p.1, p.2.map (Value.mapLines g))

/-- Fields whose values are renumbered. -/
def Fields.mapLines (g : Nat → Nat) (fs : Fields) : Fields := fs.map fun p => (p.1, p.2.mapLines g)

/-- A frame whose bindings are renumbered. -/
def Frame.mapLines (g : Nat → Nat) (f : Frame) : Frame := { f with slots := f.slots.mapLines g }

/-- A store whose frames and instances are renumbered; every index stays. -/
def Store.mapLines (g : Nat → Nat) (s : Store) : Store :=
  ⟨s.frames.map (Frame.mapLines g), s.objects.map (Fields.mapLines g)⟩

/-- A machine whose store is renumbered by `g`, after the output `before`. -/
def Machine.mapLines (g : Nat → Nat) (before : String) (m : Machine) : Machine :=
  { m with store := m.store.mapLines g, output := before ++ m.output }

/-- A runtime error at a renumbered token. -/
def RuntimeError.mapLines (g : Nat → Nat) (e : RuntimeError) : RuntimeError := { e with token := e.token.mapLines g }

/-- A stop, renumbered. -/
def Stop.mapLines (g : Nat → Nat) : Stop → Stop
  | .fault e => .fault (e.mapLines g)
  | .exhausted => .exhausted

/-- How a statement finished, renumbered. -/
def Flow.mapLines (g : Nat → Nat) : Flow → Flow
  | .normal => .normal
  | .returned v => .returned (v.mapLines g)

/-- A scope error at a renumbered token. -/
def ScopeError.mapLines (g : Nat → Nat) (e : ScopeError) : ScopeError := { e with token := e.token.mapLines g }

/-- A reported error whose line, when it has one, is renumbered. -/
def Diagnostic.mapLines (g : Nat → Nat) : Diagnostic → Diagnostic
  | .lex e => .lex { e with line := g e.line }
  | .parse e => .parse { e with token := e.token.mapLines g }
  | .scope e => .scope (e.mapLines g)
  | .runtime e => .runtime (e.mapLines g)
  | d => d

/-! ### Renumbering twice, and by the identity -/

section Syntax

variable (g h : Nat → Nat)

@[simp] theorem Token.mapLines_kind (t : Token) : (t.mapLines g).kind = t.kind := rfl

@[simp] theorem Token.mapLines_lexeme (t : Token) : (t.mapLines g).lexeme = t.lexeme := rfl

@[simp] theorem Token.mapLines_line (t : Token) : (t.mapLines g).line = g t.line := rfl

@[simp] theorem Token.mapLines_comp (t : Token) : (t.mapLines g).mapLines h = t.mapLines (h ∘ g) := rfl

@[simp] theorem Token.mapLines_id (t : Token) : t.mapLines id = t := rfl

mutual

theorem Expr.mapLines_comp : ∀ e : Expr, (e.mapLines g).mapLines h = e.mapLines (h ∘ g)
  | .literal _ => rfl
  | .grouping e => by simp only [Expr.mapLines, Expr.mapLines_comp e]
  | .unary _ r => by simp only [Expr.mapLines, Token.mapLines_comp, Expr.mapLines_comp r]
  | .binary l _ r | .logical l _ r | .set l _ r => by
    simp only [Expr.mapLines, Token.mapLines_comp, Expr.mapLines_comp l, Expr.mapLines_comp r]
  | .ident _ _ | .thisRef _ _ | .superGet _ _ _ => by simp only [Expr.mapLines, Token.mapLines_comp]
  | .assign _ v _ => by simp only [Expr.mapLines, Token.mapLines_comp, Expr.mapLines_comp v]
  | .call f _ args => by
    simp only [Expr.mapLines, Token.mapLines_comp, Expr.mapLines_comp f, Expr.mapLinesAll_comp args]
  | .get o _ => by simp only [Expr.mapLines, Token.mapLines_comp, Expr.mapLines_comp o]

theorem Expr.mapLinesAll_comp : ∀ es : List Expr, Expr.mapLinesAll h (Expr.mapLinesAll g es) = Expr.mapLinesAll (h ∘ g) es
  | [] => rfl
  | e :: es => by simp only [Expr.mapLinesAll, Expr.mapLines_comp e, Expr.mapLinesAll_comp es]

end

mutual

theorem Expr.mapLines_id : ∀ e : Expr, e.mapLines id = e
  | .literal _ => rfl
  | .grouping e => by simp only [Expr.mapLines, Expr.mapLines_id e]
  | .unary _ r => by simp only [Expr.mapLines, Token.mapLines_id, Expr.mapLines_id r]
  | .binary l _ r | .logical l _ r | .set l _ r => by
    simp only [Expr.mapLines, Token.mapLines_id, Expr.mapLines_id l, Expr.mapLines_id r]
  | .ident _ _ | .thisRef _ _ | .superGet _ _ _ => by simp only [Expr.mapLines, Token.mapLines_id]
  | .assign _ v _ => by simp only [Expr.mapLines, Token.mapLines_id, Expr.mapLines_id v]
  | .call f _ args => by simp only [Expr.mapLines, Token.mapLines_id, Expr.mapLines_id f, Expr.mapLinesAll_id args]
  | .get o _ => by simp only [Expr.mapLines, Token.mapLines_id, Expr.mapLines_id o]

theorem Expr.mapLinesAll_id : ∀ es : List Expr, Expr.mapLinesAll id es = es
  | [] => rfl
  | e :: es => by simp only [Expr.mapLinesAll, Expr.mapLines_id e, Expr.mapLinesAll_id es]

end

theorem Expr.mapLines_comp' : Expr.mapLines h ∘ Expr.mapLines g = Expr.mapLines (h ∘ g) :=
  funext (Expr.mapLines_comp g h)

theorem Expr.mapLines_id' : Expr.mapLines id = id := funext Expr.mapLines_id

theorem Token.mapLines_id' : Token.mapLines id = id := rfl

mutual

theorem Stmt.mapLines_comp : ∀ s : Stmt, (s.mapLines g).mapLines h = s.mapLines (h ∘ g)
  | .expression e | .print e => by simp only [Stmt.mapLines, Expr.mapLines_comp]
  | .varDecl _ init => by simp only [Stmt.mapLines, Token.mapLines_comp, Option.map_map, Expr.mapLines_comp']
  | .block body => by simp only [Stmt.mapLines, Stmt.mapLinesAll_comp body]
  | .ifElse c t e => by
    simp only [Stmt.mapLines, Expr.mapLines_comp, Stmt.mapLines_comp t, Stmt.mapLinesOpt_comp e]
  | .whileLoop c b => by simp only [Stmt.mapLines, Expr.mapLines_comp, Stmt.mapLines_comp b]
  | .function d => by simp only [Stmt.mapLines, FunDecl.mapLines_comp d]
  | .returnStmt _ v => by simp only [Stmt.mapLines, Token.mapLines_comp, Option.map_map, Expr.mapLines_comp']
  | .classDecl _ sup methods => by
    simp only [Stmt.mapLines, Token.mapLines_comp, Option.map_map, Expr.mapLines_comp',
      FunDecl.mapLinesAll_comp methods]

theorem Stmt.mapLinesOpt_comp : ∀ s : Option Stmt, Stmt.mapLinesOpt h (Stmt.mapLinesOpt g s) = Stmt.mapLinesOpt (h ∘ g) s
  | some s => by simp only [Stmt.mapLinesOpt, Stmt.mapLines_comp s]
  | none => rfl

theorem Stmt.mapLinesAll_comp : ∀ ss : List Stmt, Stmt.mapLinesAll h (Stmt.mapLinesAll g ss) = Stmt.mapLinesAll (h ∘ g) ss
  | [] => rfl
  | s :: ss => by simp only [Stmt.mapLinesAll, Stmt.mapLines_comp s, Stmt.mapLinesAll_comp ss]

theorem FunDecl.mapLines_comp : ∀ d : FunDecl, (d.mapLines g).mapLines h = d.mapLines (h ∘ g)
  | .mk _ params body => by
    simp only [FunDecl.mapLines, Token.mapLines_comp, List.map_map, Stmt.mapLinesAll_comp body]
    rfl

theorem FunDecl.mapLinesAll_comp : ∀ ds : List FunDecl,
    FunDecl.mapLinesAll h (FunDecl.mapLinesAll g ds) = FunDecl.mapLinesAll (h ∘ g) ds
  | [] => rfl
  | d :: ds => by simp only [FunDecl.mapLinesAll, FunDecl.mapLines_comp d, FunDecl.mapLinesAll_comp ds]

end

mutual

theorem Stmt.mapLines_id : ∀ s : Stmt, s.mapLines id = s
  | .expression e | .print e => by simp only [Stmt.mapLines, Expr.mapLines_id]
  | .varDecl _ init => by simp [Stmt.mapLines, Expr.mapLines_id']
  | .block body => by simp only [Stmt.mapLines, Stmt.mapLinesAll_id body]
  | .ifElse c t e => by simp only [Stmt.mapLines, Expr.mapLines_id, Stmt.mapLines_id t, Stmt.mapLinesOpt_id e]
  | .whileLoop c b => by simp only [Stmt.mapLines, Expr.mapLines_id, Stmt.mapLines_id b]
  | .function d => by simp only [Stmt.mapLines, FunDecl.mapLines_id d]
  | .returnStmt _ v => by simp [Stmt.mapLines, Expr.mapLines_id']
  | .classDecl _ sup methods => by simp [Stmt.mapLines, Expr.mapLines_id', FunDecl.mapLinesAll_id methods]

theorem Stmt.mapLinesOpt_id : ∀ s : Option Stmt, Stmt.mapLinesOpt id s = s
  | some s => by simp only [Stmt.mapLinesOpt, Stmt.mapLines_id s]
  | none => rfl

theorem Stmt.mapLinesAll_id : ∀ ss : List Stmt, Stmt.mapLinesAll id ss = ss
  | [] => rfl
  | s :: ss => by simp only [Stmt.mapLinesAll, Stmt.mapLines_id s, Stmt.mapLinesAll_id ss]

theorem FunDecl.mapLines_id : ∀ d : FunDecl, d.mapLines id = d
  | .mk _ params body => by simp [FunDecl.mapLines, Token.mapLines_id', Stmt.mapLinesAll_id body]

theorem FunDecl.mapLinesAll_id : ∀ ds : List FunDecl, FunDecl.mapLinesAll id ds = ds
  | [] => rfl
  | d :: ds => by simp only [FunDecl.mapLinesAll, FunDecl.mapLines_id d, FunDecl.mapLinesAll_id ds]

end

@[simp] theorem FunDecl.mapLines_name (d : FunDecl) : (d.mapLines g).name = d.name.mapLines g := by
  cases d; rfl

@[simp] theorem FunDecl.mapLines_params (d : FunDecl) : (d.mapLines g).params = d.params.map (Token.mapLines g) := by
  cases d; rfl

@[simp] theorem FunDecl.mapLines_body (d : FunDecl) : (d.mapLines g).body = Stmt.mapLinesAll g d.body := by
  cases d; rfl

theorem Expr.length_mapLinesAll (es : List Expr) : (Expr.mapLinesAll g es).length = es.length := by
  induction es with
  | nil => rfl
  | cons _ es ih => simp only [Expr.mapLinesAll, List.length_cons, ih]

theorem FunDecl.length_mapLinesAll (ds : List FunDecl) : (FunDecl.mapLinesAll g ds).length = ds.length := by
  induction ds with
  | nil => rfl
  | cons _ ds ih => simp only [FunDecl.mapLinesAll, List.length_cons, ih]

end Syntax

/-! ### Values -/

section Values

variable (g h : Nat → Nat)

@[simp] theorem Closure.mapLines_id_eq (f : Closure) : (f.mapLines g).id = f.id := rfl

@[simp] theorem Closure.mapLines_decl (f : Closure) : (f.mapLines g).decl = f.decl.mapLines g := rfl

@[simp] theorem Closure.mapLines_env (f : Closure) : (f.mapLines g).env = f.env := rfl

@[simp] theorem Closure.mapLines_isInit (f : Closure) : (f.mapLines g).isInit = f.isInit := rfl

@[simp] theorem Closure.mapLines_arity (f : Closure) : (f.mapLines g).arity = f.arity := by
  simp [Closure.arity]

theorem Closure.mapLines_comp (f : Closure) : (f.mapLines g).mapLines h = f.mapLines (h ∘ g) := by
  simp [Closure.mapLines, FunDecl.mapLines_comp]

/-- A renumbering that moves no line changes no function. -/
theorem Closure.mapLines_of_eq {f : Closure} (fixes : ∀ ℓ, g ℓ = ℓ) : f.mapLines g = f := by
  obtain rfl : g = fun ℓ => ℓ := funext fixes
  have same : f.decl.mapLines (fun ℓ => ℓ) = f.decl := FunDecl.mapLines_id f.decl
  simp [Closure.mapLines, same]

/-- Methods keyed by name, each renumbered. -/
theorem lookup_map_snd {β : Type} (u : β → β) (name : String) :
    ∀ l : List (String × β), (l.map fun p => (p.1, u p.2)).lookup name = (l.lookup name).map u
  | [] => rfl
  | (n, b) :: l => by
    simp only [List.map_cons, List.lookup_cons]
    cases name == n
    · exact lookup_map_snd u name l
    · rfl

theorem ClassDef.mapLines_comp : ∀ c : ClassDef, (c.mapLines g).mapLines h = c.mapLines (h ∘ g)
  | .mk _ _ none methods => by simp [ClassDef.mapLines, Closure.mapLines_comp]
  | .mk _ _ (some s) methods => by simp [ClassDef.mapLines, ClassDef.mapLines_comp s, Closure.mapLines_comp]

/-- A renumbering that moves no line changes no class. -/
theorem ClassDef.mapLines_of_eq (fixes : ∀ ℓ, g ℓ = ℓ) : ∀ c : ClassDef, c.mapLines g = c
  | .mk _ _ none methods => by simp [ClassDef.mapLines, Closure.mapLines_of_eq g fixes]
  | .mk _ _ (some s) methods => by
    simp [ClassDef.mapLines, ClassDef.mapLines_of_eq fixes s, Closure.mapLines_of_eq g fixes]

@[simp] theorem ClassDef.mapLines_id_eq (c : ClassDef) : (c.mapLines g).id = c.id := by
  rcases c with ⟨_, _, _ | _, _⟩ <;> rfl

@[simp] theorem ClassDef.mapLines_name (c : ClassDef) : (c.mapLines g).name = c.name := by
  rcases c with ⟨_, _, _ | _, _⟩ <;> rfl

/-- A renumbered class finds the renumbered method. -/
theorem ClassDef.findMethod_mapLines : ∀ (c : ClassDef) (name : String),
    (c.mapLines g).findMethod name = (c.findMethod name).map (Closure.mapLines g)
  | .mk _ _ none methods, name => by
    simp only [ClassDef.mapLines, ClassDef.findMethod, lookup_map_snd]
    cases methods.lookup name <;> rfl
  | .mk _ _ (some s) methods, name => by
    simp only [ClassDef.mapLines, ClassDef.findMethod, lookup_map_snd]
    cases methods.lookup name with
    | some f => rfl
    | none => exact ClassDef.findMethod_mapLines s name

@[simp] theorem ClassDef.mapLines_arity (c : ClassDef) : (c.mapLines g).arity = c.arity := by
  unfold ClassDef.arity
  rw [ClassDef.findMethod_mapLines]
  cases c.findMethod "init" <;> simp

theorem Value.mapLines_comp (v : Value) : (v.mapLines g).mapLines h = v.mapLines (h ∘ g) := by
  cases v <;> simp [Value.mapLines, Closure.mapLines_comp, ClassDef.mapLines_comp]

theorem Value.mapLines_id : Value.mapLines id = id := by
  funext v
  cases v <;> simp [Value.mapLines, Closure.mapLines_of_eq id (fun _ => rfl), ClassDef.mapLines_of_eq id (fun _ => rfl)]

@[simp] theorem Value.mapLines_truthy (v : Value) : (v.mapLines g).truthy = v.truthy := by
  cases v <;> rfl

@[simp] theorem Value.mapLines_typeName (v : Value) : (v.mapLines g).typeName = v.typeName := by
  cases v <;> rfl

@[simp] theorem Value.mapLines_display (v : Value) : (v.mapLines g).display = v.display := by
  cases v <;> simp [Value.mapLines, Value.display]

@[simp] theorem Value.mapLines_equal (a b : Value) : (a.mapLines g).equal (b.mapLines g) = a.equal b := by
  cases a <;> cases b <;> simp [Value.mapLines, Value.equal]

@[simp] theorem Literal.value_mapLines (l : Literal) : l.value.mapLines g = l.value := by
  cases l <;> rfl

end Values

/-! ### Stores -/

section Stores

variable (g h : Nat → Nat)

/-- Updating one entry of an array commutes with a map that commutes with the update. -/
theorem map_modify {α β : Type} [Inhabited α] (xs : Array α) (i : Nat) {f : α → β} {u : α → α} {u' : β → β}
    (commutes : ∀ a, f (u a) = u' (f a)) : (xs.modify i u).map f = (xs.map f).modify i u' := by
  apply Array.ext_getElem?
  intro j
  simp only [Array.getElem?_map, Array.getElem?_modify]
  split
  · cases xs[j]? <;> simp [commutes]
  · rfl

theorem Slots.mapLines_comp (sl : Slots) : (sl.mapLines g).mapLines h = sl.mapLines (h ∘ g) := by
  simp [Slots.mapLines, Value.mapLines_comp, Function.comp_def]

theorem Slots.mapLines_id : Slots.mapLines id = id := by
  funext sl
  simp [Slots.mapLines, Value.mapLines_id]

theorem Slots.lookup_mapLines (sl : Slots) (name : String) :
    (sl.mapLines g).lookup name = (sl.lookup name).map (Option.map (Value.mapLines g)) :=
  lookup_map_snd _ name sl

theorem Slots.put_mapLines (name : String) (v : Option Value) :
    ∀ sl : Slots, (sl.put name v).mapLines g = (sl.mapLines g).put name (v.map (Value.mapLines g))
  | [] => rfl
  | (n, old) :: rest => by
    have later := Slots.put_mapLines name v rest
    unfold Slots.mapLines at later ⊢
    simp only [List.map_cons, Slots.put]
    split <;> simp [later]

theorem Fields.mapLines_comp (fs : Fields) : (fs.mapLines g).mapLines h = fs.mapLines (h ∘ g) := by
  simp [Fields.mapLines, Value.mapLines_comp, Function.comp_def]

theorem Fields.mapLines_id : Fields.mapLines id = id := by
  funext fs
  simp [Fields.mapLines, Value.mapLines_id]

theorem Fields.put_mapLines (name : String) (v : Value) :
    ∀ fs : Fields, (fs.put name v).mapLines g = (fs.mapLines g).put name (v.mapLines g)
  | [] => rfl
  | (n, old) :: rest => by
    have later := Fields.put_mapLines name v rest
    unfold Fields.mapLines at later ⊢
    simp only [List.map_cons, Fields.put]
    split <;> simp [later]

@[simp] theorem Frame.mapLines_slots (f : Frame) : (f.mapLines g).slots = f.slots.mapLines g := rfl

@[simp] theorem Frame.mapLines_parent (f : Frame) : (f.mapLines g).parent = f.parent := rfl

@[simp] theorem Store.mapLines_frames_size (s : Store) : (s.mapLines g).frames.size = s.frames.size := by
  simp [Store.mapLines]

@[simp] theorem Store.mapLines_objects_size (s : Store) : (s.mapLines g).objects.size = s.objects.size := by
  simp [Store.mapLines]

theorem Store.mapLines_frame (s : Store) (i : Nat) :
    (s.mapLines g).frames[i]? = s.frames[i]?.map (Frame.mapLines g) := by
  simp [Store.mapLines]

theorem Store.mapLines_comp (s : Store) : (s.mapLines g).mapLines h = s.mapLines (h ∘ g) := by
  simp [Store.mapLines, Frame.mapLines, Function.comp_def, Slots.mapLines_comp, Fields.mapLines_comp]

theorem Frame.mapLines_id : Frame.mapLines id = id := by
  funext f
  simp [Frame.mapLines, Slots.mapLines_id]

theorem Store.mapLines_id (s : Store) : s.mapLines id = s := by
  simp [Store.mapLines, Frame.mapLines_id, Fields.mapLines_id]

theorem Store.findIn_mapLines (s : Store) (frame : Nat) (name : String) :
    (s.mapLines g).findIn frame name = (s.findIn frame name).mapLines g := by
  unfold Store.findIn
  rw [Store.mapLines_frame]
  cases s.frames[frame]? with
  | none => rfl
  | some f =>
    simp only [Option.map_some, Frame.mapLines_slots, Slots.lookup_mapLines]
    cases f.slots.lookup name with
    | none => rfl
    | some b => cases b <;> rfl

theorem Store.find_mapLines (s : Store) (name : String) (frame : Nat) :
    (s.mapLines g).find frame name = (s.find frame name).mapLines g := by
  induction frame using Nat.strongRecOn with
  | ind frame ih =>
    rw [Store.find.eq_def (s.mapLines g), Store.find.eq_def s, Store.mapLines_frame]
    cases s.frames[frame]? with
    | none => rfl
    | some f =>
      simp only [Option.map_some, Frame.mapLines_slots, Slots.lookup_mapLines, Frame.mapLines_parent]
      cases f.slots.lookup name with
      | some b => cases b <;> rfl
      | none =>
        simp only [Option.map_none]
        cases f.parent with
        | none => rfl
        | some p =>
          simp only
          split
          · next earlier => exact ih p earlier
          · rfl

theorem Store.owner_mapLines (s : Store) (name : String) (frame : Nat) :
    (s.mapLines g).owner frame name = s.owner frame name := by
  induction frame using Nat.strongRecOn with
  | ind frame ih =>
    rw [Store.owner.eq_def (s.mapLines g), Store.owner.eq_def s, Store.mapLines_frame]
    cases s.frames[frame]? with
    | none => rfl
    | some f =>
      simp only [Option.map_some, Frame.mapLines_slots, Slots.lookup_mapLines, Frame.mapLines_parent]
      cases f.slots.lookup name with
      | some b => rfl
      | none =>
        simp only [Option.map_none]
        cases f.parent with
        | none => rfl
        | some p =>
          simp only
          split
          · next earlier => exact ih p earlier
          · rfl

theorem Store.ancestor_mapLines (s : Store) : ∀ (frame d : Nat), (s.mapLines g).ancestor frame d = s.ancestor frame d
  | _, 0 => rfl
  | frame, d + 1 => by
    simp only [Store.ancestor, Store.mapLines_frame]
    cases s.frames[frame]? with
    | none => rfl
    | some f =>
      obtain ⟨slots, parent⟩ := f
      cases parent with
      | none => rfl
      | some p => exact Store.ancestor_mapLines s p d

theorem Store.getAt_mapLines (s : Store) (frame d : Nat) (name : String) :
    (s.mapLines g).getAt frame d name = (s.getAt frame d name).mapLines g := by
  simp only [Store.getAt, Store.ancestor_mapLines]
  cases s.ancestor frame d with
  | none => rfl
  | some a => exact Store.findIn_mapLines g s a name

theorem Store.define_mapLines (s : Store) (frame : Nat) (name : String) (v : Option Value) :
    (s.mapLines g).define frame name (v.map (Value.mapLines g)) = (s.define frame name v).mapLines g := by
  simp only [Store.define, Store.mapLines, Store.mk.injEq, and_true]
  refine (map_modify _ _ fun f => ?_).symm
  simp [Frame.mapLines, Slots.put_mapLines]

theorem Store.alloc_mapLines (s : Store) (p : Nat) :
    (s.mapLines g).alloc p = ((s.alloc p).1.mapLines g, (s.alloc p).2) := by
  simp [Store.alloc, Store.mapLines, Frame.mapLines, Slots.mapLines]

theorem Store.newObject_mapLines (s : Store) :
    (s.mapLines g).newObject = (s.newObject.1.mapLines g, s.newObject.2) := by
  simp [Store.newObject, Store.mapLines, Fields.mapLines]

theorem Store.field?_mapLines (s : Store) (ref : Nat) (name : String) :
    (s.mapLines g).field? ref name = (s.field? ref name).map (Value.mapLines g) := by
  unfold Store.field?
  simp only [Store.mapLines, Array.getElem?_map]
  cases s.objects[ref]? with
  | none => rfl
  | some fs => exact lookup_map_snd _ name fs

theorem Store.setField_mapLines (s : Store) (ref : Nat) (name : String) (v : Value) :
    (s.mapLines g).setField ref name (v.mapLines g) = (s.setField ref name v).mapLines g := by
  simp only [Store.setField, Store.mapLines, Store.mk.injEq, true_and]
  exact (map_modify _ _ fun fs => Fields.put_mapLines g name v fs).symm

end Stores

/-! ### Machines and operators -/

section Machines

variable (g h : Nat → Nat)

@[simp] theorem Machine.mapLines_store (before : String) (m : Machine) :
    (m.mapLines g before).store = m.store.mapLines g := rfl

@[simp] theorem Machine.mapLines_output (before : String) (m : Machine) :
    (m.mapLines g before).output = before ++ m.output := rfl

@[simp] theorem Machine.mapLines_nextId (before : String) (m : Machine) : (m.mapLines g before).nextId = m.nextId := rfl

@[simp] theorem Machine.mapLines_clock (before : String) (m : Machine) : (m.mapLines g before).clock = m.clock := rfl

theorem Machine.mapLines_comp (before after : String) (m : Machine) :
    (m.mapLines g before).mapLines h after = m.mapLines (h ∘ g) (after ++ before) := by
  simp [Machine.mapLines, Store.mapLines_comp, String.append_assoc]

theorem Machine.mapLines_id (before : String) (m : Machine) :
    m.mapLines id before = { m with output := before ++ m.output } := by
  simp [Machine.mapLines, Store.mapLines_id]

/-- The operators read no line: renumbering the operator and the operands renumbers the result
and the error. -/
theorem binaryOp_mapLines (op : Token) (a b : Value) :
    Run.binaryOp (op.mapLines g) (a.mapLines g) (b.mapLines g) =
      ((Run.binaryOp op a b).map (Value.mapLines g)).mapError (RuntimeError.mapLines g) := by
  cases a <;> cases b <;> simp only [Run.binaryOp, Value.mapLines, Token.mapLines_kind, Token.mapLines_lexeme,
    Value.equal, ClassDef.mapLines_id_eq, Closure.mapLines_id_eq] <;> split <;> (try split) <;> (try split) <;> rfl

end Machines

/-! ### The scope rules read no line -/

section Scopes

variable (g : Nat → Nat)

mutual

theorem Stmt.declares_mapLines : ∀ s : Stmt, (s.mapLines g).declares = s.declares.map (Token.mapLines g)
  | .varDecl _ _ | .function (.mk _ _ _) | .classDecl _ _ _ => rfl
  | .expression _ | .print _ | .block _ | .returnStmt _ _ => rfl
  | .ifElse _ t e => by
    simp only [Stmt.mapLines, Stmt.declares, List.map_append, Stmt.declares_mapLines t, Stmt.declaresOpt_mapLines e]
  | .whileLoop _ b => by simp only [Stmt.mapLines, Stmt.declares, Stmt.declares_mapLines b]

theorem Stmt.declaresOpt_mapLines : ∀ s : Option Stmt,
    Stmt.declaresOpt (Stmt.mapLinesOpt g s) = (Stmt.declaresOpt s).map (Token.mapLines g)
  | some s => Stmt.declares_mapLines s
  | none => rfl

end

@[simp] theorem Scope.afterStmt_mapLines (scopes : List (List String)) (s : Stmt) :
    Scope.afterStmt scopes (s.mapLines g) = Scope.afterStmt scopes s := by
  simp [Scope.afterStmt, Stmt.declares_mapLines, List.foldl_map]

mutual

theorem Expr.addressed_mapLines (scopes : List (List String)) :
    ∀ e : Expr, (e.mapLines g).addressed scopes = (e.addressed scopes).mapLines g
  | .literal _ => rfl
  | .grouping e => by simp only [Expr.mapLines, Expr.addressed, Expr.addressed_mapLines scopes e]
  | .unary _ r => by simp only [Expr.mapLines, Expr.addressed, Expr.addressed_mapLines scopes r]
  | .binary l _ r | .logical l _ r | .set l _ r => by
    simp only [Expr.mapLines, Expr.addressed, Expr.addressed_mapLines scopes l, Expr.addressed_mapLines scopes r]
  | .ident _ _ | .thisRef _ _ | .superGet _ _ _ => by simp [Expr.mapLines, Expr.addressed]
  | .assign _ v _ => by simp [Expr.mapLines, Expr.addressed, Expr.addressed_mapLines scopes v]
  | .call f _ args => by
    simp only [Expr.mapLines, Expr.addressed, Expr.addressed_mapLines scopes f, Expr.addressedAll_mapLines scopes args]
  | .get o _ => by simp only [Expr.mapLines, Expr.addressed, Expr.addressed_mapLines scopes o]

theorem Expr.addressedAll_mapLines (scopes : List (List String)) :
    ∀ es : List Expr, Expr.addressedAll scopes (Expr.mapLinesAll g es) = Expr.mapLinesAll g (Expr.addressedAll scopes es)
  | [] => rfl
  | e :: es => by
    simp only [Expr.mapLinesAll, Expr.addressedAll, Expr.addressed_mapLines scopes e,
      Expr.addressedAll_mapLines scopes es]

end

mutual

theorem Stmt.addressed_mapLines :
    ∀ (scopes : List (List String)) (s : Stmt), (s.mapLines g).addressed scopes = (s.addressed scopes).mapLines g
  | _, .expression e | _, .print e => by simp only [Stmt.mapLines, Stmt.addressed, Expr.addressed_mapLines]
  | _, .varDecl _ _ | _, .returnStmt _ _ => by
    simp [Stmt.mapLines, Stmt.addressed, Expr.addressed_mapLines, Function.comp_def]
  | scopes, .block body => by
    simp only [Stmt.mapLines, Stmt.addressed, Stmt.addressedAll_mapLines ([] :: scopes) body]
  | scopes, .ifElse c t e => by
    simp only [Stmt.mapLines, Stmt.addressed, Expr.addressed_mapLines, Stmt.addressed_mapLines scopes t,
      Scope.afterStmt_mapLines, Stmt.addressedOpt_mapLines _ e]
  | scopes, .whileLoop c b => by
    simp only [Stmt.mapLines, Stmt.addressed, Expr.addressed_mapLines, Stmt.addressed_mapLines scopes b]
  | scopes, .function d => by
    simp only [Stmt.mapLines, Stmt.addressed, FunDecl.mapLines_name, Token.mapLines_lexeme,
      FunDecl.addressed_mapLines _ d]
  | scopes, .classDecl name sup methods => by
    simp [Stmt.mapLines, Stmt.addressed, Expr.addressed_mapLines, Function.comp_def,
      FunDecl.addressedAll_mapLines _ methods]

theorem Stmt.addressedOpt_mapLines : ∀ (scopes : List (List String)) (s : Option Stmt),
    Stmt.addressedOpt scopes (Stmt.mapLinesOpt g s) = Stmt.mapLinesOpt g (Stmt.addressedOpt scopes s)
  | scopes, some s => by simp only [Stmt.mapLinesOpt, Stmt.addressedOpt, Stmt.addressed_mapLines scopes s]
  | _, none => rfl

theorem Stmt.addressedAll_mapLines : ∀ (scopes : List (List String)) (ss : List Stmt),
    Stmt.addressedAll scopes (Stmt.mapLinesAll g ss) = Stmt.mapLinesAll g (Stmt.addressedAll scopes ss)
  | _, [] => rfl
  | scopes, s :: ss => by
    simp only [Stmt.mapLinesAll, Stmt.addressedAll, Stmt.addressed_mapLines scopes s, Scope.afterStmt_mapLines,
      Stmt.addressedAll_mapLines _ ss]

theorem FunDecl.addressed_mapLines :
    ∀ (scopes : List (List String)) (d : FunDecl), (d.mapLines g).addressed scopes = (d.addressed scopes).mapLines g
  | scopes, .mk name params body => by
    have same : Scope.paramScope (params.map (Token.mapLines g)) = Scope.paramScope params := by
      simp [Scope.paramScope, Function.comp_def]
    simp only [FunDecl.mapLines, FunDecl.addressed, same, Stmt.addressedAll_mapLines _ body]

theorem FunDecl.addressedAll_mapLines : ∀ (scopes : List (List String)) (ds : List FunDecl),
    FunDecl.addressedAll scopes (FunDecl.mapLinesAll g ds) = FunDecl.mapLinesAll g (FunDecl.addressedAll scopes ds)
  | _, [] => rfl
  | scopes, d :: ds => by
    simp only [FunDecl.mapLinesAll, FunDecl.addressedAll, FunDecl.addressed_mapLines scopes d,
      FunDecl.addressedAll_mapLines scopes ds]

end

theorem Scope.redeclaration_mapLines (scopes : List (List String)) (name : Token) :
    Scope.redeclaration scopes (name.mapLines g) = (Scope.redeclaration scopes name).map (ScopeError.mapLines g) := by
  unfold Scope.redeclaration
  split
  · simp only [Token.mapLines_lexeme]
    split <;> simp [*, ScopeError.mapLines]
  · rfl

theorem Scope.initializing_mapLines (scopes : List (List String)) (name : Token) :
    Scope.initializing scopes (name.mapLines g) = Scope.initializing scopes name := by
  unfold Scope.initializing
  split <;> rfl

theorem Scope.parameterFaults_mapLines :
    ∀ (seen : List String) (params : List Token),
      Scope.parameterFaults seen (params.map (Token.mapLines g)) = (Scope.parameterFaults seen params).map (ScopeError.mapLines g)
  | _, [] => rfl
  | seen, p :: ps => by
    simp only [List.map_cons, Scope.parameterFaults, Scope.redeclaration_mapLines, Token.mapLines_lexeme,
      Scope.parameterFaults_mapLines _ ps, List.map_append]

theorem Scope.selfInheritance_mapLines (name : Token) (e : Expr) :
    Scope.selfInheritance (name.mapLines g) (e.mapLines g) = (Scope.selfInheritance name e).map (ScopeError.mapLines g) := by
  cases e <;> simp only [Expr.mapLines, Scope.selfInheritance, Token.mapLines_lexeme, List.map_nil]
  split <;> simp [*, ScopeError.mapLines]

mutual

theorem Expr.scopeFaults_mapLines (init : Option String) (cls : Scope.ClassContext) :
    ∀ e : Expr, (e.mapLines g).scopeFaults init cls = (e.scopeFaults init cls).map (ScopeError.mapLines g)
  | .literal _ => rfl
  | .grouping e => by simp only [Expr.mapLines, Expr.scopeFaults, Expr.scopeFaults_mapLines init cls e]
  | .unary _ r => by simp only [Expr.mapLines, Expr.scopeFaults, Expr.scopeFaults_mapLines init cls r]
  | .binary l _ r | .logical l _ r | .set l _ r => by
    simp only [Expr.mapLines, Expr.scopeFaults, List.map_append, Expr.scopeFaults_mapLines init cls l,
      Expr.scopeFaults_mapLines init cls r]
  | .ident _ _ | .thisRef _ _ => by
    simp only [Expr.mapLines, Expr.scopeFaults, Token.mapLines_lexeme]
    split <;> simp [*, ScopeError.mapLines]
  | .superGet _ _ _ => by
    simp only [Expr.mapLines, Expr.scopeFaults]
    cases cls <;> rfl
  | .assign _ v _ => by simp only [Expr.mapLines, Expr.scopeFaults, Expr.scopeFaults_mapLines init cls v]
  | .call f _ args => by
    simp only [Expr.mapLines, Expr.scopeFaults, List.map_append, Expr.scopeFaults_mapLines init cls f,
      Expr.scopeFaultsAll_mapLines init cls args]
  | .get o _ => by simp only [Expr.mapLines, Expr.scopeFaults, Expr.scopeFaults_mapLines init cls o]

theorem Expr.scopeFaultsAll_mapLines (init : Option String) (cls : Scope.ClassContext) :
    ∀ es : List Expr, Expr.scopeFaultsAll init cls (Expr.mapLinesAll g es) =
      (Expr.scopeFaultsAll init cls es).map (ScopeError.mapLines g)
  | [] => rfl
  | e :: es => by
    simp only [Expr.mapLinesAll, Expr.scopeFaultsAll, List.map_append, Expr.scopeFaults_mapLines init cls e,
      Expr.scopeFaultsAll_mapLines init cls es]

end

mutual

theorem Stmt.scopeFaults_mapLines :
    ∀ (ctx : Scope.Context) (s : Stmt), (s.mapLines g).scopeFaults ctx = (s.scopeFaults ctx).map (ScopeError.mapLines g)
  | _, .expression e | _, .print e => by simp only [Stmt.mapLines, Stmt.scopeFaults, Expr.scopeFaults_mapLines]
  | ctx, .varDecl name init => by
    cases init <;>
      simp [Stmt.mapLines, Stmt.scopeFaults, Scope.redeclaration_mapLines, Scope.initializing_mapLines,
        Expr.scopeFaults_mapLines]
  | ctx, .block body => by
    simp only [Stmt.mapLines, Stmt.scopeFaults, Stmt.scopeFaultsAll_mapLines _ body]
  | ctx, .ifElse c t e => by
    simp only [Stmt.mapLines, Stmt.scopeFaults, List.map_append, Expr.scopeFaults_mapLines,
      Stmt.scopeFaults_mapLines ctx t, Scope.afterStmt_mapLines, Stmt.scopeFaultsOpt_mapLines _ e]
  | ctx, .whileLoop c b => by
    simp only [Stmt.mapLines, Stmt.scopeFaults, List.map_append, Expr.scopeFaults_mapLines,
      Stmt.scopeFaults_mapLines ctx b]
  | ctx, .function d => by
    simp only [Stmt.mapLines, Stmt.scopeFaults, List.map_append, Scope.redeclaration_mapLines,
      FunDecl.mapLines_name, Token.mapLines_lexeme, FunDecl.scopeFaults_mapLines _ _ d]
  | ctx, .returnStmt kw v => by
    cases v <;> simp only [Stmt.mapLines, Stmt.scopeFaults, Option.map_none, Option.map_some, List.map_append,
      Expr.scopeFaults_mapLines] <;> split <;> (try split) <;> simp [ScopeError.mapLines]
  | ctx, .classDecl name sup methods => by
    cases sup <;>
      simp [Stmt.mapLines, Stmt.scopeFaults, Scope.redeclaration_mapLines, Scope.selfInheritance_mapLines,
        Expr.scopeFaults_mapLines, FunDecl.scopeFaultsMethods_mapLines _ methods]

theorem Stmt.scopeFaultsOpt_mapLines : ∀ (ctx : Scope.Context) (s : Option Stmt),
    Stmt.scopeFaultsOpt ctx (Stmt.mapLinesOpt g s) = (Stmt.scopeFaultsOpt ctx s).map (ScopeError.mapLines g)
  | ctx, some s => Stmt.scopeFaults_mapLines ctx s
  | _, none => rfl

theorem Stmt.scopeFaultsAll_mapLines : ∀ (ctx : Scope.Context) (ss : List Stmt),
    Stmt.scopeFaultsAll ctx (Stmt.mapLinesAll g ss) = (Stmt.scopeFaultsAll ctx ss).map (ScopeError.mapLines g)
  | _, [] => rfl
  | ctx, s :: ss => by
    simp only [Stmt.mapLinesAll, Stmt.scopeFaultsAll, List.map_append, Stmt.scopeFaults_mapLines ctx s,
      Scope.afterStmt_mapLines, Stmt.scopeFaultsAll_mapLines _ ss]

theorem FunDecl.scopeFaults_mapLines : ∀ (ctx : Scope.Context) (kind : Scope.FunctionContext) (d : FunDecl),
    (d.mapLines g).scopeFaults ctx kind = (d.scopeFaults ctx kind).map (ScopeError.mapLines g)
  | ctx, kind, .mk name params body => by
    have same : Scope.paramScope (params.map (Token.mapLines g)) = Scope.paramScope params := by
      simp [Scope.paramScope, Function.comp_def]
    simp only [FunDecl.mapLines, FunDecl.scopeFaults, List.map_append, Scope.parameterFaults_mapLines, same,
      Stmt.scopeFaultsAll_mapLines _ body]

theorem FunDecl.scopeFaultsMethods_mapLines : ∀ (ctx : Scope.Context) (ds : List FunDecl),
    FunDecl.scopeFaultsMethods ctx (FunDecl.mapLinesAll g ds) = (FunDecl.scopeFaultsMethods ctx ds).map (ScopeError.mapLines g)
  | _, [] => rfl
  | ctx, d :: ds => by
    have kind : Scope.methodKind (d.mapLines g) = Scope.methodKind d := by simp [Scope.methodKind]
    simp only [FunDecl.mapLinesAll, FunDecl.scopeFaultsMethods, List.map_append, kind,
      FunDecl.scopeFaults_mapLines ctx _ d, FunDecl.scopeFaultsMethods_mapLines ctx ds]

end

-- The two sides of `Except.mapError`, so that proofs rewrite by them instead of unfolding it.
theorem Except.mapError_ok {ε ε' α : Type} (f : ε → ε') (a : α) :
    (Except.ok a : Except ε α).mapError f = .ok a := rfl

theorem Except.mapError_error {ε ε' α : Type} (f : ε → ε') (e : ε) :
    (Except.error e : Except ε α).mapError f = .error (f e) := rfl

end Scopes

end Lox
