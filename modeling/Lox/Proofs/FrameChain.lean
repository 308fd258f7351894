import Lox.Proofs.ProgramShape
/-!
Frames against scopes: what a store must hold for the addresses the scope rules give to find their
bindings. A chain of frames *covers* a list of scopes when, from the innermost scope on, each frame
binds every name of its scope to a value that fits it (`this` an instance, `super` a class) and is
enclosed by the frame of the next scope (`Store.Covers`). A store is *sound* when every binding in
it is assigned and every value in it is sound: a function's frame covers the scopes its body was
resolved in, and so do a class's methods once bound to an instance (`Store.Sound`). A store *grows*
into another when no frame is lost or re-parented and no binding is lost or stops fitting
(`Store.Grows`). Covering and the soundness of values survive growth, and each change the
interpreter makes to its store is growth.
-/
namespace Lox

/-- What a list of bindings finds under a name is bound in it. -/
theorem mem_of_lookup {β : Type} {l : List (String × β)} {k : String} {b : β} (found : l.lookup k = some b) :
    (k, b) ∈ l := by
  obtain ⟨l₁, l₂, rfl, -⟩ := List.lookup_eq_some_iff.1 found
  simp

/-! ### Static scopes -/

namespace Scope

/-- In a class's methods `this` is found in a scope; in a subclass's, `super` is found one scope
beyond it. -/
def Layout (scopes : List (List String)) (cls : ClassContext) : Prop :=
  (cls ≠ .none → ∃ d, locate "this" scopes = .scoped d) ∧
    (cls = .sub → ∃ d, locate "super" scopes = .scoped (d + 1) ∧ locate "this" scopes = .scoped d)

/-- The top level is in no class. -/
theorem layout_top : Layout [] .none := ⟨fun outside => absurd rfl outside, fun none => by cases none⟩

/-- The scopes an initializer is resolved in: those its frames cover, with the variable it
initializes declared in the innermost. -/
def Pending (view : List (List String)) : Option String → List (List String) → Prop
  | none, scopes => scopes = view
  | some x, scopes => scopes = declareIn x view ∧ Ordinary x

theorem locate_cons_scoped {name : String} {top : List String} {scopes : List (List String)} {d : Nat}
    (absent : name ∉ top) (found : locate name scopes = .scoped d) : locate name (top :: scopes) = .scoped (d + 1) := by
  simp [locate,absent,found]

theorem locate_cons_global {name : String} {top : List String} {scopes : List (List String)}
    (absent : name ∉ top) (missed : locate name scopes = .global) : locate name (top :: scopes) = .global := by
  simp [locate,absent,missed]

/-- Declaring one name moves no other. -/
theorem locate_declareIn_ne {x name : String} (other : x ≠ name) (scopes : List (List String)) :
    locate name (declareIn x scopes) = locate name scopes := by
  cases scopes with
  | nil => rfl
  | cons top rest => simp [declareIn,locate,List.mem_cons,Ne.symm other]

/-- A name just declared is found in the innermost scope, or globally at the top level. -/
theorem locate_declareIn_self (x : String) (scopes : List (List String)) :
    locate x (declareIn x scopes) = .global ∨ locate x (declareIn x scopes) = .scoped 0 := by
  cases scopes with
  | nil => exact .inl rfl
  | cons top rest => exact .inr (by simp [declareIn,locate])

theorem Layout.push {scopes : List (List String)} {cls : ClassContext} (layout : Layout scopes cls)
    {top : List String} (noThis : "this" ∉ top) (noSuper : "super" ∉ top) : Layout (top :: scopes) cls := by
  obtain ⟨inClass, inSub⟩ := layout
  refine ⟨fun within => ?_, fun sub => ?_⟩
  · obtain ⟨d, this⟩ := inClass within
    exact ⟨d + 1, locate_cons_scoped noThis this⟩
  · obtain ⟨d, super, this⟩ := inSub sub
    exact ⟨d + 1, locate_cons_scoped noSuper super, locate_cons_scoped noThis this⟩

theorem Layout.declare {scopes : List (List String)} {cls : ClassContext} (layout : Layout scopes cls)
    {x : String} (ordinary : Ordinary x) : Layout (declareIn x scopes) cls := by
  rw [Layout,locate_declareIn_ne (Ne.symm ordinary.2.symm) scopes,locate_declareIn_ne ordinary.1 scopes]
  exact layout

/-- The scopes of a class's methods put `this` innermost and `super`, when there is one, right
beyond it. -/
theorem layout_classScopes (scopes : List (List String)) (hasSuper : Bool) :
    Layout (classScopes scopes hasSuper) (if hasSuper then .sub else .plain) := by
  have this : locate "this" (classScopes scopes hasSuper) = .scoped 0 := by
    cases hasSuper <;> simp [classScopes,locate]
  cases hasSuper with
  | false => exact ⟨fun _ => ⟨0, this⟩, fun sub => by cases sub⟩
  | true => exact ⟨fun _ => ⟨0, this⟩, fun _ => ⟨0, by simp [classScopes,locate], this⟩⟩

/-- The parameters of a function declare no `this` or `super`, so its body keeps the layout. -/
theorem Layout.params {scopes : List (List String)} {cls : ClassContext} (layout : Layout scopes cls)
    {params : List Token} (ordinary : ∀ p ∈ params, Ordinary p.lexeme) : Layout (paramScope params :: scopes) cls := by
  refine layout.push ?_ ?_ <;> intro mem <;> obtain ⟨p, mem, named⟩ := List.mem_map.1 mem
  · exact (ordinary p mem).1 named
  · exact (ordinary p mem).2 named

theorem Pending.locate {view scopes : List (List String)} {init : Option String} (pending : Pending view init scopes)
    {name : String} (other : init ≠ some name) : Scope.locate name scopes = Scope.locate name view := by
  cases init with
  | none => rw [show scopes = view from pending]
  | some x =>
    rw [pending.1]
    exact locate_declareIn_ne (fun same => other (by rw [same])) view

theorem Pending.layout {view scopes : List (List String)} {init : Option String} (pending : Pending view init scopes)
    {cls : ClassContext} (layout : Layout view cls) : Layout scopes cls := by
  cases init with
  | none => rwa [show scopes = view from pending]
  | some x => exact pending.1 ▸ layout.declare pending.2

/-- A local variable's initializer is resolved with the variable declared; at the top level the
variable is global and nothing is pending. -/
theorem pending_initializing (view : List (List String)) {name : Token} (ordinary : Ordinary name.lexeme) :
    Pending view (initializing view name) (declareIn name.lexeme view) := by
  cases view with
  | nil => rfl
  | cons top rest => exact ⟨rfl, ordinary⟩

end Scope

/-- A statement that declares nothing leaves the scopes as they were. -/
theorem Scope.afterStmt_of_declares {scopes : List (List String)} {st : Stmt} (none : st.declares = []) :
    Scope.afterStmt scopes st = scopes := by
  simp [Scope.afterStmt,none]

/-- At the top level no scope keeps the names a statement declares. -/
theorem Scope.afterStmt_nil (st : Stmt) : Scope.afterStmt [] st = [] := by
  unfold Scope.afterStmt
  induction st.declares with
  | nil => rfl
  | cons t ts ih => simpa [Scope.declareIn] using ih

/-- A top-level program passes the scope rules when its first statement does and the rest does:
at the top level no statement changes the scopes the next one sees. -/
theorem Stmt.scopeFaultsAll_top_cons {st : Stmt} {rest : List Stmt}
    (clean : Stmt.scopeFaultsAll Scope.Context.top (st :: rest) = []) :
    st.scopeFaults Scope.Context.top = [] ∧ Stmt.scopeFaultsAll Scope.Context.top rest = [] := by
  have faults := List.append_eq_nil_iff.1 clean
  have later := faults.2
  rw [Scope.Context.top_scopes, Scope.afterStmt_nil] at later
  exact ⟨faults.1, later⟩

/-- A top-level program is addressed statement by statement in the empty list of scopes. -/
theorem Stmt.addressedAll_top_cons (st : Stmt) (rest : List Stmt) :
    Stmt.addressedAll [] (st :: rest) = st.addressed [] :: Stmt.addressedAll [] rest := by
  rw [Stmt.addressedAll, Scope.afterStmt_nil]

theorem FunDecl.name_addressed (scopes : List (List String)) (d : FunDecl) : (d.addressed scopes).name = d.name := by
  cases d
  rfl

/-- The parser declares only ordinary names. -/
theorem Stmt.Formed.declares_ordinary {st : Stmt} (formed : st.Formed) : ∀ t ∈ st.declares, Scope.Ordinary t.lexeme := by
  cases st with
  | varDecl name init => simpa [Stmt.declares] using formed.1
  | function d =>
    obtain ⟨name, params, body⟩ := d
    simpa [Stmt.declares,FunDecl.name] using formed.1
  | classDecl name sup methods => simpa [Stmt.declares] using formed.1
  | ifElse c t e =>
    obtain ⟨-, -, plainT, formedE⟩ := formed
    cases e with
    | none => simp [Stmt.declares,Stmt.declaresOpt,plainT]
    | some s => simp [Stmt.declares,Stmt.declaresOpt,plainT,formedE.2]
  | whileLoop c b => simp [Stmt.declares,formed.2.2]
  | expression e | print e | block body | returnStmt kw v => simp [Stmt.declares]

/-- Declaring ordinary names in turn keeps the layout. -/
theorem Scope.Layout.declareAll {cls : Scope.ClassContext} : ∀ (names : List Token) {scopes : List (List String)},
    Scope.Layout scopes cls → (∀ t ∈ names, Scope.Ordinary t.lexeme) →
    Scope.Layout (names.foldl (fun scopes name => Scope.declareIn name.lexeme scopes) scopes) cls
  | [], _, layout, _ => layout
  | t :: ts, _, layout, ordinary =>
    declareAll ts (Layout.declare layout (ordinary t List.mem_cons_self)) fun u mem =>
      ordinary u (List.mem_cons_of_mem _ mem)

/-- What a statement of the parser's shape declares keeps the layout. -/
theorem Scope.Layout.afterStmt {scopes : List (List String)} {cls : Scope.ClassContext} (layout : Scope.Layout scopes cls)
    {st : Stmt} (formed : st.Formed) : Scope.Layout (Scope.afterStmt scopes st) cls :=
  layout.declareAll st.declares formed.declares_ordinary

/-! ### Frames -/

/-- A value fits a name when reading the name as the interpreter does succeeds: `this` must be
an instance and `super` a class. -/
def Value.Fits (v : Value) (name : String) : Prop :=
  (name = "this" → ∃ r c, v = .obj r c) ∧ (name = "super" → ∃ c, v = .cls c)

theorem Value.fits_of_ordinary {name : String} (ordinary : Scope.Ordinary name) (v : Value) : v.Fits name :=
  ⟨fun named => absurd named ordinary.1, fun named => absurd named ordinary.2⟩

namespace Store

/-- The frame enclosing a frame. -/
def parentOf (s : Store) (frame : Nat) : Option Nat := (s.frames[frame]?).bind Frame.parent

/-- Only a frame that exists has a parent. -/
theorem frame_lt_of_parentOf {s : Store} {frame P : Nat} (parent : s.parentOf frame = some P) :
    frame < s.frames.size := by
  unfold parentOf at parent
  cases framed : s.frames[frame]? with
  | none => simp [framed] at parent
  | some fr => exact (Array.getElem?_eq_some_iff.1 framed).1

/-- A frame binds a name to a value that fits it. -/
def Binds (s : Store) (frame : Nat) (name : String) : Prop := ∃ v, s.findIn frame name = .value v ∧ v.Fits name

/-- The frames from `frame` outwards bind the names of the scopes, scope by scope. -/
def Covers (s : Store) (frame : Nat) : List (List String) → Prop
  | [] => True
  | top :: rest => (∀ n ∈ top, s.Binds frame n) ∧ ∃ p, s.parentOf frame = some p ∧ s.Covers p rest

theorem ancestor_succ_of_parentOf {s : Store} {frame p : Nat} (parent : s.parentOf frame = some p) (d : Nat) :
    s.ancestor frame (d + 1) = s.ancestor p d := by
  unfold parentOf at parent
  cases found : s.frames[frame]? with
  | none => simp [found] at parent
  | some fr =>
    rw [found] at parent
    exact ancestor_succ_of found parent d

theorem Covers.frame {s : Store} {frame : Nat} {top : List String} {rest : List (List String)}
    (covers : s.Covers frame (top :: rest)) : frame < s.frames.size := by
  obtain ⟨-, p, parent, -⟩ := covers
  unfold parentOf at parent
  cases found : s.frames[frame]? with
  | none => simp [found] at parent
  | some fr => exact (Array.getElem?_eq_some_iff.1 found).1

/-- The scope a reference is addressed to has its frame on the chain, the right number of links
up, and that frame binds the name. -/
theorem Covers.ancestor {s : Store} {frame : Nat} {scopes : List (List String)} (covers : s.Covers frame scopes)
    {name : String} {d : Nat} (found : Scope.locate name scopes = .scoped d) :
    ∃ a, s.ancestor frame d = some a ∧ s.Binds a name := by
  induction scopes generalizing frame d with
  | nil => cases found
  | cons top rest ih =>
    obtain ⟨binds, p, parent, outer⟩ := covers
    by_cases here : name ∈ top
    · simp only [Scope.locate,here,if_true,Address.scoped.injEq] at found
      subst found
      exact ⟨frame, rfl, binds name here⟩
    · simp only [Scope.locate,here,if_false] at found
      rcases further : Scope.locate name rest with _ | d'
      · simp [further] at found
      · simp only [further,Address.scoped.injEq] at found
        subst found
        rw [ancestor_succ_of_parentOf parent]
        exact ih outer further

/-- So reading a reference at its address finds a value that fits its name. -/
theorem Covers.getAt {s : Store} {frame : Nat} {scopes : List (List String)} (covers : s.Covers frame scopes)
    {name : String} {d : Nat} (found : Scope.locate name scopes = .scoped d) :
    ∃ v, s.getAt frame d name = .value v ∧ v.Fits name := by
  obtain ⟨a, up, v, binds, fits⟩ := covers.ancestor found
  exact ⟨v, by simp [Store.getAt,up,binds], fits⟩

/-- A frame that binds a name declared in its scope still covers the scopes. -/
theorem Covers.declare {s : Store} {frame : Nat} {scopes : List (List String)} (covers : s.Covers frame scopes)
    {name : String} (binds : s.Binds frame name) : s.Covers frame (Scope.declareIn name scopes) := by
  cases scopes with
  | nil => trivial
  | cons top rest =>
    obtain ⟨others, outer⟩ := covers
    refine ⟨?_, outer⟩
    intro n mem
    rcases List.mem_cons.1 mem with rfl | old
    · exact binds
    · exact others n old

/-! ### Growth -/

/-- A store grown from another: no frame lost or re-parented, no binding lost or made not to fit. -/
structure Grows (s s' : Store) : Prop where
  parents : ∀ frame p, s.parentOf frame = some p → s'.parentOf frame = some p
  binds : ∀ frame name, s.Binds frame name → s'.Binds frame name
  size : s.frames.size ≤ s'.frames.size

theorem Grows.refl (s : Store) : s.Grows s := ⟨fun _ _ => id, fun _ _ => id, Nat.le_refl _⟩

theorem Grows.trans {s s' s'' : Store} (first : s.Grows s') (second : s'.Grows s'') : s.Grows s'' :=
  ⟨fun frame p parent => second.parents frame p (first.parents frame p parent),
    fun frame name binds => second.binds frame name (first.binds frame name binds),
    Nat.le_trans first.size second.size⟩

theorem Covers.grow {s s' : Store} (grows : s.Grows s') {frame : Nat} {scopes : List (List String)}
    (covers : s.Covers frame scopes) : s'.Covers frame scopes := by
  induction scopes generalizing frame with
  | nil => trivial
  | cons top rest ih =>
    obtain ⟨binds, p, parent, outer⟩ := covers
    exact ⟨fun n mem => grows.binds frame n (binds n mem), p, grows.parents frame p parent, ih outer⟩

end Store

/-! ### Sound values -/

/-- A function value whose body was resolved, without faults, in scopes its frame covers; if it is
an initializer, its own frame binds `this`. -/
def Closure.Callable (s : Store) (f : Closure) : Prop :=
  ∃ (ctx : Scope.Context) (kind : Scope.FunctionContext) (d : FunDecl), f.decl = d.addressed ctx.scopes ∧
    d.Formed ∧ d.scopeFaults ctx kind = [] ∧ Scope.Layout (Scope.paramScope d.params :: ctx.scopes) ctx.cls ∧
    s.Covers f.env ctx.scopes ∧ (f.isInit = true → Scope.locate "this" ctx.scopes = .scoped 0)

/-- A method of a class: resolved, without faults, inside a `this` scope, with its frame covering
the scopes outside that one. -/
def Closure.Method (s : Store) (f : Closure) : Prop :=
  ∃ (ctx : Scope.Context) (kind : Scope.FunctionContext) (d : FunDecl) (outer : List (List String)),
    ctx.scopes = ["this"] :: outer ∧ f.decl = d.addressed ctx.scopes ∧ d.Formed ∧ d.scopeFaults ctx kind = [] ∧
    Scope.Layout (Scope.paramScope d.params :: ctx.scopes) ctx.cls ∧ s.Covers f.env outer

/-- A class whose methods, and whose superclass's, are sound. -/
def ClassDef.Sound (s : Store) : ClassDef → Prop
  | .mk _ _ sup methods => (∀ p ∈ methods, p.2.Method s) ∧ match sup with
    | some c => c.Sound s
    | none => True

/-- A value whose functions and classes are sound. -/
def Value.Sound (s : Store) : Value → Prop
  | .fn f => f.Callable s
  | .cls c => c.Sound s
  | .obj _ c => c.Sound s
  | _ => True

theorem Closure.Callable.grow {s s' : Store} (grows : s.Grows s') {f : Closure} :
    f.Callable s → f.Callable s'
  | ⟨ctx, kind, d, decl, formed, clean, layout, covers, init⟩ =>
    ⟨ctx, kind, d, decl, formed, clean, layout, covers.grow grows, init⟩

theorem Closure.Method.grow {s s' : Store} (grows : s.Grows s') {f : Closure} : f.Method s → f.Method s'
  | ⟨ctx, kind, d, outer, inThis, decl, formed, clean, layout, covers⟩ =>
    ⟨ctx, kind, d, outer, inThis, decl, formed, clean, layout, covers.grow grows⟩

theorem ClassDef.Sound.grow {s s' : Store} (grows : s.Grows s') : ∀ {c : ClassDef}, c.Sound s → c.Sound s'
  | .mk _ _ sup _, sound => by
    unfold ClassDef.Sound at sound ⊢
    obtain ⟨methods, super⟩ := sound
    refine ⟨fun p mem => (methods p mem).grow grows, ?_⟩
    cases sup with
    | none => trivial
    | some c => exact ClassDef.Sound.grow grows super

theorem Value.Sound.grow {s s' : Store} (grows : s.Grows s') {v : Value} (sound : v.Sound s) : v.Sound s' := by
  cases v with
  | fn f => exact Closure.Callable.grow grows sound
  | cls c => exact ClassDef.Sound.grow grows sound
  | obj r c => exact ClassDef.Sound.grow grows sound
  | _ => trivial

/-- The method a sound class finds is a sound method. -/
theorem ClassDef.Sound.findMethod {s : Store} : ∀ {c : ClassDef}, c.Sound s → ∀ {name : String} {m : Closure},
    c.findMethod name = some m → m.Method s
  | .mk _ _ sup methods, sound, name, m, found => by
    unfold ClassDef.Sound at sound
    obtain ⟨own, super⟩ := sound
    unfold ClassDef.findMethod at found
    split at found
    · next f listed =>
      cases found
      exact own _ (mem_of_lookup listed)
    · split at found
      · exact ClassDef.Sound.findMethod super found
      · cases found

/-! ### Bindings and fields -/

theorem Slots.lookup_put_ne {name n : String} (other : n ≠ name) (v : Option Value) (sl : Slots) :
    (sl.put name v).lookup n = sl.lookup n := by
  have differs : (n == name) = false := by simpa using other
  induction sl with
  | nil => simp [Slots.put,List.lookup_cons,differs]
  | cons p rest ih =>
    obtain ⟨m, old⟩ := p
    by_cases same : m = name
    · subst same
      simp [Slots.put,List.lookup_cons,differs]
    · simp [Slots.put,same,List.lookup_cons,ih]

theorem Slots.mem_put {name : String} {v : Option Value} {sl : Slots} {p : String × Option Value}
    (mem : p ∈ sl.put name v) : p = (name, v) ∨ p ∈ sl := by
  induction sl with
  | nil => simpa [Slots.put] using mem
  | cons q rest ih =>
    obtain ⟨m, old⟩ := q
    by_cases same : m = name
    · simp only [Slots.put,same,beq_self_eq_true,if_true,List.mem_cons] at mem
      rcases mem with here | there
      · exact .inl here
      · exact .inr (List.mem_cons_of_mem _ there)
    · simp only [Slots.put,beq_iff_eq,same,if_false,List.mem_cons] at mem
      rcases mem with here | there
      · exact .inr (here ▸ List.mem_cons_self)
      · exact (ih there).imp id (List.mem_cons_of_mem _)

/-- Binding a name twice keeps the second binding. -/
theorem Slots.put_put (name : String) (v w : Option Value) (sl : Slots) : (sl.put name v).put name w = sl.put name w := by
  induction sl with
  | nil => simp [Slots.put]
  | cons q rest ih =>
    obtain ⟨m, old⟩ := q
    by_cases same : m = name
    · simp [Slots.put,same]
    · simp [Slots.put,same,ih]

theorem Fields.mem_put {name : String} {v : Value} {fs : Fields} {p : String × Value}
    (mem : p ∈ fs.put name v) : p = (name, v) ∨ p ∈ fs := by
  induction fs with
  | nil => simpa [Fields.put] using mem
  | cons q rest ih =>
    obtain ⟨m, old⟩ := q
    by_cases same : m = name
    · simp only [Fields.put,same,beq_self_eq_true,if_true,List.mem_cons] at mem
      rcases mem with here | there
      · exact .inl here
      · exact .inr (List.mem_cons_of_mem _ there)
    · simp only [Fields.put,beq_iff_eq,same,if_false,List.mem_cons] at mem
      rcases mem with here | there
      · exact .inr (here ▸ List.mem_cons_self)
      · exact (ih there).imp id (List.mem_cons_of_mem _)

namespace Store

/-! ### Sound stores -/

/-- A sound store: the globals frame exists, every binding is assigned a sound value, and every
field of every instance holds one. -/
structure Sound (s : Store) : Prop where
  globals : globals < s.frames.size
  bindings : ∀ (frame : Nat) (fr : Frame), s.frames[frame]? = some fr →
    ∀ p ∈ fr.slots, ∃ v : Value, p.2 = some v ∧ v.Sound s
  fields : ∀ (r : Nat) (fs : Fields), s.objects[r]? = some fs → ∀ p ∈ fs, Value.Sound s p.2

/-- What a sound store binds in a frame is sound. -/
theorem Sound.findIn {s : Store} (sound : s.Sound) {frame : Nat} {name : String} {v : Value}
    (found : s.findIn frame name = .value v) : v.Sound s := by
  obtain ⟨fr, framed, bound⟩ := findIn_eq_value.1 found
  obtain ⟨w, same, sound⟩ := sound.bindings frame fr framed _ (mem_of_lookup bound)
  cases same
  exact sound

/-- A search outwards through a sound store finds a sound value or nothing. -/
theorem Sound.find {s : Store} (sound : s.Sound) (frame : Nat) (name : String) :
    (∃ v, s.find frame name = .value v ∧ v.Sound s) ∨ s.find frame name = .missing := by
  induction frame using Nat.strongRecOn with
  | ind frame ih =>
    rw [Store.find]
    split
    · exact .inr rfl
    · next fr framed =>
      split
      · next v bound =>
        obtain ⟨w, same, valued⟩ := sound.bindings frame fr framed _ (mem_of_lookup bound)
        obtain rfl : v = w := Option.some.inj same
        exact .inl ⟨v, rfl, valued⟩
      · next unassigned =>
        obtain ⟨v, none, -⟩ := sound.bindings frame fr framed _ (mem_of_lookup unassigned)
        cases none
      · split
        · split
          · next p _ earlier => exact ih p earlier
          · exact .inr rfl
        · exact .inr rfl

/-- A field of a sound store is sound. -/
theorem Sound.field {s : Store} (sound : s.Sound) {r : Nat} {name : String} {v : Value}
    (found : s.field? r name = some v) : v.Sound s := by
  unfold field? at found
  cases fields : s.objects[r]? with
  | none => simp [fields] at found
  | some fs =>
    rw [fields] at found
    exact sound.fields r fs fields _ (mem_of_lookup found)

/-- A global search that finds nothing leaves the name unbound among the globals. -/
theorem findIn_globals_of_find {s : Store} {name : String} (missing : s.find globals name = .missing) :
    s.findIn globals name = .missing := by
  rw [Store.find] at missing
  unfold Store.findIn
  cases framed : s.frames[globals]? with
  | none => rfl
  | some fr =>
    simp only [framed] at missing ⊢
    cases bound : fr.slots.lookup name with
    | none => rfl
    | some b => cases b <;> simp [bound] at missing

/-- An assignment that finds no global binding leaves the name unbound among the globals. -/
theorem findIn_globals_of_owner {s : Store} {name : String} (none : s.owner globals name = none) :
    s.findIn globals name = .missing := by
  rw [Store.owner] at none
  unfold Store.findIn
  cases framed : s.frames[globals]? with
  | none => rfl
  | some fr =>
    simp only [framed] at none ⊢
    cases bound : fr.slots.lookup name with
    | none => rfl
    | some b => simp [bound] at none

/-! ### The changes the interpreter makes -/

/-- A store with the same frames is grown from another. -/
theorem grows_of_frames {s s' : Store} (same : s'.frames = s.frames) : s.Grows s' :=
  ⟨fun frame p parent => by simpa [parentOf,same] using parent,
    fun frame name ⟨v, found, fits⟩ => ⟨v, (findIn_of_frame_eq (by rw [same]) name).trans found, fits⟩,
    Nat.le_of_eq (congrArg Array.size same.symm)⟩

theorem parentOf_alloc (s : Store) (P G : Nat) :
    (s.alloc P).1.parentOf G = if G = s.frames.size then some P else s.parentOf G := by
  unfold parentOf
  rw [frame_alloc]
  split <;> rfl

theorem parentOf_alloc_self (s : Store) (p : Nat) : (s.alloc p).1.parentOf s.frames.size = some p := by
  rw [parentOf_alloc, if_pos rfl]

theorem findIn_alloc_self (s : Store) (p : Nat) (name : String) : (s.alloc p).1.findIn s.frames.size name = .missing := by
  simp [Store.findIn,frame_alloc]

theorem frame_alloc_old {s : Store} (p : Nat) {frame : Nat} (old : frame < s.frames.size) :
    (s.alloc p).1.frames[frame]? = s.frames[frame]? := by
  rw [frame_alloc, if_neg (Nat.ne_of_lt old)]

theorem grows_alloc (s : Store) (p : Nat) : s.Grows (s.alloc p).1 := by
  refine ⟨fun frame q parent => ?_, fun frame name binds => ?_, by rw [alloc_frames_size]; omega⟩
  · rwa [parentOf_alloc, if_neg (Nat.ne_of_lt (frame_lt_of_parentOf parent))]
  · obtain ⟨v, found, fits⟩ := binds
    exact ⟨v, by rwa [findIn_of_frame_eq (frame_alloc_old p (frame_lt_of_findIn found))], fits⟩

theorem Sound.alloc {s : Store} (sound : s.Sound) (p : Nat) : (s.alloc p).1.Sound := by
  have grows := grows_alloc s p
  refine ⟨Nat.lt_of_lt_of_le sound.globals grows.size, fun frame fr framed b mem => ?_, fun r fs fielded q mem => ?_⟩
  · by_cases old : frame < s.frames.size
    · rw [frame_alloc_old p old] at framed
      obtain ⟨v, same, valued⟩ := sound.bindings frame fr framed b mem
      exact ⟨v, same, valued.grow grows⟩
    · have new : frame = s.frames.size := by
        have := (Array.getElem?_eq_some_iff.1 framed).1
        rw [alloc_frames_size] at this
        omega
      subst new
      rw [frame_alloc, if_pos rfl, Option.some.injEq] at framed
      subst framed
      cases mem
  · exact (sound.fields r fs fielded q mem).grow grows

theorem parentOf_define (s : Store) (frame : Nat) (name : String) (v : Option Value) (other : Nat) :
    (s.define frame name v).parentOf other = s.parentOf other := by
  by_cases same : other = frame
  · subst same
    simp only [parentOf,Store.frame_define,if_true]
    cases s.frames[other]? <;> rfl
  · simp [parentOf,Store.frame_define,Ne.symm same]

theorem findIn_define_of_ne {s : Store} {frame : Nat} {name : String} {v : Option Value} {other : Nat}
    {n : String} (apart : other ≠ frame ∨ n ≠ name) : (s.define frame name v).findIn other n = s.findIn other n := by
  rcases apart with elsewhere | differs
  · simp [Store.findIn,Store.frame_define,Ne.symm elsewhere]
  · by_cases same : other = frame
    · subst same
      simp only [Store.findIn,Store.frame_define,if_true]
      cases s.frames[other]? with
      | none => rfl
      | some fr => simp [Slots.lookup_put_ne differs]
    · simp [Store.findIn,Store.frame_define,Ne.symm same]

/-- Binding a name to a value that fits it is growth. -/
theorem grows_define (s : Store) (frame : Nat) (name : String) {v : Value} (fits : v.Fits name) :
    s.Grows (s.define frame name (some v)) := by
  refine ⟨fun other p parent => by rwa [parentOf_define], fun other n binds => ?_, by simp⟩
  by_cases here : other = frame ∧ n = name
  · obtain ⟨rfl, rfl⟩ := here
    obtain ⟨w, found, -⟩ := binds
    exact ⟨v, findIn_define_self s other n v (frame_lt_of_findIn found), fits⟩
  · have apart : other ≠ frame ∨ n ≠ name := by
      by_cases same : other = frame
      · exact .inr fun named => here ⟨same, named⟩
      · exact .inl same
    obtain ⟨w, found, wFits⟩ := binds
    exact ⟨w, by rw [findIn_define_of_ne apart, found], wFits⟩

theorem binds_define_self {s : Store} {frame : Nat} (valid : frame < s.frames.size) (name : String) {v : Value}
    (fits : v.Fits name) : (s.define frame name (some v)).Binds frame name :=
  ⟨v, findIn_define_self s frame name v valid, fits⟩

/-- Binding a name to a sound value that fits it keeps a store sound. -/
theorem Sound.define {s : Store} (sound : s.Sound) (frame : Nat) (name : String) {v : Value} (fits : v.Fits name)
    (valued : v.Sound (s.define frame name (some v))) : (s.define frame name (some v)).Sound := by
  have grows := grows_define s frame name fits
  refine ⟨by simpa using sound.globals, fun other fr framed p mem => ?_, fun r fs fielded q mem => ?_⟩
  · by_cases same : other = frame
    · subst same
      simp only [Store.frame_define,if_true] at framed
      cases old : s.frames[other]? with
      | none => simp [old] at framed
      | some fr' =>
        simp only [old,Option.map_some,Option.some.injEq] at framed
        subst framed
        rcases Slots.mem_put mem with new | kept
        · exact ⟨v, by rw [new], valued⟩
        · obtain ⟨w, same, wSound⟩ := sound.bindings other fr' old p kept
          exact ⟨w, same, wSound.grow grows⟩
    · simp only [Store.frame_define,Ne.symm same,if_false] at framed
      obtain ⟨w, same, wSound⟩ := sound.bindings other fr framed p mem
      exact ⟨w, same, wSound.grow grows⟩
  · exact (sound.fields r fs fielded q mem).grow grows

/-- Declaring a name unassigned and then assigning it is assigning it. -/
theorem define_define (s : Store) (frame : Nat) (name : String) (v w : Option Value) :
    (s.define frame name v).define frame name w = s.define frame name w := by
  simp only [Store.define,Store.mk.injEq,and_true]
  apply Array.ext
  · simp
  · intro i h₁ h₂
    simp only [Array.getElem_modify]
    split <;> simp [Slots.put_put]

/-- Binding a name in an existing frame commutes with allocating a new one. -/
theorem define_alloc {s : Store} {frame : Nat} (valid : frame < s.frames.size) (name : String) (v : Option Value)
    (p : Nat) : ((s.define frame name v).alloc p).1 = (s.alloc p).1.define frame name v := by
  simp only [Store.define,Store.alloc,Store.mk.injEq,and_true]
  apply Array.ext
  · simp
  · intro i h₁ h₂
    simp only [Array.getElem_push,Array.getElem_modify,Array.size_modify]
    split <;> split <;> grind

/-- Bindings in two different frames commute. -/
theorem define_comm (s : Store) {a b : Nat} (apart : a ≠ b) (x y : String) (v w : Option Value) :
    (s.define a x v).define b y w = (s.define b y w).define a x v := by
  simp only [Store.define,Store.mk.injEq,and_true]
  apply Array.ext
  · simp
  · intro i h₁ h₂
    simp only [Array.getElem_modify]
    split <;> split <;> grind

theorem owner_define_self {s : Store} {frame : Nat} (valid : frame < s.frames.size) (name : String) (v : Option Value) :
    (s.define frame name v).owner frame name = some frame := by
  rw [Store.owner]
  simp [Store.define,Array.getElem_modify,valid,Slots.lookup_put_self]

theorem grows_newObject (s : Store) : s.Grows s.newObject.1 := grows_of_frames rfl

theorem Sound.newObject {s : Store} (sound : s.Sound) : s.newObject.1.Sound := by
  have grows := grows_newObject s
  refine ⟨sound.globals, fun frame fr framed p mem => ?_, fun r fs fielded q mem => ?_⟩
  · obtain ⟨v, same, valued⟩ := sound.bindings frame fr framed p mem
    exact ⟨v, same, valued.grow grows⟩
  · simp only [Store.newObject_objects,Array.getElem?_push] at fielded
    split at fielded
    · simp only [Option.some.injEq] at fielded
      subst fielded
      cases mem
    · exact (sound.fields r fs fielded q mem).grow grows

theorem grows_setField (s : Store) (r : Nat) (name : String) (v : Value) : s.Grows (s.setField r name v) :=
  grows_of_frames rfl

theorem Sound.setField {s : Store} (sound : s.Sound) (r : Nat) (name : String) {v : Value} (valued : v.Sound s) :
    (s.setField r name v).Sound := by
  have grows := grows_setField s r name v
  refine ⟨sound.globals, fun frame fr framed p mem => ?_, fun r' fs fielded q mem => ?_⟩
  · obtain ⟨w, same, wSound⟩ := sound.bindings frame fr framed p mem
    exact ⟨w, same, wSound.grow grows⟩
  · by_cases same : r' = r
    · subst same
      simp only [Store.setField,Array.getElem?_modify,if_true] at fielded
      cases old : s.objects[r']? with
      | none => simp [old] at fielded
      | some fs' =>
        simp only [old,Option.map_some,Option.some.injEq] at fielded
        subst fielded
        rcases Fields.mem_put mem with new | kept
        · subst new
          exact valued.grow grows
        · exact (sound.fields r' fs' old q kept).grow grows
    · simp only [Store.setField,Array.getElem?_modify,Ne.symm same,if_false] at fielded
      exact (sound.fields r' fs fielded q mem).grow grows

end Store

end Lox
