import Lox.Proofs.KeywordFrames
import Lox.Proofs.Unwinding
/-!
Where a run writes. The interpreter changes the bindings of a frame in four ways only: it defines
a name in the frame it runs in, binds parameters, `this` or `super` in a frame it has just made,
assigns in the frame a resolved reference addresses, and assigns among the globals. Every frame it
makes is new, added at the end of the store. So a run touches no frame it cannot reach. Take any
region of frames that holds the globals, the parent of each of its frames, and every frame that
the functions and classes bound in it close over (`Store.Closed`): a run started in the region
changes no frame outside it, gives every frame it had the parent it had, and leaves the region
with the frames it added closed again (`Run.confining`).
-/
namespace Lox

/-! ### The frames a value leads to -/

/-- The frames the methods of a class close over, its superclass's included, lie in `R`. -/
def ClassDef.Within (R : Nat → Prop) : ClassDef → Prop
  | .mk _ _ sup methods => (∀ p ∈ methods, R p.2.env) ∧ match sup with
    | some c => c.Within R
    | none => True

/-- The frames a value leads a run into lie in `R`: the frame a function closes over, and those
of the methods of a class or of an instance's class. -/
def Value.Within (R : Nat → Prop) : Value → Prop
  | .fn f => R f.env
  | .cls c => c.Within R
  | .obj _ c => c.Within R
  | _ => True

/-- The value a statement returned, if any, lies in `R`. -/
def Flow.Within (R : Nat → Prop) : Flow → Prop
  | .returned v => v.Within R
  | .normal => True

section Within

variable {R R' : Nat → Prop}

theorem ClassDef.Within.mono (sub : ∀ F, R F → R' F) : ∀ {c : ClassDef}, c.Within R → c.Within R'
  | .mk _ _ sup methods, within => by
    unfold ClassDef.Within at within ⊢
    refine ⟨fun p mem => sub _ (within.1 p mem), ?_⟩
    cases sup with
    | none => trivial
    | some c => exact ClassDef.Within.mono sub within.2

theorem Value.Within.mono (sub : ∀ F, R F → R' F) {v : Value} (within : v.Within R) : v.Within R' := by
  cases v with
  | fn f => exact sub _ within
  | cls c => exact ClassDef.Within.mono sub within
  | obj r c => exact ClassDef.Within.mono sub within
  | _ => trivial

theorem Flow.Within.mono (sub : ∀ F, R F → R' F) {flow : Flow} (within : flow.Within R) : flow.Within R' := by
  cases flow with
  | returned v => exact Value.Within.mono sub within
  | normal => trivial

/-- The method a class finds closes over a frame of the region the class lies in. -/
theorem ClassDef.Within.findMethod : ∀ {c : ClassDef}, c.Within R → ∀ {name : String} {f : Closure},
    c.findMethod name = some f → R f.env
  | .mk _ _ sup methods, within, name, f, found => by
    unfold ClassDef.Within at within
    obtain ⟨own, super⟩ := within
    unfold ClassDef.findMethod at found
    split at found
    · next g listed =>
      cases found
      exact own _ (mem_of_lookup listed)
    · split at found
      · exact ClassDef.Within.findMethod super found
      · cases found

end Within

namespace Store

/-! ### Closed regions -/

/-- The region `R` with every frame past the end of the store: the frames a run may add. -/
def grown (s : Store) (R : Nat → Prop) (F : Nat) : Prop := R F ∨ s.frames.size ≤ F

theorem grown_of {s : Store} {R : Nat → Prop} {F : Nat} (inR : R F) : s.grown R F := .inl inR

/-- A region that already holds every frame past the end of the store grows into itself. -/
theorem grown_eq {s : Store} {R : Nat → Prop} (fresh : ∀ F, s.frames.size ≤ F → R F) : s.grown R = R := by
  funext F
  exact propext ⟨fun inR => inR.elim id (fresh F), .inl⟩

/-- A region closed in a store: it holds the globals and the parent of each of its frames, and
every value bound in one of its frames or held in a field of an instance leads only into it. -/
structure Closed (s : Store) (R : Nat → Prop) : Prop where
  globals : R globals
  parents : ∀ F P, R F → s.parentOf F = some P → R P
  slots : ∀ F fr, R F → s.frames[F]? = some fr → ∀ name (v : Value), (name, some v) ∈ fr.slots → v.Within R
  fields : ∀ (ref : Nat) fs, s.objects[ref]? = some fs → ∀ name (v : Value), (name, v) ∈ fs → v.Within R

section Closed

variable {s : Store} {R : Nat → Prop}

theorem frame_none_of_le {F : Nat} (past : s.frames.size ≤ F) : s.frames[F]? = none :=
  Array.getElem?_eq_none past

/-- A closed region stays closed with the frames past the end of the store, which hold nothing. -/
theorem Closed.grown (closed : s.Closed R) : s.Closed (s.grown R) where
  globals := grown_of closed.globals
  parents F P inR parent := by
    rcases inR with inR | past
    · exact grown_of (closed.parents F P inR parent)
    · simp [parentOf, frame_none_of_le past] at parent
  slots F fr inR framed name v mem := by
    rcases inR with inR | past
    · exact (closed.slots F fr inR framed name v mem).mono fun _ => grown_of
    · simp [frame_none_of_le past] at framed
  fields ref fs fielded name v mem := (closed.fields ref fs fielded name v mem).mono fun _ => grown_of

/-- The frame some number of links above a frame of a closed region is in the region. -/
theorem Closed.ancestor (closed : s.Closed R) {d : Nat} : ∀ {F A : Nat}, R F → s.ancestor F d = some A → R A := by
  induction d with
  | zero =>
    intro F A inR found
    cases found
    exact inR
  | succ d ih =>
    intro F A inR found
    unfold Store.ancestor at found
    split at found
    · next slots p framed => exact ih (closed.parents F p inR (by simp [parentOf, framed])) found
    · cases found

/-- The frame a search outwards from a frame of a closed region stops at is in the region. -/
theorem Closed.owner (closed : s.Closed R) (name : String) : ∀ {F O : Nat}, R F → s.owner F name = some O → R O := by
  intro F
  induction F using Nat.strongRecOn with
  | ind F ih =>
    intro O inR found
    rw [Store.owner] at found
    split at found
    · cases found
    · next fr framed =>
      split at found
      · cases found
        exact inR
      · split at found
        · next p parent =>
          split at found
          · next earlier => exact ih p earlier (closed.parents F p inR (by simp [parentOf, framed, parent])) found
          · cases found
        · cases found

/-- What a frame of a closed region binds leads into the region. -/
theorem Closed.findIn (closed : s.Closed R) {F : Nat} {name : String} {v : Value} (inR : R F)
    (found : s.findIn F name = .value v) : v.Within R := by
  obtain ⟨fr, framed, bound⟩ := Store.findIn_eq_value.1 found
  exact closed.slots F fr inR framed name v (mem_of_lookup bound)

/-- What a search outwards from a frame of a closed region finds leads into the region. -/
theorem Closed.find (closed : s.Closed R) (name : String) {v : Value} : ∀ {F : Nat}, R F →
    s.find F name = .value v → v.Within R := by
  intro F
  induction F using Nat.strongRecOn with
  | ind F ih =>
    intro inR found
    rw [Store.find] at found
    split at found
    · cases found
    · next fr framed =>
      split at found
      · next w bound =>
        cases found
        exact closed.slots F fr inR framed name v (mem_of_lookup bound)
      · cases found
      · split at found
        · next p parent =>
          split at found
          · next earlier => exact ih p earlier (closed.parents F p inR (by simp [parentOf, framed, parent])) found
          · cases found
        · cases found

theorem Closed.getAt (closed : s.Closed R) {F d : Nat} {name : String} {v : Value} (inR : R F)
    (found : s.getAt F d name = .value v) : v.Within R := by
  unfold Store.getAt at found
  split at found
  · next A up => exact closed.findIn (closed.ancestor inR up) found
  · cases found

theorem Closed.field (closed : s.Closed R) {ref : Nat} {name : String} {v : Value}
    (found : s.field? ref name = some v) : v.Within R := by
  unfold field? at found
  cases fielded : s.objects[ref]? with
  | none => simp [fielded] at found
  | some fs =>
    rw [fielded] at found
    exact closed.fields ref fs fielded name v (mem_of_lookup found)

/-- Binding, in a frame of a closed region, a value that leads into it keeps it closed. -/
theorem Closed.define (closed : s.Closed R) {F : Nat} (inR : R F) (name : String) {val : Option Value}
    (valued : ∀ v, val = some v → v.Within R) : (s.define F name val).Closed R where
  globals := closed.globals
  parents G P inR' parent := closed.parents G P inR' (by rwa [parentOf_define] at parent)
  slots G fr inR' framed n v mem := by
    by_cases here : G = F
    · subst here
      simp only [Store.frame_define, if_true] at framed
      cases old : s.frames[G]? with
      | none => simp [old] at framed
      | some fr' =>
        simp only [old, Option.map_some, Option.some.injEq] at framed
        subst framed
        rcases Slots.mem_put mem with new | kept
        · simp only [Prod.mk.injEq] at new
          exact valued v new.2.symm
        · exact closed.slots G fr' inR' old n v kept
    · simp only [Store.frame_define, Ne.symm here, if_false] at framed
      exact closed.slots G fr inR' framed n v mem
  fields := closed.fields

/-- A new frame whose parent is in a closed region keeps it, with the frames past the end of the
old store, closed. -/
theorem Closed.alloc (closed : s.Closed R) {p : Nat} (parent : R p) : (s.alloc p).1.Closed (s.grown R) where
  globals := grown_of closed.globals
  parents F P inR up := by
    by_cases old : F < s.frames.size
    · rw [parentOf, frame_alloc_old p old] at up
      exact closed.grown.parents F P inR up
    · by_cases new : F = s.frames.size
      · subst new
        rw [parentOf_alloc_self] at up
        cases up
        exact grown_of parent
      · rw [parentOf_alloc, if_neg new, parentOf, Array.getElem?_eq_none (Nat.le_of_not_lt old)] at up
        cases up
  slots F fr inR framed name v mem := by
    by_cases old : F < s.frames.size
    · rw [frame_alloc_old p old] at framed
      exact closed.grown.slots F fr inR framed name v mem
    · by_cases new : F = s.frames.size
      · subst new
        rw [frame_alloc, if_pos rfl, Option.some.injEq] at framed
        subst framed
        cases mem
      · rw [frame_alloc, if_neg new, Array.getElem?_eq_none (Nat.le_of_not_lt old)] at framed
        cases framed
  fields := closed.grown.fields

theorem Closed.newObject (closed : s.Closed R) : s.newObject.1.Closed R where
  globals := closed.globals
  parents := closed.parents
  slots := closed.slots
  fields ref fs fielded name v mem := by
    simp only [Store.newObject_objects, Array.getElem?_push] at fielded
    split at fielded
    · simp only [Option.some.injEq] at fielded
      subst fielded
      cases mem
    · exact closed.fields ref fs fielded name v mem

theorem Closed.setField (closed : s.Closed R) (ref : Nat) (name : String) {v : Value} (valued : v.Within R) :
    (s.setField ref name v).Closed R where
  globals := closed.globals
  parents := closed.parents
  slots := closed.slots
  fields ref' fs fielded n w mem := by
    by_cases same : ref' = ref
    · subst same
      simp only [Store.setField, Array.getElem?_modify, if_true] at fielded
      cases old : s.objects[ref']? with
      | none => simp [old] at fielded
      | some fs' =>
        simp only [old, Option.map_some, Option.some.injEq] at fielded
        subst fielded
        rcases Fields.mem_put mem with new | kept
        · simp only [Prod.mk.injEq] at new
          obtain ⟨-, rfl⟩ := new
          exact valued
        · exact closed.fields ref' fs' old n w kept
    · simp only [Store.setField, Array.getElem?_modify, Ne.symm same, if_false] at fielded
      exact closed.fields ref' fs fielded n w mem

/-- Binding parameters in turn in a frame of a closed region, to values that lead into it, keeps it
closed. -/
theorem Closed.foldl_define {F : Nat} (inR : R F) : ∀ (pairs : List (Token × Value)) {s : Store}, s.Closed R →
    (∀ p ∈ pairs, p.2.Within R) → (pairs.foldl (fun s p => s.define F p.1.lexeme (some p.2)) s).Closed R
  | [], _, closed, _ => closed
  | p :: pairs, _, closed, valued =>
    Closed.foldl_define inR pairs (closed.define inR _ fun v same => by
      cases same
      exact valued p List.mem_cons_self) fun q mem => valued q (List.mem_cons_of_mem _ mem)

end Closed

/-! ### Confined changes -/

/-- The store `s'` is `s` with frames added at the end: every frame `s` had keeps its parent, and
one outside the region `R` keeps its bindings too. -/
structure Confines (R : Nat → Prop) (s s' : Store) : Prop where
  size : s.frames.size ≤ s'.frames.size
  parents : ∀ F, F < s.frames.size → s'.parentOf F = s.parentOf F
  outside : ∀ F, F < s.frames.size → ¬ R F → s'.frames[F]? = s.frames[F]?

section Confines

variable {R : Nat → Prop} {s s' s'' : Store}

theorem Confines.refl (R : Nat → Prop) (s : Store) : s.Confines R s :=
  ⟨Nat.le_refl _, fun _ _ => rfl, fun _ _ _ => rfl⟩

theorem Confines.trans (first : s.Confines R s') (second : s'.Confines R s'') : s.Confines R s'' where
  size := Nat.le_trans first.size second.size
  parents F old := by rw [second.parents F (Nat.lt_of_lt_of_le old first.size), first.parents F old]
  outside F old outsideR := by
    rw [second.outside F (Nat.lt_of_lt_of_le old first.size) outsideR, first.outside F old outsideR]

theorem confines_of_frames (R : Nat → Prop) (same : s'.frames = s.frames) : s.Confines R s' :=
  ⟨Nat.le_of_eq (congrArg Array.size same.symm), fun F _ => by simp [parentOf, same], fun F _ _ => by rw [same]⟩

theorem confines_define {F : Nat} (inR : R F) (name : String) (val : Option Value) : s.Confines R (s.define F name val) where
  size := Nat.le_of_eq (define_frames_size s F name val).symm
  parents G _ := parentOf_define s F name val G
  outside G _ outsideR := by
    have apart : G ≠ F := fun same => outsideR (same ▸ inR)
    simp [Store.frame_define, Ne.symm apart]

theorem confines_alloc (R : Nat → Prop) (p : Nat) : s.Confines R (s.alloc p).1 where
  size := by simp [Store.alloc_frames_size]
  parents F old := by rw [parentOf, parentOf, frame_alloc_old p old]
  outside F old _ := frame_alloc_old p old

theorem confines_foldl_define {F : Nat} (inR : R F) : ∀ (pairs : List (Token × Value)) (s : Store),
    s.Confines R (pairs.foldl (fun s p => s.define F p.1.lexeme (some p.2)) s)
  | [], s => Confines.refl R s
  | p :: pairs, s => by
    rw [List.foldl_cons]
    exact (confines_define inR p.1.lexeme (some p.2)).trans (confines_foldl_define inR pairs _)

end Confines

end Store

namespace Run

variable {α β : Type}

/-! ### Runs confined to a region -/

/-- A machine inside a region: the region is closed in its store and holds every frame past the
store's end, the frames a run may add. -/
structure Inside (R : Nat → Prop) (m : Machine) : Prop where
  closed : m.store.Closed R
  fresh : ∀ F, m.store.frames.size ≤ F → R F

/-- A run confined to the region `R`: whatever it ends with, the store it leaves has frames added
and none outside `R` changed, the machine is still inside `R`, and an answer meets `P`. -/
def Confined (R : Nat → Prop) (P : α → Prop) (x : Run α) (m : Machine) : Prop :=
  m.store.Confines R (x.run.run m).2.store ∧ Inside R (x.run.run m).2 ∧ ∀ a, (x.run.run m).1 = .ok a → P a

section Confined

variable {R : Nat → Prop} {P : α → Prop} {m : Machine}

/-- A run that leaves the store as it was is confined. -/
theorem Confined.of_store {x : Run α} (inside : Inside R m) (same : (x.run.run m).2.store = m.store)
    (answer : ∀ a, (x.run.run m).1 = .ok a → P a) : Confined R P x m :=
  ⟨by rw [same]; exact Store.Confines.refl R _, ⟨by rw [same]; exact inside.closed, by rw [same]; exact inside.fresh⟩,
    answer⟩

theorem Confined.pure {a : α} (inside : Inside R m) (holds : P a) : Confined R P (Pure.pure a) m :=
  Confined.of_store inside rfl fun _ ran => by cases ran; exact holds

theorem Confined.stop {stop : Stop} (inside : Inside R m) : Confined R P (throw stop : Run α) m :=
  Confined.of_store inside rfl fun _ ran => by cases ran

theorem Confined.fail {t : Token} {f : RuntimeFault} (inside : Inside R m) : Confined R P (Run.fail t f : Run α) m :=
  Confined.stop inside

theorem Confined.imp {x : Run α} {Q : α → Prop} (confined : Confined R Q x m) (imp : ∀ a, Q a → P a) :
    Confined R P x m :=
  ⟨confined.1, confined.2.1, fun a ran => imp a (confined.2.2 a ran)⟩

/-- Sequencing: the first run is confined, and so is the rest from wherever it left. -/
theorem Confined.bind {x : Run α} {f : α → Run β} {Q : α → Prop} {P : β → Prop} (first : Confined R Q x m)
    (rest : ∀ a m', x.run.run m = (.ok a, m') → Inside R m' → Q a → Confined R P (f a) m') :
    Confined R P (x >>= f) m := by
  obtain ⟨confines, inside, answer⟩ := first
  unfold Confined
  rw [run_bind]
  revert confines inside answer
  rcases ran : x.run.run m with ⟨r, m'⟩
  intro confines inside answer
  cases r with
  | ok a =>
    obtain ⟨confines', inside', answer'⟩ := rest a m' ran inside (answer a rfl)
    exact ⟨confines.trans confines', inside', answer'⟩
  | error e => exact ⟨confines, inside, fun _ stopped => by cases stopped⟩

/-- Sequencing after a step whose outcome is known. -/
theorem Confined.step {x : Run α} {f : α → Run β} {P : β → Prop} {a : α} {m' : Machine}
    (ran : x.run.run m = (.ok a, m')) (confines : m.store.Confines R m'.store) (inside : Inside R m')
    (rest : Confined R P (f a) m') : Confined R P (x >>= f) m :=
  Confined.bind (Q := fun _ => True) ⟨by rw [ran]; exact confines, by rw [ran]; exact inside, fun _ _ => trivial⟩
    fun a' m'' ran' _ _ => by
      rw [ran] at ran'
      cases ran'
      exact rest

theorem Confined.ite {c : Prop} [Decidable c] {x y : Run α} (yes : Confined R P x m) (no : Confined R P y m) :
    Confined R P (if c then x else y) m := by
  split
  · exact yes
  · exact no

end Confined

/-! ### The interpreter's own steps -/

section Steps

variable {R : Nat → Prop} {m : Machine}

theorem define_confined (inside : Inside R m) {F : Nat} (inR : R F) (name : String) {val : Option Value}
    (valued : ∀ v, val = some v → v.Within R) : Confined R (fun _ => True) (define F name val) m :=
  ⟨Store.confines_define inR name val, ⟨inside.closed.define inR name valued, fun G past => inside.fresh G (by simpa using past)⟩,
    fun _ _ => trivial⟩

/-- A new frame is the one past the end of the store. -/
theorem alloc_confined (inside : Inside R m) {p : Nat} (parent : R p) :
    Confined R (fun F => F = m.store.frames.size) (alloc p) m := by
  refine ⟨Store.confines_alloc R p, ⟨?_, fun F past => inside.fresh F ?_⟩, fun F ran => by cases ran; rfl⟩
  · have closed := inside.closed.alloc parent
    rwa [Store.grown_eq inside.fresh] at closed
  · simp only [run_alloc, Store.alloc_frames_size] at past
    omega

theorem fresh_confined (inside : Inside R m) : Confined R (fun _ => True) fresh m :=
  Confined.of_store inside rfl fun _ _ => trivial

theorem write_confined (inside : Inside R m) (line : String) : Confined R (fun _ => True) (write line) m :=
  Confined.of_store inside rfl fun _ _ => trivial

theorem newObject_confined (inside : Inside R m) : Confined R (fun _ => True) newObject m :=
  ⟨Store.confines_of_frames R rfl, ⟨inside.closed.newObject, inside.fresh⟩, fun _ _ => trivial⟩

/-- Setting a field to a value that leads into the region. -/
theorem setField_confined (inside : Inside R m) (ref : Nat) (name : String) {v : Value} (valued : v.Within R) :
    Confined R (fun _ => True) (modify fun m : Machine => { m with store := m.store.setField ref name v }) m :=
  ⟨Store.confines_of_frames R rfl, ⟨inside.closed.setField ref name valued, inside.fresh⟩, fun _ _ => trivial⟩

/-- Reading a name finds a value bound in a frame of the region. -/
theorem lookUp_confined (inside : Inside R m) {env : Nat} (inR : R env) (name : Token) (addr : Address) :
    Confined R (Value.Within R) (lookUp env name addr) m := by
  refine Confined.of_store inside (by rw [lookUp_machine]) fun v ran => ?_
  simp only [lookUp, run_bind, run_get] at ran
  rcases addr with _ | d
  · split at ran
    · next w found =>
      cases ran
      exact inside.closed.find _ inside.closed.globals found
    all_goals cases ran
  · split at ran
    · next w found =>
      cases ran
      exact inside.closed.getAt inR found
    all_goals cases ran

/-- An assignment writes the frame its address names, or the binding among the globals, both in
the region. -/
theorem assignTo_confined (inside : Inside R m) {env : Nat} (inR : R env) (name : Token) (addr : Address)
    {v : Value} (valued : v.Within R) : Confined R (fun _ => True) (assignTo env name addr v) m := by
  unfold assignTo
  refine Confined.step (run_get m) (Store.Confines.refl R _) inside ?_
  dsimp only
  split
  · next F target =>
    have inF : R F := by
      rcases addr with _ | d
      · exact inside.closed.owner _ inside.closed.globals target
      · exact inside.closed.ancestor inR target
    exact define_confined inside inF _ fun w same => by cases same; exact valued
  · exact Confined.fail inside

/-- Binding a method makes a new frame under the method's own and binds `this` there. -/
theorem bindMethod_confined (inside : Inside R m) {method : Closure} (inR : R method.env) (ref : Nat)
    {c : ClassDef} (cls : c.Within R) : Confined R (fun f => R f.env) (bindMethod method ref c) m := by
  unfold bindMethod
  refine Confined.bind (alloc_confined inside inR) fun frame m₁ _ inside₁ new => ?_
  have inFrame : R frame := inside.fresh frame (Nat.le_of_eq new.symm)
  refine Confined.bind (define_confined inside₁ inFrame "this" fun v same => by cases same; exact cls)
    fun _ m₂ _ inside₂ _ => ?_
  exact Confined.bind (fresh_confined inside₂) fun _ m₃ _ inside₃ _ => Confined.pure inside₃ inFrame

theorem getProperty_confined (inside : Inside R m) (name : Token) (ref : Nat) {c : ClassDef} (cls : c.Within R) :
    Confined R (Value.Within R) (getProperty name ref c) m := by
  unfold getProperty
  refine Confined.step (run_get m) (Store.Confines.refl R _) inside ?_
  split
  · next v found => exact Confined.pure inside (inside.closed.field found)
  · split
    · next f found =>
      exact Confined.bind (bindMethod_confined inside (cls.findMethod found) ref cls) fun _ m₁ _ inside₁ inG =>
        Confined.pure inside₁ inG
    · exact Confined.fail inside

theorem superclassOf_confined (inside : Inside R m) (e : Expr) {v : Value} (valued : v.Within R) :
    Confined R (ClassDef.Within R) (superclassOf e v) m := by
  unfold superclassOf
  split
  · exact Confined.pure inside valued
  · exact Confined.fail inside

end Steps

/-! ### Every rule is confined -/

/-- The rules of the interpreter at one amount of fuel, each confined to any region its machine is
inside that holds the frame it runs in and the frames its values lead to. -/
structure Confining (fuel : Nat) : Prop where
  eval : ∀ {R m env} (e : Expr), Inside R m → R env → Confined R (Value.Within R) (eval fuel env e) m
  evalArgs : ∀ {R m env} (args : List Expr), Inside R m → R env →
    Confined R (fun vs => ∀ v ∈ vs, Value.Within R v) (evalArgs fuel env args) m
  callValue : ∀ {R m paren callee args}, Inside R m → callee.Within R → (∀ v ∈ args, Value.Within R v) →
    Confined R (Value.Within R) (callValue fuel paren callee args) m
  callClosure : ∀ {R m} {f : Closure} {args}, Inside R m → R f.env → (∀ v ∈ args, Value.Within R v) →
    Confined R (Value.Within R) (callClosure fuel f args) m
  exec : ∀ {R m env} (s : Stmt), Inside R m → R env → Confined R (Flow.Within R) (exec fuel env s) m
  execBlock : ∀ {R m env} (ss : List Stmt), Inside R m → R env →
    Confined R (Flow.Within R) (execBlock fuel env ss) m
  loop : ∀ {R m env} (c : Expr) (body : Stmt), Inside R m → R env →
    Confined R (Flow.Within R) (loop fuel env c body) m

theorem confining_zero : Confining 0 where
  eval _ inside _ := by rw [eval]; exact Confined.stop inside
  evalArgs _ inside _ := by rw [evalArgs]; exact Confined.stop inside
  callValue inside _ _ := by rw [callValue]; exact Confined.stop inside
  callClosure inside _ _ := by rw [callClosure]; exact Confined.stop inside
  exec _ inside _ := by rw [exec]; exact Confined.stop inside
  execBlock _ inside _ := by rw [execBlock]; exact Confined.stop inside
  loop _ _ inside _ := by rw [loop]; exact Confined.stop inside

theorem Literal.value_within (R : Nat → Prop) (l : Literal) : l.value.Within R := by
  cases l <;> trivial

/-- The binary operators answer numbers, strings and booleans, which lead nowhere. -/
theorem binaryOp_within (R : Nat → Prop) {op : Token} {a b v : Value} (ok : binaryOp op a b = .ok v) : v.Within R := by
  rcases binaryOp_ok ok with ⟨_, rfl⟩ | ⟨_, rfl⟩ | ⟨_, rfl⟩ <;> trivial

section Expressions

variable {n : Nat} {R : Nat → Prop} {m : Machine} {env : Nat}

/-- `super` reads two bindings in the region and binds the method it finds in a new frame. -/
theorem eval_super_confined (inside : Inside R m) (inR : R env) {kw method : Token} {a : Address} :
    Confined R (Value.Within R) (eval (n + 1) env (.superGet kw method a)) m := by
  rcases a with _ | d
  · rw [eval]
    exact Confined.fail inside
  · rw [eval]
    refine Confined.bind (lookUp_confined inside inR kw _) fun v m₁ ran₁ inside₁ valued => ?_
    split
    · next sc =>
      split
      · exact Confined.fail inside₁
      · refine Confined.bind (lookUp_confined inside₁ inR _ _) fun w m₂ ran₂ inside₂ valued₂ => ?_
        split
        · next ref c =>
          split
          · next f found =>
            exact Confined.bind (bindMethod_confined inside₂ (ClassDef.Within.findMethod valued found) ref valued₂)
              fun _ m₃ _ inside₃ inG => Confined.pure inside₃ inG
          · exact Confined.fail inside₂
        · exact Confined.fail inside₂
    · exact Confined.fail inside₁

variable (ih : Confining n)
include ih

theorem eval_confined (e : Expr) (inside : Inside R m) (inR : R env) :
    Confined R (Value.Within R) (eval (n + 1) env e) m := by
  cases e with
  | literal v =>
    rw [eval]
    exact Confined.pure inside (Literal.value_within R v)
  | grouping inner =>
    rw [eval]
    exact ih.eval inner inside inR
  | unary op r =>
    rw [eval]
    refine Confined.bind (ih.eval r inside inR) fun v m₁ _ inside₁ _ => ?_
    split
    · split
      · exact Confined.pure inside₁ trivial
      · exact Confined.fail inside₁
    · exact Confined.pure inside₁ trivial
    · exact Confined.fail inside₁
  | binary l op r =>
    rw [eval]
    refine Confined.bind (ih.eval l inside inR) fun a m₁ _ inside₁ _ => ?_
    refine Confined.bind (ih.eval r inside₁ inR) fun b m₂ _ inside₂ _ => ?_
    split
    · next v ok => exact Confined.pure inside₂ (binaryOp_within R ok)
    · exact Confined.stop inside₂
  | logical l op r =>
    rw [eval]
    refine Confined.bind (ih.eval l inside inR) fun a m₁ _ inside₁ valued => ?_
    exact Confined.ite (Confined.pure inside₁ valued) (ih.eval r inside₁ inR)
  | ident name a =>
    rw [eval]
    exact lookUp_confined inside inR name a
  | assign name v a =>
    rw [eval]
    refine Confined.bind (ih.eval v inside inR) fun value m₁ _ inside₁ valued => ?_
    exact Confined.bind (assignTo_confined inside₁ inR name a valued) fun _ m₂ _ inside₂ _ =>
      Confined.pure inside₂ valued
  | call f paren args =>
    rw [eval]
    refine Confined.bind (ih.eval f inside inR) fun callee m₁ _ inside₁ valued => ?_
    refine Confined.bind (ih.evalArgs args inside₁ inR) fun argv m₂ _ inside₂ argsValued => ?_
    exact ih.callValue inside₂ valued argsValued
  | get o name =>
    rw [eval]
    refine Confined.bind (ih.eval o inside inR) fun obj m₁ ran₁ inside₁ valued => ?_
    split
    · next ref c => exact getProperty_confined inside₁ name ref valued
    · exact Confined.fail inside₁
  | set o name v =>
    rw [eval]
    refine Confined.bind (ih.eval o inside inR) fun obj m₁ ran₁ inside₁ _ => ?_
    split
    · next ref _ _ =>
      refine Confined.bind (ih.eval v inside₁ inR) fun value m₂ _ inside₂ valued => ?_
      exact Confined.bind (setField_confined inside₂ ref name.lexeme valued) fun _ m₃ _ inside₃ _ =>
        Confined.pure inside₃ valued
    · exact Confined.fail inside₁
  | thisRef kw a =>
    rw [eval]
    exact lookUp_confined inside inR kw a
  | superGet kw method a => exact eval_super_confined inside inR

theorem evalArgs_confined (args : List Expr) (inside : Inside R m) (inR : R env) :
    Confined R (fun vs => ∀ v ∈ vs, Value.Within R v) (evalArgs (n + 1) env args) m := by
  cases args with
  | nil =>
    rw [evalArgs]
    exact Confined.pure inside fun _ none => absurd none List.not_mem_nil
  | cons a rest =>
    rw [evalArgs]
    refine Confined.bind (ih.eval a inside inR) fun v m₁ _ inside₁ valued => ?_
    refine Confined.bind (ih.evalArgs rest inside₁ inR) fun vs m₂ _ inside₂ rest => ?_
    refine Confined.pure inside₂ fun w mem => ?_
    rcases List.mem_cons.1 mem with rfl | later
    · exact valued
    · exact rest w later

end Expressions

theorem Flow.value_within {R : Nat → Prop} {flow : Flow} (within : flow.Within R) : flow.value.Within R := by
  cases flow with
  | returned v => exact within
  | normal => trivial

theorem Inside.of_confines {R : Nat → Prop} {m m' : Machine} (inside : Inside R m)
    (confines : m.store.Confines R m'.store) (closed : m'.store.Closed R) : Inside R m' :=
  ⟨closed, fun F past => inside.fresh F (Nat.le_trans confines.size past)⟩

/-- A run that goes on as another from a machine that a confined step reaches. -/
theorem Confined.of_entry {R : Nat → Prop} {P : α → Prop} {m m' : Machine} {x y : Run α}
    (same : x.run.run m = y.run.run m') (confines : m.store.Confines R m'.store) (confined : Confined R P y m') :
    Confined R P x m := by
  obtain ⟨confines', inside', answer⟩ := confined
  unfold Confined
  rw [same]
  exact ⟨confines.trans confines', inside', answer⟩

section Calls

variable {n : Nat} {R : Nat → Prop} {m : Machine} {paren : Token} {args : List Value}

theorem Confined.checked {x : Run β} {P : β → Prop} {arity : Nat} (inside : Inside R m)
    (rest : args.length = arity → Confined R P x m) :
    Confined R P ((if (args.length != arity) = true then Run.fail paren (.arityMismatch arity args.length)
      else Pure.pure ()) >>= fun _ => x) m := by
  by_cases same : args.length = arity
  · rw [if_neg (by simp [same])]
    exact Confined.step (run_pure () m) (Store.Confines.refl R _) inside (rest same)
  · rw [if_pos (by simp [same])]
    exact Confined.stop inside

variable (ih : Confining n)
include ih

/-- A call makes a new frame under the function's own, binds the parameters there and runs the
body in it. -/
theorem callClosure_confined {f : Closure} (inside : Inside R m) (inR : R f.env)
    (argsValued : ∀ v ∈ args, Value.Within R v) : Confined R (Value.Within R) (callClosure (n + 1) f args) m := by
  have framed : R m.store.frames.size := inside.fresh _ (Nat.le_refl _)
  have allocated := inside.closed.alloc inR
  rw [Store.grown_eq inside.fresh] at allocated
  have pairs : ∀ p ∈ f.decl.params.zip args, Value.Within R p.2 := fun p mem => argsValued p.2 (List.of_mem_zip mem).2
  have entry : m.store.Confines R (callEntry f args m).store :=
    (Store.confines_alloc R f.env).trans (Store.confines_foldl_define framed _ _)
  have insideEntry : Inside R (callEntry f args m) := inside.of_confines entry (allocated.foldl_define framed _ pairs)
  refine Confined.of_entry (callClosure_enters n f args m) entry ?_
  refine Confined.bind (ih.execBlock f.decl.body insideEntry framed) fun flow m₁ _ inside₁ returned => ?_
  split
  · exact lookUp_confined inside₁ inR _ _
  · exact Confined.pure inside₁ (Flow.value_within returned)

/-- Calling a class makes an instance and runs its initializer bound to it. -/
theorem callValue_confined {callee : Value} (inside : Inside R m) (valued : callee.Within R)
    (argsValued : ∀ v ∈ args, Value.Within R v) : Confined R (Value.Within R) (callValue (n + 1) paren callee args) m := by
  cases callee with
  | fn f =>
    rw [callValue]
    exact Confined.checked inside fun _ => ih.callClosure inside valued argsValued
  | native native =>
    cases native
    rw [callValue]
    exact Confined.checked inside fun _ =>
      Confined.step (run_get m) (Store.Confines.refl R _) inside (Confined.pure inside trivial)
  | cls c =>
    rw [callValue]
    refine Confined.checked inside fun _ => ?_
    refine Confined.bind (newObject_confined inside) fun ref m₁ ran₁ inside₁ _ => ?_
    cases found : c.findMethod "init" with
    | none => exact Confined.pure inside₁ valued
    | some init =>
      refine Confined.bind (bindMethod_confined inside₁ (ClassDef.Within.findMethod valued found) ref valued)
        fun bound m₂ ran₂ inside₂ inBound => ?_
      exact Confined.bind (ih.callClosure inside₂ inBound argsValued) fun _ m₃ _ inside₃ _ =>
        Confined.pure inside₃ valued
  | _ =>
    rw [callValue]
    · exact Confined.fail inside
    all_goals (intro _ differs; cases differs)

end Calls

section Statements

variable {n : Nat} {R : Nat → Prop} {m : Machine} {env : Nat}

/-- The methods of a class's table close over the frame made for them. -/
theorem methodTable_within {menv : Nat} (inMenv : R menv) : ∀ (ds : List FunDecl) (t : List (String × Closure))
    (id : Nat), (∀ p ∈ t, R p.2.env) → ∀ p ∈ methodTable menv ds t id, R p.2.env
  | [], _, _, within => within
  | _ :: ds, _, id, within => methodTable_within inMenv ds _ (id + 1) fun p mem => by
      rcases List.mem_cons.1 mem with rfl | old
      · exact inMenv
      · exact within p old

/-- A class declaration binds its name in its own frame, and `super` in a new one. -/
theorem exec_classDecl_confined (ih : Confining n) {name : Token} {sup : Option Expr} {methods : List FunDecl}
    (inside : Inside R m) (inR : R env) :
    Confined R (Flow.Within R) (exec (n + 1) env (.classDecl name sup methods)) m := by
  cases sup with
  | none =>
    rw [exec]
    unfold Confined
    simp only [run_bind, run_pure, run_define, run_fresh, run_get]
    rw [run_forIn_table]
    case entry =>
      intro d t m
      rfl
    simp only
    have declared := inside.closed.define inR name.lexeme (fun v (none : (none : Option Value) = some v) => by cases none)
    split
    · next frame owned =>
      simp only [run_bind, run_define, run_pure]
      have inFrame := declared.owner name.lexeme inR owned
      have confines := (Store.confines_define (s := m.store) inR name.lexeme none).trans (Store.confines_define inFrame name.lexeme
        (some (.cls (ClassDef.mk (m.nextId + methods.length) name.lexeme none (methodTable env methods [] m.nextId)))))
      refine ⟨confines, inside.of_confines confines (declared.define inFrame _ fun v same => ?_), fun a ran => ?_⟩
      · cases same
        exact ⟨methodTable_within inR methods [] _ fun _ none => absurd none List.not_mem_nil, trivial⟩
      · cases ran
        trivial
    · exact ⟨Store.confines_define inR _ _, inside.of_confines (Store.confines_define inR _ _) declared,
        fun a ran => by cases ran⟩
  | some e =>
    rw [exec]
    refine Confined.bind (ih.eval e inside inR) fun v m₁ _ inside₁ valued => ?_
    refine Confined.bind (superclassOf_confined inside₁ e valued) fun c m₂ _ inside₂ within => ?_
    unfold Confined
    simp only [run_bind, run_pure, run_define, run_alloc, run_fresh, run_get]
    rw [run_forIn_table]
    case entry =>
      intro d t m
      rfl
    simp only
    have declared := inside₂.closed.define inR name.lexeme (fun v (none : (none : Option Value) = some v) => by cases none)
    have fresh₁ : ∀ F, (m₂.store.define env name.lexeme none).frames.size ≤ F → R F := fun F past =>
      inside₂.fresh F (by simpa using past)
    have inT : R (m₂.store.define env name.lexeme none).frames.size := fresh₁ _ (Nat.le_refl _)
    have allocated := declared.alloc inR
    rw [Store.grown_eq fresh₁] at allocated
    -- `super` is bound in the new frame, which the methods close over
    have supered := allocated.define inT "super" (fun v (same : some (Value.cls c) = some v) => by
      cases same
      exact within)
    have confines₃ := ((Store.confines_define (s := m₂.store) inR name.lexeme none).trans
      (Store.confines_alloc R env)).trans (Store.confines_define inT "super" (some (.cls c)))
    split
    · next frame owned =>
      simp only [run_bind, run_define, run_pure]
      have inFrame := supered.owner name.lexeme inR owned
      have confines := confines₃.trans (Store.confines_define inFrame name.lexeme (some (.cls (ClassDef.mk
        (m₂.nextId + methods.length) name.lexeme (some c)
        (methodTable (m₂.store.define env name.lexeme none).frames.size methods [] m₂.nextId)))))
      refine ⟨confines, inside₂.of_confines confines (supered.define inFrame _ fun v same => ?_), fun a ran => ?_⟩
      · cases same
        exact ⟨methodTable_within inT methods [] _ fun _ none => absurd none List.not_mem_nil, within⟩
      · cases ran
        trivial
    · exact ⟨confines₃, inside₂.of_confines confines₃ supered, fun a ran => by cases ran⟩

variable (ih : Confining n)
include ih

/-- The other statements define only in the frame they run in, and a block runs in a new one. -/
theorem exec_confined (st : Stmt) (inside : Inside R m) (inR : R env) :
    Confined R (Flow.Within R) (exec (n + 1) env st) m := by
  cases st with
  | expression e =>
    rw [exec]
    exact Confined.bind (ih.eval e inside inR) fun _ m₁ _ inside₁ _ => Confined.pure inside₁ trivial
  | print e =>
    rw [exec]
    refine Confined.bind (ih.eval e inside inR) fun v m₁ _ inside₁ _ => ?_
    exact Confined.bind (write_confined inside₁ _) fun _ m₂ _ inside₂ _ => Confined.pure inside₂ trivial
  | varDecl name init =>
    -- the initial value, or `nil`, is bound in the frame the declaration runs in
    have declares : ∀ {m₁ : Machine} {v : Value}, Inside R m₁ → v.Within R →
        Confined R (Flow.Within R) (define env name.lexeme (some v) >>= fun _ => pure .normal) m₁ :=
      fun inside₁ valued => Confined.bind (define_confined inside₁ inR name.lexeme fun w same => by
        cases same
        exact valued) fun _ m₂ _ inside₂ _ => Confined.pure inside₂ trivial
    cases init with
    | none =>
      rw [exec]
      exact Confined.step (run_pure _ m) (Store.Confines.refl R _) inside (declares inside trivial)
    | some e =>
      rw [exec]
      exact Confined.bind (ih.eval e inside inR) fun v m₁ _ inside₁ valued => declares inside₁ valued
  | block body =>
    rw [exec]
    refine Confined.bind (alloc_confined inside inR) fun frame m₁ _ inside₁ new => ?_
    exact ih.execBlock body inside₁ (inside.fresh frame (Nat.le_of_eq new.symm))
  | ifElse c t e =>
    cases e with
    | none =>
      rw [exec]
      refine Confined.bind (ih.eval c inside inR) fun v m₁ _ inside₁ _ => ?_
      exact Confined.ite (ih.exec t inside₁ inR) (Confined.pure inside₁ trivial)
    | some s =>
      rw [exec]
      refine Confined.bind (ih.eval c inside inR) fun v m₁ _ inside₁ _ => ?_
      exact Confined.ite (ih.exec t inside₁ inR) (ih.exec s inside₁ inR)
  | whileLoop c body =>
    rw [exec]
    exact ih.loop c body inside inR
  | function d =>
    rw [exec]
    refine Confined.bind (fresh_confined inside) fun id m₁ _ inside₁ _ => ?_
    refine Confined.bind (define_confined inside₁ inR d.name.lexeme fun w same => by cases same; exact inR)
      fun _ m₂ _ inside₂ _ => ?_
    exact Confined.pure inside₂ trivial
  | returnStmt kw v =>
    cases v with
    | none =>
      rw [exec]
      exact Confined.pure inside trivial
    | some e =>
      rw [exec]
      exact Confined.bind (ih.eval e inside inR) fun w m₁ _ inside₁ valued => Confined.pure inside₁ valued
  | classDecl name sup methods => exact exec_classDecl_confined ih inside inR

theorem execBlock_confined (ss : List Stmt) (inside : Inside R m) (inR : R env) :
    Confined R (Flow.Within R) (execBlock (n + 1) env ss) m := by
  cases ss with
  | nil =>
    rw [execBlock]
    exact Confined.pure inside trivial
  | cons s rest =>
    rw [execBlock]
    refine Confined.bind (ih.exec s inside inR) fun flow m₁ _ inside₁ returned => ?_
    cases flow with
    | normal => exact ih.execBlock rest inside₁ inR
    | returned v => exact Confined.pure inside₁ returned

theorem loop_confined (c : Expr) (body : Stmt) (inside : Inside R m) (inR : R env) :
    Confined R (Flow.Within R) (loop (n + 1) env c body) m := by
  rw [loop]
  refine Confined.bind (ih.eval c inside inR) fun v m₁ _ inside₁ _ => ?_
  refine Confined.ite ?_ (Confined.pure inside₁ trivial)
  refine Confined.bind (ih.exec body inside₁ inR) fun flow m₂ _ inside₂ returned => ?_
  cases flow with
  | normal => exact ih.loop c body inside₂ inR
  | returned v => exact Confined.pure inside₂ returned

end Statements

theorem confining_succ {n : Nat} (ih : Confining n) : Confining (n + 1) where
  eval e inside inR := eval_confined ih e inside inR
  evalArgs args inside inR := evalArgs_confined ih args inside inR
  callValue inside valued args := callValue_confined ih inside valued args
  callClosure inside inR args := callClosure_confined ih inside inR args
  exec st inside inR := exec_confined ih st inside inR
  execBlock ss inside inR := execBlock_confined ih ss inside inR
  loop c body inside inR := loop_confined ih c body inside inR

/-- Every rule of the interpreter is confined, whatever the fuel. -/
theorem confining : ∀ n, Confining n
  | 0 => confining_zero
  | n + 1 => confining_succ (confining n)

/-- From a region closed in the store: a run confined to it with the frames past the store's end
changes no frame outside it, and leaves it with the frames it added closed. -/
theorem confines_of_closed {R : Nat → Prop} {P : α → Prop} {m : Machine} {x : Run α} (closed : m.store.Closed R)
    (confined : Inside (m.store.grown R) m → Confined (m.store.grown R) P x m) :
    m.store.Confines R (x.run.run m).2.store ∧ (x.run.run m).2.store.Closed (m.store.grown R) := by
  obtain ⟨confines, inside, -⟩ := confined ⟨closed.grown, fun _ past => .inr past⟩
  refine ⟨⟨confines.size, confines.parents, fun F old outsideR => confines.outside F old ?_⟩, inside.closed⟩
  rintro (inR | past)
  · exact outsideR inR
  · omega

/-! ### Where each write goes -/

/-- An assignment writes the frame its address names, or, unresolved, the globals. -/
theorem assignTo_writes {env : Nat} {name : Token} {addr : Address} {v : Value} {m m' : Machine}
    (ran : (assignTo env name addr v).run.run m = (.ok (), m')) :
    ∃ F, m'.store = m.store.define F name.lexeme (some v) ∧
      (∀ d, addr = .scoped d → m.store.ancestor env d = some F) ∧ (addr = .global → F = Store.globals) := by
  simp only [assignTo, run_bind, run_get] at ran
  rcases addr with _ | d
  · split at ran
    · next F target =>
      cases ran
      refine ⟨F, rfl, (fun d atD => by cases atD), fun _ => ?_⟩
      -- the globals frame has no parent, so a search from it stops there
      dsimp only at target
      rw [Store.owner] at target
      split at target
      · cases target
      · split at target
        · exact (Option.some.inj target).symm
        · split at target
          · split at target
            · next earlier => exact absurd earlier (Nat.not_lt_zero _)
            · cases target
          · cases target
    · cases ran
  · split at ran
    · next F target =>
      cases ran
      refine ⟨F, rfl, fun d' atD => ?_, fun atGlobals => by cases atGlobals⟩
      cases atD
      dsimp only at target
      exact target
    · cases ran

/-- A block runs its statements in a new frame, past the end of the store, under the current one. -/
theorem exec_block_enters (n env : Nat) (body : List Stmt) (m : Machine) :
    (exec (n + 1) env (.block body)).run.run m =
      (execBlock n m.store.frames.size body).run.run { m with store := (m.store.alloc env).1 } := by
  rw [exec, run_bind, run_alloc]

/-- A function declared in a frame is bound there, closing over that frame. -/
theorem exec_function_binds (n env : Nat) (d : FunDecl) (m : Machine) :
    (exec (n + 1) env (.function d)).run.run m =
      (.ok .normal,
        { m with store := m.store.define env d.name.lexeme (some (.fn ⟨m.nextId, d, env, false⟩)), nextId := m.nextId + 1 }) := by
  rw [exec, run_bind, run_fresh]
  rfl

theorem parentOf_foldl_define (F : Nat) (G : Nat) : ∀ (pairs : List (Token × Value)) (s : Store),
    (pairs.foldl (fun s p => s.define F p.1.lexeme (some p.2)) s).parentOf G = s.parentOf G
  | [], _ => rfl
  | p :: pairs, s => by
    rw [List.foldl_cons, parentOf_foldl_define F G pairs, Store.parentOf_define]

/-- A call's frame is enclosed by the frame its function closes over. -/
theorem callEntry_parent (f : Closure) (args : List Value) (m : Machine) :
    (callEntry f args m).store.parentOf m.store.frames.size = some f.env := by
  simp only [callEntry, parentOf_foldl_define, Store.parentOf_alloc_self]

end Run

/-- Frames are fresh and writes are confined. A run, of a statement or of a call, changes no frame
outside any closed region that holds its frame (and, for a call, the frames its arguments lead
to): every frame it had keeps its parent, and one outside the region its bindings; the frames it
adds come after the old ones, and the region with them is closed again. Of its own writes, an
assignment goes to the frame its address names, or to the globals, and a function declaration to
the frame it runs in, which the function closes over. A block and a call each run in a new frame,
the one past the end of the store; a call's frame is enclosed by the frame its function closes
over, so two activations never share their frames, while every activation of every function
closing over one frame reaches, past its own frame, the frames that one reaches. -/
theorem writes_stay_within_reach :
    (∀ n env (s : Stmt) (m : Machine) (R : Nat → Prop), m.store.Closed R → R env →
      m.store.Confines R ((Run.exec n env s).run.run m).2.store ∧
        ((Run.exec n env s).run.run m).2.store.Closed (m.store.grown R)) ∧
    (∀ n (f : Closure) (args : List Value) (m : Machine) (R : Nat → Prop), m.store.Closed R → R f.env →
      (∀ v ∈ args, v.Within R) →
      m.store.Confines R ((Run.callClosure n f args).run.run m).2.store ∧
        ((Run.callClosure n f args).run.run m).2.store.Closed (m.store.grown R)) ∧
    (∀ env (name : Token) (addr : Address) (v : Value) (m m' : Machine),
      (Run.assignTo env name addr v).run.run m = (.ok (), m') →
      ∃ F, m'.store = m.store.define F name.lexeme (some v) ∧
        (∀ d, addr = .scoped d → m.store.ancestor env d = some F) ∧ (addr = .global → F = Store.globals)) ∧
    (∀ n env (d : FunDecl) (m : Machine), (Run.exec (n + 1) env (.function d)).run.run m =
      (.ok .normal,
        { m with store := m.store.define env d.name.lexeme (some (.fn ⟨m.nextId, d, env, false⟩)), nextId := m.nextId + 1 })) ∧
    (∀ n env (body : List Stmt) (m : Machine),
      m.store.frames[m.store.frames.size]? = none ∧
      (Run.exec (n + 1) env (.block body)).run.run m =
        (Run.execBlock n m.store.frames.size body).run.run { m with store := (m.store.alloc env).1 }) ∧
    (∀ n (f : Closure) (args : List Value) (m : Machine),
      (Run.callClosure (n + 1) f args).run.run m =
        (Run.execBlock n m.store.frames.size f.decl.body >>= fun flow =>
          if f.isInit then Run.lookUp f.env ⟨.identifier, "this", f.decl.name.line⟩ (.scoped 0)
          else pure flow.value).run.run (Run.callEntry f args m) ∧
      (Run.callEntry f args m).store.parentOf m.store.frames.size = some f.env ∧
      ∀ d, (Run.callEntry f args m).store.ancestor m.store.frames.size (d + 1) =
        (Run.callEntry f args m).store.ancestor f.env d) := by
  refine ⟨fun n env s m R closed inR => ?_, fun n f args m R closed inR argsValued => ?_,
    fun env name addr v m m' ran => Run.assignTo_writes ran, Run.exec_function_binds,
    fun n env body m => ⟨Array.getElem?_eq_none (Nat.le_refl _), Run.exec_block_enters n env body m⟩,
    fun n f args m => ⟨Run.callClosure_enters n f args m, Run.callEntry_parent f args m,
      fun d => Store.ancestor_succ_of_parentOf (Run.callEntry_parent f args m) d⟩⟩
  · exact Run.confines_of_closed closed fun inside => (Run.confining n).exec s inside (Store.grown_of inR)
  · exact Run.confines_of_closed closed fun inside =>
      (Run.confining n).callClosure inside (Store.grown_of inR) fun v mem => (argsValued v mem).mono fun _ => Store.grown_of

/-- The globals alone are a closed region of a fresh machine's store. -/
theorem Machine.new_closed_globals : Machine.new.store.Closed (· = Store.globals) where
  globals := rfl
  parents F P atGlobals parent := by
    subst atGlobals
    simp [Machine.new, Store.empty, Store.define, Store.parentOf, Store.globals] at parent
  slots F fr atGlobals framed name v mem := by
    subst atGlobals
    simp [Machine.new, Store.empty, Store.define, Store.globals, Slots.put] at framed
    subst framed
    simp only [List.mem_singleton, Prod.mk.injEq, Option.some.injEq] at mem
    obtain ⟨-, rfl⟩ := mem
    trivial
  fields ref fs fielded := by simp [Machine.new, Store.empty, Store.define] at fielded

/-- A block declaring a variable, run in a fresh machine from the globals: it changes no frame but
the globals and the one it adds. -/
theorem writes_stay_within_reach_block :
    let s : Stmt := .block [.varDecl ⟨.identifier, "x", 1⟩ (some (.literal (.number 1)))]
    Machine.new.store.Closed (· = Store.globals) ∧
      Machine.new.store.Confines (· = Store.globals) ((Run.exec 3 Store.globals s).run.run Machine.new).2.store ∧
      ((Run.exec 3 Store.globals s).run.run Machine.new).2.store.Closed
        (Machine.new.store.grown (· = Store.globals)) :=
  ⟨Machine.new_closed_globals, writes_stay_within_reach.1 3 Store.globals _ Machine.new (· = Store.globals)
    Machine.new_closed_globals rfl⟩

end Lox
