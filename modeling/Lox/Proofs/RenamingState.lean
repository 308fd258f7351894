import Mathlib.Data.List.Forall2
import Lox.Proofs.RenamingScopes
import Lox.Proofs.KeywordFrames
import Lox.Proofs.Unwinding
/-!
The state of a renamed program's run beside the original's. Every frame the original run makes,
the renamed run makes at the same index, for the same scope, and the frames of a scope whose `x`
is renamed bind `y` where the original's bind `x`. Each frame carries the marks of the scopes from
it outwards (`marksOf`), fixed when the frame is made, so that a closure's body is the original's
renamed in the scopes around the frame it closes over (`Closure.Mirrors`). Stores, values and
machines so related are *mirrored* (`Store.Mirrors`, `Value.Mirrors`, `Machine.Mirrors`); every
operation on the store keeps them so, a read of a renamed reference finding `y` where the original
finds `x`.

Two runs in step (`Run.Mirrored`) end both with answers, mirrored, or both stopped, the renamed
run's stop naming `y` where the original's names `x`; each step the interpreter takes on the
store runs so (`Run.lookUp_mirrors`, `Run.assignTo_mirrors`, `Run.bindMethod_mirrors`, ...).
-/
namespace Lox

/-! ### Mirrored values -/

section Mirrors

variable (x y : String)

/-- A closure of the renamed run beside one of the original: the same identity, frame and kind,
over a frame that exists, and a body renamed in the scopes around that frame, `shift`ed by the
`this` scope for a method not yet bound. The original's body spells no `y` and has the parser's
shape. -/
structure Closure.Mirrors (shift : Marks → Marks) (marksOf : Nat → Marks) (size : Nat) (f f' : Closure) : Prop where
  id : f'.id = f.id
  env : f'.env = f.env
  isInit : f'.isInit = f.isInit
  framed : f.env < size
  fresh : ∀ t ∈ f.decl.tokens, t.lexeme ≠ y
  formed : f.decl.Formed
  body : FunDecl.Renames x y (shift (marksOf f.env)) f.decl f'.decl

/-- A class of the renamed run beside one of the original: the same identity and name, the same
methods in order, each a method closure mirrored, and a superclass mirrored. -/
def ClassDef.Mirrors (marksOf : Nat → Marks) (size : Nat) : ClassDef → ClassDef → Prop
  | .mk i n sup ms, c' => ∃ sup' ms', c' = .mk i n sup' ms' ∧
    List.Forall₂ (fun p p' => p'.1 = p.1 ∧ Closure.Mirrors x y (Marks.push false) marksOf size p.2 p'.2) ms ms' ∧
    match sup with
    | some c => ∃ d, sup' = some d ∧ ClassDef.Mirrors marksOf size c d
    | none => sup' = none

/-- A value of the renamed run beside one of the original: the same, up to mirrored closures and
classes. -/
def Value.Mirrors (marksOf : Nat → Marks) (size : Nat) : Value → Value → Prop
  | .nil, v' => v' = .nil
  | .bool b, v' => v' = .bool b
  | .number a, v' => v' = .number a
  | .str s, v' => v' = .str s
  | .native n, v' => v' = .native n
  | .fn f, v' => ∃ f', v' = .fn f' ∧ Closure.Mirrors x y id marksOf size f f'
  | .cls c, v' => ∃ c', v' = .cls c' ∧ ClassDef.Mirrors x y marksOf size c c'
  | .obj r c, v' => ∃ c', v' = .obj r c' ∧ ClassDef.Mirrors x y marksOf size c c'

/-- How the two runs' statements finished: both normally, or both returning mirrored values. -/
def Flow.Mirrors (marksOf : Nat → Marks) (size : Nat) : Flow → Flow → Prop
  | .normal, flow' => flow' = .normal
  | .returned v, flow' => ∃ v', flow' = .returned v' ∧ Value.Mirrors x y marksOf size v v'

/-- What a name finds in the two runs. -/
def Found.Mirrors (marksOf : Nat → Marks) (size : Nat) : Found → Found → Prop
  | .value v, found' => ∃ v', found' = .value v' ∧ Value.Mirrors x y marksOf size v v'
  | .unassigned, found' => found' = .unassigned
  | .missing, found' => found' = .missing

/-- The bindings of a frame in the renamed run: the original's in order, each name renamed when
the frame's scope is marked, where the original binds no `y`, and each value mirrored. -/
def Slots.Mirrors (marksOf : Nat → Marks) (size : Nat) (mark : Bool) (sl sl' : Slots) : Prop :=
  List.Forall₂ (fun p p' => p'.1 = renameName x y mark p.1 ∧ (mark = true → p.1 ≠ y) ∧
    Option.Rel (Value.Mirrors x y marksOf size) p.2 p'.2) sl sl'

/-- The fields of an instance in the renamed run: the original's, each value mirrored. -/
def Fields.Mirrors (marksOf : Nat → Marks) (size : Nat) (fs fs' : Fields) : Prop :=
  List.Forall₂ (fun p p' => p'.1 = p.1 ∧ Value.Mirrors x y marksOf size p.2 p'.2) fs fs'

/-- The store of the renamed run beside the original's: the same frames with the same parents and
mirrored bindings, each frame's marks continuing its parent's, the globals unmarked, and the same
instances with mirrored fields. -/
structure Store.Mirrors (marksOf : Nat → Marks) (s s' : Store) : Prop where
  size : s'.frames.size = s.frames.size
  parents : ∀ F, s'.parentOf F = s.parentOf F
  below : ∀ F P, s.parentOf F = some P → P < s.frames.size
  chain : ∀ F P, s.parentOf F = some P → ∀ d, marksOf F (d + 1) = marksOf P d
  globals : Store.globals < s.frames.size
  top : marksOf Store.globals = Marks.none
  frames : ∀ F fr, s.frames[F]? = some fr →
    ∃ fr', s'.frames[F]? = some fr' ∧ Slots.Mirrors x y marksOf s.frames.size (marksOf F 0) fr.slots fr'.slots
  objects : s'.objects.size = s.objects.size
  fields : ∀ (r : Nat) fs, s.objects[r]? = some fs →
    ∃ fs', s'.objects[r]? = some fs' ∧ Fields.Mirrors x y marksOf s.frames.size fs fs'

/-- The machine of the renamed run beside the original's: a mirrored store, and the same output,
identities and clock. -/
structure Machine.Mirrors (marksOf : Nat → Marks) (m m' : Machine) : Prop where
  store : Store.Mirrors x y marksOf m.store m'.store
  output : m'.output = m.output
  nextId : m'.nextId = m.nextId
  clock : m'.clock = m.clock

end Mirrors

/-- Marks for a store grown from one of `count` frames to one of `count'`: every frame it had keeps
its marks. -/
structure MarksGrow (marksOf : Nat → Marks) (count : Nat) (marksOf' : Nat → Marks) (count' : Nat) : Prop where
  size : count ≤ count'
  old : ∀ F < count, marksOf' F = marksOf F

theorem MarksGrow.refl (marksOf : Nat → Marks) (count : Nat) : MarksGrow marksOf count marksOf count :=
  ⟨Nat.le_refl _, fun _ _ => rfl⟩

/-- A frame there was keeps its marks, and is still there. -/
theorem MarksGrow.keeps {μ μ' : Nat → Marks} {N N' : Nat} (grow : MarksGrow μ N μ' N') {F : Nat} (framed : F < N) :
    μ' F = μ F ∧ F < N' :=
  ⟨grow.old F framed, Nat.lt_of_lt_of_le framed grow.size⟩

theorem MarksGrow.trans {μ₁ μ₂ μ₃ : Nat → Marks} {N₁ N₂ N₃ : Nat} (first : MarksGrow μ₁ N₁ μ₂ N₂)
    (second : MarksGrow μ₂ N₂ μ₃ N₃) : MarksGrow μ₁ N₁ μ₃ N₃ :=
  ⟨Nat.le_trans first.size second.size, fun F old => by
    rw [second.old F (Nat.lt_of_lt_of_le old first.size), first.old F old]⟩

/-- A key found in one of two lists paired key by key finds its partner in the other. -/
theorem lookup_forall₂ {β γ : Type} {R : β → γ → Prop} {l : List (String × β)} {l' : List (String × γ)}
    (paired : List.Forall₂ (fun p p' => p'.1 = p.1 ∧ R p.2 p'.2) l l') (k : String) :
    Option.Rel R (l.lookup k) (l'.lookup k) := by
  induction paired with
  | nil => exact .none
  | @cons p p' _ _ head _ ih =>
    obtain ⟨a, b⟩ := p
    obtain ⟨a', b'⟩ := p'
    obtain ⟨same, related⟩ := head
    simp only at same related
    subst same
    simp only [List.lookup_cons]
    cases k == a'
    · exact ih
    · exact .some related

/-! ### What mirrored values share -/

/-- What the operators and `print` see of a value: its kind, its payload if it is a plain value,
and the identity and name of a function or class, not their bodies or frames. -/
def Value.shape : Value → Value
  | .fn f => .fn ⟨f.id, .mk f.decl.name [] [], 0, false⟩
  | .cls c => .cls (.mk c.id c.name none [])
  | .obj r c => .obj r (.mk c.id c.name none [])
  | v => v

theorem Value.display_shape (v : Value) : v.shape.display = v.display := by
  cases v <;> rfl

theorem Value.truthy_shape (v : Value) : v.shape.truthy = v.truthy := by
  cases v <;> rfl

theorem Value.typeName_shape (v : Value) : v.shape.typeName = v.typeName := by
  cases v <;> rfl

theorem Run.binaryOp_shape (op : Token) (a b : Value) : Run.binaryOp op a.shape b.shape = Run.binaryOp op a b := by
  cases a <;> cases b <;> rfl

section Values

variable {x y : String} {μ μ' : Nat → Marks} {N N' : Nat}

theorem Closure.Mirrors.mono {shift : Marks → Marks} {f f' : Closure} (grow : MarksGrow μ N μ' N')
    (mirror : Closure.Mirrors x y shift μ N f f') : Closure.Mirrors x y shift μ' N' f f' :=
  { mirror with
    framed := Nat.lt_of_lt_of_le mirror.framed grow.size
    body := by
      rw [grow.old _ mirror.framed]
      exact mirror.body }

/-- A mirrored closure takes as many arguments. -/
theorem Closure.Mirrors.arity {shift : Marks → Marks} {f f' : Closure} (mirror : Closure.Mirrors x y shift μ N f f') :
    f'.arity = f.arity := by
  have body := mirror.body
  unfold Closure.arity
  cases decl : f.decl with
  | mk n ps b =>
    rw [decl] at body
    unfold FunDecl.Renames at body
    obtain ⟨mark, b', same, _⟩ := body
    simp [same, FunDecl.params]

theorem Closure.Mirrors.name {shift : Marks → Marks} {f f' : Closure} (mirror : Closure.Mirrors x y shift μ N f f') :
    f'.decl.name = f.decl.name :=
  mirror.body.name

theorem ClassDef.Mirrors.mono (grow : MarksGrow μ N μ' N') : ∀ {c c' : ClassDef},
    ClassDef.Mirrors x y μ N c c' → ClassDef.Mirrors x y μ' N' c c'
  | .mk _ _ sup _, _, mirror => by
    unfold ClassDef.Mirrors at mirror ⊢
    obtain ⟨sup', ms', rfl, methods, super⟩ := mirror
    refine ⟨sup', ms', rfl, methods.imp fun _ _ paired => ⟨paired.1, paired.2.mono grow⟩, ?_⟩
    cases sup with
    | none => exact super
    | some c =>
      obtain ⟨d, rfl, mirror⟩ := super
      exact ⟨d, rfl, ClassDef.Mirrors.mono grow mirror⟩

theorem ClassDef.Mirrors.shape : ∀ {c c' : ClassDef}, ClassDef.Mirrors x y μ N c c' → c'.id = c.id ∧ c'.name = c.name
  | .mk _ _ _ _, _, mirror => by
    unfold ClassDef.Mirrors at mirror
    obtain ⟨_, _, rfl, _⟩ := mirror
    exact ⟨rfl, rfl⟩

/-- A mirrored class finds a mirrored method under each name. -/
theorem ClassDef.Mirrors.findMethod : ∀ {c c' : ClassDef}, ClassDef.Mirrors x y μ N c c' → ∀ name : String,
    Option.Rel (Closure.Mirrors x y (Marks.push false) μ N) (c.findMethod name) (c'.findMethod name)
  | .mk _ _ sup ms, _, mirror, name => by
    unfold ClassDef.Mirrors at mirror
    obtain ⟨sup', ms', rfl, methods, super⟩ := mirror
    have listed := lookup_forall₂ methods name
    unfold ClassDef.findMethod
    generalize ms.lookup name = found at listed
    generalize ms'.lookup name = found' at listed
    cases listed with
    | some mirror => exact .some mirror
    | none =>
      cases sup with
      | none =>
        rw [super]
        exact .none
      | some c =>
        obtain ⟨d, rfl, inherited⟩ := super
        exact ClassDef.Mirrors.findMethod inherited name

theorem ClassDef.Mirrors.arity {c c' : ClassDef} (mirror : ClassDef.Mirrors x y μ N c c') : c'.arity = c.arity := by
  have found := mirror.findMethod "init"
  unfold ClassDef.arity
  generalize c.findMethod "init" = init at found
  generalize c'.findMethod "init" = init' at found
  cases found with
  | some init => exact init.arity
  | none => rfl

theorem Value.Mirrors.mono (grow : MarksGrow μ N μ' N') {v v' : Value} (mirror : Value.Mirrors x y μ N v v') :
    Value.Mirrors x y μ' N' v v' := by
  cases v with
  | fn f =>
    obtain ⟨f', rfl, mirror⟩ := mirror
    exact ⟨f', rfl, mirror.mono grow⟩
  | cls c =>
    obtain ⟨c', rfl, mirror⟩ := mirror
    exact ⟨c', rfl, mirror.mono grow⟩
  | obj r c =>
    obtain ⟨c', rfl, mirror⟩ := mirror
    exact ⟨c', rfl, mirror.mono grow⟩
  | nil | bool _ | number _ | str _ | native _ => exact mirror

/-- Mirrored values have the same shape, so the operators and `print` treat them alike. -/
theorem Value.Mirrors.shape {v v' : Value} (mirror : Value.Mirrors x y μ N v v') : v'.shape = v.shape := by
  cases v with
  | fn f =>
    obtain ⟨f', rfl, mirror⟩ := mirror
    simp [Value.shape, mirror.id, mirror.name]
  | cls c =>
    obtain ⟨c', rfl, mirror⟩ := mirror
    simp [Value.shape, mirror.shape.1, mirror.shape.2]
  | obj r c =>
    obtain ⟨c', rfl, mirror⟩ := mirror
    simp [Value.shape, mirror.shape.1, mirror.shape.2]
  | nil | bool _ | number _ | str _ | native _ =>
    simp only [Value.Mirrors] at mirror
    rw [mirror]

theorem Value.Mirrors.display {v v' : Value} (mirror : Value.Mirrors x y μ N v v') : v'.display = v.display := by
  rw [← Value.display_shape v', mirror.shape, Value.display_shape]

theorem Value.Mirrors.truthy {v v' : Value} (mirror : Value.Mirrors x y μ N v v') : v'.truthy = v.truthy := by
  rw [← Value.truthy_shape v', mirror.shape, Value.truthy_shape]

theorem Value.Mirrors.typeName {v v' : Value} (mirror : Value.Mirrors x y μ N v v') : v'.typeName = v.typeName := by
  rw [← Value.typeName_shape v', mirror.shape, Value.typeName_shape]

theorem Value.Mirrors.binaryOp {a a' b b' : Value} (left : Value.Mirrors x y μ N a a') (right : Value.Mirrors x y μ N b b')
    (op : Token) : Run.binaryOp op a' b' = Run.binaryOp op a b := by
  rw [← Run.binaryOp_shape op a' b', left.shape, right.shape, Run.binaryOp_shape]

/-- The operators answer plain values, which mirror themselves. -/
theorem Run.binaryOp_mirrors {op : Token} {a b v : Value} (ok : Run.binaryOp op a b = .ok v) :
    Value.Mirrors x y μ N v v := by
  rcases Run.binaryOp_ok ok with ⟨_, rfl⟩ | ⟨_, rfl⟩ | ⟨_, rfl⟩ <;> rfl

theorem Flow.Mirrors.mono (grow : MarksGrow μ N μ' N') {flow flow' : Flow} (mirror : Flow.Mirrors x y μ N flow flow') :
    Flow.Mirrors x y μ' N' flow flow' := by
  cases flow with
  | normal => exact mirror
  | returned v =>
    obtain ⟨v', rfl, mirror⟩ := mirror
    exact ⟨v', rfl, mirror.mono grow⟩

theorem Flow.Mirrors.value {flow flow' : Flow} (mirror : Flow.Mirrors x y μ N flow flow') :
    Value.Mirrors x y μ N flow.value flow'.value := by
  cases flow with
  | normal =>
    simp only [Flow.Mirrors] at mirror
    subst mirror
    rfl
  | returned v =>
    obtain ⟨v', rfl, mirror⟩ := mirror
    exact mirror

theorem Value.Mirrors.option_mono (grow : MarksGrow μ N μ' N') {v v' : Option Value}
    (rel : Option.Rel (Value.Mirrors x y μ N) v v') : Option.Rel (Value.Mirrors x y μ' N') v v' := by
  cases rel with
  | some mirror => exact .some (mirror.mono grow)
  | none => exact .none

/-- A literal's value, which holds no closure, mirrors itself. -/
theorem Literal.value_mirrors (lit : Literal) (N : Nat) : Value.Mirrors x y μ N lit.value lit.value := by
  cases lit <;> rfl

end Values

/-! ### Frames and instances -/

section Bindings

variable {x y : String} {μ μ' : Nat → Marks} {N N' : Nat}

/-- Renaming tells apart names that are not `y` where it renames. -/
theorem renameName_beq {b : Bool} {n k : String} (freshN : b = true → n ≠ y) (freshK : b = true → k ≠ y) :
    (renameName x y b k == renameName x y b n) = (k == n) := by
  cases b with
  | false => simp
  | true =>
    have iff : renameName x y true k = renameName x y true n ↔ k = n :=
      ⟨fun same => renameName_inj same (freshK rfl) (freshN rfl), fun same => by rw [same]⟩
    simp only [beq_eq_decide, iff]

theorem Slots.Mirrors.mono {b : Bool} {sl sl' : Slots} (grow : MarksGrow μ N μ' N') (mirror : Slots.Mirrors x y μ N b sl sl') :
    Slots.Mirrors x y μ' N' b sl sl' :=
  List.Forall₂.imp (fun _ _ paired => ⟨paired.1, paired.2.1, Value.Mirrors.option_mono grow paired.2.2⟩) mirror

/-- Looking a name up in mirrored bindings, renamed as the frame is. -/
theorem Slots.Mirrors.lookup {b : Bool} {sl sl' : Slots} (mirror : Slots.Mirrors x y μ N b sl sl') {n : String}
    (fresh : b = true → n ≠ y) :
    Option.Rel (Option.Rel (Value.Mirrors x y μ N)) (sl.lookup n) (sl'.lookup (renameName x y b n)) := by
  induction mirror with
  | nil => exact .none
  | @cons p p' _ _ head _ ih =>
    obtain ⟨k, v⟩ := p
    obtain ⟨k', v'⟩ := p'
    obtain ⟨renamed, freshK, related⟩ := head
    simp only at renamed freshK related
    subst renamed
    simp only [List.lookup_cons]
    rw [renameName_beq freshK fresh]
    cases n == k
    · exact ih
    · exact .some related

/-- Binding a name in mirrored bindings, renamed as the frame is. -/
theorem Slots.Mirrors.put {b : Bool} {sl sl' : Slots} (mirror : Slots.Mirrors x y μ N b sl sl') {n : String}
    (fresh : b = true → n ≠ y) {v v' : Option Value} (related : Option.Rel (Value.Mirrors x y μ N) v v') :
    Slots.Mirrors x y μ N b (sl.put n v) (sl'.put (renameName x y b n) v') := by
  induction mirror with
  | nil => exact .cons ⟨rfl, fresh, related⟩ .nil
  | @cons p p' _ _ head tail ih =>
    obtain ⟨k, w⟩ := p
    obtain ⟨k', w'⟩ := p'
    obtain ⟨renamed, freshK, old⟩ := head
    simp only at renamed freshK old
    subst renamed
    simp only [Slots.put]
    rw [renameName_beq fresh freshK]
    cases k == n
    · exact .cons ⟨rfl, freshK, old⟩ ih
    · exact .cons ⟨rfl, fresh, related⟩ tail

theorem Fields.Mirrors.mono {fs fs' : Fields} (grow : MarksGrow μ N μ' N') (mirror : Fields.Mirrors x y μ N fs fs') :
    Fields.Mirrors x y μ' N' fs fs' :=
  List.Forall₂.imp (fun _ _ paired => ⟨paired.1, paired.2.mono grow⟩) mirror

theorem Fields.Mirrors.put {fs fs' : Fields} (mirror : Fields.Mirrors x y μ N fs fs') (n : String) {v v' : Value}
    (related : Value.Mirrors x y μ N v v') : Fields.Mirrors x y μ N (fs.put n v) (fs'.put n v') := by
  induction mirror with
  | nil => exact .cons ⟨rfl, related⟩ .nil
  | @cons p p' _ _ head tail ih =>
    obtain ⟨k, w⟩ := p
    obtain ⟨k', w'⟩ := p'
    obtain ⟨same, old⟩ := head
    simp only at same old
    subst same
    simp only [Fields.put]
    cases k' == n
    · exact .cons ⟨rfl, old⟩ ih
    · exact .cons ⟨rfl, related⟩ tail

end Bindings

/-! ### Stores -/

namespace Store

/-- Going up `d + 1` links is going to the parent, then `d` more. -/
theorem ancestor_succ (s : Store) (F d : Nat) : s.ancestor F (d + 1) = (s.parentOf F).bind (s.ancestor · d) := by
  rw [Store.ancestor]
  unfold parentOf
  cases s.frames[F]? with
  | none => rfl
  | some fr =>
    obtain ⟨_, parent⟩ := fr
    cases parent <;> rfl

/-- A search outwards from the globals looks in the globals alone. -/
theorem find_globals (s : Store) (n : String) : s.find globals n = s.findIn globals n := by
  rw [Store.find]
  unfold findIn
  cases s.frames[globals]? with
  | none => rfl
  | some fr =>
    simp only
    split
    · rfl
    · rfl
    · split
      · next p _ => simp [globals, Nat.not_lt_zero p]
      · rfl

/-- The globals own a name when they bind it. -/
theorem owner_globals (s : Store) (n : String) :
    s.owner globals n = (s.frames[globals]?.bind fun fr => fr.slots.lookup n).map fun _ => globals := by
  rw [Store.owner]
  cases s.frames[globals]? with
  | none => rfl
  | some fr =>
    simp only [Option.bind_some]
    cases fr.slots.lookup n with
    | some _ => rfl
    | none =>
      simp only [Option.map_none]
      split
      · next p _ => simp [globals, Nat.not_lt_zero p]
      · rfl

end Store

section Stores

variable {x y : String} {μ : Nat → Marks} {s s' : Store}

theorem Store.Mirrors.frame_none (mirror : Store.Mirrors x y μ s s') {F : Nat} (missing : s.frames[F]? = none) :
    s'.frames[F]? = none := by
  rw [Array.getElem?_eq_none_iff] at missing ⊢
  rw [mirror.size]
  exact missing

/-- The marks of the frame some links up are the frame's own marks from that distance on. -/
theorem Store.Mirrors.marks_ancestor (mirror : Store.Mirrors x y μ s s') :
    ∀ {F A : Nat} (d : Nat), s.ancestor F d = some A → μ F d = μ A 0
  | F, A, 0, found => by
    cases found
    rfl
  | F, A, d + 1, found => by
    rw [Store.ancestor_succ] at found
    cases parent : s.parentOf F with
    | none => simp [parent] at found
    | some P =>
      rw [parent, Option.bind_some] at found
      rw [mirror.chain F P parent d]
      exact mirror.marks_ancestor d found

/-- The renamed run's frames are linked as the original's. -/
theorem Store.Mirrors.ancestor (mirror : Store.Mirrors x y μ s s') : ∀ (F d : Nat), s'.ancestor F d = s.ancestor F d
  | _, 0 => rfl
  | F, d + 1 => by
    rw [Store.ancestor_succ, Store.ancestor_succ, mirror.parents]
    cases s.parentOf F with
    | none => rfl
    | some P => exact mirror.ancestor P d

/-- What a name finds in one frame, renamed as the frame is. -/
theorem Store.Mirrors.findIn (mirror : Store.Mirrors x y μ s s') (F : Nat) {n : String} (fresh : μ F 0 = true → n ≠ y) :
    Found.Mirrors x y μ s.frames.size (s.findIn F n) (s'.findIn F (renameName x y (μ F 0) n)) := by
  unfold Store.findIn
  cases framed : s.frames[F]? with
  | none =>
    rw [mirror.frame_none framed]
    rfl
  | some fr =>
    obtain ⟨fr', framed', slots⟩ := mirror.frames F fr framed
    have found := slots.lookup fresh
    rw [framed']
    simp only
    generalize fr.slots.lookup n = v at found
    generalize fr'.slots.lookup (renameName x y (μ F 0) n) = v' at found
    cases found with
    | none => rfl
    | some bound =>
      cases bound with
      | none => rfl
      | some mirror => exact ⟨_, rfl, mirror⟩

/-- The globals are unmarked, so a name finds there what it finds in the original. -/
theorem Store.Mirrors.findIn_globals (mirror : Store.Mirrors x y μ s s') (n : String) :
    Found.Mirrors x y μ s.frames.size (s.findIn Store.globals n) (s'.findIn Store.globals n) := by
  have unmarked : μ Store.globals 0 = false := by rw [mirror.top]; rfl
  have found := mirror.findIn Store.globals (n := n) (by simp [unmarked])
  rwa [unmarked, renameName_false] at found

theorem Store.Mirrors.owner_globals (mirror : Store.Mirrors x y μ s s') (n : String) :
    s'.owner Store.globals n = s.owner Store.globals n := by
  have unmarked : μ Store.globals 0 = false := by rw [mirror.top]; rfl
  rw [Store.owner_globals, Store.owner_globals]
  cases framed : s.frames[Store.globals]? with
  | none => rw [mirror.frame_none framed]
  | some fr =>
    obtain ⟨fr', framed', slots⟩ := mirror.frames _ fr framed
    have found := slots.lookup (n := n) (by simp [unmarked])
    rw [unmarked, renameName_false] at found
    rw [framed']
    simp only [Option.bind_some]
    generalize fr.slots.lookup n = v at found
    generalize fr'.slots.lookup n = v' at found
    cases found <;> rfl

/-- Binding a name in a frame of both runs, renamed as the frame is. -/
theorem Store.Mirrors.define (mirror : Store.Mirrors x y μ s s') (F : Nat) {n : String} (fresh : μ F 0 = true → n ≠ y)
    {v v' : Option Value} (related : Option.Rel (Value.Mirrors x y μ s.frames.size) v v') :
    Store.Mirrors x y μ (s.define F n v) (s'.define F (renameName x y (μ F 0) n) v') where
  size := by simp [mirror.size]
  parents G := by rw [parentOf_define, parentOf_define, mirror.parents]
  below G P parent := by
    rw [parentOf_define] at parent
    simpa using mirror.below G P parent
  chain G P parent := by
    rw [parentOf_define] at parent
    exact mirror.chain G P parent
  globals := by simpa using mirror.globals
  top := mirror.top
  frames G fr framed := by
    rw [define_frames_size]
    by_cases here : G = F
    · subst here
      simp only [Store.frame_define, if_true] at framed ⊢
      cases old : s.frames[G]? with
      | none => simp [old] at framed
      | some fr₀ =>
        simp only [old, Option.map_some, Option.some.injEq] at framed
        subst framed
        obtain ⟨fr', new, slots⟩ := mirror.frames G fr₀ old
        exact ⟨{ fr' with slots := fr'.slots.put (renameName x y (μ G 0) n) v' }, by simp [new], slots.put fresh related⟩
    · simp only [Store.frame_define, Ne.symm here, if_false] at framed ⊢
      exact mirror.frames G fr framed
  objects := mirror.objects
  fields r fs fielded := by
    rw [define_frames_size]
    exact mirror.fields r fs fielded

/-- The marks after a new frame `N` is made for a scope marked `mark` under the frame `P`. -/
theorem marksGrow_update (μ : Nat → Marks) (N : Nat) (marks : Marks) :
    MarksGrow μ N (Function.update μ N marks) (N + 1) :=
  ⟨Nat.le_succ N, fun _ old => Function.update_of_ne (Nat.ne_of_lt old) _ _⟩

/-- Making a frame in both runs: the new frame gets the marks of its parent with its own scope's
mark in front. -/
theorem Store.Mirrors.alloc (mirror : Store.Mirrors x y μ s s') {P : Nat} (parent : P < s.frames.size) (mark : Bool) :
    Store.Mirrors x y (Function.update μ s.frames.size (Marks.push mark (μ P))) (s.alloc P).1 (s'.alloc P).1 where
  size := by simp [Store.alloc_frames_size, mirror.size]
  parents G := by rw [Store.parentOf_alloc, Store.parentOf_alloc, mirror.size, mirror.parents]
  below G Q up := by
    rw [Store.parentOf_alloc] at up
    simp only [Store.alloc_frames_size]
    split at up
    · cases up
      omega
    · exact Nat.lt_succ_of_lt (mirror.below G Q up)
  chain G Q up d := by
    rw [Store.parentOf_alloc] at up
    split at up
    · next new =>
      cases up
      subst new
      rw [Function.update_self, Function.update_of_ne (Nat.ne_of_lt parent)]
      rfl
    · next old =>
      rw [Function.update_of_ne old, Function.update_of_ne (Nat.ne_of_lt (mirror.below G Q up))]
      exact mirror.chain G Q up d
  globals := by
    simp only [Store.alloc_frames_size]
    exact Nat.lt_succ_of_lt mirror.globals
  top := by rw [Function.update_of_ne (Nat.ne_of_lt mirror.globals)]; exact mirror.top
  frames G fr framed := by
    have grow := marksGrow_update μ s.frames.size (Marks.push mark (μ P))
    have size : (s.alloc P).1.frames.size = s.frames.size + 1 := Store.alloc_frames_size s P
    rw [Store.frame_alloc] at framed
    rw [Store.frame_alloc, mirror.size, size]
    split at framed
    · next new =>
      cases framed
      rw [if_pos new]
      exact ⟨_, rfl, .nil⟩
    · next old =>
      obtain ⟨fr', framed', slots⟩ := mirror.frames G fr framed
      rw [if_neg old, Function.update_of_ne old]
      exact ⟨fr', framed', slots.mono grow⟩
  objects := mirror.objects
  fields r fs fielded := by
    obtain ⟨fs', fielded', fields⟩ := mirror.fields r fs fielded
    exact ⟨fs', fielded', fields.mono (by simpa [Store.alloc_frames_size, Store.alloc_index] using marksGrow_update μ s.frames.size (Marks.push mark (μ P)))⟩

theorem Store.Mirrors.newObject (mirror : Store.Mirrors x y μ s s') :
    Store.Mirrors x y μ s.newObject.1 s'.newObject.1 where
  size := mirror.size
  parents := mirror.parents
  below := mirror.below
  chain := mirror.chain
  globals := mirror.globals
  top := mirror.top
  frames := mirror.frames
  objects := by simp [Store.newObject_objects, mirror.objects]
  fields r fs fielded := by
    simp only [Store.newObject_objects, Array.getElem?_push] at fielded ⊢
    rw [mirror.objects]
    split at fielded
    · next new =>
      cases fielded
      rw [if_pos new]
      exact ⟨[], rfl, .nil⟩
    · next old =>
      rw [if_neg old]
      exact mirror.fields r fs fielded

theorem Store.Mirrors.setField (mirror : Store.Mirrors x y μ s s') (ref : Nat) (n : String) {v v' : Value}
    (related : Value.Mirrors x y μ s.frames.size v v') :
    Store.Mirrors x y μ (s.setField ref n v) (s'.setField ref n v') where
  size := mirror.size
  parents := mirror.parents
  below := mirror.below
  chain := mirror.chain
  globals := mirror.globals
  top := mirror.top
  frames := mirror.frames
  objects := by simp [Store.setField, mirror.objects]
  fields r fs fielded := by
    simp only [Store.setField, Array.getElem?_modify] at fielded ⊢
    split at fielded
    · next same =>
      subst same
      rw [if_pos rfl]
      cases old : s.objects[ref]? with
      | none => simp [old] at fielded
      | some fs₀ =>
        simp only [old, Option.map_some, Option.some.injEq] at fielded
        subst fielded
        obtain ⟨fs', old', fields⟩ := mirror.fields ref fs₀ old
        exact ⟨fs'.put n v', by simp [old'], fields.put n related⟩
    · next other =>
      rw [if_neg other]
      exact mirror.fields r fs fielded

/-- What a name finds some links up, renamed as the scope of the frame it reaches. -/
theorem Store.Mirrors.getAt (mirror : Store.Mirrors x y μ s s') (F d : Nat) {n : String} (fresh : n ≠ y) :
    Found.Mirrors x y μ s.frames.size (s.getAt F d n) (s'.getAt F d (renameName x y (μ F d) n)) := by
  unfold Store.getAt
  rw [mirror.ancestor]
  cases reached : s.ancestor F d with
  | none => rfl
  | some A =>
    rw [mirror.marks_ancestor d reached]
    exact mirror.findIn A fun _ => fresh

/-- A field of an instance, mirrored. -/
theorem Store.Mirrors.field? (mirror : Store.Mirrors x y μ s s') (ref : Nat) (n : String) :
    Option.Rel (Value.Mirrors x y μ s.frames.size) (s.field? ref n) (s'.field? ref n) := by
  unfold Store.field?
  cases fielded : s.objects[ref]? with
  | none =>
    have missing : s'.objects[ref]? = none := by
      rw [Array.getElem?_eq_none_iff] at fielded ⊢
      rw [mirror.objects]
      exact fielded
    rw [missing]
    exact .none
  | some fs =>
    obtain ⟨fs', fielded', fields⟩ := mirror.fields ref fs fielded
    rw [fielded', Option.getD_some, Option.getD_some]
    exact lookup_forall₂ fields n

/-- Binding parameters to arguments in a frame of both runs, each parameter renamed as the frame's
scope is. -/
theorem Store.Mirrors.defineAll (F : Nat) : ∀ {ps : List Token} {args args' : List Value} {s s' : Store},
    Store.Mirrors x y μ s s' → (∀ p ∈ ps, p.lexeme ≠ y) → List.Forall₂ (Value.Mirrors x y μ s.frames.size) args args' →
    Store.Mirrors x y μ ((ps.zip args).foldl (fun s p => s.define F p.1.lexeme (some p.2)) s)
      (((ps.map (Token.rename x y (μ F 0))).zip args').foldl (fun s p => s.define F p.1.lexeme (some p.2)) s')
  | [], _, _, _, _, mirror, _, _ => mirror
  | _ :: _, _, _, _, _, mirror, _, .nil => mirror
  | p :: ps, a :: args, a' :: args', s, s', mirror, fresh, .cons first rest => by
    have bound := mirror.define F (n := p.lexeme) (fun _ => fresh p List.mem_cons_self) (.some first)
    rw [List.map_cons, List.zip_cons_cons, List.zip_cons_cons, List.foldl_cons, List.foldl_cons]
    refine Store.Mirrors.defineAll F bound (fun q mem => fresh q (List.mem_cons_of_mem _ mem)) ?_
    rw [Store.define_frames_size]
    exact rest

/-- A class with a superclass is declared before its `super` frame is made; the two commute. -/
theorem Store.declare_under {s : Store} {env : Nat} (framed : env < s.frames.size) (n : String) (v : Value) :
    ((s.define env n none).alloc env).1.define s.frames.size "super" (some v) =
      ((s.alloc env).1.define s.frames.size "super" (some v)).define env n none := by
  rw [Store.define_alloc framed, Store.define_comm _ (Nat.ne_of_lt framed)]

theorem Store.lt_declare {s : Store} {env : Nat} (framed : env < s.frames.size) {v : Value} :
    env < ((s.alloc env).1.define s.frames.size "super" (some v)).frames.size := by
  simp only [Store.define_frames_size, Store.alloc_frames_size]
  exact Nat.lt_succ_of_lt framed

end Stores

/-! ### Renamed declarations and method tables -/

section Tables

variable {x y : String} {μ : Nat → Marks}

theorem FunDecl.mem_tokens_of_param {d : FunDecl} {p : Token} (mem : p ∈ d.params) : p ∈ d.tokens := by
  cases d
  simp only [FunDecl.params, FunDecl.tokens] at mem ⊢
  simp [mem]

/-- A reference to another name than `x` is kept, whatever the marks. -/
theorem Token.renameAt_of_ne {t : Token} (other : t.lexeme ≠ x) (marks : Marks) (a : Address) :
    t.renameAt x y marks a = t :=
  Token.rename_of_ne other _

/-- A class keeps its number of methods. -/
theorem FunDecl.RenamesAll.length {marks : Marks} : ∀ {ms ms' : List FunDecl}, FunDecl.RenamesAll x y marks ms ms' →
    ms'.length = ms.length
  | [], _, renames => by
    unfold FunDecl.RenamesAll at renames
    rw [renames]
  | _ :: _, _, renames => by
    unfold FunDecl.RenamesAll at renames
    obtain ⟨_, _, rfl, _, rest⟩ := renames
    simp [rest.length]

/-- The method tables a class declaration builds in both runs, over the same frame: mirrored
method by method. -/
theorem methodTable_mirrors {menv N : Nat} (framed : menv < N) :
    ∀ {ms ms' : List FunDecl} {t t' : List (String × Closure)} (id : Nat),
      FunDecl.RenamesAll x y (Marks.push false (μ menv)) ms ms' → FunDecl.FormedAll ms →
      (∀ t ∈ FunDecl.tokensAll ms, t.lexeme ≠ y) →
      List.Forall₂ (fun p p' => p'.1 = p.1 ∧ Closure.Mirrors x y (Marks.push false) μ N p.2 p'.2) t t' →
      List.Forall₂ (fun p p' => p'.1 = p.1 ∧ Closure.Mirrors x y (Marks.push false) μ N p.2 p'.2)
        (Run.methodTable menv ms t id) (Run.methodTable menv ms' t' id)
  | [], _, _, _, _, renames, _, _, table => by
    unfold FunDecl.RenamesAll at renames
    subst renames
    exact table
  | d :: ds, _, _, _, id, renames, formed, fresh, table => by
    unfold FunDecl.RenamesAll at renames
    obtain ⟨d', ds', rfl, head, rest⟩ := renames
    have freshHead : ∀ t ∈ d.tokens, t.lexeme ≠ y := fun t mem => fresh t (by simp [FunDecl.tokensAll, mem])
    have freshRest : ∀ t ∈ FunDecl.tokensAll ds, t.lexeme ≠ y :=
      fun t mem => fresh t (by simp [FunDecl.tokensAll, mem])
    simp only [Run.methodTable, head.name]
    exact methodTable_mirrors framed (id + 1) rest formed.2 freshRest
      (.cons ⟨rfl, rfl, rfl, rfl, framed, freshHead, formed.1, head⟩ table)

/-- The class a declaration builds in both runs, from its methods renamed over the same frame and
mirrored superclasses: mirrored, its identity counted past as many methods. -/
theorem declaredClass_mirrors {menv N : Nat} (framed : menv < N) (name : String) (id : Nat) {ms ms' : List FunDecl}
    (renames : FunDecl.RenamesAll x y (Marks.push false (μ menv)) ms ms') (formed : FunDecl.FormedAll ms)
    (fresh : ∀ t ∈ FunDecl.tokensAll ms, t.lexeme ≠ y) {sup sup' : Option ClassDef}
    (superclass : Option.Rel (ClassDef.Mirrors x y μ N) sup sup') :
    ClassDef.Mirrors x y μ N (.mk (id + ms.length) name sup (Run.methodTable menv ms [] id))
      (.mk (id + ms'.length) name sup' (Run.methodTable menv ms' [] id)) := by
  rw [renames.length, ClassDef.Mirrors]
  refine ⟨sup', _, rfl, methodTable_mirrors framed id renames formed fresh .nil, ?_⟩
  cases superclass with
  | none => rfl
  | some related => exact ⟨_, rfl, related⟩

end Tables

/-! ### Runs in step -/

namespace Run

variable {α β : Type}

/-- How two runs ended: both with answers related by `P`, or both stopped, the renamed run's stop
read back as the original's. -/
def Outcome.Mirrors (x y : String) (P : α → α → Prop) : Except Stop α → Except Stop α → Prop
  | .ok a, r' => ∃ a', r' = .ok a' ∧ P a a'
  | .error e, r' => ∃ e', r' = .error e' ∧ e'.restore x y = e

/-- Two runs in step from mirrored machines: they end in machines mirrored under marks that keep
those of every frame there was, both with answers that `P` relates, or both stopped alike. -/
def Mirrored (x y : String) (marksOf : Nat → Marks) (P : (Nat → Marks) → Nat → α → α → Prop) (r r' : Run α)
    (m m' : Machine) : Prop :=
  ∃ marksOf', MarksGrow marksOf m.store.frames.size marksOf' (r.run.run m).2.store.frames.size ∧
    Machine.Mirrors x y marksOf' (r.run.run m).2 (r'.run.run m').2 ∧
    Outcome.Mirrors x y (P marksOf' (r.run.run m).2.store.frames.size) (r.run.run m).1 (r'.run.run m').1

section Combinators

variable {x y : String} {μ : Nat → Marks} {P : (Nat → Marks) → Nat → α → α → Prop} {m m' : Machine}

theorem Mirrored.pure {a a' : α} (mirror : Machine.Mirrors x y μ m m') (holds : P μ m.store.frames.size a a') :
    Mirrored x y μ P (Pure.pure a) (Pure.pure a') m m' :=
  ⟨μ, MarksGrow.refl _ _, mirror, a', rfl, holds⟩

theorem Mirrored.stop {s s' : Stop} (mirror : Machine.Mirrors x y μ m m') (restored : s'.restore x y = s) :
    Mirrored x y μ P (throw s : Run α) (throw s') m m' :=
  ⟨μ, MarksGrow.refl _ _, mirror, s', rfl, restored⟩

/-- Runs that leave both machines as they were, with related answers or stops. -/
theorem Mirrored.unchanged {r r' : Run α} (mirror : Machine.Mirrors x y μ m m') (same : (r.run.run m).2 = m)
    (same' : (r'.run.run m').2 = m') (outcome : Outcome.Mirrors x y (P μ m.store.frames.size) (r.run.run m).1 (r'.run.run m').1) :
    Mirrored x y μ P r r' m m' :=
  ⟨μ, by rw [same]; exact MarksGrow.refl _ _, by rw [same, same']; exact mirror, by rw [same]; exact outcome⟩

theorem Mirrored.imp {r r' : Run α} {Q : (Nat → Marks) → Nat → α → α → Prop} (mirrored : Mirrored x y μ Q r r' m m')
    (imp : ∀ μ' N a a', Q μ' N a a' → P μ' N a a') : Mirrored x y μ P r r' m m' := by
  obtain ⟨μ', grow, mirror, outcome⟩ := mirrored
  refine ⟨μ', grow, mirror, ?_⟩
  revert outcome
  cases (r.run.run m).1 with
  | ok a =>
    rintro ⟨a', same, holds⟩
    exact ⟨a', same, imp _ _ a a' holds⟩
  | error e => exact id

/-- Sequencing: the first runs are in step, and so are the rest from wherever they left both
machines. -/
theorem Mirrored.bind {r r' : Run α} {f f' : α → Run β} {Q : (Nat → Marks) → Nat → α → α → Prop}
    {P : (Nat → Marks) → Nat → β → β → Prop} (first : Mirrored x y μ Q r r' m m')
    (rest : ∀ μ₁ a a' m₁ m₁', MarksGrow μ m.store.frames.size μ₁ m₁.store.frames.size → r.run.run m = (.ok a, m₁) →
      r'.run.run m' = (.ok a', m₁') → Machine.Mirrors x y μ₁ m₁ m₁' → Q μ₁ m₁.store.frames.size a a' →
      Mirrored x y μ₁ P (f a) (f' a') m₁ m₁') :
    Mirrored x y μ P (r >>= f) (r' >>= f') m m' := by
  obtain ⟨μ₁, grow, mirror, outcome⟩ := first
  unfold Mirrored
  rw [run_bind, run_bind]
  revert grow mirror outcome
  rcases ran : r.run.run m with ⟨result, m₁⟩
  rcases ran' : r'.run.run m' with ⟨result', m₁'⟩
  intro grow mirror outcome
  cases result with
  | ok a =>
    obtain ⟨a', rfl, holds⟩ := outcome
    obtain ⟨μ₂, grow₂, mirror₂, outcome₂⟩ := rest μ₁ a a' m₁ m₁' grow ran ran' mirror holds
    exact ⟨μ₂, grow.trans grow₂, mirror₂, outcome₂⟩
  | error e =>
    obtain ⟨e', rfl, restored⟩ := outcome
    exact ⟨μ₁, grow, mirror, e', rfl, restored⟩

theorem Mirrored.ite {c : Prop} [Decidable c] {r₁ r₁' r₂ r₂' : Run α} (yes : c → Mirrored x y μ P r₁ r₁' m m')
    (no : ¬ c → Mirrored x y μ P r₂ r₂' m m') :
    Mirrored x y μ P (if c then r₁ else r₂) (if c then r₁' else r₂') m m' := by
  split
  · next holds => exact yes holds
  · next fails => exact no fails

/-- Runs that go on as others from machines a step in step reaches. -/
theorem Mirrored.of_entry {r r' s s' : Run α} {μ₁ : Nat → Marks} {m₁ m₁' : Machine} (same : r.run.run m = s.run.run m₁)
    (same' : r'.run.run m' = s'.run.run m₁') (grow : MarksGrow μ m.store.frames.size μ₁ m₁.store.frames.size)
    (mirrored : Mirrored x y μ₁ P s s' m₁ m₁') : Mirrored x y μ P r r' m m' := by
  obtain ⟨μ₂, grow₂, mirror, outcome⟩ := mirrored
  unfold Mirrored
  rw [same, same']
  exact ⟨μ₂, grow.trans grow₂, mirror, outcome⟩

end Combinators

/-! ### Stops read back -/

section Restore

variable {x y : String}

/-- A fault at a token the renaming keeps reads back as itself. -/
theorem restore_fault {t : Token} (fresh : t.lexeme ≠ y) {f : RuntimeFault} (kept : f.restore x y = f) :
    (Stop.fault ⟨t, f⟩).restore x y = .fault ⟨t, f⟩ := by
  simp [Stop.restore, RuntimeError.restore, Token.restore_of_ne fresh, kept]

/-- A variable fault at a renamed reference reads back as the original's. -/
theorem restore_undefined (b : Bool) {t : Token} (fresh : t.lexeme ≠ y) :
    (Stop.fault ⟨t.rename x y b, .undefinedVariable (t.rename x y b).lexeme⟩).restore x y =
      .fault ⟨t, .undefinedVariable t.lexeme⟩ := by
  simp only [Stop.restore, RuntimeError.restore, RuntimeFault.restore, Token.restore_rename fresh]
  simp [Token.rename, restoreName_renameName fresh]

theorem restore_unassigned (b : Bool) {t : Token} (fresh : t.lexeme ≠ y) :
    (Stop.fault ⟨t.rename x y b, .unassignedVariable (t.rename x y b).lexeme⟩).restore x y =
      .fault ⟨t, .unassignedVariable t.lexeme⟩ := by
  simp only [Stop.restore, RuntimeError.restore, RuntimeFault.restore, Token.restore_rename fresh]
  simp [Token.rename, restoreName_renameName fresh]

/-- The operators fail at their own token, with a fault that names no variable. -/
theorem binaryOp_restore {op : Token} (fresh : op.lexeme ≠ y) {a b : Value} {e : RuntimeError}
    (failed : binaryOp op a b = .error e) : (Stop.fault e).restore x y = .fault e := by
  obtain ⟨atOp, fault⟩ := binaryOp_error failed
  rcases e with ⟨t, f⟩
  obtain rfl : t = op := atOp
  -- none of these faults names a variable
  rcases fault with rfl | rfl | ⟨_, _, rfl⟩ | ⟨_, _, rfl⟩ <;> exact restore_fault fresh rfl

end Restore

/-! ### The interpreter's own steps -/

section Steps

variable {x y : String} {μ : Nat → Marks} {m m' : Machine}

theorem define_mirrors (mirror : Machine.Mirrors x y μ m m') (F : Nat) {n : String} (fresh : μ F 0 = true → n ≠ y)
    {v v' : Option Value} (related : Option.Rel (Value.Mirrors x y μ m.store.frames.size) v v') :
    Mirrored x y μ (fun _ _ _ _ => True) (define F n v) (define F (renameName x y (μ F 0) n) v') m m' := by
  unfold Mirrored
  simp only [run_define]
  exact ⟨μ, ⟨by simp, fun _ _ => rfl⟩, ⟨mirror.store.define F fresh related, mirror.output, mirror.nextId, mirror.clock⟩,
    (), rfl, trivial⟩

/-- Making a frame in both runs, for a scope marked `mark`: the same index, marked so. -/
theorem alloc_mirrors (mirror : Machine.Mirrors x y μ m m') {P : Nat} (parent : P < m.store.frames.size) (mark : Bool) :
    Mirrored x y μ (fun μ' N F F' => F' = F ∧ F < N ∧ μ' F = Marks.push mark (μ P)) (alloc P) (alloc P) m m' := by
  unfold Mirrored
  simp only [run_alloc]
  refine ⟨_, by simpa [Store.alloc_frames_size, Store.alloc_index] using marksGrow_update μ m.store.frames.size (Marks.push mark (μ P)),
    ⟨mirror.store.alloc parent mark, mirror.output, mirror.nextId, mirror.clock⟩, m'.store.frames.size, rfl, ?_⟩
  refine ⟨mirror.store.size, by simp [Store.alloc_frames_size], Function.update_self _ _ _⟩

theorem fresh_mirrors (mirror : Machine.Mirrors x y μ m m') :
    Mirrored x y μ (fun _ _ i i' => i' = i) fresh fresh m m' := by
  unfold Mirrored
  simp only [run_fresh]
  exact ⟨μ, MarksGrow.refl _ _, ⟨mirror.store, mirror.output, by simp [mirror.nextId], mirror.clock⟩, m'.nextId, rfl,
    mirror.nextId⟩

theorem newObject_mirrors (mirror : Machine.Mirrors x y μ m m') :
    Mirrored x y μ (fun _ _ r r' => r' = r) newObject newObject m m' := by
  unfold Mirrored
  simp only [run_newObject]
  exact ⟨μ, MarksGrow.refl _ _, ⟨mirror.store.newObject, mirror.output, mirror.nextId, mirror.clock⟩, _, rfl,
    mirror.store.objects⟩

theorem write_mirrors (mirror : Machine.Mirrors x y μ m m') (line : String) :
    Mirrored x y μ (fun _ _ _ _ => True) (write line) (write line) m m' := by
  unfold Mirrored
  simp only [run_write]
  exact ⟨μ, MarksGrow.refl _ _, ⟨mirror.store, by simp [mirror.output], mirror.nextId, mirror.clock⟩, (), rfl, trivial⟩

theorem setField_mirrors (mirror : Machine.Mirrors x y μ m m') (ref : Nat) (n : String) {v v' : Value}
    (related : Value.Mirrors x y μ m.store.frames.size v v') :
    Mirrored x y μ (fun _ _ _ _ => True) (modify fun m : Machine => { m with store := m.store.setField ref n v })
      (modify fun m : Machine => { m with store := m.store.setField ref n v' }) m m' := by
  unfold Mirrored
  simp only [run_modify]
  exact ⟨μ, MarksGrow.refl _ _, ⟨mirror.store.setField ref n related, mirror.output, mirror.nextId, mirror.clock⟩,
    PUnit.unit, rfl, trivial⟩

/-- A read of a name in both runs, the renamed run's token renamed as the scope its address names:
mirrored values, or the same fault read back. -/
theorem lookUp_mirrors (mirror : Machine.Mirrors x y μ m m') (env : Nat) {name : Token} (fresh : name.lexeme ≠ y)
    (addr : Address) :
    Mirrored x y μ (fun μ' N v v' => Value.Mirrors x y μ' N v v') (lookUp env name addr)
      (lookUp env (name.renameAt x y (μ env) addr) addr) m m' := by
  refine Mirrored.unchanged mirror (lookUp_machine _ _ _ m) (lookUp_machine _ _ _ m') ?_
  -- a global is read by name in both runs, a local under the marks of the frame its address names
  rcases addr with _ | d
  case' global =>
    have found : Found.Mirrors x y μ m.store.frames.size (m.store.findIn Store.globals name.lexeme)
        (m'.store.findIn Store.globals (name.rename x y false).lexeme) := by
      simpa using mirror.store.findIn_globals name.lexeme
    simp only [lookUp, run_bind, run_get, Token.renameAt, Marks.at, Store.find_globals]
    revert found
    generalize m.store.findIn Store.globals name.lexeme = v
    generalize m'.store.findIn Store.globals (name.rename x y false).lexeme = v'
  case' «scoped» =>
    have found : Found.Mirrors x y μ m.store.frames.size (m.store.getAt env d name.lexeme)
        (m'.store.getAt env d (name.rename x y (μ env d)).lexeme) := mirror.store.getAt env d fresh
    simp only [lookUp, run_bind, run_get, Token.renameAt, Marks.at]
    revert found
    generalize m.store.getAt env d name.lexeme = v
    generalize m'.store.getAt env d (name.rename x y (μ env d)).lexeme = v'
  all_goals
    intro found
    cases v with
    | value v =>
      obtain ⟨v', rfl, mirrors⟩ := found
      exact ⟨v', rfl, mirrors⟩
    | unassigned =>
      cases found
      exact ⟨_, rfl, restore_unassigned _ fresh⟩
    | missing =>
      cases found
      exact ⟨_, rfl, restore_undefined _ fresh⟩

/-- An assignment in both runs, the renamed run's token renamed as the scope its address names:
both bind the frame the address names, or both fail. -/
theorem assignTo_mirrors (mirror : Machine.Mirrors x y μ m m') (env : Nat) {name : Token} (fresh : name.lexeme ≠ y)
    (addr : Address) {v v' : Value} (related : Value.Mirrors x y μ m.store.frames.size v v') :
    Mirrored x y μ (fun _ _ _ _ => True) (assignTo env name addr v)
      (assignTo env (name.renameAt x y (μ env) addr) addr v') m m' := by
  have unmarked : μ Store.globals 0 = false := by rw [mirror.store.top]; rfl
  rcases addr with _ | d
  · simp only [Token.renameAt, Marks.at, Token.rename_false]
    cases owned : m.store.owner Store.globals name.lexeme with
    | none =>
      refine Mirrored.unchanged mirror ?_ ?_ ?_
      all_goals simp only [assignTo, run_bind, run_get, owned, mirror.store.owner_globals]
      · rfl
      · rfl
      · exact ⟨_, rfl, restore_undefined false fresh⟩
    | some F =>
      have global : F = Store.globals := by
        rw [Store.owner_globals] at owned
        obtain ⟨_, -, same⟩ := Option.map_eq_some_iff.1 owned
        exact same.symm
      subst global
      have bound := define_mirrors mirror Store.globals (n := name.lexeme) (by simp [unmarked]) (.some related)
      rw [unmarked, renameName_false] at bound
      refine Mirrored.of_entry ?_ ?_ (MarksGrow.refl _ _) bound
      · simp only [assignTo, run_bind, run_get, owned]
      · simp only [assignTo, run_bind, run_get, mirror.store.owner_globals, owned]
  · simp only [Token.renameAt, Marks.at]
    cases reached : m.store.ancestor env d with
    | none =>
      refine Mirrored.unchanged mirror ?_ ?_ ?_
      all_goals simp only [assignTo, run_bind, run_get, reached, mirror.store.ancestor]
      · rfl
      · rfl
      · exact ⟨_, rfl, restore_undefined _ fresh⟩
    | some A =>
      have bound := define_mirrors mirror A (n := name.lexeme) (fun _ => fresh) (.some related)
      rw [← mirror.store.marks_ancestor d reached] at bound
      refine Mirrored.of_entry ?_ ?_ (MarksGrow.refl _ _) bound
      · simp only [assignTo, run_bind, run_get, reached]
      · simp only [assignTo, run_bind, run_get, mirror.store.ancestor, reached]
        rfl
      
/-- Binding a method in both runs: a new frame, unmarked, holding the instance as `this`, and a
closure over it whose body is renamed in the scopes around that frame. -/
theorem bindMethod_mirrors (mirror : Machine.Mirrors x y μ m m') {method method' : Closure}
    (mirrored : Closure.Mirrors x y (Marks.push false) μ m.store.frames.size method method') (ref : Nat)
    {c c' : ClassDef} (cls : ClassDef.Mirrors x y μ m.store.frames.size c c') :
    Mirrored x y μ (fun μ' N f f' => Closure.Mirrors x y id μ' N f f') (bindMethod method ref c)
      (bindMethod method' ref c') m m' := by
  unfold bindMethod
  rw [mirrored.env]
  refine Mirrored.bind (alloc_mirrors mirror mirrored.framed false) ?_
  rintro μ₁ F F' m₁ m₁' grow₁ - - mirror₁ ⟨same, framed₁, marked₁⟩
  subst F'
  have unmarked : μ₁ F 0 = false := by rw [marked₁]; rfl
  have this := define_mirrors mirror₁ F (n := "this") (by simp [unmarked])
    (.some (show Value.Mirrors x y μ₁ m₁.store.frames.size (.obj ref c) (.obj ref c') from ⟨c', rfl, cls.mono grow₁⟩))
  rw [unmarked, renameName_false] at this
  refine Mirrored.bind this ?_
  rintro μ₂ - - m₂ m₂' grow₂ - - mirror₂ -
  refine Mirrored.bind (fresh_mirrors mirror₂) ?_
  rintro μ₃ i i' m₃ m₃' grow₃ - - mirror₃ rfl
  refine Mirrored.pure mirror₃ ⟨rfl, rfl, mirrored.isInit, Nat.lt_of_lt_of_le framed₁ (grow₂.trans grow₃).size,
    mirrored.fresh, mirrored.formed, ?_⟩
  have marks : μ₃ F = μ₁ F := (grow₂.trans grow₃).old F framed₁
  rw [id, marks, marked₁]
  exact mirrored.body

/-- A property read in both runs: a mirrored field, or a mirrored method bound to the instance,
or the same fault. -/
theorem getProperty_mirrors (mirror : Machine.Mirrors x y μ m m') {name : Token} (fresh : name.lexeme ≠ y)
    (ref : Nat) {c c' : ClassDef} (cls : ClassDef.Mirrors x y μ m.store.frames.size c c') :
    Mirrored x y μ (fun μ' N v v' => Value.Mirrors x y μ' N v v') (getProperty name ref c)
      (getProperty name ref c') m m' := by
  have field := mirror.store.field? ref name.lexeme
  generalize read : m.store.field? ref name.lexeme = v at field
  generalize read' : m'.store.field? ref name.lexeme = v' at field
  cases field with
  | some related =>
    refine Mirrored.of_entry ?_ ?_ (MarksGrow.refl _ _) (Mirrored.pure mirror related)
    · simp only [getProperty, run_bind, run_get, read]
    · simp only [getProperty, run_bind, run_get, read']
  | none =>
    have found := cls.findMethod name.lexeme
    generalize method : c.findMethod name.lexeme = f at found
    generalize method' : c'.findMethod name.lexeme = f' at found
    cases found with
    | @some g g' mirrored =>
      have bound : Mirrored x y μ (fun μ' N v v' => Value.Mirrors x y μ' N v v')
          (bindMethod g ref c >>= fun f => pure (.fn f)) (bindMethod g' ref c' >>= fun f => pure (.fn f)) m m' := by
        refine Mirrored.bind (bindMethod_mirrors mirror mirrored ref cls) ?_
        rintro μ₁ f f' m₁ m₁' - - - mirror₁ bound
        exact Mirrored.pure mirror₁ ⟨f', rfl, bound⟩
      refine Mirrored.of_entry ?_ ?_ (MarksGrow.refl _ _) bound
      · simp only [getProperty, run_bind, run_get, read, method]
      · simp only [getProperty, run_bind, run_get, read', method']
    | none =>
      refine Mirrored.unchanged mirror ?_ ?_ ?_
      all_goals simp only [getProperty, run_bind, run_get, read, read', method, method']
      · rfl
      · rfl
      · exact ⟨_, rfl, restore_fault fresh rfl⟩

/-- The superclass a declaration names, in both runs: mirrored classes, or the same fault at the
name, renamed in the renamed run. -/
theorem superclassOf_mirrors (mirror : Machine.Mirrors x y μ m m') {n : Token} (fresh : n.lexeme ≠ y) (marks : Marks)
    (a : Address) {v v' : Value} (related : Value.Mirrors x y μ m.store.frames.size v v') :
    Mirrored x y μ (fun μ' N c c' => ClassDef.Mirrors x y μ' N c c') (superclassOf (.ident n a) v)
      (superclassOf ((Expr.ident n a).rename x y marks) v') m m' := by
  -- anything but a class fails at the name, which reads back as the original's
  have failed : ∀ {w w' : Value}, superclassOf (.ident n a) w = fail n .superclassNotClass →
      superclassOf ((Expr.ident n a).rename x y marks) w' = fail (n.renameAt x y marks a) .superclassNotClass →
      Mirrored x y μ (fun μ' N c c' => ClassDef.Mirrors x y μ' N c c') (superclassOf (.ident n a) w)
        (superclassOf ((Expr.ident n a).rename x y marks) w') m m' := by
    intro w w' named named'
    rw [named, named']
    exact Mirrored.stop mirror (by simp [Stop.restore, RuntimeError.restore, RuntimeFault.restore, Token.renameAt,
      Token.restore_rename fresh])
  cases v
  case cls c =>
    obtain ⟨c', rfl, cls⟩ := related
    exact Mirrored.pure mirror cls
  case fn f =>
    obtain ⟨f', rfl, -⟩ := related
    exact failed rfl rfl
  case obj r c =>
    obtain ⟨c', rfl, -⟩ := related
    exact failed rfl rfl
  all_goals
    subst related
    exact failed rfl rfl

theorem size_foldl_define (F : Nat) : ∀ (pairs : List (Token × Value)) (s : Store),
    (pairs.foldl (fun s p => s.define F p.1.lexeme (some p.2)) s).frames.size = s.frames.size
  | [], _ => rfl
  | p :: pairs, s => by
    rw [List.foldl_cons, size_foldl_define F pairs, Store.define_frames_size]

/-- A call adds one frame. -/
theorem callEntry_size (f : Closure) (args : List Value) (m : Machine) :
    (callEntry f args m).store.frames.size = m.store.frames.size + 1 := by
  simp [callEntry, size_foldl_define, Store.alloc_frames_size]

/-- A call's body starts, in both runs, from mirrored machines: the new frame is marked as the
function's scope, and binds each parameter, renamed so, to its argument. -/
theorem callEntry_mirrors (mirror : Machine.Mirrors x y μ m m') {f f' : Closure}
    (mirrored : Closure.Mirrors x y id μ m.store.frames.size f f') {mark : Bool}
    (params : f'.decl.params = f.decl.params.map (Token.rename x y mark)) {args args' : List Value}
    (related : List.Forall₂ (Value.Mirrors x y μ m.store.frames.size) args args') :
    Machine.Mirrors x y (Function.update μ m.store.frames.size (Marks.push mark (μ f.env))) (callEntry f args m)
      (callEntry f' args' m') := by
  have grow := marksGrow_update μ m.store.frames.size (Marks.push mark (μ f.env))
  have marked : Function.update μ m.store.frames.size (Marks.push mark (μ f.env)) m.store.frames.size 0 = mark := by
    rw [Function.update_self, Marks.push_zero]
  have allocated := mirror.store.alloc mirrored.framed mark
  have lifted : List.Forall₂ (Value.Mirrors x y (Function.update μ m.store.frames.size (Marks.push mark (μ f.env)))
      (m.store.alloc f.env).1.frames.size) args args' := by
    refine related.imp fun _ _ mirrors => mirrors.mono ?_
    simpa [Store.alloc_frames_size, Store.alloc_index] using grow
  have bound := allocated.defineAll m.store.frames.size
    (fun p mem => mirrored.fresh p (FunDecl.mem_tokens_of_param mem)) lifted
  rw [marked] at bound
  refine ⟨?_, mirror.output, mirror.nextId, mirror.clock⟩
  simp only [callEntry, params, mirrored.env, mirror.store.size]
  exact bound

end Steps

end Run

end Lox
