import Lox.Proofs.ScopeAgreement
/-!
Chains of frames against a reference that reads them as lists. Following enclosing links from a
frame meets a list of frames, the frame itself first and last one with no enclosing frame
(`Store.Chain`). Each link leads to an earlier frame, as in every store its own operations build
(`Store.Linked`), so a chain is finite and meets no frame twice.

Along a chain, a search by name (`Store.find`) gives what the nearest frame that binds the name
holds: its value, or no value yet; past the last frame, nothing (`Store.nearest`). An assignment
by name (`Store.assign`) overwrites that one binding, binds no name anew, and gives no store at all
when no frame binds the name. Going `d` links up (`Store.ancestor`) is taking the `d`-th frame of
the chain, and the addressed read and write (`Store.getAt`, `Store.assignAt`) use that frame and
search no other. The interpreter reads and assigns globals through these searches: a read fails
with "has not been assigned a value" or "Undefined variable" as the nearest binding says, and a
failed read or assignment leaves the machine as it was (`chain_operations_meet_reference`).
-/
namespace Lox

/-- What a binding gives a read: its value, `unassigned` while it has none, and `missing` when
there is no binding. -/
def Found.ofBinding : Option (Option Value) → Found
  | some (some v) => .value v
  | some none => .unassigned
  | none => .missing

namespace Store

/-- The binding a frame holds for a name: `some b` when the frame binds it, `b` its value or
`none` while it has none. -/
def bindingIn (s : Store) (frame : Nat) (name : String) : Option (Option Value) :=
  (s.frames[frame]?).bind fun fr => fr.slots.lookup name

/-- The nearest frame of a list that binds a name, with its binding. -/
def nearest (s : Store) (name : String) (frames : List Nat) : Option (Nat × Option Value) :=
  frames.findSome? fun f => (s.bindingIn f name).map fun b => (f, b)

/-- The frames met going out from `frame` along enclosing links: `frame` first, and last a frame
with no enclosing one. Each link leads to an earlier frame. -/
inductive Chain (s : Store) : Nat → List Nat → Prop
  | root {frame : Nat} (valid : frame < s.frames.size) (top : s.parentOf frame = none) :
      Chain s frame [frame]
  | link {frame p : Nat} {rest : List Nat} (parent : s.parentOf frame = some p) (earlier : p < frame)
      (outer : Chain s p rest) : Chain s frame (frame :: rest)

/-- Every enclosing link leads to an earlier frame. -/
def Linked (s : Store) : Prop := ∀ F P, s.parentOf F = some P → P < F

/-- `s'` is `s` with `name` bound to `v` in frame `g` and nothing else changed: the other bindings
of `g`, its enclosing frame, every other frame and every instance stay as they were. -/
structure Overwrites (s s' : Store) (g : Nat) (name : String) (v : Value) : Prop where
  written : s'.bindingIn g name = some (some v)
  others : ∀ n, n ≠ name → s'.bindingIn g n = s.bindingIn g n
  parent : s'.parentOf g = s.parentOf g
  elsewhere : ∀ h, h ≠ g → s'.frames[h]? = s.frames[h]?
  objects : s'.objects = s.objects

variable {s : Store} {frame : Nat} {fs : List Nat}

/-! ### One frame at a time -/

theorem findIn_eq_ofBinding (s : Store) (frame : Nat) (name : String) :
    s.findIn frame name = Found.ofBinding (s.bindingIn frame name) := by
  unfold findIn bindingIn
  cases s.frames[frame]? with
  | none => rfl
  | some fr =>
    simp only [Option.bind_some]
    cases fr.slots.lookup name with
    | none => rfl
    | some b => cases b <;> rfl

theorem nearest_cons (s : Store) (name : String) (f : Nat) (rest : List Nat) :
    s.nearest name (f :: rest) = match s.bindingIn f name with
      | some b => some (f, b)
      | none => s.nearest name rest := by
  unfold nearest
  rw [List.findSome?_cons]
  cases s.bindingIn f name <;> rfl

/-- The nearest binding is in the first frame that binds the name; none of the frames before it do. -/
theorem nearest_eq_some_iff {name : String} {g : Nat} {b : Option Value} :
    s.nearest name fs = some (g, b) ↔
      ∃ before after, fs = before ++ g :: after ∧ (∀ h ∈ before, s.bindingIn h name = none) ∧
        s.bindingIn g name = some b := by
  unfold nearest
  rw [List.findSome?_eq_some_iff]
  constructor
  · rintro ⟨before, f, after, split, found, skipped⟩
    obtain ⟨b', bound, same⟩ := Option.map_eq_some_iff.1 found
    cases same
    exact ⟨before, after, split, fun h mem => Option.map_eq_none_iff.1 (skipped h mem), bound⟩
  · rintro ⟨before, after, split, skipped, bound⟩
    exact ⟨before, g, after, split, by rw [bound]; rfl, fun h mem => by rw [skipped h mem]; rfl⟩

/-- A search from a frame with no enclosing one reads that frame alone. -/
theorem find_of_top (top : s.parentOf frame = none) (name : String) :
    s.find frame name = Found.ofBinding (s.bindingIn frame name) := by
  rw [Store.find, bindingIn]
  cases framed : s.frames[frame]? with
  | none => rfl
  | some fr =>
    have noParent : fr.parent = none := by simpa [parentOf, framed] using top
    simp only [Option.bind_some]
    cases fr.slots.lookup name with
    | none => simp [noParent, Found.ofBinding]
    | some b => cases b <;> rfl

/-- A search from a frame that does not bind the name goes on from its enclosing frame. -/
theorem find_of_link {p : Nat} (parent : s.parentOf frame = some p) (earlier : p < frame) (name : String) :
    s.find frame name = match s.bindingIn frame name with
      | some b => Found.ofBinding (some b)
      | none => s.find p name := by
  obtain ⟨fr, framed, up⟩ := Option.bind_eq_some_iff.1 parent
  rw [Store.find, bindingIn, framed]
  simp only [Option.bind_some]
  cases fr.slots.lookup name with
  | none => simp [up, earlier]
  | some b => cases b <;> rfl

theorem owner_of_top (top : s.parentOf frame = none) (name : String) :
    s.owner frame name = (s.bindingIn frame name).map fun _ => frame := by
  rw [Store.owner, bindingIn]
  cases framed : s.frames[frame]? with
  | none => rfl
  | some fr =>
    have noParent : fr.parent = none := by simpa [parentOf, framed] using top
    simp only [Option.bind_some]
    cases fr.slots.lookup name with
    | none => simp [noParent]
    | some b => rfl

theorem owner_of_link {p : Nat} (parent : s.parentOf frame = some p) (earlier : p < frame) (name : String) :
    s.owner frame name = match s.bindingIn frame name with
      | some _ => some frame
      | none => s.owner p name := by
  obtain ⟨fr, framed, up⟩ := Option.bind_eq_some_iff.1 parent
  rw [Store.owner, bindingIn, framed]
  simp only [Option.bind_some]
  cases fr.slots.lookup name with
  | none => simp [up, earlier]
  | some b => rfl

theorem ancestor_succ_of_top (top : s.parentOf frame = none) (d : Nat) : s.ancestor frame (d + 1) = none := by
  unfold ancestor
  split
  · next slots p framed => simp [parentOf, framed] at top
  · rfl

/-! ### Along a chain -/

/-- Every frame of a chain is a frame of the store. -/
theorem Chain.valid_of_mem (chain : s.Chain frame fs) : ∀ g ∈ fs, g < s.frames.size := by
  induction chain with
  | root valid top =>
    intro g mem
    rw [List.mem_singleton.1 mem]
    exact valid
  | @link f p rest parent earlier outer ih =>
    intro g mem
    rcases List.mem_cons.1 mem with rfl | further
    · obtain ⟨fr, framed, -⟩ := Option.bind_eq_some_iff.1 parent
      exact (Array.getElem?_eq_some_iff.1 framed).1
    · exact ih g further

/-- A search by name gives what the nearest binding along the chain holds. -/
theorem Chain.find_eq (chain : s.Chain frame fs) (name : String) :
    s.find frame name = Found.ofBinding ((s.nearest name fs).map Prod.snd) := by
  -- frame by frame, the search and the reference stop at the same frame: the first that binds
  induction chain with
  | @root f valid top =>
    rw [find_of_top top, nearest_cons]
    cases s.bindingIn f name <;> rfl
  | @link f p rest parent earlier outer ih =>
    rw [find_of_link parent earlier, nearest_cons]
    cases s.bindingIn f name with
    | none => exact ih
    | some b => rfl

/-- The frame a search by name stops at is the nearest along the chain that binds the name. -/
theorem Chain.owner_eq (chain : s.Chain frame fs) (name : String) :
    s.owner frame name = (s.nearest name fs).map Prod.fst := by
  induction chain with
  | @root f valid top =>
    rw [owner_of_top top, nearest_cons]
    cases s.bindingIn f name <;> rfl
  | @link f p rest parent earlier outer ih =>
    rw [owner_of_link parent earlier, nearest_cons]
    cases s.bindingIn f name with
    | none => exact ih
    | some b => rfl

/-- An assignment by name binds the value in the frame of the nearest binding, if there is one. -/
theorem Chain.assign_eq (chain : s.Chain frame fs) (name : String) (v : Value) :
    s.assign frame name v = (s.nearest name fs).map fun near => s.define near.1 name (some v) := by
  rw [Store.assign, chain.owner_eq, Option.map_map]
  rfl

/-- Going `d` links up from the first frame of a chain reaches its `d`-th frame, and nothing past
its end. -/
theorem Chain.ancestor_eq (chain : s.Chain frame fs) (d : Nat) : s.ancestor frame d = fs[d]? := by
  induction chain generalizing d with
  | root valid top =>
    cases d with
    | zero => rfl
    | succ d => rw [ancestor_succ_of_top top]; rfl
  | link parent earlier outer ih =>
    cases d with
    | zero => rfl
    | succ d => rw [ancestor_succ_of_parentOf parent, ih]; rfl

/-- A read at a distance reads the frame that far up the chain, and that frame alone. -/
theorem Chain.getAt_eq (chain : s.Chain frame fs) (d : Nat) (name : String) :
    s.getAt frame d name = match fs[d]? with
      | some a => Found.ofBinding (s.bindingIn a name)
      | none => .missing := by
  rw [getAt, chain.ancestor_eq d]
  cases fs[d]? with
  | none => rfl
  | some a => exact findIn_eq_ofBinding s a name

/-- A write at a distance binds the value in the frame that far up the chain. -/
theorem Chain.assignAt_eq (chain : s.Chain frame fs) (d : Nat) (name : String) (v : Value) :
    s.assignAt frame d name v = fs[d]?.map fun a => s.define a name (some v) := by
  rw [assignAt, chain.ancestor_eq d]

/-! ### Writing one binding -/

/-- Binding a value in a frame of the store writes that binding and nothing else. -/
theorem overwrites_define {g : Nat} (valid : g < s.frames.size) (name : String) (v : Value) :
    s.Overwrites (s.define g name (some v)) g name v where
  written := by simp [bindingIn, define, Array.getElem_modify, valid]
  others n other := by
    simp only [bindingIn, define, Array.getElem?_modify, if_true]
    cases s.frames[g]? with
    | none => rfl
    | some fr => simp [Slots.lookup_put_ne other]
  parent := parentOf_define s g name _ g
  elsewhere h apart := by simp [define, Array.getElem?_modify, Ne.symm apart]
  objects := rfl

/-- Overwriting a binding the frame already holds binds no name anew, in any frame. -/
theorem Overwrites.binds_alike {s' : Store} {g : Nat} {name : String} {v : Value} (write : s.Overwrites s' g name v)
    (bound : (s.bindingIn g name).isSome) (h : Nat) (n : String) :
    (s'.bindingIn h n).isSome = (s.bindingIn h n).isSome := by
  by_cases here : h = g
  · subst here
    by_cases same : n = name
    · subst same
      rw [write.written, bound]
      rfl
    · rw [write.others n same]
  · simp only [bindingIn, write.elsewhere h here]

/-! ### Linked stores -/

/-- In a linked store every frame has its chain. -/
theorem Linked.chain (linked : s.Linked) : ∀ {frame : Nat}, frame < s.frames.size → ∃ fs, s.Chain frame fs := by
  intro frame
  -- by strong induction: the enclosing frame's chain exists, as that frame is an earlier one
  induction frame using Nat.strongRecOn with
  | ind frame ih =>
    intro valid
    cases parent : s.parentOf frame with
    | none => exact ⟨[frame], .root valid parent⟩
    | some p =>
      have earlier := linked frame p parent
      obtain ⟨rest, outer⟩ := ih p earlier (Nat.lt_trans earlier valid)
      exact ⟨frame :: rest, .link parent earlier outer⟩

/-- A new frame under an existing one keeps a store linked. -/
theorem Linked.alloc (linked : s.Linked) {p : Nat} (valid : p < s.frames.size) : (s.alloc p).1.Linked := by
  intro F P parent
  by_cases old : F < s.frames.size
  · rw [parentOf, frame_alloc_old p old] at parent
    exact linked F P parent
  · -- past the old frames only the new one has a parent, `p`
    rw [parentOf_alloc] at parent
    split at parent
    · next new =>
      cases parent
      omega
    · rw [parentOf, Array.getElem?_eq_none (Nat.le_of_not_lt old)] at parent
      cases parent

theorem Linked.define (linked : s.Linked) (frame : Nat) (name : String) (v : Option Value) :
    (s.define frame name v).Linked := by
  intro F P parent
  rw [parentOf_define] at parent
  exact linked F P parent

theorem Linked.newObject (linked : s.Linked) : s.newObject.1.Linked := linked

theorem Linked.setField (linked : s.Linked) (ref : Nat) (name : String) (v : Value) :
    (s.setField ref name v).Linked := linked

end Store

namespace Run

/-- A read of a global reference gives what the search from the globals frame finds, and fails on
a binding with no value or on none; the machine stays as it was. -/
theorem lookUp_global (env : Nat) (name : Token) (m : Machine) :
    (lookUp env name .global).run.run m = (match m.store.find Store.globals name.lexeme with
      | .value v => .ok v
      | .unassigned => .error (.fault ⟨name, .unassignedVariable name.lexeme⟩)
      | .missing => .error (.fault ⟨name, .undefinedVariable name.lexeme⟩), m) := by
  simp only [lookUp, run_bind, run_get]
  cases m.store.find Store.globals name.lexeme <;> rfl

/-- An assignment to a global reference stores what the assignment by name from the globals frame
gives, and fails with the machine unchanged when that gives no store. -/
theorem assignTo_global (env : Nat) (name : Token) (v : Value) (m : Machine) :
    (assignTo env name .global v).run.run m = match m.store.assign Store.globals name.lexeme v with
      | some s' => (.ok (), { m with store := s' })
      | none => (.error (.fault ⟨name, .undefinedVariable name.lexeme⟩), m) := by
  simp only [assignTo, run_bind, run_get, Store.assign]
  cases m.store.owner Store.globals name.lexeme <;> rfl

end Run

/-- The operations on a chain of frames meet the reference that reads the chain as a list `fs`.
A search by name gives what the nearest binding holds. An assignment by name overwrites that
binding and nothing else, binding no name anew, and gives no store when no frame binds the name.
Going `d` links up reaches the `d`-th frame, and nothing past the end; a read or a write at that
distance uses that frame alone. From the globals frame, the interpreter's read of a global fails
with "has not been assigned a value" on a binding with no value and with "Undefined variable" on
none, an assignment overwrites the nearest binding, and a failed read or assignment leaves the
machine as it was. -/
theorem chain_operations_meet_reference {s : Store} {frame : Nat} {fs : List Nat} (chain : s.Chain frame fs)
    (name : String) (v : Value) :
    s.find frame name = Found.ofBinding ((s.nearest name fs).map Prod.snd) ∧
    (∀ g b, s.nearest name fs = some (g, b) → ∃ s', s.assign frame name v = some s' ∧
      s.Overwrites s' g name v ∧ ∀ h n, (s'.bindingIn h n).isSome = (s.bindingIn h n).isSome) ∧
    (s.nearest name fs = none → s.assign frame name v = none) ∧
    (∀ d, s.ancestor frame d = fs[d]?) ∧
    (∀ d a, fs[d]? = some a → s.getAt frame d name = Found.ofBinding (s.bindingIn a name) ∧
      ∃ s', s.assignAt frame d name v = some s' ∧ s.Overwrites s' a name v) ∧
    (∀ d, fs.length ≤ d → s.getAt frame d name = .missing ∧ s.assignAt frame d name v = none) ∧
    (frame = Store.globals → ∀ (m : Machine) (env : Nat) (tok : Token), m.store = s → tok.lexeme = name →
      (∀ g w, s.nearest name fs = some (g, some w) → (Run.lookUp env tok .global).run.run m = (.ok w, m)) ∧
      (∀ g, s.nearest name fs = some (g, none) → ∃ e, (Run.lookUp env tok .global).run.run m = (.error (.fault e), m) ∧
        e.token = tok ∧ e.fault.message = "Variable '" ++ name ++ "' has not been assigned a value.") ∧
      (∀ g b, s.nearest name fs = some (g, b) →
        (Run.assignTo env tok .global v).run.run m = (.ok (), { m with store := s.define g name (some v) })) ∧
      (s.nearest name fs = none → ∃ e, (Run.lookUp env tok .global).run.run m = (.error (.fault e), m) ∧
        (Run.assignTo env tok .global v).run.run m = (.error (.fault e), m) ∧
        e.token = tok ∧ e.fault.message = "Undefined variable '" ++ name ++ "'.")) := by
  have found := chain.find_eq name
  refine ⟨found, fun g b near => ?_, fun unbound => ?_, chain.ancestor_eq, fun d a reached => ?_, fun d past => ?_, ?_⟩
  · -- the nearest binding is in a frame of the chain, so of the store
    obtain ⟨before, after, split, -, bound⟩ := Store.nearest_eq_some_iff.1 near
    have valid : g < s.frames.size := chain.valid_of_mem g (by simp [split])
    have overwrite := Store.overwrites_define valid name v
    exact ⟨_, by rw [chain.assign_eq, near]; rfl, overwrite, overwrite.binds_alike (by rw [bound]; rfl)⟩
  · rw [chain.assign_eq, unbound]
    rfl
  · have valid : a < s.frames.size := chain.valid_of_mem a (List.mem_of_getElem? reached)
    exact ⟨by rw [chain.getAt_eq, reached], _, by rw [chain.assignAt_eq, reached]; rfl, Store.overwrites_define valid name v⟩
  · have beyond : fs[d]? = none := List.getElem?_eq_none past
    exact ⟨by rw [chain.getAt_eq, beyond], by rw [chain.assignAt_eq, beyond]; rfl⟩
  · rintro rfl m env tok rfl rfl
    have read := Run.lookUp_global env tok m
    have write := Run.assignTo_global env tok v m
    rw [found] at read
    rw [chain.assign_eq] at write
    refine ⟨fun g w near => ?_, fun g near => ⟨⟨tok, .unassignedVariable tok.lexeme⟩, ?_, rfl, rfl⟩, fun g b near => ?_,
      fun unbound => ⟨⟨tok, .undefinedVariable tok.lexeme⟩, ?_, ?_, rfl, rfl⟩⟩
    · rw [read, near]; rfl
    · rw [read, near]; rfl
    · rw [write, near]; rfl
    · rw [read, unbound]; rfl
    · rw [write, unbound]; rfl

/-- The globals bind `a`, the frame they enclose shadows it, and a frame inside that binds nothing:
the search finds the shadowing binding, and a read at each distance finds that frame's binding or
none, with no search past it. -/
theorem chain_operations_meet_reference_nested :
    let s : Store := ⟨#[⟨[("a", some (.str "global"))], none⟩, ⟨[("a", some (.str "middle"))], some 0⟩,
      ⟨[], some 1⟩], #[]⟩
    s.Chain 2 [2, 1, 0] ∧ s.find 2 "a" = .value (.str "middle") ∧ s.getAt 2 0 "a" = .missing ∧
      s.getAt 2 1 "a" = .value (.str "middle") ∧ s.getAt 2 2 "a" = .value (.str "global") ∧
      s.ancestor 2 3 = none := by
  intro s
  have chain : s.Chain 2 [2, 1, 0] := .link rfl (by decide) (.link rfl (by decide) (.root (by decide) rfl))
  have facts := chain_operations_meet_reference chain "a" .nil
  exact ⟨chain, facts.1.trans rfl, (facts.2.2.2.2.1 0 2 rfl).1.trans rfl, (facts.2.2.2.2.1 1 1 rfl).1.trans rfl,
    (facts.2.2.2.2.1 2 0 rfl).1.trans rfl, (facts.2.2.2.1 3).trans rfl⟩

end Lox
