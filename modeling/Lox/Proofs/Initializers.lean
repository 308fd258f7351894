import Lox.Proofs.Unwinding
import Lox.Proofs.Dispatch
/-!
Initializers. A call of a class checks the argument count against the class's arity, the parameter
count of the `init` the class finds, before anything else, and stops at once when they differ
(`Run.callValue_class_arity`). Otherwise it makes one new instance and, if the class finds an
`init`, binds it to the instance and runs its body once, from a frame that binds the parameters to
the arguments; whatever the body's flow, even an early `return;`, the call answers the instance,
and a fault in the body stops the call (`Run.callValue_class_init`).

An initializer is only ever a value once bound: every function flagged as one that a sound store
holds has a frame that binds `this` to an instance (`Closure.Callable.binds_this`). Since no run
rebinds `this` (`Lox.Proofs.KeywordFrames`), the initializer's final reading of `this` finds that
instance, so every call of a bound initializer, however it was obtained, answers its receiver
(`Run.callClosure_bound`).
-/
namespace Lox

/-- A function that is a sound value and an initializer has a frame binding `this` to an instance:
only binding a method to an instance makes an initializer a value. -/
theorem Closure.Callable.binds_this {s : Store} {f : Closure} (callable : f.Callable s) (isInit : f.isInit = true) :
    ∃ r c, s.findIn f.env "this" = .value (.obj r c) := by
  obtain ⟨ctx, -, -, -, -, -, -, covers, thisAt⟩ := callable
  obtain ⟨a, up, v, found, fits⟩ := covers.ancestor (thisAt isInit)
  cases up
  obtain ⟨r, c, rfl⟩ := fits.1 rfl
  exact ⟨r, c, found⟩

/-- Every initializer a sound store holds, in a frame or in a field, is bound to an instance. -/
theorem Store.Sound.initializers_bound {s : Store} (sound : s.Sound) {g : Closure} (isInit : g.isInit = true) :
    (∀ frame name, s.findIn frame name = .value (.fn g) → ∃ r c, s.findIn g.env "this" = .value (.obj r c)) ∧
    (∀ ref name, s.field? ref name = some (.fn g) → ∃ r c, s.findIn g.env "this" = .value (.obj r c)) :=
  ⟨fun _ _ found => Closure.Callable.binds_this (sound.findIn found) isInit,
    fun _ _ found => Closure.Callable.binds_this (sound.field found) isInit⟩

namespace Run

/-- Reading `this` at distance `0` finds what the frame binds. -/
theorem lookUp_this_here {env : Nat} {line : Nat} {m : Machine} {v : Value}
    (this : m.store.findIn env "this" = .value v) :
    (lookUp env ⟨.identifier, "this", line⟩ (.scoped 0)).run.run m = (.ok v, m) := by
  simp only [lookUp, run_bind, run_get, Store.getAt, Store.ancestor, this]
  rfl

/-- A call of a sound function whose frame binds `this` (a bound method) runs the body once from
the frame binding the parameters; if the body stops, so does the call, and otherwise an initializer
answers the receiver, with no fault from reading it, and any other function its body's value. -/
theorem callClosure_bound {n : Nat} {g : Closure} {args : List Value} {m : Machine} {recv : Value}
    (sound : m.store.Sound) (callable : g.Callable m.store) (argsSound : ∀ v ∈ args, v.Sound m.store)
    (arity : args.length = g.arity) (this : m.store.findIn g.env "this" = .value recv) :
    (callClosure (n + 1) g args).run.run m =
      match (execBlock n m.store.frames.size g.decl.body).run.run (callEntry g args m) with
      | (.ok flow, m') => (.ok (if g.isInit then recv else flow.value), m')
      | (.error e, m') => (.error e, m') := by
  have keeps := (fixing (n + 1)).callClosure sound callable argsSound arity
  unfold Keeping at keeps
  rw [callClosure_enters, run_bind] at keeps ⊢
  rcases body : (execBlock n m.store.frames.size g.decl.body).run.run (callEntry g args m) with ⟨_ | flow, m'⟩
  · rfl
  · rw [body] at keeps
    cases isInit : g.isInit
    · rfl
    · -- the body kept the binding of `this`, so reading it finds the receiver
      simp only [isInit, if_true, lookUp_machine] at keeps ⊢
      exact lookUp_this_here (keeps g.env "this" recv (fun ordinary => ordinary.1 rfl) this)

/-- A call of a function with the right number of arguments is the function's call. -/
theorem callValue_fn {n : Nat} {paren : Token} {g : Closure} {args : List Value} {m : Machine}
    (arity : args.length = g.arity) :
    (callValue (n + 1) paren (.fn g) args).run.run m = (callClosure n g args).run.run m := by
  rw [callValue, run_bind]
  dsimp only
  rw [if_neg (by simpa using arity)]
  rfl

/-- A call of a class with the wrong number of arguments stops at the closing parenthesis, before
any instance is made, and leaves the machine as it was. -/
theorem callValue_class_arity {n : Nat} {paren : Token} {c : ClassDef} {args : List Value} {m : Machine}
    (wrong : args.length ≠ c.arity) :
    (callValue (n + 1) paren (.cls c) args).run.run m =
      (.error (.fault ⟨paren, .arityMismatch c.arity args.length⟩), m) := by
  rw [callValue, run_bind]
  dsimp only
  rw [if_pos (by simpa using wrong)]
  rfl

/-- A call of a class that finds no `init`, with no arguments, makes one new instance and answers
it. -/
theorem callValue_class_plain {n : Nat} {paren : Token} {c : ClassDef} {args : List Value} {m : Machine}
    (arity : args.length = c.arity) (none : c.findMethod "init" = none) :
    (callValue (n + 1) paren (.cls c) args).run.run m =
      (.ok (.obj m.store.objects.size c), { m with store := m.store.newObject.1 }) := by
  rw [callValue, run_bind]
  dsimp only
  rw [if_neg (by simpa using arity)]
  simp only [run_pure, run_bind, run_newObject, none]

/-- A call of a sound class with the right number of arguments makes one new instance `r` and, if
the class finds an `init`, binds it to the instance in a new frame `T` and runs its body once, from
a frame under `T` that binds the parameters to the arguments in order. If the body stops, the call
stops with it; otherwise the call answers the instance, whatever the body's flow. -/
theorem callValue_class_init {n : Nat} {paren : Token} {c : ClassDef} {init : Closure} {args : List Value}
    {m : Machine} (sound : m.store.Sound) (cls : c.Sound m.store) (argsSound : ∀ v ∈ args, v.Sound m.store)
    (arity : args.length = c.arity) (found : c.findMethod "init" = some init) :
    let r := m.store.objects.size
    let T := m.store.frames.size
    let bound : Closure := { init with id := m.nextId, env := T }
    let m₂ : Machine := { m with store := (m.store.newObject.1.alloc init.env).1.define T "this" (some (.obj r c)),
                                 nextId := m.nextId + 1 }
    (callValue (n + 2) paren (.cls c) args).run.run m =
      match (execBlock n (T + 1) init.decl.body).run.run (callEntry bound args m₂) with
      | (.ok _, m') => (.ok (.obj r c), m')
      | (.error e, m') => (.error e, m') := by
  intro r T bound m₂
  let m₁ : Machine := { m with store := m.store.newObject.1 }
  have sound₁ : m₁.store.Sound := sound.newObject
  have grows₁ : m.store.Grows m₁.store := m.store.grows_newObject
  have cls₁ := ClassDef.Sound.grow grows₁ cls
  have bindSafe : Safe (bindMethod init r c) m₁ fun f m' => f.Callable m'.store ∧ f.decl = init.decl :=
    bindMethod_safe sound₁ (cls₁.findMethod found) cls₁
  obtain ⟨grows₂, sound₂, callable, -⟩ := bindSafe.ok (bindMethod_run init r c m₁)
  have arity₂ : args.length = bound.arity := by
    simp only [ClassDef.arity, found] at arity
    exact arity
  have this : m₂.store.findIn T "this" = .value (.obj r c) :=
    Store.findIn_define_self _ _ "this" _ (by simp [Store.alloc_frames_size, Store.newObject_frames, T])
  -- the body starts one frame above the frame that binds `this`
  have entry : m₂.store.frames.size = T + 1 := by simp [m₂, Store.alloc_frames_size, Store.newObject_frames, T]
  have called : (callClosure (n + 1) bound args).run.run m₂ =
      match (execBlock n (T + 1) init.decl.body).run.run (callEntry bound args m₂) with
      | (.ok flow, m') => (.ok (if bound.isInit then Value.obj r c else flow.value), m')
      | (.error e, m') => (.error e, m') := by
    rw [← entry]
    exact callClosure_bound sound₂ callable (fun v mem => (argsSound v mem).grow (grows₁.trans grows₂)) arity₂ this
  -- the class's call is the bound initializer's call, then the instance
  have step : (callValue (n + 2) paren (.cls c) args).run.run m =
      (callClosure (n + 1) bound args >>= fun _ => (pure (.obj r c) : Run Value)).run.run m₂ := by
    rw [callValue, run_bind]
    dsimp only
    rw [if_neg (by simpa using arity)]
    simp only [run_pure, run_bind, run_newObject, found]
    rfl
  rw [step, run_bind, called]
  rcases (execBlock n (T + 1) init.decl.body).run.run (callEntry bound args m₂) with ⟨_ | flow, m'⟩ <;> rfl

end Run

/-- The initializer contract. A call of a class with a number of arguments other than its arity,
the parameter count of the `init` it finds or `0`, stops with "Expected n arguments but got m."
before any instance is made. With the right number, it makes one new instance of the class; a
class with no `init` answers it at once, and otherwise the `init` is bound to the instance in a new
frame and its body runs once, from a frame binding its parameters to the arguments in order: a
fault in the body stops the call, and otherwise the call answers the instance whatever the body
did, an early `return;` included. Every initializer that is a value is bound: it has a frame binding
`this` to an instance, and every call of it, however the program obtained it, runs its body and
answers that instance, reading it without fault. -/
theorem initializer_contract :
    (∀ (n : Nat) (paren : Token) (c : ClassDef) (args : List Value) (m : Machine), args.length ≠ c.arity →
      (Run.callValue (n + 1) paren (.cls c) args).run.run m =
        (.error (.fault ⟨paren, .arityMismatch c.arity args.length⟩), m) ∧
      (RuntimeFault.arityMismatch c.arity args.length).message =
        "Expected " ++ Nat.repr c.arity ++ " arguments but got " ++ Nat.repr args.length ++ ".") ∧
    (∀ (n : Nat) (paren : Token) (c : ClassDef) (args : List Value) (m : Machine), args.length = c.arity →
      c.findMethod "init" = none →
      (Run.callValue (n + 1) paren (.cls c) args).run.run m =
        (.ok (.obj m.store.objects.size c), { m with store := m.store.newObject.1 })) ∧
    (∀ (n : Nat) (paren : Token) (c : ClassDef) (init : Closure) (args : List Value) (m : Machine),
      m.store.Sound → c.Sound m.store → (∀ v ∈ args, v.Sound m.store) → args.length = c.arity →
      c.findMethod "init" = some init →
      let r := m.store.objects.size
      let T := m.store.frames.size
      let bound : Closure := { init with id := m.nextId, env := T }
      let m₂ : Machine := { m with store := (m.store.newObject.1.alloc init.env).1.define T "this" (some (.obj r c)),
                                   nextId := m.nextId + 1 }
      (Run.callValue (n + 2) paren (.cls c) args).run.run m =
        match (Run.execBlock n (T + 1) init.decl.body).run.run (Run.callEntry bound args m₂) with
        | (.ok _, m') => (.ok (.obj r c), m')
        | (.error e, m') => (.error e, m')) ∧
    (∀ (n : Nat) (paren : Token) (g : Closure) (args : List Value) (m : Machine), m.store.Sound →
      g.Callable m.store → (∀ v ∈ args, v.Sound m.store) → args.length = g.arity → g.isInit = true →
      ∃ r c, m.store.findIn g.env "this" = .value (.obj r c) ∧
        (Run.callValue (n + 2) paren (.fn g) args).run.run m =
          match (Run.execBlock n m.store.frames.size g.decl.body).run.run (Run.callEntry g args m) with
          | (.ok _, m') => (.ok (.obj r c), m')
          | (.error e, m') => (.error e, m')) ∧
    (∀ s : Store, s.Sound → ∀ g : Closure, g.isInit = true →
      (∀ frame name, s.findIn frame name = .value (.fn g) → ∃ r c, s.findIn g.env "this" = .value (.obj r c)) ∧
      (∀ ref name, s.field? ref name = some (.fn g) → ∃ r c, s.findIn g.env "this" = .value (.obj r c))) := by
  refine ⟨fun n paren c args m wrong => ⟨Run.callValue_class_arity wrong, rfl⟩,
    fun n paren c args m arity none => Run.callValue_class_plain arity none,
    fun n paren c init args m sound cls argsSound arity found => Run.callValue_class_init sound cls argsSound arity found,
    ?_, fun s sound g isInit => sound.initializers_bound isInit⟩
  intro n paren g args m sound callable argsSound arity isInit
  obtain ⟨r, c, this⟩ := callable.binds_this isInit
  refine ⟨r, c, this, ?_⟩
  rw [Run.callValue_fn arity, Run.callClosure_bound sound callable argsSound arity this, isInit]
  rfl

/-- A class with no `init` called with one argument stops on the arity, before making an instance. -/
theorem initializer_contract_arity :
    let c := ClassDef.mk 0 "A" none []
    let paren : Token := ⟨.rightParen, ")", 1⟩
    [Value.nil].length ≠ c.arity ∧
      (Run.callValue 1 paren (.cls c) [.nil]).run.run Machine.new =
        (.error (.fault ⟨paren, .arityMismatch c.arity [Value.nil].length⟩), Machine.new) ∧
      (RuntimeFault.arityMismatch c.arity [Value.nil].length).message = "Expected 0 arguments but got 1." := by
  intro c paren
  have wrong : [Value.nil].length ≠ c.arity := by simp [c, ClassDef.arity, ClassDef.findMethod]
  obtain ⟨stops, message⟩ := initializer_contract.1 0 paren c [.nil] Machine.new wrong
  refine ⟨wrong, stops, ?_⟩
  rw [message]
  simp only [c, ClassDef.arity, ClassDef.findMethod, List.lookup_nil, List.length_singleton]
  decide

end Lox
