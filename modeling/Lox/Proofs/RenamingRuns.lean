import Lox.Proofs.RenamingState
/-!
A renamed program runs as the original. Every rule of the interpreter, run on mirrored machines on
a statement or expression and its renaming under the marks of the current frame, runs in step with
it, at every amount of fuel (`Run.mirroring`): one induction on fuel, one case per rule, each
assembled from the steps on the store that keep machines mirrored. The rules address a tree of the
parser's shape, so the trees the scope rules address keep that shape and their tokens.

So a unit that resolves, renamed as the scope rules bind its references, resolves too, and run in a
fresh session prints the same text and reports the same errors, read back
(`local_renaming_runs_alike`).
-/
namespace Lox

/-! ### Addressed trees keep their tokens and shape -/

mutual

theorem Expr.tokens_addressed (scopes : List (List String)) : ∀ e : Expr, (e.addressed scopes).tokens = e.tokens
  | .literal _ | .ident _ _ | .thisRef _ _ | .superGet _ _ _ => rfl
  | .grouping e | .unary _ e | .assign _ e _ | .get e _ => by
    simp only [Expr.addressed, Expr.tokens, Expr.tokens_addressed scopes e]
  | .binary l _ r | .logical l _ r | .set l _ r => by
    simp only [Expr.addressed, Expr.tokens, Expr.tokens_addressed scopes l, Expr.tokens_addressed scopes r]
  | .call f _ args => by
    simp only [Expr.addressed, Expr.tokens, Expr.tokens_addressed scopes f, Expr.tokensAll_addressedAll scopes args]

theorem Expr.tokensAll_addressedAll (scopes : List (List String)) :
    ∀ es : List Expr, Expr.tokensAll (Expr.addressedAll scopes es) = Expr.tokensAll es
  | [] => rfl
  | e :: es => by
    simp only [Expr.addressedAll, Expr.tokensAll, Expr.tokens_addressed scopes e, Expr.tokensAll_addressedAll scopes es]

end

theorem Expr.tokensOpt_addressed (scopes : List (List String)) :
    ∀ e : Option Expr, Expr.tokensOpt (e.map (·.addressed scopes)) = Expr.tokensOpt e
  | some e => Expr.tokens_addressed scopes e
  | none => rfl

mutual

theorem Stmt.tokens_addressed : ∀ (scopes : List (List String)) (s : Stmt), (s.addressed scopes).tokens = s.tokens
  | scopes, .expression e | scopes, .print e => by simp only [Stmt.addressed, Stmt.tokens, Expr.tokens_addressed]
  | scopes, .varDecl n i => by simp only [Stmt.addressed, Stmt.tokens, Expr.tokensOpt_addressed]
  | scopes, .returnStmt kw v => by simp only [Stmt.addressed, Stmt.tokens, Expr.tokensOpt_addressed]
  | scopes, .block b => by simp only [Stmt.addressed, Stmt.tokens, Stmt.tokensAll_addressedAll _ b]
  | scopes, .ifElse c t e => by
    simp only [Stmt.addressed, Stmt.tokens, Expr.tokens_addressed, Stmt.tokens_addressed _ t,
      Stmt.tokensOpt_addressedOpt _ e]
  | scopes, .whileLoop c b => by simp only [Stmt.addressed, Stmt.tokens, Expr.tokens_addressed, Stmt.tokens_addressed _ b]
  | scopes, .function d => by simp only [Stmt.addressed, Stmt.tokens, FunDecl.tokens_addressed _ d]
  | scopes, .classDecl n sup ms => by
    simp only [Stmt.addressed, Stmt.tokens, Expr.tokensOpt_addressed, FunDecl.tokensAll_addressedAll _ ms]

theorem Stmt.tokensOpt_addressedOpt : ∀ (scopes : List (List String)) (s : Option Stmt),
    Stmt.tokensOpt (Stmt.addressedOpt scopes s) = Stmt.tokensOpt s
  | scopes, some s => Stmt.tokens_addressed scopes s
  | _, none => rfl

theorem Stmt.tokensAll_addressedAll : ∀ (scopes : List (List String)) (ss : List Stmt),
    Stmt.tokensAll (Stmt.addressedAll scopes ss) = Stmt.tokensAll ss
  | _, [] => rfl
  | scopes, s :: ss => by
    simp only [Stmt.addressedAll, Stmt.tokensAll, Stmt.tokens_addressed scopes s, Stmt.tokensAll_addressedAll _ ss]

theorem FunDecl.tokens_addressed : ∀ (scopes : List (List String)) (d : FunDecl), (d.addressed scopes).tokens = d.tokens
  | scopes, .mk n ps b => by simp only [FunDecl.addressed, FunDecl.tokens, Stmt.tokensAll_addressedAll _ b]

theorem FunDecl.tokensAll_addressedAll : ∀ (scopes : List (List String)) (ds : List FunDecl),
    FunDecl.tokensAll (FunDecl.addressedAll scopes ds) = FunDecl.tokensAll ds
  | _, [] => rfl
  | scopes, d :: ds => by
    simp only [FunDecl.addressedAll, FunDecl.tokensAll, FunDecl.tokens_addressed scopes d,
      FunDecl.tokensAll_addressedAll scopes ds]

end

mutual

theorem Expr.Formed.addressed (scopes : List (List String)) : ∀ {e : Expr}, e.Formed → (e.addressed scopes).Formed
  | .literal _, _ | .ident _ _, _ => trivial
  | .thisRef _ _, formed | .superGet _ _ _, formed => formed
  | .grouping e, formed | .unary _ e, formed | .get e _, formed => Expr.Formed.addressed scopes (e := e) formed
  | .binary _ _ _, formed | .logical _ _ _, formed | .set _ _ _, formed =>
    ⟨Expr.Formed.addressed scopes formed.1, Expr.Formed.addressed scopes formed.2⟩
  | .assign _ _ _, formed => ⟨formed.1, Expr.Formed.addressed scopes formed.2⟩
  | .call _ _ args, formed => ⟨Expr.Formed.addressed scopes formed.1, Expr.FormedAll.addressedAll scopes args formed.2⟩

theorem Expr.FormedAll.addressedAll (scopes : List (List String)) :
    ∀ es : List Expr, Expr.FormedAll es → Expr.FormedAll (Expr.addressedAll scopes es)
  | [], _ => trivial
  | _ :: es, formed => ⟨Expr.Formed.addressed scopes formed.1, Expr.FormedAll.addressedAll scopes es formed.2⟩

end

theorem Expr.FormedOpt.addressed (scopes : List (List String)) :
    ∀ {e : Option Expr}, Expr.FormedOpt e → Expr.FormedOpt (e.map (·.addressed scopes))
  | some _, formed => Expr.Formed.addressed scopes formed
  | none, _ => trivial

mutual

theorem Stmt.Formed.addressed : ∀ (scopes : List (List String)) {s : Stmt}, s.Formed → (s.addressed scopes).Formed
  | scopes, .expression _, formed | scopes, .print _, formed => Expr.Formed.addressed scopes formed
  | _, .varDecl _ _, formed => ⟨formed.1, Expr.FormedOpt.addressed _ formed.2⟩
  | _, .returnStmt _ _, formed => Expr.FormedOpt.addressed _ formed
  | _, .block b, formed => Stmt.FormedAll.addressedAll _ b formed
  | scopes, .ifElse _ t e, ⟨formedC, formedT, quiet, formedE⟩ =>
    ⟨Expr.Formed.addressed scopes formedC, Stmt.Formed.addressed scopes formedT,
      (Stmt.declares_addressed scopes t).trans quiet, Stmt.FormedOpt.addressedOpt _ e formedE⟩
  | scopes, .whileLoop _ b, ⟨formedC, formedB, quiet⟩ =>
    ⟨Expr.Formed.addressed scopes formedC, Stmt.Formed.addressed scopes formedB, (Stmt.declares_addressed scopes b).trans quiet⟩
  | _, .function d, formed => FunDecl.Formed.addressed _ d formed
  | _, .classDecl _ sup ms, ⟨named, superName, formedMethods⟩ => by
    refine ⟨named, fun e mem => ?_, FunDecl.FormedAll.addressedAll _ ms formedMethods⟩
    cases sup with
    | none => cases mem
    | some e₀ =>
      obtain ⟨n, a, rfl⟩ := superName e₀ rfl
      cases mem
      exact ⟨n, _, rfl⟩

theorem Stmt.FormedOpt.addressedOpt : ∀ (scopes : List (List String)) (s : Option Stmt),
    Stmt.FormedOpt s → Stmt.FormedOpt (Stmt.addressedOpt scopes s)
  | scopes, some s, ⟨formed, quiet⟩ => ⟨Stmt.Formed.addressed scopes formed, (Stmt.declares_addressed scopes s).trans quiet⟩
  | _, none, _ => trivial

theorem Stmt.FormedAll.addressedAll : ∀ (scopes : List (List String)) (ss : List Stmt),
    Stmt.FormedAll ss → Stmt.FormedAll (Stmt.addressedAll scopes ss)
  | _, [], _ => trivial
  | scopes, _ :: ss, formed => ⟨Stmt.Formed.addressed scopes formed.1, Stmt.FormedAll.addressedAll _ ss formed.2⟩

theorem FunDecl.Formed.addressed : ∀ (scopes : List (List String)) (d : FunDecl), d.Formed → (d.addressed scopes).Formed
  | _, .mk _ _ b, ⟨named, params, body⟩ => ⟨named, params, Stmt.FormedAll.addressedAll _ b body⟩

theorem FunDecl.FormedAll.addressedAll : ∀ (scopes : List (List String)) (ds : List FunDecl),
    FunDecl.FormedAll ds → FunDecl.FormedAll (FunDecl.addressedAll scopes ds)
  | _, [], _ => trivial
  | scopes, d :: ds, formed => ⟨FunDecl.Formed.addressed scopes d formed.1, FunDecl.FormedAll.addressedAll scopes ds formed.2⟩

end

/-- Only an expression statement renames to one. -/
theorem Stmt.Renames.not_expression {x y : String} {marks : Marks} {s s' : Stmt} (renames : Stmt.Renames x y marks s s')
    (other : ∀ e, s ≠ .expression e) : ∀ e, s' ≠ .expression e := by
  rintro e rfl
  cases s with
  | expression e => exact other e rfl
  | _ => simp [Stmt.Renames] at renames

namespace Run

/-! ### Every rule in step -/

section Rules

variable (x y : String)

/-- Every rule, with `fuel`, runs in step on mirrored machines: an expression or statement of the
original, which spells no `y`, beside its renaming under the marks of the current frame, and a call
of mirrored values. -/
structure Mirroring (fuel : Nat) : Prop where
  eval : ∀ {μ m m'} {env : Nat} (e : Expr), Machine.Mirrors x y μ m m' → env < m.store.frames.size →
    (∀ t ∈ e.tokens, t.lexeme ≠ y) → e.Formed →
    Mirrored x y μ (Value.Mirrors x y) (eval fuel env e) (eval fuel env (e.rename x y (μ env))) m m'
  evalArgs : ∀ {μ m m'} {env : Nat} (args : List Expr), Machine.Mirrors x y μ m m' → env < m.store.frames.size →
    (∀ t ∈ Expr.tokensAll args, t.lexeme ≠ y) → Expr.FormedAll args →
    Mirrored x y μ (fun μ' N => List.Forall₂ (Value.Mirrors x y μ' N)) (evalArgs fuel env args)
      (evalArgs fuel env (Expr.renameAll x y (μ env) args)) m m'
  callValue : ∀ {μ m m'} {paren : Token} {callee callee' : Value} {args args' : List Value},
    Machine.Mirrors x y μ m m' → paren.lexeme ≠ y → Value.Mirrors x y μ m.store.frames.size callee callee' →
    List.Forall₂ (Value.Mirrors x y μ m.store.frames.size) args args' →
    Mirrored x y μ (Value.Mirrors x y) (callValue fuel paren callee args) (callValue fuel paren callee' args') m m'
  callClosure : ∀ {μ m m'} {f f' : Closure} {args args' : List Value}, Machine.Mirrors x y μ m m' →
    Closure.Mirrors x y id μ m.store.frames.size f f' → List.Forall₂ (Value.Mirrors x y μ m.store.frames.size) args args' →
    Mirrored x y μ (Value.Mirrors x y) (callClosure fuel f args) (callClosure fuel f' args') m m'
  exec : ∀ {μ m m'} {env : Nat} (s : Stmt) {s' : Stmt}, Machine.Mirrors x y μ m m' → env < m.store.frames.size →
    (∀ t ∈ s.tokens, t.lexeme ≠ y) → s.Formed → Stmt.Renames x y (μ env) s s' →
    Mirrored x y μ (Flow.Mirrors x y) (exec fuel env s) (exec fuel env s') m m'
  execBlock : ∀ {μ m m'} {env : Nat} (ss : List Stmt) {ss' : List Stmt}, Machine.Mirrors x y μ m m' →
    env < m.store.frames.size → (∀ t ∈ Stmt.tokensAll ss, t.lexeme ≠ y) → Stmt.FormedAll ss →
    Stmt.RenamesAll x y (μ env) ss ss' → Mirrored x y μ (Flow.Mirrors x y) (execBlock fuel env ss) (execBlock fuel env ss') m m'
  loop : ∀ {μ m m'} {env : Nat} (c : Expr) (body : Stmt) {body' : Stmt}, Machine.Mirrors x y μ m m' →
    env < m.store.frames.size → (∀ t ∈ c.tokens ++ body.tokens, t.lexeme ≠ y) → c.Formed → body.Formed →
    Stmt.Renames x y (μ env) body body' →
    Mirrored x y μ (Flow.Mirrors x y) (loop fuel env c body) (loop fuel env (c.rename x y (μ env)) body') m m'

/-- With no fuel every rule stops at once, in both runs alike. -/
theorem mirroring_zero : Mirroring x y 0 where
  eval _ mirror _ _ _ := by rw [eval, eval]; exact Mirrored.stop mirror rfl
  evalArgs _ mirror _ _ _ := by rw [evalArgs, evalArgs]; exact Mirrored.stop mirror rfl
  callValue mirror _ _ _ := by rw [callValue, callValue]; exact Mirrored.stop mirror rfl
  callClosure mirror _ _ := by rw [callClosure, callClosure]; exact Mirrored.stop mirror rfl
  exec _ _ mirror _ _ _ _ := by rw [exec, exec]; exact Mirrored.stop mirror rfl
  execBlock _ _ mirror _ _ _ _ := by rw [execBlock, execBlock]; exact Mirrored.stop mirror rfl
  loop _ _ _ mirror _ _ _ _ _ := by rw [loop, loop]; exact Mirrored.stop mirror rfl

end Rules

section Cases

variable {x y : String} {n : Nat} {μ : Nat → Marks} {m m' : Machine} {env : Nat}

/-! ### Expressions -/

theorem eval_unary_mirrors (ih : Mirroring x y n) {op : Token} {r : Expr} (mirror : Machine.Mirrors x y μ m m')
    (framed : env < m.store.frames.size) (fresh : ∀ t ∈ (Expr.unary op r).tokens, t.lexeme ≠ y)
    (formed : (Expr.unary op r).Formed) :
    Mirrored x y μ (Value.Mirrors x y) (eval (n + 1) env (.unary op r))
      (eval (n + 1) env ((Expr.unary op r).rename x y (μ env))) m m' := by
  simp only [Expr.tokens, List.mem_cons, forall_eq_or_imp] at fresh
  simp only [Expr.rename]
  rw [eval, eval]
  refine Mirrored.bind (ih.eval r mirror framed fresh.2 formed) ?_
  rintro μ₁ v v' m₁ m₁' - - - mirror₁ related
  split
  · -- negation: a number in both runs, or the same fault
    cases v
    case number a =>
      obtain rfl : v' = .number a := related
      exact Mirrored.pure mirror₁ rfl
    all_goals
      first | subst related | obtain ⟨_, rfl, -⟩ := related
      exact Mirrored.stop mirror₁ (restore_fault fresh.1 rfl)
  · rw [related.truthy]
    exact Mirrored.pure mirror₁ rfl
  · exact Mirrored.stop mirror₁ (restore_fault fresh.1 rfl)

theorem eval_binary_mirrors (ih : Mirroring x y n) {l r : Expr} {op : Token} (mirror : Machine.Mirrors x y μ m m')
    (framed : env < m.store.frames.size) (fresh : ∀ t ∈ (Expr.binary l op r).tokens, t.lexeme ≠ y)
    (formed : (Expr.binary l op r).Formed) :
    Mirrored x y μ (Value.Mirrors x y) (eval (n + 1) env (.binary l op r))
      (eval (n + 1) env ((Expr.binary l op r).rename x y (μ env))) m m' := by
  simp only [Expr.tokens, List.mem_append, List.mem_cons, or_imp, forall_and, forall_eq] at fresh
  obtain ⟨freshL, freshOp, freshR⟩ := fresh
  simp only [Expr.rename]
  rw [eval, eval]
  refine Mirrored.bind (ih.eval l mirror framed freshL formed.1) ?_
  rintro μ₁ a a' m₁ m₁' grow₁ - - mirror₁ left
  obtain ⟨same₁, framed₁⟩ := grow₁.keeps framed
  rw [← same₁]
  refine Mirrored.bind (ih.eval r mirror₁ framed₁ freshR formed.2) ?_
  rintro μ₂ b b' m₂ m₂' grow₂ - - mirror₂ right
  rw [(left.mono grow₂).binaryOp right]
  cases computed : binaryOp op a b with
  | ok v => exact Mirrored.pure mirror₂ (Run.binaryOp_mirrors computed)
  | error e => exact Mirrored.stop mirror₂ (binaryOp_restore freshOp computed)

theorem eval_logical_mirrors (ih : Mirroring x y n) {l r : Expr} {op : Token} (mirror : Machine.Mirrors x y μ m m')
    (framed : env < m.store.frames.size) (fresh : ∀ t ∈ (Expr.logical l op r).tokens, t.lexeme ≠ y)
    (formed : (Expr.logical l op r).Formed) :
    Mirrored x y μ (Value.Mirrors x y) (eval (n + 1) env (.logical l op r))
      (eval (n + 1) env ((Expr.logical l op r).rename x y (μ env))) m m' := by
  simp only [Expr.tokens, List.mem_append, List.mem_cons, or_imp, forall_and, forall_eq] at fresh
  obtain ⟨freshL, -, freshR⟩ := fresh
  simp only [Expr.rename]
  rw [eval, eval]
  refine Mirrored.bind (ih.eval l mirror framed freshL formed.1) ?_
  rintro μ₁ a a' m₁ m₁' grow₁ - - mirror₁ left
  obtain ⟨same₁, framed₁⟩ := grow₁.keeps framed
  rw [← same₁, left.truthy]
  exact Mirrored.ite (fun _ => Mirrored.pure mirror₁ left) fun _ => ih.eval r mirror₁ framed₁ freshR formed.2

theorem eval_assign_mirrors (ih : Mirroring x y n) {name : Token} {v : Expr} {a : Address}
    (mirror : Machine.Mirrors x y μ m m') (framed : env < m.store.frames.size)
    (fresh : ∀ t ∈ (Expr.assign name v a).tokens, t.lexeme ≠ y) (formed : (Expr.assign name v a).Formed) :
    Mirrored x y μ (Value.Mirrors x y) (eval (n + 1) env (.assign name v a))
      (eval (n + 1) env ((Expr.assign name v a).rename x y (μ env))) m m' := by
  simp only [Expr.tokens, List.mem_cons, forall_eq_or_imp] at fresh
  simp only [Expr.rename]
  rw [eval, eval]
  refine Mirrored.bind (ih.eval v mirror framed fresh.2 formed.2) ?_
  rintro μ₁ w w' m₁ m₁' grow₁ - - mirror₁ related
  obtain ⟨same₁, -⟩ := grow₁.keeps framed
  rw [← same₁]
  refine Mirrored.bind (assignTo_mirrors mirror₁ env fresh.1 a related) ?_
  rintro μ₂ - - m₂ m₂' grow₂ - - mirror₂ -
  exact Mirrored.pure mirror₂ (related.mono grow₂)

theorem eval_call_mirrors (ih : Mirroring x y n) {f : Expr} {paren : Token} {args : List Expr}
    (mirror : Machine.Mirrors x y μ m m') (framed : env < m.store.frames.size)
    (fresh : ∀ t ∈ (Expr.call f paren args).tokens, t.lexeme ≠ y) (formed : (Expr.call f paren args).Formed) :
    Mirrored x y μ (Value.Mirrors x y) (eval (n + 1) env (.call f paren args))
      (eval (n + 1) env ((Expr.call f paren args).rename x y (μ env))) m m' := by
  simp only [Expr.tokens, List.mem_append, List.mem_cons, or_imp, forall_and, forall_eq] at fresh
  obtain ⟨freshF, freshParen, freshArgs⟩ := fresh
  simp only [Expr.rename]
  rw [eval, eval]
  refine Mirrored.bind (ih.eval f mirror framed freshF formed.1) ?_
  rintro μ₁ callee callee' m₁ m₁' grow₁ - - mirror₁ called
  obtain ⟨same₁, framed₁⟩ := grow₁.keeps framed
  rw [← same₁]
  refine Mirrored.bind (ih.evalArgs args mirror₁ framed₁ freshArgs formed.2) ?_
  rintro μ₂ vs vs' m₂ m₂' grow₂ - - mirror₂ passed
  exact ih.callValue mirror₂ freshParen (called.mono grow₂) passed

theorem eval_get_mirrors (ih : Mirroring x y n) {o : Expr} {name : Token} (mirror : Machine.Mirrors x y μ m m')
    (framed : env < m.store.frames.size) (fresh : ∀ t ∈ (Expr.get o name).tokens, t.lexeme ≠ y)
    (formed : (Expr.get o name).Formed) :
    Mirrored x y μ (Value.Mirrors x y) (eval (n + 1) env (.get o name))
      (eval (n + 1) env ((Expr.get o name).rename x y (μ env))) m m' := by
  simp only [Expr.tokens, List.mem_append, List.mem_singleton, or_imp, forall_and, forall_eq] at fresh
  simp only [Expr.rename]
  rw [eval, eval]
  refine Mirrored.bind (ih.eval o mirror framed fresh.1 formed) ?_
  rintro μ₁ v v' m₁ m₁' - - - mirror₁ related
  cases v
  case obj r c =>
    obtain ⟨c', rfl, cls⟩ := related
    exact getProperty_mirrors mirror₁ fresh.2 r cls
  all_goals
    first | subst related | obtain ⟨_, rfl, -⟩ := related
    exact Mirrored.stop mirror₁ (restore_fault fresh.2 rfl)

theorem eval_set_mirrors (ih : Mirroring x y n) {o v : Expr} {name : Token} (mirror : Machine.Mirrors x y μ m m')
    (framed : env < m.store.frames.size) (fresh : ∀ t ∈ (Expr.set o name v).tokens, t.lexeme ≠ y)
    (formed : (Expr.set o name v).Formed) :
    Mirrored x y μ (Value.Mirrors x y) (eval (n + 1) env (.set o name v))
      (eval (n + 1) env ((Expr.set o name v).rename x y (μ env))) m m' := by
  simp only [Expr.tokens, List.mem_append, List.mem_cons, or_imp, forall_and, forall_eq] at fresh
  obtain ⟨freshO, freshName, freshV⟩ := fresh
  simp only [Expr.rename]
  rw [eval, eval]
  refine Mirrored.bind (ih.eval o mirror framed freshO formed.1) ?_
  rintro μ₁ w w' m₁ m₁' grow₁ - - mirror₁ related
  obtain ⟨same₁, framed₁⟩ := grow₁.keeps framed
  cases w
  case obj r c =>
    obtain ⟨c', rfl, -⟩ := related
    rw [← same₁]
    refine Mirrored.bind (ih.eval v mirror₁ framed₁ freshV formed.2) ?_
    rintro μ₂ u u' m₂ m₂' - - - mirror₂ value
    refine Mirrored.bind (setField_mirrors mirror₂ r name.lexeme value) ?_
    rintro μ₃ - - m₃ m₃' grow₃ - - mirror₃ -
    exact Mirrored.pure mirror₃ (value.mono grow₃)
  all_goals
    first | subst related | obtain ⟨_, rfl, -⟩ := related
    exact Mirrored.stop mirror₁ (restore_fault freshName rfl)

/-- `super` is spelled so in both runs and renamed nowhere: both read the superclass and `this`
alike, and bind the same method of mirrored classes. -/
theorem eval_super_mirrors (ordinary : Scope.Ordinary x) (ordinaryY : Scope.Ordinary y) {kw method : Token}
    {a : Address} (mirror : Machine.Mirrors x y μ m m') (fresh : ∀ t ∈ (Expr.superGet kw method a).tokens, t.lexeme ≠ y)
    (formed : (Expr.superGet kw method a).Formed) :
    Mirrored x y μ (Value.Mirrors x y) (eval (n + 1) env (.superGet kw method a))
      (eval (n + 1) env ((Expr.superGet kw method a).rename x y (μ env))) m m' := by
  simp only [Expr.tokens, List.mem_cons, List.not_mem_nil, or_false, forall_eq_or_imp, forall_eq] at fresh
  obtain ⟨freshKw, freshMethod⟩ := fresh
  have named : kw.lexeme = "super" := formed
  simp only [Expr.rename]
  rcases a with _ | d
  · rw [eval]
    exact Mirrored.stop mirror (restore_fault freshKw rfl)
  rw [eval]
  have superRead := lookUp_mirrors mirror env freshKw (.scoped d)
  rw [Token.renameAt_of_ne (by rw [named]; exact ordinary.2.symm)] at superRead
  refine Mirrored.bind superRead ?_
  rintro μ₁ v v' m₁ m₁' - - - mirror₁ related
  cases v
  case cls sc =>
    obtain ⟨sc', rfl, superclass⟩ := related
    rcases d with _ | d
    · exact Mirrored.stop mirror₁ (restore_fault freshKw rfl)
    have thisRead := lookUp_mirrors mirror₁ env
      (show (⟨.identifier, "this", kw.line⟩ : Token).lexeme ≠ y from Ne.symm ordinaryY.1) (.scoped d)
    rw [Token.renameAt_of_ne (Ne.symm ordinary.1)] at thisRead
    refine Mirrored.bind thisRead ?_
    rintro μ₂ w w' m₂ m₂' grow₂ - - mirror₂ receiver
    cases w
    case obj ref c =>
      obtain ⟨c', rfl, cls⟩ := receiver
      have found := (superclass.mono grow₂).findMethod method.lexeme
      generalize sc.findMethod method.lexeme = g at found
      generalize sc'.findMethod method.lexeme = g' at found
      cases found with
      | some bound =>
        refine Mirrored.bind (bindMethod_mirrors mirror₂ bound ref cls) ?_
        rintro μ₃ f f' m₃ m₃' - - - mirror₃ closure
        exact Mirrored.pure mirror₃ ⟨f', rfl, closure⟩
      | none => exact Mirrored.stop mirror₂ (restore_fault freshMethod rfl)
    all_goals
      first | subst receiver | obtain ⟨_, rfl, -⟩ := receiver
      exact Mirrored.stop mirror₂ (restore_fault freshKw rfl)
  all_goals
    first | subst related | obtain ⟨_, rfl, -⟩ := related
    exact Mirrored.stop mirror₁ (restore_fault freshKw rfl)

/-! ### Calls -/

theorem evalArgs_mirrors (ih : Mirroring x y n) : ∀ (args : List Expr), Machine.Mirrors x y μ m m' →
    env < m.store.frames.size → (∀ t ∈ Expr.tokensAll args, t.lexeme ≠ y) → Expr.FormedAll args →
    Mirrored x y μ (fun μ' N => List.Forall₂ (Value.Mirrors x y μ' N)) (evalArgs (n + 1) env args)
      (evalArgs (n + 1) env (Expr.renameAll x y (μ env) args)) m m'
  | [], mirror, _, _, _ => by
    simp only [Expr.renameAll]
    rw [evalArgs]
    exact Mirrored.pure mirror .nil
  | a :: rest, mirror, framed, fresh, formed => by
    simp only [Expr.tokensAll, List.mem_append, or_imp, forall_and] at fresh
    simp only [Expr.renameAll]
    rw [evalArgs, evalArgs]
    refine Mirrored.bind (ih.eval a mirror framed fresh.1 formed.1) ?_
    rintro μ₁ v v' m₁ m₁' grow₁ - - mirror₁ first
    obtain ⟨same₁, framed₁⟩ := grow₁.keeps framed
    rw [← same₁]
    refine Mirrored.bind (ih.evalArgs rest mirror₁ framed₁ fresh.2 formed.2) ?_
    rintro μ₂ vs vs' m₂ m₂' grow₂ - - mirror₂ others
    exact Mirrored.pure mirror₂ (.cons (first.mono grow₂) others)

variable {paren : Token} {args args' : List Value}

/-- The argument count is checked alike in both runs, mirrored arguments being as many. -/
theorem Mirrored.checked {β : Type} {P : (Nat → Marks) → Nat → β → β → Prop} {r r' : Run β} {arity : Nat}
    (mirror : Machine.Mirrors x y μ m m') (fresh : paren.lexeme ≠ y) (length : args'.length = args.length)
    (rest : args.length = arity → Mirrored x y μ P r r' m m') :
    Mirrored x y μ P
      ((if (args.length != arity) = true then fail paren (.arityMismatch arity args.length) else Pure.pure ()) >>=
        fun _ => r)
      ((if (args'.length != arity) = true then fail paren (.arityMismatch arity args'.length) else Pure.pure ()) >>=
        fun _ => r') m m' := by
  rw [length]
  by_cases same : args.length = arity
  · rw [if_neg (by simp [same]), pure_bind, pure_bind]
    exact rest same
  · rw [if_pos (by simp [same])]
    exact Mirrored.bind (Mirrored.stop (P := fun _ _ _ _ => True) mirror (restore_fault fresh rfl))
      fun _ _ _ _ _ _ ran => by cases ran

/-- Calling mirrored values with mirrored arguments: the same check, then mirrored calls, a
native read of the same clock, or a new instance of mirrored classes. -/
theorem callValue_mirrors (ih : Mirroring x y n) (mirror : Machine.Mirrors x y μ m m') (fresh : paren.lexeme ≠ y)
    {callee callee' : Value} (called : Value.Mirrors x y μ m.store.frames.size callee callee')
    (passed : List.Forall₂ (Value.Mirrors x y μ m.store.frames.size) args args') :
    Mirrored x y μ (Value.Mirrors x y) (callValue (n + 1) paren callee args) (callValue (n + 1) paren callee' args')
      m m' := by
  have length := passed.length_eq.symm
  cases callee
  case fn f =>
    obtain ⟨f', rfl, closure⟩ := called
    rw [callValue, callValue, closure.arity]
    exact Mirrored.checked mirror fresh length fun _ => ih.callClosure mirror closure passed
  case native f =>
    subst called
    rw [callValue, callValue]
    refine Mirrored.checked mirror fresh length fun _ => ?_
    cases f
    refine Mirrored.unchanged mirror rfl rfl ⟨_, rfl, ?_⟩
    show Value.number m'.clock = Value.number m.clock
    rw [mirror.clock]
  case cls c =>
    obtain ⟨c', rfl, cls⟩ := called
    rw [callValue, callValue, cls.arity]
    refine Mirrored.checked mirror fresh length fun _ => ?_
    refine Mirrored.bind (newObject_mirrors mirror) ?_
    rintro μ₁ ref ref' m₁ m₁' grow₁ - - mirror₁ same
    subst ref'
    have found := (cls.mono grow₁).findMethod "init"
    generalize c.findMethod "init" = g at found
    generalize c'.findMethod "init" = g' at found
    cases found with
    | some init =>
      dsimp only
      refine Mirrored.bind (bindMethod_mirrors mirror₁ init ref (cls.mono grow₁)) ?_
      rintro μ₂ f f' m₂ m₂' grow₂ - - mirror₂ bound
      refine Mirrored.bind (ih.callClosure mirror₂ bound (passed.imp fun _ _ v => (v.mono grow₁).mono grow₂)) ?_
      rintro μ₃ - - m₃ m₃' grow₃ - - mirror₃ -
      exact Mirrored.pure mirror₃ ⟨c', rfl, ((cls.mono grow₁).mono grow₂).mono grow₃⟩
    | none => exact Mirrored.pure mirror₁ ⟨c', rfl, cls.mono grow₁⟩
  all_goals
    first | subst called | obtain ⟨_, rfl, -⟩ := called
    rw [callValue, callValue]
    · exact Mirrored.stop mirror (restore_fault fresh rfl)
    -- the catch-all rule holds of every callee that is not callable
    all_goals
      intro _ differs
      cases differs

/-- A call of mirrored closures: the bodies run in step from frames that bind the parameters,
marked as the function's scope, and answer mirrored values; an initializer reads `this`, which
no renaming touches, from its own frame. -/
theorem callClosure_mirrors (ordinary : Scope.Ordinary x) (ordinaryY : Scope.Ordinary y) (ih : Mirroring x y n)
    (mirror : Machine.Mirrors x y μ m m') {f f' : Closure} (closure : Closure.Mirrors x y id μ m.store.frames.size f f')
    (passed : List.Forall₂ (Value.Mirrors x y μ m.store.frames.size) args args') :
    Mirrored x y μ (Value.Mirrors x y) (callClosure (n + 1) f args) (callClosure (n + 1) f' args') m m' := by
  obtain ⟨i, ⟨name, params, body⟩, env, isInit⟩ := f
  have renames := closure.body
  unfold FunDecl.Renames at renames
  obtain ⟨mark, body', decl', renamesBody⟩ := renames
  have params' : f'.decl.params = params.map (Token.rename x y mark) := by rw [decl']; rfl
  have entry := callEntry_mirrors mirror closure params' passed
  have fresh := closure.fresh
  simp only [FunDecl.tokens, List.mem_cons, List.mem_append, or_imp, forall_and, forall_eq] at fresh
  have grow : MarksGrow μ m.store.frames.size (Function.update μ m.store.frames.size (Marks.push mark (μ env)))
      (callEntry ⟨i, .mk name params body, env, isInit⟩ args m).store.frames.size := by
    rw [callEntry_size]
    exact marksGrow_update _ _ _
  refine Mirrored.of_entry (callClosure_enters n _ args m) (callClosure_enters n f' args' m') grow ?_
  have framed : m.store.frames.size < (callEntry ⟨i, .mk name params body, env, isInit⟩ args m).store.frames.size := by
    rw [callEntry_size]
    exact Nat.lt_succ_self _
  have marked : Function.update μ m.store.frames.size (Marks.push mark (μ env)) m.store.frames.size =
      Marks.push mark (μ env) := Function.update_self _ _ _
  have formed := closure.formed
  simp only [mirror.store.size, decl', closure.isInit, closure.env, FunDecl.body, FunDecl.name]
  refine Mirrored.bind (ih.execBlock body entry framed fresh.2 formed.2.2 (by rw [marked]; exact renamesBody)) ?_
  rintro μ₂ flow flow' m₂ m₂' - - - mirror₂ flows
  cases isInit
  · exact Mirrored.pure mirror₂ flows.value
  · have thisRead := lookUp_mirrors mirror₂ env
      (show (⟨.identifier, "this", name.line⟩ : Token).lexeme ≠ y from Ne.symm ordinaryY.1) (.scoped 0)
    rwa [Token.renameAt_of_ne (Ne.symm ordinary.1)] at thisRead

/-! ### Statements -/

theorem exec_expression_mirrors (ih : Mirroring x y n) {e : Expr} {s' : Stmt} (mirror : Machine.Mirrors x y μ m m')
    (framed : env < m.store.frames.size) (fresh : ∀ t ∈ (Stmt.expression e).tokens, t.lexeme ≠ y)
    (formed : (Stmt.expression e).Formed) (renames : Stmt.Renames x y (μ env) (.expression e) s') :
    Mirrored x y μ (Flow.Mirrors x y) (exec (n + 1) env (.expression e)) (exec (n + 1) env s') m m' := by
  unfold Stmt.Renames at renames
  subst renames
  rw [exec, exec]
  refine Mirrored.bind (ih.eval e mirror framed fresh formed) ?_
  rintro μ₁ - - m₁ m₁' - - - mirror₁ -
  exact Mirrored.pure mirror₁ rfl

theorem exec_print_mirrors (ih : Mirroring x y n) {e : Expr} {s' : Stmt} (mirror : Machine.Mirrors x y μ m m')
    (framed : env < m.store.frames.size) (fresh : ∀ t ∈ (Stmt.print e).tokens, t.lexeme ≠ y)
    (formed : (Stmt.print e).Formed) (renames : Stmt.Renames x y (μ env) (.print e) s') :
    Mirrored x y μ (Flow.Mirrors x y) (exec (n + 1) env (.print e)) (exec (n + 1) env s') m m' := by
  unfold Stmt.Renames at renames
  subst renames
  rw [exec, exec]
  refine Mirrored.bind (ih.eval e mirror framed fresh formed) ?_
  rintro μ₁ v v' m₁ m₁' - - - mirror₁ related
  rw [related.display]
  refine Mirrored.bind (write_mirrors mirror₁ v.display) ?_
  rintro μ₂ - - m₂ m₂' - - - mirror₂ -
  exact Mirrored.pure mirror₂ rfl

theorem exec_varDecl_mirrors (ih : Mirroring x y n) {name : Token} {init : Option Expr} {s' : Stmt}
    (mirror : Machine.Mirrors x y μ m m') (framed : env < m.store.frames.size)
    (fresh : ∀ t ∈ (Stmt.varDecl name init).tokens, t.lexeme ≠ y) (formed : (Stmt.varDecl name init).Formed)
    (renames : Stmt.Renames x y (μ env) (.varDecl name init) s') :
    Mirrored x y μ (Flow.Mirrors x y) (exec (n + 1) env (.varDecl name init)) (exec (n + 1) env s') m m' := by
  unfold Stmt.Renames at renames
  subst renames
  simp only [Stmt.tokens, List.mem_cons, forall_eq_or_imp] at fresh
  -- the value, then the binding, made alike in the current frame
  have declare : ∀ μ₁ m₁ m₁' v v', MarksGrow μ m.store.frames.size μ₁ m₁.store.frames.size →
      Machine.Mirrors x y μ₁ m₁ m₁' → Value.Mirrors x y μ₁ m₁.store.frames.size v v' →
      Mirrored x y μ₁ (Flow.Mirrors x y) (define env name.lexeme (some v) >>= fun _ => pure .normal)
        (define env (name.rename x y (μ env 0)).lexeme (some v') >>= fun _ => pure .normal) m₁ m₁' := by
    intro μ₁ m₁ m₁' v v' grow₁ mirror₁ related
    rw [← (grow₁.keeps framed).1]
    refine Mirrored.bind (define_mirrors mirror₁ env (fun _ => fresh.1) (.some related)) ?_
    rintro μ₂ - - m₂ m₂' - - - mirror₂ -
    exact Mirrored.pure mirror₂ rfl
  cases init with
  | none =>
    rw [Option.map_none, exec, exec]
    exact declare μ m m' .nil .nil (MarksGrow.refl _ _) mirror rfl
  | some e =>
    rw [Option.map_some, exec, exec]
    refine Mirrored.bind (ih.eval e mirror framed fresh.2 formed.2) ?_
    rintro μ₁ v v' m₁ m₁' grow₁ - - mirror₁ related
    exact declare μ₁ m₁ m₁' v v' grow₁ mirror₁ related

theorem exec_block_mirrors (ih : Mirroring x y n) {body : List Stmt} {s' : Stmt} (mirror : Machine.Mirrors x y μ m m')
    (framed : env < m.store.frames.size) (fresh : ∀ t ∈ (Stmt.block body).tokens, t.lexeme ≠ y)
    (formed : (Stmt.block body).Formed) (renames : Stmt.Renames x y (μ env) (.block body) s') :
    Mirrored x y μ (Flow.Mirrors x y) (exec (n + 1) env (.block body)) (exec (n + 1) env s') m m' := by
  unfold Stmt.Renames at renames
  obtain ⟨mark, body', rfl, inner⟩ := renames
  rw [exec, exec]
  refine Mirrored.bind (alloc_mirrors mirror framed mark) ?_
  rintro μ₁ F F' m₁ m₁' - - - mirror₁ ⟨same, framed₁, marked⟩
  subst F'
  exact ih.execBlock body mirror₁ framed₁ fresh formed (by rw [marked]; exact inner)

theorem exec_ifElse_mirrors (ih : Mirroring x y n) {c : Expr} {t : Stmt} {e : Option Stmt} {s' : Stmt}
    (mirror : Machine.Mirrors x y μ m m') (framed : env < m.store.frames.size)
    (fresh : ∀ t' ∈ (Stmt.ifElse c t e).tokens, t'.lexeme ≠ y) (formed : (Stmt.ifElse c t e).Formed)
    (renames : Stmt.Renames x y (μ env) (.ifElse c t e) s') :
    Mirrored x y μ (Flow.Mirrors x y) (exec (n + 1) env (.ifElse c t e)) (exec (n + 1) env s') m m' := by
  unfold Stmt.Renames at renames
  obtain ⟨t', e', rfl, thenRenames, elseRenames⟩ := renames
  simp only [Stmt.tokens, List.mem_append, or_imp, forall_and] at fresh
  obtain ⟨⟨freshC, freshT⟩, freshE⟩ := fresh
  obtain ⟨formedC, formedT, -, formedE⟩ := formed
  -- the branch taken is the same in both runs, the condition's values being equally truthy
  have branch : ∀ μ₁ m₁ m₁' v v', MarksGrow μ m.store.frames.size μ₁ m₁.store.frames.size →
      Machine.Mirrors x y μ₁ m₁ m₁' → Value.Mirrors x y μ₁ m₁.store.frames.size v v' → ∀ (r r' : Run Flow),
      Mirrored x y μ₁ (Flow.Mirrors x y) r r' m₁ m₁' →
      Mirrored x y μ₁ (Flow.Mirrors x y) (if v.truthy = true then exec n env t else r)
        (if v'.truthy = true then exec n env t' else r') m₁ m₁' := by
    intro μ₁ m₁ m₁' v v' grow₁ mirror₁ related r r' otherwise
    obtain ⟨same₁, framed₁⟩ := grow₁.keeps framed
    rw [related.truthy]
    exact Mirrored.ite (fun _ => ih.exec t mirror₁ framed₁ freshT formedT (by rw [same₁]; exact thenRenames))
      fun _ => otherwise
  cases e with
  | none =>
    unfold Stmt.RenamesOpt at elseRenames
    subst elseRenames
    rw [exec, exec]
    refine Mirrored.bind (ih.eval c mirror framed freshC formedC) ?_
    rintro μ₁ v v' m₁ m₁' grow₁ - - mirror₁ related
    exact branch μ₁ m₁ m₁' v v' grow₁ mirror₁ related _ _ (Mirrored.pure mirror₁ rfl)
  | some s =>
    unfold Stmt.RenamesOpt at elseRenames
    obtain ⟨u, rfl, elseRenames⟩ := elseRenames
    rw [exec, exec]
    refine Mirrored.bind (ih.eval c mirror framed freshC formedC) ?_
    rintro μ₁ v v' m₁ m₁' grow₁ - - mirror₁ related
    obtain ⟨same₁, framed₁⟩ := grow₁.keeps framed
    exact branch μ₁ m₁ m₁' v v' grow₁ mirror₁ related _ _
      (ih.exec s mirror₁ framed₁ freshE formedE.1 (by rw [same₁]; exact elseRenames))

theorem exec_whileLoop_mirrors (ih : Mirroring x y n) {c : Expr} {body : Stmt} {s' : Stmt}
    (mirror : Machine.Mirrors x y μ m m') (framed : env < m.store.frames.size)
    (fresh : ∀ t ∈ (Stmt.whileLoop c body).tokens, t.lexeme ≠ y) (formed : (Stmt.whileLoop c body).Formed)
    (renames : Stmt.Renames x y (μ env) (.whileLoop c body) s') :
    Mirrored x y μ (Flow.Mirrors x y) (exec (n + 1) env (.whileLoop c body)) (exec (n + 1) env s') m m' := by
  unfold Stmt.Renames at renames
  obtain ⟨body', rfl, inner⟩ := renames
  rw [exec, exec]
  exact ih.loop c body mirror framed fresh formed.1 formed.2.1 inner

theorem exec_function_mirrors {d : FunDecl} {s' : Stmt} (mirror : Machine.Mirrors x y μ m m')
    (framed : env < m.store.frames.size) (fresh : ∀ t ∈ (Stmt.function d).tokens, t.lexeme ≠ y)
    (formed : (Stmt.function d).Formed) (renames : Stmt.Renames x y (μ env) (.function d) s') :
    Mirrored x y μ (Flow.Mirrors x y) (exec (n + 1) env (.function d)) (exec (n + 1) env s') m m' := by
  unfold Stmt.Renames at renames
  obtain ⟨kept, d', rfl, inner⟩ := renames
  rw [exec, exec]
  refine Mirrored.bind (fresh_mirrors mirror) ?_
  rintro μ₁ i i' m₁ m₁' grow₁ - - mirror₁ same
  subst i'
  obtain ⟨same₁, framed₁⟩ := grow₁.keeps framed
  -- the function's own name is kept, and its closure is the original's renamed in this frame's scopes
  have named : renameName x y (μ₁ env 0) d.name.lexeme = d'.name.lexeme := by
    rw [inner.name, same₁]
    exact congrArg Token.lexeme (Token.rename_kept kept)
  have closure : Closure.Mirrors x y id μ₁ m₁.store.frames.size ⟨i, d, env, false⟩ ⟨i, d', env, false⟩ :=
    ⟨rfl, rfl, rfl, framed₁, fresh, formed, by rw [id, same₁]; exact inner⟩
  have bound := define_mirrors mirror₁ env (n := d.name.lexeme) (fun _ => fresh d.name (by
    obtain ⟨name, params, body⟩ := d
    simp [Stmt.tokens, FunDecl.tokens, FunDecl.name]))
    (.some (show Value.Mirrors x y μ₁ m₁.store.frames.size (.fn ⟨i, d, env, false⟩) (.fn ⟨i, d', env, false⟩) from
      ⟨_, rfl, closure⟩))
  rw [named] at bound
  refine Mirrored.bind bound ?_
  rintro μ₂ - - m₂ m₂' - - - mirror₂ -
  exact Mirrored.pure mirror₂ rfl

theorem exec_returnStmt_mirrors (ih : Mirroring x y n) {kw : Token} {v : Option Expr} {s' : Stmt}
    (mirror : Machine.Mirrors x y μ m m') (framed : env < m.store.frames.size)
    (fresh : ∀ t ∈ (Stmt.returnStmt kw v).tokens, t.lexeme ≠ y) (formed : (Stmt.returnStmt kw v).Formed)
    (renames : Stmt.Renames x y (μ env) (.returnStmt kw v) s') :
    Mirrored x y μ (Flow.Mirrors x y) (exec (n + 1) env (.returnStmt kw v)) (exec (n + 1) env s') m m' := by
  unfold Stmt.Renames at renames
  subst renames
  cases v with
  | none =>
    rw [Option.map_none, exec]
    exact Mirrored.pure mirror ⟨.nil, rfl, rfl⟩
  | some e =>
    simp only [Stmt.tokens, Expr.tokensOpt, List.mem_cons, forall_eq_or_imp] at fresh
    rw [Option.map_some, exec, exec]
    refine Mirrored.bind (ih.eval e mirror framed fresh.2 formed) ?_
    rintro μ₁ w w' m₁ m₁' - - - mirror₁ related
    exact Mirrored.pure mirror₁ ⟨w', rfl, related⟩

theorem exec_classDecl_mirrors (ih : Mirroring x y n) {name : Token} {sup : Option Expr} {methods : List FunDecl}
    {s' : Stmt} (mirror : Machine.Mirrors x y μ m m') (framed : env < m.store.frames.size)
    (fresh : ∀ t ∈ (Stmt.classDecl name sup methods).tokens, t.lexeme ≠ y)
    (formed : (Stmt.classDecl name sup methods).Formed)
    (renames : Stmt.Renames x y (μ env) (.classDecl name sup methods) s') :
    Mirrored x y μ (Flow.Mirrors x y) (exec (n + 1) env (.classDecl name sup methods)) (exec (n + 1) env s') m m' := by
  unfold Stmt.Renames at renames
  obtain ⟨kept, methods', rfl, renamesMethods⟩ := renames
  cases sup with
  | none =>
    rw [Option.map_none, exec, exec]
    unfold Mirrored
    simp only [run_bind, run_pure, run_define, run_fresh, run_get]
    rw [run_forIn_table, run_forIn_table]
    case entry => intro d t m; rfl
    case entry => intro d t m; rfl
    have framed' : env < m'.store.frames.size := mirror.store.size ▸ framed
    simp only [Store.owner_define_self framed, Store.owner_define_self framed', run_bind, run_define, run_pure,
      Store.define_define]
    simp only [Option.isSome_none, Bool.false_eq_true, if_false] at renamesMethods
    have cls := declaredClass_mirrors framed name.lexeme m.nextId renamesMethods formed.2.2
      (fun t mem => fresh t (by simp [Stmt.tokens, mem])) .none
    have keptName : renameName x y (μ env 0) name.lexeme = name.lexeme := congrArg Token.lexeme (Token.rename_kept kept)
    have bound := mirror.store.define env (n := name.lexeme) (fun _ => fresh name (by simp [Stmt.tokens]))
      (.some (show Value.Mirrors x y _ _ (.cls _) (.cls _) from ⟨_, rfl, cls⟩))
    rw [keptName] at bound
    rw [mirror.nextId]
    refine ⟨μ, by simpa using MarksGrow.refl μ m.store.frames.size, ⟨bound, mirror.output, ?_, mirror.clock⟩, _, rfl, rfl⟩
    simp [renamesMethods.length]
  | some e =>
    obtain ⟨superName, superAddr, rfl⟩ := formed.2.1 _ rfl
    simp only [Stmt.tokens, Expr.tokensOpt, Expr.tokens, List.mem_cons, List.mem_append, or_imp, forall_and,
      forall_eq] at fresh
    obtain ⟨⟨freshName, freshSuper⟩, freshMethods⟩ := fresh
    rw [Option.map_some, exec, exec]
    refine Mirrored.bind (ih.eval _ mirror framed (by simpa [Expr.tokens] using freshSuper) trivial) ?_
    rintro μ₁ v v' m₁ m₁' grow₁ - - mirror₁ related
    refine Mirrored.bind (superclassOf_mirrors mirror₁ freshSuper.1 (μ env) superAddr related) ?_
    rintro μ₂ c c' m₂ m₂' grow₂ - - mirror₂ superclass
    obtain ⟨same₂, framed₂⟩ := (grow₁.trans grow₂).keeps framed
    -- from here on the declaration reads no code: a frame binding super, the table, the class
    unfold Mirrored
    simp only [pure_bind, run_bind, run_define, run_alloc, run_fresh, run_get, Store.define_frames_size]
    rw [run_forIn_table, run_forIn_table]
    case entry => intro d t m; rfl
    case entry => intro d t m; rfl
    have framed₂' : env < m₂'.store.frames.size := mirror₂.store.size ▸ framed₂
    simp only [Store.declare_under framed₂, Store.declare_under framed₂', run_bind, run_define, run_pure,
      Store.owner_define_self (Store.lt_declare framed₂), Store.owner_define_self (Store.lt_declare framed₂'),
      Store.define_define]
    -- the frame binding super is unmarked, and the methods close over it
    rw [mirror₂.store.size]
    have grow := marksGrow_update μ₂ m₂.store.frames.size (Marks.push false (μ₂ env))
    have marked : Function.update μ₂ m₂.store.frames.size (Marks.push false (μ₂ env)) m₂.store.frames.size =
        Marks.push false (μ₂ env) := Function.update_self _ _ _
    have outer : Function.update μ₂ m₂.store.frames.size (Marks.push false (μ₂ env)) env = μ env := by
      rw [Function.update_of_ne (Nat.ne_of_lt framed₂), same₂]
    have unmarked : Function.update μ₂ m₂.store.frames.size (Marks.push false (μ₂ env)) m₂.store.frames.size 0 =
        false := by rw [marked]; rfl
    have withSuper := (mirror₂.store.alloc framed₂ false).define m₂.store.frames.size (n := "super")
      (by simp [unmarked])
      (.some (show Value.Mirrors x y _ _ (.cls c) (.cls c') from
        ⟨c', rfl, superclass.mono (by simpa [Store.alloc_frames_size, Store.alloc_index] using grow)⟩))
    rw [unmarked, renameName_false] at withSuper
    simp only [Option.isSome_some, if_true] at renamesMethods
    have cls := declaredClass_mirrors (μ := Function.update μ₂ m₂.store.frames.size (Marks.push false (μ₂ env)))
      (Nat.lt_succ_self m₂.store.frames.size) name.lexeme m₂.nextId (by rw [marked, same₂]; exact renamesMethods)
      formed.2.2 freshMethods (.some (superclass.mono grow))
    have keptName : renameName x y (Function.update μ₂ m₂.store.frames.size (Marks.push false (μ₂ env)) env 0)
        name.lexeme = name.lexeme := by
      rw [outer]
      exact congrArg Token.lexeme (Token.rename_kept kept)
    have bound := withSuper.define env (n := name.lexeme) (fun _ => freshName)
      (.some (show Value.Mirrors x y _ _ (.cls _) (.cls _) from ⟨_, rfl, by simpa [Store.alloc_frames_size, Store.alloc_index] using cls⟩))
    rw [keptName] at bound
    rw [mirror₂.nextId]
    refine ⟨_, by simpa [Store.alloc_frames_size, Store.alloc_index] using grow, ⟨bound, mirror₂.output, ?_, mirror₂.clock⟩, _, rfl, rfl⟩
    simp [renamesMethods.length]

theorem execBlock_mirrors (ih : Mirroring x y n) : ∀ (ss : List Stmt) {ss' : List Stmt},
    Machine.Mirrors x y μ m m' → env < m.store.frames.size → (∀ t ∈ Stmt.tokensAll ss, t.lexeme ≠ y) →
    Stmt.FormedAll ss → Stmt.RenamesAll x y (μ env) ss ss' →
    Mirrored x y μ (Flow.Mirrors x y) (execBlock (n + 1) env ss) (execBlock (n + 1) env ss') m m'
  | [], _, mirror, _, _, _, renames => by
    unfold Stmt.RenamesAll at renames
    subst renames
    rw [execBlock]
    exact Mirrored.pure mirror rfl
  | s :: rest, _, mirror, framed, fresh, formed, renames => by
    unfold Stmt.RenamesAll at renames
    obtain ⟨s', rest', rfl, first, others⟩ := renames
    simp only [Stmt.tokensAll, List.mem_append, or_imp, forall_and] at fresh
    rw [execBlock, execBlock]
    refine Mirrored.bind (ih.exec s mirror framed fresh.1 formed.1 first) ?_
    rintro μ₁ flow flow' m₁ m₁' grow₁ - - mirror₁ flows
    obtain ⟨same₁, framed₁⟩ := grow₁.keeps framed
    cases flow with
    | normal =>
      obtain rfl : flow' = .normal := flows
      exact ih.execBlock rest mirror₁ framed₁ fresh.2 formed.2 (by rw [same₁]; exact others)
    | returned v =>
      obtain ⟨v', rfl, related⟩ := flows
      exact Mirrored.pure mirror₁ ⟨v', rfl, related⟩

theorem loop_mirrors (ih : Mirroring x y n) {c : Expr} {body body' : Stmt} (mirror : Machine.Mirrors x y μ m m')
    (framed : env < m.store.frames.size) (fresh : ∀ t ∈ c.tokens ++ body.tokens, t.lexeme ≠ y) (formedC : c.Formed)
    (formedB : body.Formed) (renames : Stmt.Renames x y (μ env) body body') :
    Mirrored x y μ (Flow.Mirrors x y) (loop (n + 1) env c body) (loop (n + 1) env (c.rename x y (μ env)) body') m m' := by
  simp only [List.mem_append, or_imp, forall_and] at fresh
  rw [loop, loop]
  refine Mirrored.bind (ih.eval c mirror framed fresh.1 formedC) ?_
  rintro μ₁ v v' m₁ m₁' grow₁ - - mirror₁ related
  obtain ⟨same₁, framed₁⟩ := grow₁.keeps framed
  rw [related.truthy]
  refine Mirrored.ite (fun _ => ?_) fun _ => Mirrored.pure mirror₁ rfl
  refine Mirrored.bind (ih.exec body mirror₁ framed₁ fresh.2 formedB (by rw [same₁]; exact renames)) ?_
  rintro μ₂ flow flow' m₂ m₂' grow₂ - - mirror₂ flows
  obtain ⟨same₂, framed₂⟩ := (grow₁.trans grow₂).keeps framed
  cases flow with
  | normal =>
    obtain rfl : flow' = .normal := flows
    rw [← same₂]
    exact ih.loop c body mirror₂ framed₂ (by simpa [or_imp, forall_and] using fresh) formedC formedB
      (by rw [same₂]; exact renames)
  | returned v =>
    obtain ⟨v', rfl, related⟩ := flows
    exact Mirrored.pure mirror₂ ⟨v', rfl, related⟩

/-! ### Every rule, at every amount of fuel -/

/-- One more unit of fuel keeps every rule in step. -/
theorem mirroring_succ (ordinary : Scope.Ordinary x) (ordinaryY : Scope.Ordinary y) (ih : Mirroring x y n) :
    Mirroring x y (n + 1) where
  eval {μ m m' env} e mirror framed fresh formed := by
    cases e with
    | literal lit =>
      rw [Expr.rename, eval]
      exact Mirrored.pure mirror (Literal.value_mirrors lit _)
    | grouping inner =>
      rw [Expr.rename, eval, eval]
      exact ih.eval inner mirror framed fresh formed
    | unary => exact eval_unary_mirrors ih mirror framed fresh formed
    | binary => exact eval_binary_mirrors ih mirror framed fresh formed
    | logical => exact eval_logical_mirrors ih mirror framed fresh formed
    | ident name a =>
      rw [Expr.rename, eval, eval]
      exact lookUp_mirrors mirror _ (fresh name (by simp [Expr.tokens])) a
    | assign => exact eval_assign_mirrors ih mirror framed fresh formed
    | call => exact eval_call_mirrors ih mirror framed fresh formed
    | get => exact eval_get_mirrors ih mirror framed fresh formed
    | set => exact eval_set_mirrors ih mirror framed fresh formed
    | thisRef kw a =>
      -- this is spelled so and renamed nowhere
      have named : kw.lexeme = "this" := formed
      have read := lookUp_mirrors mirror env (fresh kw (by simp [Expr.tokens])) a
      rw [Token.renameAt_of_ne (by rw [named]; exact ordinary.1.symm)] at read
      rw [Expr.rename, eval]
      exact read
    | superGet => exact eval_super_mirrors ordinary ordinaryY mirror fresh formed
  evalArgs args mirror framed fresh formed := evalArgs_mirrors ih args mirror framed fresh formed
  callValue mirror fresh called passed := callValue_mirrors ih mirror fresh called passed
  callClosure mirror closure passed := callClosure_mirrors ordinary ordinaryY ih mirror closure passed
  exec s _ mirror framed fresh formed renames := by
    cases s with
    | expression => exact exec_expression_mirrors ih mirror framed fresh formed renames
    | print => exact exec_print_mirrors ih mirror framed fresh formed renames
    | varDecl => exact exec_varDecl_mirrors ih mirror framed fresh formed renames
    | block => exact exec_block_mirrors ih mirror framed fresh formed renames
    | ifElse => exact exec_ifElse_mirrors ih mirror framed fresh formed renames
    | whileLoop => exact exec_whileLoop_mirrors ih mirror framed fresh formed renames
    | function => exact exec_function_mirrors mirror framed fresh formed renames
    | returnStmt => exact exec_returnStmt_mirrors ih mirror framed fresh formed renames
    | classDecl => exact exec_classDecl_mirrors ih mirror framed fresh formed renames
  execBlock ss _ mirror framed fresh formed renames := execBlock_mirrors ih ss mirror framed fresh formed renames
  loop _ _ _ mirror framed fresh formedC formedB renames := loop_mirrors ih mirror framed fresh formedC formedB renames

/-- Every rule runs in step at every amount of fuel. -/
theorem mirroring (ordinary : Scope.Ordinary x) (ordinaryY : Scope.Ordinary y) : ∀ n, Mirroring x y n
  | 0 => mirroring_zero x y
  | n + 1 => mirroring_succ ordinary ordinaryY (mirroring ordinary ordinaryY n)

/-- The top level runs in step, statement by statement in the globals, which no renaming marks: a
statement that returns ends both runs. -/
theorem interpret_mirrors (ordinary : Scope.Ordinary x) (ordinaryY : Scope.Ordinary y) (fuel : Nat) (echo : Bool) :
    ∀ (ss : List Stmt) {ss' : List Stmt} {μ m m'}, Machine.Mirrors x y μ m m' →
      (∀ t ∈ Stmt.tokensAll ss, t.lexeme ≠ y) → Stmt.FormedAll ss → Stmt.RenamesAll x y Marks.none ss ss' →
      Mirrored x y μ (fun _ _ _ _ => True) (interpret fuel echo ss) (interpret fuel echo ss') m m'
  | [], _, _, _, _, mirror, _, _, renames => by
    unfold Stmt.RenamesAll at renames
    subst renames
    rw [interpret]
    exact Mirrored.pure mirror trivial
  | s :: rest, _, μ, m, m', mirror, fresh, formed, renames => by
    unfold Stmt.RenamesAll at renames
    obtain ⟨s', rest', rfl, first, others⟩ := renames
    simp only [Stmt.tokensAll, List.mem_append, or_imp, forall_and] at fresh
    rw [← mirror.store.top] at first
    have rules := mirroring ordinary ordinaryY fuel
    have next : ∀ μ₁ m₁ m₁', Machine.Mirrors x y μ₁ m₁ m₁' →
        Mirrored x y μ₁ (fun _ _ _ _ => True) (interpret fuel echo rest) (interpret fuel echo rest') m₁ m₁' :=
      fun _ _ _ mirror₁ => interpret_mirrors ordinary ordinaryY fuel echo rest mirror₁ fresh.2 formed.2 others
    cases s with
    | expression e =>
      have renamed := first
      unfold Stmt.Renames at renamed
      subst renamed
      rw [interpret, interpret]
      refine Mirrored.ite (fun _ => ?_) fun _ => ?_
      · refine Mirrored.bind (rules.eval e mirror mirror.store.globals fresh.1 formed.1) ?_
        rintro μ₁ v v' m₁ m₁' - - - mirror₁ related
        rw [related.display]
        refine Mirrored.bind (write_mirrors mirror₁ v.display) ?_
        rintro μ₂ - - m₂ m₂' - - - mirror₂ -
        exact next μ₂ m₂ m₂' mirror₂
      · refine Mirrored.bind (rules.exec (.expression e) mirror mirror.store.globals fresh.1 formed.1 first) ?_
        rintro μ₁ - - m₁ m₁' - - - mirror₁ -
        exact next μ₁ m₁ m₁' mirror₁
    | _ =>
      rw [interpret, interpret]
      · refine Mirrored.bind (rules.exec _ mirror mirror.store.globals fresh.1 formed.1 first) ?_
        rintro μ₁ flow flow' m₁ m₁' - - - mirror₁ flows
        cases flow with
        | normal =>
          obtain rfl : flow' = .normal := flows
          exact next μ₁ m₁ m₁' mirror₁
        | returned v =>
          obtain ⟨v', rfl, -⟩ := flows
          exact Mirrored.pure mirror₁ trivial
      · exact Stmt.Renames.not_expression first fun _ => Stmt.noConfusion
      · exact fun _ => Stmt.noConfusion

end Cases

end Run

/-! ### Sessions -/

section Fresh

variable {x y : String}

/-- The empty store, its globals binding nothing, mirrors itself with nothing marked. -/
theorem Store.Mirrors.empty : Store.Mirrors x y (fun _ => Marks.none) Store.empty Store.empty where
  size := rfl
  parents _ := rfl
  below F P parent := by
    rcases F with _ | F <;> simp [Store.parentOf, Store.empty] at parent
  chain F P parent := by
    rcases F with _ | F <;> simp [Store.parentOf, Store.empty] at parent
  globals := by simp [Store.empty, Store.globals]
  top := rfl
  frames F fr framed := ⟨fr, framed, by
    rcases F with _ | F <;> simp [Store.empty] at framed
    subst framed
    exact .nil⟩
  objects := rfl
  fields r fs fielded := by simp [Store.empty] at fielded

/-- A fresh machine, its globals binding only `clock`, mirrors itself with nothing marked. -/
theorem Machine.Mirrors.new (m : Machine) (fresh : m.store = Machine.new.store) :
    Machine.Mirrors x y (fun _ => Marks.none) m m := by
  have clock := Store.Mirrors.empty.define (x := x) (y := y) Store.globals (n := "clock")
    (fun marked => absurd marked Bool.false_ne_true)
    (.some (show Value.Mirrors x y _ _ (.native .clock) (.native .clock) from rfl))
  rw [show Marks.none 0 = false from rfl, renameName_false] at clock
  exact ⟨fresh ▸ clock, rfl, rfl, rfl⟩

/-- A stop reported, read back. -/
theorem Diagnostic.restore_ofStop (stop : Stop) :
    (Diagnostic.ofStop stop).restore x y = Diagnostic.ofStop (stop.restore x y) := by
  cases stop <;> rfl

end Fresh

/-- Lexical scoping, as invariance under renaming: a unit of the parser's shape that resolves, with
local declarations of `x` renamed `y`, a name it spells nowhere, together with exactly the
references the scope rules bind to them, resolves too; run in a fresh session, whatever its clock,
fuel and echo, it prints what the original prints and reports the original's errors once `y` is
read back as `x`. -/
theorem local_renaming_runs_alike (echo : Bool) (clock : Float) (fuel : Nat) {x y : String} {P P' : List Stmt}
    (formed : Stmt.FormedAll P) (resolved : ∃ A, Stmt.resolveScopes P = .ok A) (named : Scope.Ordinary x)
    (ident : Scope.Ordinary y) (fresh : ∀ t ∈ Stmt.tokensAll P, t.lexeme ≠ y) (renamed : Stmt.Renaming x y P P') :
    let s : Session := ⟨{ Machine.new with clock := clock }, echo, fuel⟩
    (∃ Q, Stmt.resolveScopes P' = .ok Q) ∧ (s.runStmts P').2.output = (s.runStmts P).2.output ∧
      (s.runStmts P').2.errors.map (Diagnostic.restore x y) = (s.runStmts P).2.errors := by
  intro s
  obtain ⟨A, resolvedP⟩ := resolved
  obtain ⟨clean, rfl⟩ := Stmt.resolveScopes_ok resolvedP
  obtain ⟨Q, renames, resolvedQ⟩ := renamed.keeps_rules named ident formed fresh clean
  refine ⟨⟨Q, resolvedQ⟩, ?_⟩
  -- both units run from the same fresh machine, mirrored with nothing marked
  have start := Machine.Mirrors.new (x := x) (y := y) { s.machine with output := "" } rfl
  obtain ⟨μ, -, mirror, outcome⟩ := Run.interpret_mirrors named ident s.fuel s.echo _ start
    (by rwa [Stmt.tokensAll_addressedAll]) (Stmt.FormedAll.addressedAll [] P formed) renames
  unfold Session.runStmts
  rw [resolvedP, resolvedQ]
  dsimp only
  -- a fresh session runs both in the globals frame
  rw [Interp.interpret_eq s.fuel s.echo _ _ rfl, Interp.interpret_eq s.fuel s.echo _ _ rfl]
  revert mirror outcome
  rcases (Run.interpret s.fuel s.echo (Stmt.addressedAll [] P)).run.run { s.machine with output := "" } with ⟨r, mA⟩
  rcases (Run.interpret s.fuel s.echo Q).run.run { s.machine with output := "" } with ⟨r', mQ⟩
  intro mirror outcome
  refine ⟨mirror.output, ?_⟩
  cases r with
  | ok _ =>
    obtain ⟨_, rfl, -⟩ := outcome
    rfl
  | error stop =>
    obtain ⟨stop', rfl, restored⟩ := outcome
    simp [Diagnostic.restore_ofStop, restored]

/-- `{ var a = true; print a; }` renamed to `{ var b = true; print b; }`. -/
theorem local_renaming_runs_alike_block :
    let a : Token := ⟨.identifier, "a", 1⟩
    let b : Token := ⟨.identifier, "b", 1⟩
    let P := [Stmt.block [.varDecl a (some (.literal (.bool true))), .print (.ident a .global)]]
    let P' := [Stmt.block [.varDecl b (some (.literal (.bool true))), .print (.ident b .global)]]
    let s : Session := ⟨{ Machine.new with clock := 0 }, false, 100⟩
    (∃ Q, Stmt.resolveScopes P' = .ok Q) ∧ (s.runStmts P').2.output = (s.runStmts P).2.output ∧
      (s.runStmts P').2.errors.map (Diagnostic.restore "a" "b") = (s.runStmts P).2.errors :=
  local_renaming_runs_alike false 0 100 (by simp [Stmt.FormedAll, Stmt.Formed, Expr.FormedOpt, Expr.Formed, Scope.Ordinary])
    ⟨_, rfl⟩ ⟨by decide, by decide⟩ ⟨by decide, by decide⟩ (by decide) (by
      refine ⟨[.block [.varDecl ⟨.identifier, "b", 1⟩ (some (.literal (.bool true))),
        .print (.ident ⟨.identifier, "b", 1⟩ (.scoped 0))]], ?_, rfl⟩
      simp only [Stmt.addressedAll, Stmt.addressed, Stmt.RenamesAll, Stmt.Renames]
      exact ⟨_, [], rfl, ⟨true, _, rfl, _, _, rfl, rfl, _, [], rfl, rfl, rfl⟩, rfl⟩)

end Lox
