import Lox.Session
/-!
Reference identities. A node that names a binding at run time (a variable, an assignment, `this`,
`super`) can be told apart from every other by an identity drawn from one counter that runs across
all the units a session parses, and the distances the scope pass finds can be kept in a table keyed
by those identities, which the session merges unit by unit. The interpreter here reads each node's
address from the node itself; this module keeps that bookkeeping beside it.

The parser takes an identity whenever it makes a reference node: a name read as a variable, `this`,
`super`, the superclass of a class. An assignment's target is first read as a variable, whose
identity the assignment drops for a new one, taken once its value is read. Nodes are numbered here
where they stand in the syntax, which is the order the parser makes them in, save a `for` loop's
increment: the parser reads it before the body and places it after, and it is numbered where it is
placed. A unit refused before the scope pass takes no identities here; the counter only ever moves
on, so what it skips changes none of what follows.
-/
namespace Lox

/-- A fresh identity: the counter, which moves on. -/
def freshId : StateM Nat Nat := modifyGet fun n => (n, n + 1)

mutual

/-- The reference nodes of an expression, each with a fresh identity and its address. -/
def Expr.refIds : Expr → StateM Nat (List (Nat × Address))
  | .literal _ => pure []
  | .grouping e => e.refIds
  | .unary _ r => r.refIds
  | .binary l _ r | .logical l _ r | .set l _ r => return (← l.refIds) ++ (← r.refIds)
  | .ident _ addr | .thisRef _ addr | .superGet _ _ addr => return [(← freshId, addr)]
  | .assign _ v addr => do
    -- the target, read first as a variable
    let _ ← freshId
    let ids ← v.refIds
    return ids ++ [(← freshId, addr)]
  | .call f _ args => return (← f.refIds) ++ (← Expr.refIdsAll args)
  | .get o _ => o.refIds

/-- The reference nodes of expressions in turn. -/
def Expr.refIdsAll : List Expr → StateM Nat (List (Nat × Address))
  | [] => pure []
  | e :: es => return (← e.refIds) ++ (← Expr.refIdsAll es)

end

/-- The reference nodes of an expression that may be absent. -/
def Expr.refIdsOpt : Option Expr → StateM Nat (List (Nat × Address))
  | some e => e.refIds
  | none => pure []

mutual

/-- The reference nodes of a statement, in the order they stand. -/
def Stmt.refIds : Stmt → StateM Nat (List (Nat × Address))
  | .expression e | .print e => e.refIds
  | .varDecl _ init => Expr.refIdsOpt init
  | .block body => Stmt.refIdsAll body
  | .ifElse c t e => return (← c.refIds) ++ (← t.refIds) ++ (← Stmt.refIdsOpt e)
  | .whileLoop c b => return (← c.refIds) ++ (← b.refIds)
  | .function d => d.refIds
  | .returnStmt _ v => Expr.refIdsOpt v
  | .classDecl _ sup methods => return (← Expr.refIdsOpt sup) ++ (← FunDecl.refIdsAll methods)

/-- The reference nodes of a statement that may be absent. -/
def Stmt.refIdsOpt : Option Stmt → StateM Nat (List (Nat × Address))
  | some s => s.refIds
  | none => pure []

/-- The reference nodes of statements in turn. -/
def Stmt.refIdsAll : List Stmt → StateM Nat (List (Nat × Address))
  | [] => pure []
  | s :: ss => return (← s.refIds) ++ (← Stmt.refIdsAll ss)

/-- The reference nodes of a function's body. -/
def FunDecl.refIds : FunDecl → StateM Nat (List (Nat × Address))
  | .mk _ _ body => Stmt.refIdsAll body

/-- The reference nodes of functions in turn. -/
def FunDecl.refIdsAll : List FunDecl → StateM Nat (List (Nat × Address))
  | [] => pure []
  | d :: ds => return (← d.refIds) ++ (← FunDecl.refIdsAll ds)

end

/-- What the scope pass keeps of numbered nodes: each local reference's identity with its distance.
A global reference, found by name, has no entry. -/
def localsOf : List (Nat × Address) → List (Nat × Nat)
  | [] => []
  | (i, .scoped d) :: rest => (i, d) :: localsOf rest
  | (_, .global) :: rest => localsOf rest

/-- A session's identity bookkeeping: the counter every parse takes identities from, and the table
of distances merged from every unit the scope pass accepted, the latest entries first. -/
structure Identities where
  next : Nat
  table : List (Nat × Nat)

namespace Identities

/-- A session counts from zero with an empty table. -/
def new : Identities := ⟨0, []⟩

/-- A unit's reference nodes numbered from the counter, each with the address the scope pass gave
it, and the counter after them. -/
def numbered (s : Identities) (source : String) : List (Nat × Address) × Nat :=
  match Stmt.ofSource source with
  | .error _ => ([], s.next)
  | .ok stmts =>
    match Stmt.resolveScopes stmts with
    | .ok r => (Stmt.refIdsAll r).run s.next
    | .error _ => (Stmt.refIdsAll stmts).run s.next

/-- The table of a unit the scope pass accepts; a refused unit adds nothing. -/
def unitTable (s : Identities) (source : String) : List (Nat × Nat) :=
  match Stmt.ofSource source with
  | .error _ => []
  | .ok stmts =>
    match Stmt.resolveScopes stmts with
    | .ok _ => localsOf (s.numbered source).1
    | .error _ => []

/-- Running a unit: the counter moves past its nodes, and its table is merged into the session's,
where an entry for an identity already there would take its place. -/
def run (s : Identities) (source : String) : Identities :=
  ⟨(s.numbered source).2, s.unitTable source ++ s.table⟩

end Identities

end Lox
