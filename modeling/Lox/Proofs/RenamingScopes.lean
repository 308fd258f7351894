import Lox.Proofs.Renaming
import Lox.Proofs.FrameChain
/-!
The renamed program keeps the scope rules. Renaming `x` to a name `y` that the program never
spells moves no reference to another declaration: a renamed reference finds its declaration's new
name at the same distance, and every other name is found where it was
(`Scope.locate_renameScopes`). So the rules address the renamed program as the original, renamed
(`Stmt.addressed_rename`), and it breaks no rule the original keeps (`Stmt.scopeFaults_rename`): a
name clashes in a scope, and a local reads itself in its initializer, in the renamed program only
where it does in the original. Addresses and the rules' verdicts ignore the addresses a tree
already carries (`Stmt.addressed_unaddressed`, `Stmt.scopeFaults_unaddressed`), so all of this
holds of any tree that is the renamed one up to addresses (`Stmt.Renaming.keeps_rules`).
-/
namespace Lox

/-! ### Trees read without their addresses -/

mutual

theorem Expr.addressed_unaddressed (scopes : List (List String)) :
    ∀ e : Expr, e.unaddressed.addressed scopes = e.addressed scopes
  | .literal _ | .ident _ _ | .thisRef _ _ | .superGet _ _ _ => rfl
  | .grouping e => by simp only [Expr.unaddressed, Expr.addressed, Expr.addressed_unaddressed scopes e]
  | .unary _ r => by simp only [Expr.unaddressed, Expr.addressed, Expr.addressed_unaddressed scopes r]
  | .binary l _ r | .logical l _ r | .set l _ r => by
    simp only [Expr.unaddressed, Expr.addressed, Expr.addressed_unaddressed scopes l,
      Expr.addressed_unaddressed scopes r]
  | .assign _ v _ => by simp only [Expr.unaddressed, Expr.addressed, Expr.addressed_unaddressed scopes v]
  | .call f _ args => by
    simp only [Expr.unaddressed, Expr.addressed, Expr.addressed_unaddressed scopes f,
      Expr.addressedAll_unaddressedAll scopes args]
  | .get o _ => by simp only [Expr.unaddressed, Expr.addressed, Expr.addressed_unaddressed scopes o]

theorem Expr.addressedAll_unaddressedAll (scopes : List (List String)) :
    ∀ es : List Expr, Expr.addressedAll scopes (Expr.unaddressedAll es) = Expr.addressedAll scopes es
  | [] => rfl
  | e :: es => by
    simp only [Expr.unaddressedAll, Expr.addressedAll, Expr.addressed_unaddressed scopes e,
      Expr.addressedAll_unaddressedAll scopes es]

end

theorem Expr.addressed_comp_unaddressed (scopes : List (List String)) :
    (fun e : Expr => e.addressed scopes) ∘ Expr.unaddressed = fun e => e.addressed scopes :=
  funext (Expr.addressed_unaddressed scopes)

mutual

theorem Stmt.declares_unaddressed : ∀ s : Stmt, s.unaddressed.declares = s.declares
  | .varDecl _ _ | .classDecl _ _ _ | .expression _ | .print _ | .block _ | .returnStmt _ _ => rfl
  | .function (.mk _ _ _) => rfl
  | .ifElse _ t e => by
    simp only [Stmt.unaddressed, Stmt.declares, Stmt.declares_unaddressed t, Stmt.declaresOpt_unaddressedOpt e]
  | .whileLoop _ b => by simp only [Stmt.unaddressed, Stmt.declares, Stmt.declares_unaddressed b]

theorem Stmt.declaresOpt_unaddressedOpt : ∀ s : Option Stmt, Stmt.declaresOpt (Stmt.unaddressedOpt s) = Stmt.declaresOpt s
  | some s => by simp only [Stmt.unaddressedOpt, Stmt.declaresOpt, Stmt.declares_unaddressed s]
  | none => rfl

end

theorem Scope.afterStmt_unaddressed (scopes : List (List String)) (s : Stmt) :
    Scope.afterStmt scopes s.unaddressed = Scope.afterStmt scopes s := by
  simp only [Scope.afterStmt, Stmt.declares_unaddressed]

mutual

theorem Stmt.addressed_unaddressed : ∀ (scopes : List (List String)) (s : Stmt),
    s.unaddressed.addressed scopes = s.addressed scopes
  | scopes, .expression e | scopes, .print e => by
    simp only [Stmt.unaddressed, Stmt.addressed, Expr.addressed_unaddressed]
  | scopes, .varDecl _ i => by simp only [Stmt.unaddressed, Stmt.addressed, Option.map_map, Expr.addressed_comp_unaddressed]
  | scopes, .block b => by simp only [Stmt.unaddressed, Stmt.addressed, Stmt.addressedAll_unaddressedAll _ b]
  | scopes, .ifElse c t e => by
    simp only [Stmt.unaddressed, Stmt.addressed, Expr.addressed_unaddressed, Stmt.addressed_unaddressed scopes t,
      Scope.afterStmt_unaddressed, Stmt.addressedOpt_unaddressedOpt _ e]
  | scopes, .whileLoop c b => by
    simp only [Stmt.unaddressed, Stmt.addressed, Expr.addressed_unaddressed, Stmt.addressed_unaddressed scopes b]
  | scopes, .function d => by
    simp only [Stmt.unaddressed, Stmt.addressed, FunDecl.addressed_unaddressed _ d]
    cases d
    rfl
  | scopes, .returnStmt _ v => by
    simp only [Stmt.unaddressed, Stmt.addressed, Option.map_map, Expr.addressed_comp_unaddressed]
  | scopes, .classDecl _ sup ms => by
    simp only [Stmt.unaddressed, Stmt.addressed, Option.map_map, Expr.addressed_comp_unaddressed,
      Option.isSome_map, FunDecl.addressedAll_unaddressedAll _ ms]

theorem Stmt.addressedOpt_unaddressedOpt : ∀ (scopes : List (List String)) (s : Option Stmt),
    Stmt.addressedOpt scopes (Stmt.unaddressedOpt s) = Stmt.addressedOpt scopes s
  | scopes, some s => by simp only [Stmt.unaddressedOpt, Stmt.addressedOpt, Stmt.addressed_unaddressed scopes s]
  | _, none => rfl

theorem Stmt.addressedAll_unaddressedAll : ∀ (scopes : List (List String)) (ss : List Stmt),
    Stmt.addressedAll scopes (Stmt.unaddressedAll ss) = Stmt.addressedAll scopes ss
  | _, [] => rfl
  | scopes, s :: ss => by
    simp only [Stmt.unaddressedAll, Stmt.addressedAll, Stmt.addressed_unaddressed scopes s,
      Scope.afterStmt_unaddressed, Stmt.addressedAll_unaddressedAll _ ss]

theorem FunDecl.addressed_unaddressed : ∀ (scopes : List (List String)) (d : FunDecl),
    d.unaddressed.addressed scopes = d.addressed scopes
  | scopes, .mk _ ps b => by
    simp only [FunDecl.unaddressed, FunDecl.addressed, Stmt.addressedAll_unaddressedAll _ b]

theorem FunDecl.addressedAll_unaddressedAll : ∀ (scopes : List (List String)) (ds : List FunDecl),
    FunDecl.addressedAll scopes (FunDecl.unaddressedAll ds) = FunDecl.addressedAll scopes ds
  | _, [] => rfl
  | scopes, d :: ds => by
    simp only [FunDecl.unaddressedAll, FunDecl.addressedAll, FunDecl.addressed_unaddressed scopes d,
      FunDecl.addressedAll_unaddressedAll scopes ds]

end

mutual

theorem Expr.scopeFaults_unaddressed (init : Option String) (cls : Scope.ClassContext) :
    ∀ e : Expr, e.unaddressed.scopeFaults init cls = e.scopeFaults init cls
  | .literal _ | .ident _ _ | .thisRef _ _ | .superGet _ _ _ => rfl
  | .grouping e => by simp only [Expr.unaddressed, Expr.scopeFaults, Expr.scopeFaults_unaddressed init cls e]
  | .unary _ r => by simp only [Expr.unaddressed, Expr.scopeFaults, Expr.scopeFaults_unaddressed init cls r]
  | .binary l _ r | .logical l _ r | .set l _ r => by
    simp only [Expr.unaddressed, Expr.scopeFaults, Expr.scopeFaults_unaddressed init cls l,
      Expr.scopeFaults_unaddressed init cls r]
  | .assign _ v _ => by simp only [Expr.unaddressed, Expr.scopeFaults, Expr.scopeFaults_unaddressed init cls v]
  | .call f _ args => by
    simp only [Expr.unaddressed, Expr.scopeFaults, Expr.scopeFaults_unaddressed init cls f,
      Expr.scopeFaultsAll_unaddressedAll init cls args]
  | .get o _ => by simp only [Expr.unaddressed, Expr.scopeFaults, Expr.scopeFaults_unaddressed init cls o]

theorem Expr.scopeFaultsAll_unaddressedAll (init : Option String) (cls : Scope.ClassContext) :
    ∀ es : List Expr, Expr.scopeFaultsAll init cls (Expr.unaddressedAll es) = Expr.scopeFaultsAll init cls es
  | [] => rfl
  | e :: es => by
    simp only [Expr.unaddressedAll, Expr.scopeFaultsAll, Expr.scopeFaults_unaddressed init cls e,
      Expr.scopeFaultsAll_unaddressedAll init cls es]

end

/-- A superclass reads the same without its address. -/
theorem Scope.selfInheritance_unaddressed (name : Token) (e : Expr) :
    Scope.selfInheritance name e.unaddressed = Scope.selfInheritance name e := by
  cases e <;> rfl

mutual

theorem Stmt.scopeFaults_unaddressed : ∀ (ctx : Scope.Context) (s : Stmt),
    s.unaddressed.scopeFaults ctx = s.scopeFaults ctx
  | ctx, .expression e | ctx, .print e => by simp only [Stmt.unaddressed, Stmt.scopeFaults, Expr.scopeFaults_unaddressed]
  | ctx, .varDecl _ i => by
    cases i <;> simp only [Stmt.unaddressed, Stmt.scopeFaults, Option.map_none, Option.map_some,
      Expr.scopeFaults_unaddressed]
  | ctx, .block b => by simp only [Stmt.unaddressed, Stmt.scopeFaults, Stmt.scopeFaultsAll_unaddressedAll _ b]
  | ctx, .ifElse c t e => by
    simp only [Stmt.unaddressed, Stmt.scopeFaults, Expr.scopeFaults_unaddressed, Stmt.scopeFaults_unaddressed ctx t,
      Scope.afterStmt_unaddressed, Stmt.scopeFaultsOpt_unaddressedOpt _ e]
  | ctx, .whileLoop c b => by
    simp only [Stmt.unaddressed, Stmt.scopeFaults, Expr.scopeFaults_unaddressed, Stmt.scopeFaults_unaddressed ctx b]
  | ctx, .function (.mk n ps b) => by
    simp only [Stmt.unaddressed, FunDecl.unaddressed, Stmt.scopeFaults, FunDecl.name, FunDecl.scopeFaults,
      Stmt.scopeFaultsAll_unaddressedAll _ b]
  | ctx, .returnStmt _ v => by
    cases v <;> simp only [Stmt.unaddressed, Stmt.scopeFaults, Option.map_none, Option.map_some,
      Expr.scopeFaults_unaddressed]
  | ctx, .classDecl _ sup ms => by
    cases sup <;> simp only [Stmt.unaddressed, Stmt.scopeFaults, Option.map_none, Option.map_some,
      Option.isSome_none, Option.isSome_some, Expr.scopeFaults_unaddressed, Scope.selfInheritance_unaddressed,
      FunDecl.scopeFaultsMethods_unaddressedAll _ ms]

theorem Stmt.scopeFaultsOpt_unaddressedOpt : ∀ (ctx : Scope.Context) (s : Option Stmt),
    Stmt.scopeFaultsOpt ctx (Stmt.unaddressedOpt s) = Stmt.scopeFaultsOpt ctx s
  | ctx, some s => by simp only [Stmt.unaddressedOpt, Stmt.scopeFaultsOpt, Stmt.scopeFaults_unaddressed ctx s]
  | _, none => rfl

theorem Stmt.scopeFaultsAll_unaddressedAll : ∀ (ctx : Scope.Context) (ss : List Stmt),
    Stmt.scopeFaultsAll ctx (Stmt.unaddressedAll ss) = Stmt.scopeFaultsAll ctx ss
  | _, [] => rfl
  | ctx, s :: ss => by
    simp only [Stmt.unaddressedAll, Stmt.scopeFaultsAll, Stmt.scopeFaults_unaddressed ctx s,
      Scope.afterStmt_unaddressed, Stmt.scopeFaultsAll_unaddressedAll _ ss]

theorem FunDecl.scopeFaultsMethods_unaddressedAll : ∀ (ctx : Scope.Context) (ds : List FunDecl),
    FunDecl.scopeFaultsMethods ctx (FunDecl.unaddressedAll ds) = FunDecl.scopeFaultsMethods ctx ds
  | _, [] => rfl
  | ctx, .mk n ps b :: ds => by
    simp only [FunDecl.unaddressedAll, FunDecl.unaddressed, FunDecl.scopeFaultsMethods, FunDecl.scopeFaults,
      Stmt.scopeFaultsAll_unaddressedAll _ b, FunDecl.scopeFaultsMethods_unaddressedAll ctx ds]
    rfl

end

/-! ### The scopes of the renamed program -/

/-- No scope declares `y`. -/
def Scope.Avoids (y : String) (scopes : List (List String)) : Prop := ∀ sc ∈ scopes, y ∉ sc

section Scopes

variable {x y : String}

theorem Scope.Avoids.cons {scopes : List (List String)} (avoid : Scope.Avoids y scopes) {top : List String}
    (fresh : y ∉ top) : Scope.Avoids y (top :: scopes) := by
  intro sc mem
  rcases List.mem_cons.1 mem with rfl | inner
  · exact fresh
  · exact avoid sc inner

theorem Scope.Avoids.declareIn {scopes : List (List String)} (avoid : Scope.Avoids y scopes) {n : String}
    (hn : n ≠ y) : Scope.Avoids y (Scope.declareIn n scopes) := by
  cases scopes with
  | nil => exact avoid
  | cons top rest =>
    refine Scope.Avoids.cons (fun sc mem => avoid sc (List.mem_cons_of_mem _ mem)) ?_
    intro named
    rcases List.mem_cons.1 named with same | old
    · exact hn same.symm
    · exact avoid top List.mem_cons_self old

theorem Scope.renameScopes_push (b : Bool) (marks : Marks) (top : List String) (rest : List (List String)) :
    Scope.renameScopes x y (Marks.push b marks) (top :: rest) =
      top.map (renameName x y b) :: Scope.renameScopes x y marks rest := rfl

/-- Declaring a renamed name in the renamed scopes. -/
theorem Scope.declareIn_renameScopes (marks : Marks) (n : String) :
    ∀ scopes : List (List String), Scope.declareIn (renameName x y (marks 0) n) (Scope.renameScopes x y marks scopes) =
      Scope.renameScopes x y marks (Scope.declareIn n scopes)
  | [] => rfl
  | _ :: _ => rfl

/-- A name that is not `y` is among a renamed scope's names only if it was among the scope's. -/
theorem renameName_mem_map {top : List String} {n : String} (hn : n ≠ y) (avoid : y ∉ top) {b b' : Bool}
    (mem : renameName x y b n ∈ top.map (renameName x y b')) : n ∈ top := by
  obtain ⟨k, mem, same⟩ := List.mem_map.1 mem
  have named : k = n := renameName_inj same (fun h => avoid (h ▸ mem)) hn
  exact named ▸ mem

/-- Renaming moves no reference: a name that is not `y`, renamed when the scope that declares it
is marked, is found in the renamed scopes where it was found. -/
theorem Scope.locate_renameScopes {n : String} (hn : n ≠ y) :
    ∀ (marks : Marks) (scopes : List (List String)), Scope.Avoids y scopes →
      Scope.locate (renameName x y (marks.at (Scope.locate n scopes)) n) (Scope.renameScopes x y marks scopes) =
        Scope.locate n scopes
  | _, [], _ => by simp [Scope.locate, Marks.at, Scope.renameScopes]
  | marks, top :: rest, avoid => by
    have avoidTop : y ∉ top := avoid top List.mem_cons_self
    have avoidRest : Scope.Avoids y rest := fun sc mem => avoid sc (List.mem_cons_of_mem _ mem)
    by_cases here : n ∈ top
    · have renamed : renameName x y (marks 0) n ∈ top.map (renameName x y (marks 0)) := List.mem_map_of_mem here
      simp [Scope.locate, here, Marks.at, Scope.renameScopes, renamed]
    · -- the name is not in the innermost scope, and neither is its renamed form in the renamed one
      have inner := Scope.locate_renameScopes hn (fun d => marks (d + 1)) rest avoidRest
      have absent (b : Bool) : renameName x y b n ∉ top.map (renameName x y (marks 0)) :=
        fun mem => here (renameName_mem_map hn avoidTop mem)
      rcases found : Scope.locate n rest with _ | d
      · rw [found] at inner
        rw [Scope.locate_cons_global here found]
        exact Scope.locate_cons_global (absent _) inner
      · rw [found] at inner
        rw [Scope.locate_cons_scoped here found]
        exact Scope.locate_cons_scoped (absent _) inner

/-- A name that is neither `x` nor `y` is found in the renamed scopes where it was. -/
theorem Scope.locate_renameScopes_of_ne {n : String} (hn : n ≠ y) (kept : n ≠ x) (marks : Marks)
    {scopes : List (List String)} (avoid : Scope.Avoids y scopes) :
    Scope.locate n (Scope.renameScopes x y marks scopes) = Scope.locate n scopes := by
  have same := Scope.locate_renameScopes (x := x) hn marks scopes avoid
  rwa [renameName_of_ne kept] at same

end Scopes

/-! ### Expressions -/

section Expressions

variable {x y : String}

mutual

/-- The rules address a renamed expression as the original. -/
theorem Expr.addressed_rename (ordinary : Scope.Ordinary x) (marks : Marks) {scopes : List (List String)}
    (avoid : Scope.Avoids y scopes) :
    ∀ e : Expr, (∀ t ∈ e.tokens, t.lexeme ≠ y) → e.Formed →
      ((e.addressed scopes).rename x y marks).addressed (Scope.renameScopes x y marks scopes) =
        (e.addressed scopes).rename x y marks
  | .literal _, _, _ => rfl
  | .grouping e, fresh, formed => by
    simp only [Expr.addressed, Expr.rename, Expr.addressed_rename ordinary marks avoid e fresh formed]
  | .unary _ r, fresh, formed => by
    simp only [Expr.addressed, Expr.rename,
      Expr.addressed_rename ordinary marks avoid r (fun t mem => fresh t (by simp [Expr.tokens, mem])) formed]
  | .binary l _ r, fresh, formed | .logical l _ r, fresh, formed => by
    simp only [Expr.addressed, Expr.rename,
      Expr.addressed_rename ordinary marks avoid l (fun t mem => fresh t (by simp [Expr.tokens, mem])) formed.1,
      Expr.addressed_rename ordinary marks avoid r (fun t mem => fresh t (by simp [Expr.tokens, mem])) formed.2]
  | .set o _ v, fresh, formed => by
    simp only [Expr.addressed, Expr.rename,
      Expr.addressed_rename ordinary marks avoid o (fun t mem => fresh t (by simp [Expr.tokens, mem])) formed.1,
      Expr.addressed_rename ordinary marks avoid v (fun t mem => fresh t (by simp [Expr.tokens, mem])) formed.2]
  | .ident n _, fresh, _ => by
    simp only [Expr.addressed, Expr.rename, Token.renameAt_lexeme,
      Scope.locate_renameScopes (fresh n (by simp [Expr.tokens])) marks scopes avoid]
  | .assign n v _, fresh, formed => by
    simp only [Expr.addressed, Expr.rename, Token.renameAt_lexeme,
      Scope.locate_renameScopes (fresh n (by simp [Expr.tokens])) marks scopes avoid,
      Expr.addressed_rename ordinary marks avoid v (fun t mem => fresh t (by simp [Expr.tokens, mem])) formed.2]
  | .call f _ args, fresh, formed => by
    simp only [Expr.addressed, Expr.rename,
      Expr.addressed_rename ordinary marks avoid f (fun t mem => fresh t (by simp [Expr.tokens, mem])) formed.1,
      Expr.addressedAll_rename ordinary marks avoid args (fun t mem => fresh t (by simp [Expr.tokens, mem])) formed.2]
  | .get o _, fresh, formed => by
    simp only [Expr.addressed, Expr.rename,
      Expr.addressed_rename ordinary marks avoid o (fun t mem => fresh t (by simp [Expr.tokens, mem])) formed]
  | .thisRef kw _, fresh, formed => by
    have kept : kw.lexeme ≠ x := fun named => ordinary.1 (named ▸ (formed : kw.lexeme = "this"))
    simp only [Expr.addressed, Expr.rename,
      Scope.locate_renameScopes_of_ne (fresh kw (by simp [Expr.tokens])) kept marks avoid]
  | .superGet kw _ _, fresh, formed => by
    have kept : kw.lexeme ≠ x := fun named => ordinary.2 (named ▸ (formed : kw.lexeme = "super"))
    simp only [Expr.addressed, Expr.rename,
      Scope.locate_renameScopes_of_ne (fresh kw (by simp [Expr.tokens])) kept marks avoid]

theorem Expr.addressedAll_rename (ordinary : Scope.Ordinary x) (marks : Marks) {scopes : List (List String)}
    (avoid : Scope.Avoids y scopes) :
    ∀ es : List Expr, (∀ t ∈ Expr.tokensAll es, t.lexeme ≠ y) → Expr.FormedAll es →
      Expr.addressedAll (Scope.renameScopes x y marks scopes) (Expr.renameAll x y marks (Expr.addressedAll scopes es)) =
        Expr.renameAll x y marks (Expr.addressedAll scopes es)
  | [], _, _ => rfl
  | e :: es, fresh, formed => by
    simp only [Expr.addressedAll, Expr.renameAll,
      Expr.addressed_rename ordinary marks avoid e (fun t mem => fresh t (by simp [Expr.tokensAll, mem])) formed.1,
      Expr.addressedAll_rename ordinary marks avoid es (fun t mem => fresh t (by simp [Expr.tokensAll, mem])) formed.2]

end

end Expressions

/-! ### Statements -/

section Declarations

variable {x y : String}

mutual

theorem Stmt.declares_addressed : ∀ (scopes : List (List String)) (s : Stmt), (s.addressed scopes).declares = s.declares
  | _, .varDecl _ _ | _, .classDecl _ _ _ | _, .expression _ | _, .print _ | _, .block _ | _, .returnStmt _ _ => rfl
  | scopes, .function d => by simp only [Stmt.addressed, Stmt.declares, FunDecl.name_addressed]
  | scopes, .ifElse _ t e => by
    simp only [Stmt.addressed, Stmt.declares, Stmt.declares_addressed scopes t, Stmt.declaresOpt_addressedOpt _ e]
  | scopes, .whileLoop _ b => by simp only [Stmt.addressed, Stmt.declares, Stmt.declares_addressed scopes b]

theorem Stmt.declaresOpt_addressedOpt : ∀ (scopes : List (List String)) (s : Option Stmt),
    Stmt.declaresOpt (Stmt.addressedOpt scopes s) = Stmt.declaresOpt s
  | scopes, some s => by simp only [Stmt.addressedOpt, Stmt.declaresOpt, Stmt.declares_addressed scopes s]
  | _, none => rfl

end

theorem Scope.afterStmt_addressed (scopes : List (List String)) (s : Stmt) :
    Scope.afterStmt scopes (s.addressed scopes) = Scope.afterStmt scopes s := by
  simp only [Scope.afterStmt, Stmt.declares_addressed]

mutual

/-- The names a statement declares are among its tokens. -/
theorem Stmt.mem_tokens_of_declares : ∀ (s : Stmt) {t : Token}, t ∈ s.declares → t ∈ s.tokens
  | .varDecl n _, t, mem => by simp_all [Stmt.declares, Stmt.tokens]
  | .function (.mk n ps b), t, mem => by simp_all [Stmt.declares, Stmt.tokens, FunDecl.tokens, FunDecl.name]
  | .classDecl n _ _, t, mem => by simp_all [Stmt.declares, Stmt.tokens]
  | .expression _, t, mem | .print _, t, mem | .block _, t, mem | .returnStmt _ _, t, mem => by
    simp [Stmt.declares] at mem
  | .ifElse c th e, t, mem => by
    simp only [Stmt.declares, List.mem_append] at mem
    simp only [Stmt.tokens, List.mem_append]
    rcases mem with inThen | inElse
    · exact .inl (.inr (Stmt.mem_tokens_of_declares th inThen))
    · exact .inr (Stmt.mem_tokensOpt_of_declaresOpt e inElse)
  | .whileLoop c b, t, mem => by
    simp only [Stmt.declares] at mem
    simp only [Stmt.tokens, List.mem_append]
    exact .inr (Stmt.mem_tokens_of_declares b mem)

theorem Stmt.mem_tokensOpt_of_declaresOpt : ∀ (s : Option Stmt) {t : Token}, t ∈ Stmt.declaresOpt s → t ∈ Stmt.tokensOpt s
  | some s, t, mem => Stmt.mem_tokens_of_declares s mem
  | none, t, mem => by simp [Stmt.declaresOpt] at mem

end

theorem Scope.Avoids.foldl_declareIn {scopes : List (List String)} (avoid : Scope.Avoids y scopes) :
    ∀ (names : List Token), (∀ t ∈ names, t.lexeme ≠ y) →
      Scope.Avoids y (names.foldl (fun scopes name => Scope.declareIn name.lexeme scopes) scopes)
  | [], _ => avoid
  | n :: ns, fresh => by
    rw [List.foldl_cons]
    exact Scope.Avoids.foldl_declareIn (avoid.declareIn (fresh n List.mem_cons_self)) ns
      fun t mem => fresh t (List.mem_cons_of_mem _ mem)

/-- A statement whose tokens avoid `y` leaves scopes that avoid it. -/
theorem Scope.Avoids.afterStmt {scopes : List (List String)} (avoid : Scope.Avoids y scopes) {s : Stmt}
    (fresh : ∀ t ∈ s.tokens, t.lexeme ≠ y) : Scope.Avoids y (Scope.afterStmt scopes s) :=
  avoid.foldl_declareIn s.declares fun t mem => fresh t (Stmt.mem_tokens_of_declares s mem)

/-- Declaring renamed names in renamed scopes. -/
theorem Scope.foldl_declareIn_renameScopes (marks : Marks) :
    ∀ (names : List Token) (scopes : List (List String)),
      (names.map (Token.rename x y (marks 0))).foldl (fun scopes name => Scope.declareIn name.lexeme scopes)
          (Scope.renameScopes x y marks scopes) =
        Scope.renameScopes x y marks (names.foldl (fun scopes name => Scope.declareIn name.lexeme scopes) scopes)
  | [], _ => rfl
  | n :: ns, scopes => by
    rw [List.map_cons, List.foldl_cons, List.foldl_cons]
    have declared : Scope.declareIn (n.rename x y (marks 0)).lexeme (Scope.renameScopes x y marks scopes) =
        Scope.renameScopes x y marks (Scope.declareIn n.lexeme scopes) :=
      Scope.declareIn_renameScopes marks n.lexeme scopes
    rw [declared]
    exact Scope.foldl_declareIn_renameScopes marks ns _

/-- A name kept where the scope is marked is kept everywhere. -/
theorem Token.rename_kept {t : Token} {b : Bool} (kept : b = true → t.lexeme ≠ x) : t.rename x y b = t := by
  cases b with
  | false => exact Token.rename_false t
  | true => exact Token.rename_of_ne (kept rfl) true

mutual

/-- A renamed statement declares the original's names, renamed where its scope is marked. -/
theorem Stmt.Renames.declares {marks : Marks} : ∀ {s s' : Stmt}, Stmt.Renames x y marks s s' →
    s'.declares = s.declares.map (Token.rename x y (marks 0))
  | .expression _, _, renames | .print _, _, renames | .returnStmt _ _, _, renames => by
    simp only [Stmt.Renames] at renames
    subst renames
    rfl
  | .varDecl _ _, _, renames => by
    simp only [Stmt.Renames] at renames
    subst renames
    rfl
  | .block _, _, renames => by
    unfold Stmt.Renames at renames
    obtain ⟨_, _, rfl, _⟩ := renames
    rfl
  | .ifElse _ t e, _, renames => by
    unfold Stmt.Renames at renames
    obtain ⟨t', e', rfl, first, second⟩ := renames
    simp only [Stmt.declares, List.map_append, Stmt.Renames.declares first, Stmt.RenamesOpt.declaresOpt second]
  | .whileLoop _ b, _, renames => by
    unfold Stmt.Renames at renames
    obtain ⟨b', rfl, body⟩ := renames
    simp only [Stmt.declares, Stmt.Renames.declares body]
  | .function (.mk n ps b), _, renames => by
    unfold Stmt.Renames FunDecl.Renames at renames
    obtain ⟨kept, d', rfl, mark, b', rfl, _⟩ := renames
    simp only [FunDecl.name] at kept
    simp only [Stmt.declares, FunDecl.name, List.map_cons, List.map_nil, Token.rename_kept kept]
  | .classDecl n _ _, _, renames => by
    unfold Stmt.Renames at renames
    obtain ⟨kept, ms', rfl, _⟩ := renames
    simp only [Stmt.declares, List.map_cons, List.map_nil, Token.rename_kept kept]

theorem Stmt.RenamesOpt.declaresOpt {marks : Marks} : ∀ {s s' : Option Stmt}, Stmt.RenamesOpt x y marks s s' →
    Stmt.declaresOpt s' = (Stmt.declaresOpt s).map (Token.rename x y (marks 0))
  | some _, _, renames => by
    unfold Stmt.RenamesOpt at renames
    obtain ⟨t, rfl, rel⟩ := renames
    exact Stmt.Renames.declares rel
  | none, _, renames => by
    unfold Stmt.RenamesOpt at renames
    subst renames
    rfl

end

/-- The scopes after a renamed statement are the renamed scopes after the original. -/
theorem Stmt.Renames.afterStmt {marks : Marks} {s s' : Stmt} (renames : Stmt.Renames x y marks s s')
    (scopes : List (List String)) :
    Scope.afterStmt (Scope.renameScopes x y marks scopes) s' = Scope.renameScopes x y marks (Scope.afterStmt scopes s) := by
  unfold Scope.afterStmt
  rw [renames.declares]
  exact Scope.foldl_declareIn_renameScopes marks s.declares scopes

/-- A renamed function keeps its name. -/
theorem FunDecl.Renames.name {marks : Marks} {d d' : FunDecl} (renames : FunDecl.Renames x y marks d d') :
    d'.name = d.name := by
  cases d with
  | mk n ps b =>
    unfold FunDecl.Renames at renames
    obtain ⟨_, _, rfl, _⟩ := renames
    rfl

end Declarations

/-! ### The rules address a renamed statement as the original -/

section Addresses

variable {x y : String}

theorem Expr.addressedOpt_rename (ordinary : Scope.Ordinary x) (marks : Marks) {scopes : List (List String)} (avoid : Scope.Avoids y scopes) :
    ∀ (i : Option Expr), (∀ t ∈ Expr.tokensOpt i, t.lexeme ≠ y) → Expr.FormedOpt i →
      ((i.map (·.addressed scopes)).map (Expr.rename x y marks)).map (·.addressed (Scope.renameScopes x y marks scopes)) =
        (i.map (·.addressed scopes)).map (Expr.rename x y marks)
  | none, _, _ => rfl
  | some e, fresh, formed => by
    simp only [Option.map_some, Expr.addressed_rename ordinary marks avoid e fresh formed]

/-- The scopes around the methods of a class, renamed: `this` and `super` are never renamed. -/
theorem Scope.classScopes_renameScopes (marks : Marks) (scopes : List (List String)) (hasSuper : Bool) :
    Scope.classScopes (Scope.renameScopes x y marks scopes) hasSuper =
      Scope.renameScopes x y (Marks.push false (if hasSuper then Marks.push false marks else marks))
        (Scope.classScopes scopes hasSuper) := by
  cases hasSuper <;> simp [Scope.classScopes, Scope.renameScopes_push]

theorem Scope.Avoids.classScopes (ordinaryY : Scope.Ordinary y) {scopes : List (List String)} (avoid : Scope.Avoids y scopes)
    (hasSuper : Bool) :
    Scope.Avoids y (Scope.classScopes scopes hasSuper) := by
  have notThis : y ∉ ["this"] := by simpa using ordinaryY.1
  have notSuper : y ∉ ["super"] := by simpa using ordinaryY.2
  cases hasSuper
  · exact avoid.cons notThis
  · exact (avoid.cons notSuper).cons notThis

mutual

/-- The rules address a renamed statement, in the renamed scopes, as the original renamed. -/
theorem Stmt.addressed_rename (ordinary : Scope.Ordinary x) (ordinaryY : Scope.Ordinary y) :
    ∀ (marks : Marks) {scopes : List (List String)} (s : Stmt) {s' : Stmt},
    Scope.Avoids y scopes → (∀ t ∈ s.tokens, t.lexeme ≠ y) → s.Formed → Stmt.Renames x y marks (s.addressed scopes) s' →
      s'.addressed (Scope.renameScopes x y marks scopes) = s'
  | marks, scopes, .expression e, _, avoid, fresh, formed, renames
  | marks, scopes, .print e, _, avoid, fresh, formed, renames => by
    simp only [Stmt.addressed, Stmt.Renames] at renames
    subst renames
    simp only [Stmt.addressed, Expr.addressed_rename ordinary marks avoid e fresh formed]
  | marks, scopes, .varDecl n i, _, avoid, fresh, formed, renames => by
    simp only [Stmt.addressed, Stmt.Renames] at renames
    subst renames
    simp only [Stmt.addressed]
    have declared : Scope.declareIn (n.rename x y (marks 0)).lexeme (Scope.renameScopes x y marks scopes) =
        Scope.renameScopes x y marks (Scope.declareIn n.lexeme scopes) :=
      Scope.declareIn_renameScopes marks n.lexeme scopes
    rw [declared, Expr.addressedOpt_rename ordinary marks (avoid.declareIn (fresh n (by simp [Stmt.tokens]))) i
      (fun t mem => fresh t (by simp [Stmt.tokens, mem])) formed.2]
  | marks, scopes, .block b, _, avoid, fresh, formed, renames => by
    simp only [Stmt.addressed] at renames
    unfold Stmt.Renames at renames
    obtain ⟨mark, b', rfl, rel⟩ := renames
    have pushed : ([] : List String) :: Scope.renameScopes x y marks scopes =
        Scope.renameScopes x y (Marks.push mark marks) ([] :: scopes) := rfl
    simp only [Stmt.addressed]
    rw [pushed, Stmt.addressedAll_rename ordinary ordinaryY (Marks.push mark marks) b (avoid.cons List.not_mem_nil) fresh formed rel]
  | marks, scopes, .ifElse c t e, _, avoid, fresh, formed, renames => by
    simp only [Stmt.addressed] at renames
    unfold Stmt.Renames at renames
    obtain ⟨t', e', rfl, first, second⟩ := renames
    have freshT : ∀ tok ∈ t.tokens, tok.lexeme ≠ y := fun tok mem => fresh tok (by simp [Stmt.tokens, mem])
    simp only [Stmt.addressed]
    rw [Expr.addressed_rename ordinary marks avoid c (fun tok mem => fresh tok (by simp [Stmt.tokens, mem])) formed.1,
      Stmt.addressed_rename ordinary ordinaryY marks t avoid freshT formed.2.1 first, first.afterStmt, Scope.afterStmt_addressed,
      Stmt.addressedOpt_rename ordinary ordinaryY marks e (avoid.afterStmt freshT) (fun tok mem => fresh tok (by simp [Stmt.tokens, mem]))
        formed.2.2.2 second]
  | marks, scopes, .whileLoop c b, _, avoid, fresh, formed, renames => by
    simp only [Stmt.addressed] at renames
    unfold Stmt.Renames at renames
    obtain ⟨b', rfl, body⟩ := renames
    simp only [Stmt.addressed]
    rw [Expr.addressed_rename ordinary marks avoid c (fun tok mem => fresh tok (by simp [Stmt.tokens, mem])) formed.1,
      Stmt.addressed_rename ordinary ordinaryY marks b avoid (fun tok mem => fresh tok (by simp [Stmt.tokens, mem])) formed.2.1 body]
  | marks, scopes, .function d, _, avoid, fresh, formed, renames => by
    simp only [Stmt.addressed] at renames
    unfold Stmt.Renames at renames
    obtain ⟨kept, d', rfl, rel⟩ := renames
    rw [FunDecl.name_addressed] at kept
    have named : d'.name = d.name := by rw [rel.name, FunDecl.name_addressed]
    have declared : Scope.declareIn (d.name.rename x y (marks 0)).lexeme (Scope.renameScopes x y marks scopes) =
        Scope.renameScopes x y marks (Scope.declareIn d.name.lexeme scopes) :=
      Scope.declareIn_renameScopes marks d.name.lexeme scopes
    have freshName : d.name.lexeme ≠ y := by
      cases d with
      | mk n ps b => exact fresh n (by simp [Stmt.tokens, FunDecl.tokens])
    simp only [Stmt.addressed]
    rw [named, ← Token.rename_kept (y := y) kept, declared,
      FunDecl.addressed_rename ordinary ordinaryY marks d (avoid.declareIn freshName) fresh formed rel]
  | marks, scopes, .returnStmt kw v, _, avoid, fresh, formed, renames => by
    simp only [Stmt.addressed, Stmt.Renames] at renames
    subst renames
    simp only [Stmt.addressed]
    rw [Expr.addressedOpt_rename ordinary marks avoid v (fun t mem => fresh t (by simp [Stmt.tokens, mem])) formed]
  | marks, scopes, .classDecl n sup ms, _, avoid, fresh, formed, renames => by
    simp only [Stmt.addressed] at renames
    unfold Stmt.Renames at renames
    obtain ⟨kept, ms', rfl, rel⟩ := renames
    have freshName : n.lexeme ≠ y := fresh n (by simp [Stmt.tokens])
    have inClass : Scope.declareIn n.lexeme (Scope.renameScopes x y marks scopes) =
        Scope.renameScopes x y marks (Scope.declareIn n.lexeme scopes) := by
      have declared := Scope.declareIn_renameScopes (x := x) (y := y) marks n.lexeme scopes
      rwa [show renameName x y (marks 0) n.lexeme = n.lexeme from congrArg Token.lexeme (Token.rename_kept kept)]
        at declared
    have avoidIn := avoid.declareIn freshName
    have freshMethods : ∀ t ∈ FunDecl.tokensAll ms, t.lexeme ≠ y := fun t mem => fresh t (by simp [Stmt.tokens, mem])
    have formedSup : Expr.FormedOpt sup := by
      cases sup with
      | none => trivial
      | some e =>
        obtain ⟨_, _, rfl⟩ := formed.2.1 e rfl
        trivial
    simp only [Stmt.addressed, Option.isSome_map]
    rw [Option.isSome_map] at rel
    rw [inClass, Scope.classScopes_renameScopes,
      FunDecl.addressedAll_rename ordinary ordinaryY _ ms (Scope.Avoids.classScopes ordinaryY avoidIn _) freshMethods formed.2.2 rel,
      Expr.addressedOpt_rename ordinary marks avoidIn sup (fun t mem => fresh t (by simp [Stmt.tokens, mem])) formedSup]

theorem Stmt.addressedOpt_rename (ordinary : Scope.Ordinary x) (ordinaryY : Scope.Ordinary y) :
    ∀ (marks : Marks) {scopes : List (List String)} (s : Option Stmt) {s' : Option Stmt},
    Scope.Avoids y scopes → (∀ t ∈ Stmt.tokensOpt s, t.lexeme ≠ y) → Stmt.FormedOpt s →
      Stmt.RenamesOpt x y marks (Stmt.addressedOpt scopes s) s' →
      Stmt.addressedOpt (Scope.renameScopes x y marks scopes) s' = s'
  | marks, scopes, some s, _, avoid, fresh, formed, renames => by
    simp only [Stmt.addressedOpt] at renames
    unfold Stmt.RenamesOpt at renames
    obtain ⟨t, rfl, rel⟩ := renames
    simp only [Stmt.addressedOpt, Stmt.addressed_rename ordinary ordinaryY marks s avoid fresh formed.1 rel]
  | _, _, none, _, _, _, _, renames => by
    simp only [Stmt.addressedOpt] at renames
    unfold Stmt.RenamesOpt at renames
    subst renames
    rfl

theorem Stmt.addressedAll_rename (ordinary : Scope.Ordinary x) (ordinaryY : Scope.Ordinary y) :
    ∀ (marks : Marks) {scopes : List (List String)} (ss : List Stmt) {ss' : List Stmt},
    Scope.Avoids y scopes → (∀ t ∈ Stmt.tokensAll ss, t.lexeme ≠ y) → Stmt.FormedAll ss →
      Stmt.RenamesAll x y marks (Stmt.addressedAll scopes ss) ss' →
      Stmt.addressedAll (Scope.renameScopes x y marks scopes) ss' = ss'
  | _, _, [], _, _, _, _, renames => by
    simp only [Stmt.addressedAll] at renames
    unfold Stmt.RenamesAll at renames
    subst renames
    rfl
  | marks, scopes, s :: ss, _, avoid, fresh, formed, renames => by
    simp only [Stmt.addressedAll] at renames
    unfold Stmt.RenamesAll at renames
    obtain ⟨t, ts, rfl, first, rest⟩ := renames
    have freshS : ∀ tok ∈ s.tokens, tok.lexeme ≠ y := fun tok mem => fresh tok (by simp [Stmt.tokensAll, mem])
    simp only [Stmt.addressedAll]
    rw [Stmt.addressed_rename ordinary ordinaryY marks s avoid freshS formed.1 first, first.afterStmt, Scope.afterStmt_addressed,
      Stmt.addressedAll_rename ordinary ordinaryY marks ss (avoid.afterStmt freshS) (fun tok mem => fresh tok (by simp [Stmt.tokensAll, mem]))
        formed.2 rest]

theorem FunDecl.addressed_rename (ordinary : Scope.Ordinary x) (ordinaryY : Scope.Ordinary y) :
    ∀ (marks : Marks) {scopes : List (List String)} (d : FunDecl) {d' : FunDecl},
    Scope.Avoids y scopes → (∀ t ∈ d.tokens, t.lexeme ≠ y) → d.Formed → FunDecl.Renames x y marks (d.addressed scopes) d' →
      d'.addressed (Scope.renameScopes x y marks scopes) = d'
  | marks, scopes, .mk n ps b, _, avoid, fresh, formed, renames => by
    simp only [FunDecl.addressed] at renames
    unfold FunDecl.Renames at renames
    obtain ⟨mark, b', rfl, rel⟩ := renames
    have params : Scope.paramScope (ps.map (Token.rename x y mark)) :: Scope.renameScopes x y marks scopes =
        Scope.renameScopes x y (Marks.push mark marks) (Scope.paramScope ps :: scopes) := by
      simp only [Scope.paramScope, List.map_map, Scope.renameScopes_push]
      rfl
    have freshParams : y ∉ Scope.paramScope ps := by
      intro mem
      obtain ⟨p, named, same⟩ := List.mem_map.1 mem
      exact fresh p (by simp [FunDecl.tokens, named]) same
    simp only [FunDecl.addressed]
    rw [params, Stmt.addressedAll_rename ordinary ordinaryY (Marks.push mark marks) b (avoid.cons freshParams)
      (fun t mem => fresh t (by simp [FunDecl.tokens, mem])) formed.2.2 rel]

theorem FunDecl.addressedAll_rename (ordinary : Scope.Ordinary x) (ordinaryY : Scope.Ordinary y) :
    ∀ (marks : Marks) {scopes : List (List String)} (ds : List FunDecl)
    {ds' : List FunDecl}, Scope.Avoids y scopes → (∀ t ∈ FunDecl.tokensAll ds, t.lexeme ≠ y) → FunDecl.FormedAll ds →
      FunDecl.RenamesAll x y marks (FunDecl.addressedAll scopes ds) ds' →
      FunDecl.addressedAll (Scope.renameScopes x y marks scopes) ds' = ds'
  | _, _, [], _, _, _, _, renames => by
    simp only [FunDecl.addressedAll] at renames
    unfold FunDecl.RenamesAll at renames
    subst renames
    rfl
  | marks, scopes, d :: ds, _, avoid, fresh, formed, renames => by
    simp only [FunDecl.addressedAll] at renames
    unfold FunDecl.RenamesAll at renames
    obtain ⟨t, ts, rfl, first, rest⟩ := renames
    simp only [FunDecl.addressedAll]
    rw [FunDecl.addressed_rename ordinary ordinaryY marks d avoid (fun tok mem => fresh tok (by simp [FunDecl.tokensAll, mem])) formed.1 first,
      FunDecl.addressedAll_rename ordinary ordinaryY marks ds avoid (fun tok mem => fresh tok (by simp [FunDecl.tokensAll, mem])) formed.2 rest]

end

end Addresses

/-! ### The renamed program breaks no rule the original keeps -/

section Faults

variable {x y : String}

mutual

/-- A renamed expression breaks no rule the original keeps. Reading the variable being initialized
is the one rule that compares names, and renaming tells apart names that are not `y`. -/
theorem Expr.scopeFaults_rename (marks : Marks) (scopes : List (List String)) {init : Option String}
    (initFresh : init ≠ some y) (b : Bool) (cls : Scope.ClassContext) :
    ∀ e : Expr, (∀ t ∈ e.tokens, t.lexeme ≠ y) → e.scopeFaults init cls = [] →
      ((e.addressed scopes).rename x y marks).scopeFaults (init.map (renameName x y b)) cls = []
  | .literal _, _, _ => rfl
  | .grouping e, fresh, clean => by
    simp only [Expr.addressed, Expr.rename, Expr.scopeFaults] at clean ⊢
    exact Expr.scopeFaults_rename marks scopes initFresh b cls e fresh clean
  | .unary _ r, fresh, clean => by
    simp only [Expr.addressed, Expr.rename, Expr.scopeFaults] at clean ⊢
    exact Expr.scopeFaults_rename marks scopes initFresh b cls r (fun t mem => fresh t (by simp [Expr.tokens, mem])) clean
  | .binary l _ r, fresh, clean | .logical l _ r, fresh, clean | .set l _ r, fresh, clean => by
    simp only [Expr.addressed, Expr.rename, Expr.scopeFaults, List.append_eq_nil_iff] at clean ⊢
    exact ⟨Expr.scopeFaults_rename marks scopes initFresh b cls _ (fun t mem => fresh t (by simp [Expr.tokens, mem]))
        clean.1,
      Expr.scopeFaults_rename marks scopes initFresh b cls _ (fun t mem => fresh t (by simp [Expr.tokens, mem])) clean.2⟩
  | .ident n a, fresh, clean => by
    simp only [Expr.addressed, Expr.rename, Expr.scopeFaults] at clean ⊢
    rw [if_neg]
    intro same
    rw [Token.renameAt_lexeme] at same
    obtain ⟨v, named, renamed⟩ := Option.map_eq_some_iff.1 same
    have read : v = n.lexeme := renameName_inj renamed (fun h => initFresh (h ▸ named)) (fresh n (by simp [Expr.tokens]))
    rw [if_pos (read ▸ named)] at clean
    cases clean
  | .assign _ v _, fresh, clean => by
    simp only [Expr.addressed, Expr.rename, Expr.scopeFaults] at clean ⊢
    exact Expr.scopeFaults_rename marks scopes initFresh b cls v (fun t mem => fresh t (by simp [Expr.tokens, mem])) clean
  | .call f _ args, fresh, clean => by
    simp only [Expr.addressed, Expr.rename, Expr.scopeFaults, List.append_eq_nil_iff] at clean ⊢
    exact ⟨Expr.scopeFaults_rename marks scopes initFresh b cls f (fun t mem => fresh t (by simp [Expr.tokens, mem]))
        clean.1,
      Expr.scopeFaultsAll_rename marks scopes initFresh b cls args (fun t mem => fresh t (by simp [Expr.tokens, mem]))
        clean.2⟩
  | .get o _, fresh, clean => by
    simp only [Expr.addressed, Expr.rename, Expr.scopeFaults] at clean ⊢
    exact Expr.scopeFaults_rename marks scopes initFresh b cls o (fun t mem => fresh t (by simp [Expr.tokens, mem])) clean
  | .thisRef _ _, _, clean | .superGet _ _ _, _, clean => by
    simp only [Expr.addressed, Expr.rename, Expr.scopeFaults] at clean ⊢
    exact clean

theorem Expr.scopeFaultsAll_rename (marks : Marks) (scopes : List (List String)) {init : Option String}
    (initFresh : init ≠ some y) (b : Bool) (cls : Scope.ClassContext) :
    ∀ es : List Expr, (∀ t ∈ Expr.tokensAll es, t.lexeme ≠ y) → Expr.scopeFaultsAll init cls es = [] →
      Expr.scopeFaultsAll (init.map (renameName x y b)) cls (Expr.renameAll x y marks (Expr.addressedAll scopes es)) = []
  | [], _, _ => rfl
  | e :: es, fresh, clean => by
    simp only [Expr.addressedAll, Expr.renameAll, Expr.scopeFaultsAll, List.append_eq_nil_iff] at clean ⊢
    exact ⟨Expr.scopeFaults_rename marks scopes initFresh b cls e (fun t mem => fresh t (by simp [Expr.tokensAll, mem]))
        clean.1,
      Expr.scopeFaultsAll_rename marks scopes initFresh b cls es (fun t mem => fresh t (by simp [Expr.tokensAll, mem]))
        clean.2⟩

end

/-- A name declared once in a scope is declared once in the renamed scope. -/
theorem Scope.redeclaration_rename (marks : Marks) {scopes : List (List String)} (avoid : Scope.Avoids y scopes)
    {n : Token} (fresh : n.lexeme ≠ y) (clean : Scope.redeclaration scopes n = []) :
    Scope.redeclaration (Scope.renameScopes x y marks scopes) (n.rename x y (marks 0)) = [] := by
  cases scopes with
  | nil => rfl
  | cons top rest =>
    simp only [Scope.redeclaration] at clean
    simp only [Scope.renameScopes, Scope.redeclaration]
    rw [if_neg]
    intro mem
    have declared := renameName_mem_map fresh (avoid top List.mem_cons_self) mem
    rw [if_pos declared] at clean
    cases clean

theorem Scope.initializing_rename (marks : Marks) (scopes : List (List String)) (n : Token) :
    Scope.initializing (Scope.renameScopes x y marks scopes) (n.rename x y (marks 0)) =
      (Scope.initializing scopes n).map (renameName x y (marks 0)) := by
  cases scopes <;> rfl

theorem Scope.initializing_ne {scopes : List (List String)} {n : Token} (fresh : n.lexeme ≠ y) :
    Scope.initializing scopes n ≠ some y := by
  cases scopes with
  | nil => simp [Scope.initializing]
  | cons _ _ => simpa [Scope.initializing] using fresh

/-- Parameters named apart stay apart when renamed. -/
theorem Scope.parameterFaults_rename (b : Bool) : ∀ {seen : List String} (ps : List Token), y ∉ seen →
    (∀ p ∈ ps, p.lexeme ≠ y) → Scope.parameterFaults seen ps = [] →
      Scope.parameterFaults (seen.map (renameName x y b)) (ps.map (Token.rename x y b)) = []
  | _, [], _, _, _ => rfl
  | seen, p :: ps, avoid, fresh, clean => by
    simp only [Scope.parameterFaults, List.append_eq_nil_iff] at clean
    simp only [List.map_cons, Scope.parameterFaults, List.append_eq_nil_iff]
    have freshP : p.lexeme ≠ y := fresh p List.mem_cons_self
    refine ⟨Scope.redeclaration_rename (fun _ => b) (fun sc mem => ?_) freshP clean.1, ?_⟩
    · rcases List.mem_singleton.1 mem with rfl
      exact avoid
    · have more := Scope.parameterFaults_rename b ps (fun mem => ?_) (fun q mem => fresh q (List.mem_cons_of_mem _ mem))
        clean.2
      · exact more
      · rcases List.mem_cons.1 mem with same | old
        · exact freshP same.symm
        · exact avoid old

/-- A superclass named like its class is one in the original: the class's name is kept. -/
theorem Scope.selfInheritance_rename (marks : Marks) (scopes : List (List String)) {name : Token}
    (kept : marks 0 = true → name.lexeme ≠ x) (freshName : name.lexeme ≠ y) :
    ∀ e : Expr, (∀ t ∈ e.tokens, t.lexeme ≠ y) → Scope.selfInheritance name e = [] →
      Scope.selfInheritance name ((e.addressed scopes).rename x y marks) = []
  | .ident sn a, fresh, clean => by
    simp only [Scope.selfInheritance] at clean
    simp only [Expr.addressed, Expr.rename, Scope.selfInheritance]
    rw [if_neg]
    intro same
    rw [Token.renameAt_lexeme] at same
    have keptName : renameName x y (marks 0) name.lexeme = name.lexeme := congrArg Token.lexeme (Token.rename_kept kept)
    rw [← keptName] at same
    rw [if_pos (renameName_inj same (fresh sn (by simp [Expr.tokens])) freshName)] at clean
    cases clean
  | .literal _, _, _ | .grouping _, _, _ | .unary _ _, _, _ | .binary _ _ _, _, _ | .logical _ _ _, _, _
  | .assign _ _ _, _, _ | .call _ _ _, _, _ | .get _ _, _, _ | .set _ _ _, _, _ | .thisRef _ _, _, _
  | .superGet _ _ _, _, _ => rfl

theorem FunDecl.methodKind_rename {marks : Marks} {d d' : FunDecl} (scopes : List (List String))
    (renames : FunDecl.Renames x y marks (d.addressed scopes) d') : Scope.methodKind d' = Scope.methodKind d := by
  simp only [Scope.methodKind, renames.name, FunDecl.name_addressed]

mutual

/-- A renamed statement breaks no rule the original keeps, in the renamed scopes. -/
theorem Stmt.scopeFaults_rename (ordinaryY : Scope.Ordinary y) : ∀ (marks : Marks) (ctx : Scope.Context) (s : Stmt)
    {s' : Stmt}, Scope.Avoids y ctx.scopes → (∀ t ∈ s.tokens, t.lexeme ≠ y) →
      Stmt.Renames x y marks (s.addressed ctx.scopes) s' → s.scopeFaults ctx = [] →
      s'.scopeFaults { ctx with scopes := Scope.renameScopes x y marks ctx.scopes } = []
  | marks, ctx, .expression e, _, _, fresh, renames, clean
  | marks, ctx, .print e, _, _, fresh, renames, clean => by
    simp only [Stmt.addressed, Stmt.Renames] at renames
    subst renames
    simp only [Stmt.scopeFaults] at clean ⊢
    exact Expr.scopeFaults_rename marks ctx.scopes (Option.some_ne_none y).symm false ctx.cls e fresh clean
  | marks, ctx, .varDecl n i, _, avoid, fresh, renames, clean => by
    simp only [Stmt.addressed, Stmt.Renames] at renames
    subst renames
    have freshName : n.lexeme ≠ y := fresh n (by simp [Stmt.tokens])
    simp only [Stmt.scopeFaults, List.append_eq_nil_iff] at clean ⊢
    refine ⟨Scope.redeclaration_rename marks avoid freshName clean.1, ?_⟩
    cases i with
    | none => rfl
    | some e =>
      simp only [Option.map_some, Option.getD_some] at clean ⊢
      rw [Scope.initializing_rename]
      exact Expr.scopeFaults_rename marks _ (Scope.initializing_ne freshName) (marks 0) ctx.cls e
        (fun t mem => fresh t (by simp [Stmt.tokens, Expr.tokensOpt, mem])) clean.2
  | marks, ctx, .block b, _, avoid, fresh, renames, clean => by
    simp only [Stmt.addressed] at renames
    unfold Stmt.Renames at renames
    obtain ⟨mark, b', rfl, rel⟩ := renames
    simp only [Stmt.scopeFaults] at clean ⊢
    exact Stmt.scopeFaultsAll_rename ordinaryY (Marks.push mark marks) { ctx with scopes := [] :: ctx.scopes } b
      (avoid.cons List.not_mem_nil) fresh rel clean
  | marks, ctx, .ifElse c t e, _, avoid, fresh, renames, clean => by
    simp only [Stmt.addressed] at renames
    unfold Stmt.Renames at renames
    obtain ⟨t', e', rfl, first, second⟩ := renames
    have freshT : ∀ tok ∈ t.tokens, tok.lexeme ≠ y := fun tok mem => fresh tok (by simp [Stmt.tokens, mem])
    simp only [Stmt.scopeFaults, List.append_eq_nil_iff] at clean ⊢
    refine ⟨⟨Expr.scopeFaults_rename marks ctx.scopes (Option.some_ne_none y).symm false ctx.cls c
      (fun tok mem => fresh tok (by simp [Stmt.tokens, mem])) clean.1.1,
      Stmt.scopeFaults_rename ordinaryY marks ctx t avoid freshT first clean.1.2⟩, ?_⟩
    have after := first.afterStmt ctx.scopes
    rw [Scope.afterStmt_addressed] at after
    rw [after]
    exact Stmt.scopeFaultsOpt_rename ordinaryY marks { ctx with scopes := Scope.afterStmt ctx.scopes t } e
      (avoid.afterStmt freshT) (fun tok mem => fresh tok (by simp [Stmt.tokens, mem])) second clean.2
  | marks, ctx, .whileLoop c b, _, avoid, fresh, renames, clean => by
    simp only [Stmt.addressed] at renames
    unfold Stmt.Renames at renames
    obtain ⟨b', rfl, body⟩ := renames
    simp only [Stmt.scopeFaults, List.append_eq_nil_iff] at clean ⊢
    exact ⟨Expr.scopeFaults_rename marks ctx.scopes (Option.some_ne_none y).symm false ctx.cls c
      (fun tok mem => fresh tok (by simp [Stmt.tokens, mem])) clean.1,
      Stmt.scopeFaults_rename ordinaryY marks ctx b avoid (fun tok mem => fresh tok (by simp [Stmt.tokens, mem])) body
        clean.2⟩
  | marks, ctx, .function d, _, avoid, fresh, renames, clean => by
    simp only [Stmt.addressed] at renames
    unfold Stmt.Renames at renames
    obtain ⟨kept, d', rfl, rel⟩ := renames
    rw [FunDecl.name_addressed] at kept
    have named : d'.name = d.name.rename x y (marks 0) := by rw [rel.name, FunDecl.name_addressed, Token.rename_kept kept]
    have freshName : d.name.lexeme ≠ y := by
      cases d with
      | mk n ps b => exact fresh n (by simp [Stmt.tokens, FunDecl.tokens])
    have declared : Scope.declareIn (d.name.rename x y (marks 0)).lexeme (Scope.renameScopes x y marks ctx.scopes) =
        Scope.renameScopes x y marks (Scope.declareIn d.name.lexeme ctx.scopes) :=
      Scope.declareIn_renameScopes marks d.name.lexeme ctx.scopes
    simp only [Stmt.scopeFaults, List.append_eq_nil_iff] at clean ⊢
    rw [named, declared]
    exact ⟨Scope.redeclaration_rename marks avoid freshName clean.1,
      FunDecl.scopeFaults_rename ordinaryY marks { ctx with scopes := Scope.declareIn d.name.lexeme ctx.scopes } .function d
        (avoid.declareIn freshName) fresh rel clean.2⟩
  | marks, ctx, .returnStmt kw v, _, _, fresh, renames, clean => by
    simp only [Stmt.addressed, Stmt.Renames] at renames
    subst renames
    cases v with
    | none => simpa [Stmt.scopeFaults] using clean
    | some e =>
      simp only [Stmt.scopeFaults, Option.map_some, List.append_eq_nil_iff] at clean ⊢
      exact ⟨clean.1, clean.2.1, Expr.scopeFaults_rename marks ctx.scopes (Option.some_ne_none y).symm false ctx.cls e
        (fun tok mem => fresh tok (by simp [Stmt.tokens, Expr.tokensOpt, mem])) clean.2.2⟩
  | marks, ctx, .classDecl n sup ms, _, avoid, fresh, renames, clean => by
    simp only [Stmt.addressed] at renames
    unfold Stmt.Renames at renames
    obtain ⟨kept, ms', rfl, rel⟩ := renames
    have freshName : n.lexeme ≠ y := fresh n (by simp [Stmt.tokens])
    have inClass : Scope.declareIn n.lexeme (Scope.renameScopes x y marks ctx.scopes) =
        Scope.renameScopes x y marks (Scope.declareIn n.lexeme ctx.scopes) := by
      have declared := Scope.declareIn_renameScopes (x := x) (y := y) marks n.lexeme ctx.scopes
      rwa [show renameName x y (marks 0) n.lexeme = n.lexeme from congrArg Token.lexeme (Token.rename_kept kept)]
        at declared
    have avoidIn := avoid.declareIn freshName
    have freshMethods : ∀ t ∈ FunDecl.tokensAll ms, t.lexeme ≠ y := fun t mem => fresh t (by simp [Stmt.tokens, mem])
    rw [Option.isSome_map] at rel
    simp only [Stmt.scopeFaults, List.append_eq_nil_iff, Option.isSome_map] at clean ⊢
    obtain ⟨⟨redeclared, superFaults⟩, methodFaults⟩ := clean
    have redeclaredRenamed := Scope.redeclaration_rename (x := x) marks avoid freshName redeclared
    rw [Token.rename_kept kept] at redeclaredRenamed
    refine ⟨⟨redeclaredRenamed, ?_⟩, ?_⟩
    · cases sup with
      | none => rfl
      | some e =>
        simp only [Option.map_some, List.append_eq_nil_iff] at superFaults ⊢
        have freshE : ∀ t ∈ e.tokens, t.lexeme ≠ y := fun t mem => fresh t (by simp [Stmt.tokens, Expr.tokensOpt, mem])
        exact ⟨Scope.selfInheritance_rename marks _ kept freshName e freshE superFaults.1,
          Expr.scopeFaults_rename marks _ (Option.some_ne_none y).symm false .sub e freshE superFaults.2⟩
    · rw [inClass, Scope.classScopes_renameScopes]
      exact FunDecl.scopeFaultsMethods_rename ordinaryY _
        ⟨Scope.classScopes (Scope.declareIn n.lexeme ctx.scopes) sup.isSome, ctx.fn, if sup.isSome then .sub else .plain⟩
        ms (Scope.Avoids.classScopes ordinaryY avoidIn _) freshMethods rel methodFaults
termination_by structural _ _ s => s

theorem Stmt.scopeFaultsOpt_rename (ordinaryY : Scope.Ordinary y) : ∀ (marks : Marks) (ctx : Scope.Context)
    (s : Option Stmt) {s' : Option Stmt}, Scope.Avoids y ctx.scopes → (∀ t ∈ Stmt.tokensOpt s, t.lexeme ≠ y) →
      Stmt.RenamesOpt x y marks (Stmt.addressedOpt ctx.scopes s) s' → Stmt.scopeFaultsOpt ctx s = [] →
      Stmt.scopeFaultsOpt { ctx with scopes := Scope.renameScopes x y marks ctx.scopes } s' = []
  | marks, ctx, some s, _, avoid, fresh, renames, clean => by
    simp only [Stmt.addressedOpt] at renames
    unfold Stmt.RenamesOpt at renames
    obtain ⟨t, rfl, rel⟩ := renames
    exact Stmt.scopeFaults_rename ordinaryY marks ctx s avoid fresh rel clean
  | _, _, none, _, _, _, renames, _ => by
    simp only [Stmt.addressedOpt] at renames
    unfold Stmt.RenamesOpt at renames
    subst renames
    rfl
termination_by structural _ _ s => s

theorem Stmt.scopeFaultsAll_rename (ordinaryY : Scope.Ordinary y) : ∀ (marks : Marks) (ctx : Scope.Context)
    (ss : List Stmt) {ss' : List Stmt}, Scope.Avoids y ctx.scopes → (∀ t ∈ Stmt.tokensAll ss, t.lexeme ≠ y) →
      Stmt.RenamesAll x y marks (Stmt.addressedAll ctx.scopes ss) ss' → Stmt.scopeFaultsAll ctx ss = [] →
      Stmt.scopeFaultsAll { ctx with scopes := Scope.renameScopes x y marks ctx.scopes } ss' = []
  | _, _, [], _, _, _, renames, _ => by
    simp only [Stmt.addressedAll] at renames
    unfold Stmt.RenamesAll at renames
    subst renames
    rfl
  | marks, ctx, s :: ss, _, avoid, fresh, renames, clean => by
    simp only [Stmt.addressedAll] at renames
    unfold Stmt.RenamesAll at renames
    obtain ⟨t, ts, rfl, first, rest⟩ := renames
    have freshS : ∀ tok ∈ s.tokens, tok.lexeme ≠ y := fun tok mem => fresh tok (by simp [Stmt.tokensAll, mem])
    simp only [Stmt.scopeFaultsAll, List.append_eq_nil_iff] at clean ⊢
    have after := first.afterStmt ctx.scopes
    rw [Scope.afterStmt_addressed] at after
    refine ⟨Stmt.scopeFaults_rename ordinaryY marks ctx s avoid freshS first clean.1, ?_⟩
    rw [after]
    exact Stmt.scopeFaultsAll_rename ordinaryY marks { ctx with scopes := Scope.afterStmt ctx.scopes s } ss
      (avoid.afterStmt freshS) (fun tok mem => fresh tok (by simp [Stmt.tokensAll, mem])) rest clean.2
termination_by structural _ _ ss => ss

theorem FunDecl.scopeFaults_rename (ordinaryY : Scope.Ordinary y) : ∀ (marks : Marks) (ctx : Scope.Context)
    (kind : Scope.FunctionContext) (d : FunDecl) {d' : FunDecl}, Scope.Avoids y ctx.scopes →
      (∀ t ∈ d.tokens, t.lexeme ≠ y) → FunDecl.Renames x y marks (d.addressed ctx.scopes) d' → d.scopeFaults ctx kind = [] →
      d'.scopeFaults { ctx with scopes := Scope.renameScopes x y marks ctx.scopes } kind = []
  | marks, ctx, kind, .mk n ps b, _, avoid, fresh, renames, clean => by
    simp only [FunDecl.addressed] at renames
    unfold FunDecl.Renames at renames
    obtain ⟨mark, b', rfl, rel⟩ := renames
    have params : Scope.paramScope (ps.map (Token.rename x y mark)) :: Scope.renameScopes x y marks ctx.scopes =
        Scope.renameScopes x y (Marks.push mark marks) (Scope.paramScope ps :: ctx.scopes) := by
      simp only [Scope.paramScope, List.map_map, Scope.renameScopes_push]
      rfl
    have freshParams : y ∉ Scope.paramScope ps := by
      intro mem
      obtain ⟨p, named, same⟩ := List.mem_map.1 mem
      exact fresh p (by simp [FunDecl.tokens, named]) same
    simp only [FunDecl.scopeFaults, List.append_eq_nil_iff] at clean ⊢
    refine ⟨Scope.parameterFaults_rename mark ps List.not_mem_nil (fun p mem => fresh p (by simp [FunDecl.tokens, mem]))
      clean.1, ?_⟩
    rw [params]
    exact Stmt.scopeFaultsAll_rename ordinaryY (Marks.push mark marks) ⟨Scope.paramScope ps :: ctx.scopes, kind, ctx.cls⟩ b
      (avoid.cons freshParams) (fun t mem => fresh t (by simp [FunDecl.tokens, mem])) rel clean.2
termination_by structural _ _ _ d => d

theorem FunDecl.scopeFaultsMethods_rename (ordinaryY : Scope.Ordinary y) : ∀ (marks : Marks) (ctx : Scope.Context)
    (ds : List FunDecl) {ds' : List FunDecl}, Scope.Avoids y ctx.scopes → (∀ t ∈ FunDecl.tokensAll ds, t.lexeme ≠ y) →
      FunDecl.RenamesAll x y marks (FunDecl.addressedAll ctx.scopes ds) ds' → FunDecl.scopeFaultsMethods ctx ds = [] →
      FunDecl.scopeFaultsMethods { ctx with scopes := Scope.renameScopes x y marks ctx.scopes } ds' = []
  | _, _, [], _, _, _, renames, _ => by
    simp only [FunDecl.addressedAll] at renames
    unfold FunDecl.RenamesAll at renames
    subst renames
    rfl
  | marks, ctx, d :: ds, _, avoid, fresh, renames, clean => by
    simp only [FunDecl.addressedAll] at renames
    unfold FunDecl.RenamesAll at renames
    obtain ⟨t, ts, rfl, first, rest⟩ := renames
    simp only [FunDecl.scopeFaultsMethods, List.append_eq_nil_iff] at clean ⊢
    rw [FunDecl.methodKind_rename ctx.scopes first]
    exact ⟨FunDecl.scopeFaults_rename ordinaryY marks ctx _ d avoid
        (fun tok mem => fresh tok (by simp [FunDecl.tokensAll, mem])) first clean.1,
      FunDecl.scopeFaultsMethods_rename ordinaryY marks ctx ds avoid
        (fun tok mem => fresh tok (by simp [FunDecl.tokensAll, mem])) rest clean.2⟩
termination_by structural _ _ ds => ds

end

end Faults

/-- A renaming keeps the scope rules: the renamed program resolves without faults when the original
does, to the original's resolution renamed. -/
theorem Stmt.Renaming.keeps_rules {x y : String} {P P' : List Stmt} (renamed : Stmt.Renaming x y P P')
    (ordinary : Scope.Ordinary x) (ordinaryY : Scope.Ordinary y) (formed : Stmt.FormedAll P)
    (fresh : ∀ t ∈ Stmt.tokensAll P, t.lexeme ≠ y) (clean : Stmt.scopeFaultsAll Scope.Context.top P = []) :
    ∃ Q, Stmt.RenamesAll x y Marks.none (Stmt.addressedAll [] P) Q ∧ Stmt.resolveScopes P' = .ok Q := by
  obtain ⟨Q, rel, same⟩ := renamed
  have avoid : Scope.Avoids y [] := fun _ none => absurd none List.not_mem_nil
  have faults : Stmt.scopeFaultsAll Scope.Context.top P' = [] := by
    rw [← Stmt.scopeFaultsAll_unaddressedAll, ← same, Stmt.scopeFaultsAll_unaddressedAll]
    exact Stmt.scopeFaultsAll_rename ordinaryY Marks.none Scope.Context.top P avoid fresh rel clean
  have addressed : Stmt.addressedAll [] P' = Q := by
    rw [← Stmt.addressedAll_unaddressedAll, ← same, Stmt.addressedAll_unaddressedAll]
    exact Stmt.addressedAll_rename ordinary ordinaryY Marks.none P avoid fresh formed rel
  refine ⟨Q, rel, ?_⟩
  rw [Stmt.resolveScopes_of_clean faults, addressed]

end Lox
