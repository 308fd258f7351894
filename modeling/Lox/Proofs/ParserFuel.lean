import Lox.Proofs.ParserComplete
/-!
The parser terminates on every token list that ends with its one end-of-input token. Its rules
take fuel, and the fault `nestingLimit` stands for running out of it; this module shows that the
fuel the parser starts with is never used up, so that fault never arises.

The measure is the number of tokens left and the rank of the rule in the chain that leads from
`expression` down to `primary` (`Level.depth` for the binary levels). A rule passes one less fuel
to each rule it calls. A call that consumes nothing goes down the chain, to a rule of lower rank,
and `primary` consumes a token or fails; every loop (the operators of a level, the suffixes of a
call, the arguments, the parameters, the methods and the declarations of a block) consumes a token
before it turns again. So 32 for each token left and the rank of the rule are enough fuel
(`exprFits`, `stmtFits`). The loops over a block and a class body rely on their callees: a
declaration, and a function, that succeed have consumed a token (`Grows`).

The top-level loop records a fault and recovers (`Parser.synchronize`): recovery skips the token at
fault and the tokens after it up to the first boundary, just after a `;` or before a keyword that
starts a statement (`Recovers`, `synchronize_recovers`). Each round of the loop therefore consumes a
token, and one round for each token reaches the end of input (`declarations_reach_end`).
`parse_terminates` gathers these for a program and for a lone expression.
-/
namespace Lox

namespace Parser

/-! ### Tokens left -/

theorem State.Within.rest_length_le {s s' : State} (within : s.Within s') :
    s'.rest.length ≤ s.rest.length := by
  rw [State.length_rest, State.length_rest, within.tokens]
  have := within.pos
  omega

/-- A valid state has its end-of-input token left. -/
theorem State.Valid.rest_pos {s : State} (valid : s.Valid) : 0 < s.rest.length := by
  obtain ⟨t, r, hr⟩ := valid.rest_cons
  simp [hr]

/-! ### Steps that consume a token when they succeed -/

/-- A step that, whenever it succeeds from a valid state, has consumed a token. -/
def Grows {α : Type} (p : M α) : Prop :=
  ∀ s a s', s.Valid → exec p s = (.ok a, s') → s'.rest.length < s.rest.length

section Grows
variable {α β : Type} {x : M α} {f : α → M β}

theorem Grows.bind_left (first : Grows x) (keeps : Keeps x) (next : ∀ a, Keeps (f a)) : Grows (x >>= f) := by
  intro s b s' valid h
  obtain ⟨a, s₁, h₁, h₂⟩ := exec_bind_ok h
  obtain ⟨valid₁, -⟩ := keeps.at h₁ valid
  have moved := first s a s₁ valid h₁
  have := ((next a).at h₂ valid₁).2.rest_length_le
  omega

theorem Grows.bind_right (keeps : Keeps x) (next : ∀ a, Grows (f a)) : Grows (x >>= f) := by
  intro s b s' valid h
  obtain ⟨a, s₁, h₁, h₂⟩ := exec_bind_ok h
  obtain ⟨valid₁, within₁⟩ := keeps.at h₁ valid
  have := within₁.rest_length_le
  have := next a s₁ b s' valid₁ h₂
  omega

theorem Grows.accept_bind {k : TokenKind} {f : Bool → M β} (hit : Keeps (f true)) (miss : Grows (f false)) :
    Grows (accept k >>= f) := by
  intro s b s' valid h
  obtain ⟨t, r, hr⟩ := valid.rest_cons
  rw [exec_accept_bind hr] at h
  split at h
  · next matched =>
    obtain ⟨notEnd, -⟩ := Bool.and_eq_true_iff.1 matched
    obtain ⟨valid₁, -, rest₁⟩ := valid.step hr (by simpa using notEnd)
    have := (hit.at h valid₁).2.rest_length_le
    rw [rest₁] at this
    simp only [hr, List.length_cons]
    omega
  · exact miss s b s' valid h

theorem Grows.expect_bind {k : TokenKind} {fault : ParseFault} {f : Token → M β} (next : ∀ t, Keeps (f t)) :
    Grows (expect k fault >>= f) := by
  intro s b s' valid h
  obtain ⟨t, r, hr⟩ := valid.rest_cons
  rw [exec_expect_bind hr] at h
  split at h
  · next matched =>
    obtain ⟨notEnd, -⟩ := Bool.and_eq_true_iff.1 matched
    obtain ⟨valid₁, -, rest₁⟩ := valid.step hr (by simpa using notEnd)
    have := ((next t).at h valid₁).2.rest_length_le
    rw [rest₁] at this
    simp only [hr, List.length_cons]
    omega
  · cases h

theorem Grows.throw (e : ParseError) : Grows (throw e : M α) := fun _ _ _ _ h => by cases h

theorem Grows.outOfFuel : Grows (outOfFuel : M α) := fun _ _ _ _ h => absurd h outOfFuel_ne_ok

end Grows

/-- The expression rules that succeed only once they have consumed a token. -/
structure ExprGrows (fuel : Nat) : Prop where
  expression : Grows (expression fuel)
  logicOr : Grows (logicOr fuel)
  logicAnd : Grows (logicAnd fuel)
  binary : ∀ lvl, Grows (binary fuel lvl)
  operand : ∀ lvl, Grows (operand fuel lvl)
  unary : Grows (unary fuel)
  primary : Grows (primary fuel)

/-- `primary` consumes the token it reads, or fails. -/
theorem primary_grows (fuel : Nat) : Grows (primary (fuel + 1)) := by
  simp only [Parser.primary]
  refine Grows.accept_bind (Keeps.pure _) (Grows.accept_bind (Keeps.pure _) (Grows.accept_bind (Keeps.pure _) ?_))
  intro s a s' valid h
  obtain ⟨t, r, hr⟩ := valid.rest_cons
  simp only [Bool.false_eq_true, ↓reduceIte] at h
  rw [exec_peek_bind hr] at h
  -- a literal is not the end of input, so advancing past it consumes it
  have literal : ∀ b : Expr, isEof t.kind = false →
      exec (advance >>= fun _ => pure b) s = (.ok a, s') → s'.rest.length < s.rest.length := by
    intro b notEnd h
    rw [exec_advance_bind hr notEnd] at h
    cases h
    simp [State.rest_next hr, hr]
  split at h
  · next kind => exact literal _ (by simp [kind, isEof]) h
  · next kind => exact literal _ (by simp [kind, isEof]) h
  · revert h
    refine Grows.accept_bind (Keeps.bind Keeps.previous fun _ => Keeps.bind (Keeps.expect _ _)
      fun _ => Keeps.bind (Keeps.expect _ _) fun _ => Keeps.pure _) ?_ s a s' valid
    refine Grows.accept_bind (Keeps.bind Keeps.previous fun _ => Keeps.pure _) ?_
    refine Grows.accept_bind (Keeps.bind Keeps.previous fun _ => Keeps.pure _) ?_
    refine Grows.accept_bind (Keeps.bind ((exprKeeps fuel).expression) fun _ =>
      Keeps.bind (Keeps.expect _ _) fun _ => Keeps.pure _) ?_
    exact Grows.bind_right Keeps.peek fun _ => Grows.throw _

/-- Every expression rule that starts an expression consumes a token when it succeeds: the
descent ends in `primary`, or in a prefix operator that it accepted. -/
theorem exprGrows : ∀ fuel, ExprGrows fuel
  | 0 => by
    constructor <;> intros <;>
      simp only [Parser.expression, Parser.logicOr, Parser.logicAnd, Parser.binary, Parser.operand, Parser.unary,
        Parser.primary] <;>
      exact Grows.outOfFuel
  | fuel + 1 => by
    have ih := exprGrows fuel
    have keeps := exprKeeps fuel
    refine ⟨?_, ?_, ?_, fun lvl => ?_, fun lvl => ?_, ?_, primary_grows fuel⟩
    · simp only [Parser.expression]
      refine Grows.bind_left ih.logicOr keeps.logicOr fun target => Keeps.bind (Keeps.accept _) fun equals => ?_
      split
      · refine Keeps.bind Keeps.previous fun _ => Keeps.bind keeps.expression fun _ => ?_
        split <;> first | exact Keeps.pure _ | exact Keeps.bind (Keeps.note _ _) fun _ => Keeps.pure _
      · exact Keeps.pure _
    · exact Grows.bind_left ih.logicAnd keeps.logicAnd fun _ => keeps.orRest _
    · exact Grows.bind_left (ih.binary _) (keeps.binary _) fun _ => keeps.andRest _
    · exact Grows.bind_left (ih.operand _) (keeps.operand _) fun _ => keeps.binaryRest _ _
    · simp only [Parser.operand]
      split
      · exact ih.binary _
      · exact ih.unary
    · simp only [Parser.unary]
      refine Grows.accept_bind (Keeps.bind Keeps.previous fun _ => Keeps.bind keeps.unary fun _ => Keeps.pure _) ?_
      refine Grows.accept_bind (Keeps.bind Keeps.previous fun _ => Keeps.bind keeps.unary fun _ => Keeps.pure _) ?_
      exact Grows.bind_left ih.primary keeps.primary fun _ => keeps.callRest _

/-- The statement rules that succeed only once they have consumed a token. -/
structure StmtGrows (fuel : Nat) : Prop where
  declaration : Grows (declaration fuel)
  statement : Grows (statement fuel)
  exprStmt : Grows (exprStmt fuel)
  function : ∀ kind, Grows (function fuel kind)

/-- A declaration consumes a token when it succeeds: it starts with a keyword it accepted, or with
an expression. A function starts with its name. -/
theorem stmtGrows : ∀ fuel, StmtGrows fuel
  | 0 => by
    constructor <;> intros <;>
      simp only [Parser.declaration.eq_1, Parser.statement.eq_1, Parser.exprStmt.eq_1, Parser.function.eq_1] <;>
      exact Grows.outOfFuel
  | fuel + 1 => by
    have ih := stmtGrows fuel
    obtain ⟨declaration, classDecl, methodList, function, parameters, varDecl, statement, exprStmt, forStmt,
      block, blockBody⟩ := stmtKeeps fuel
    have expression := (exprKeeps fuel).expression
    refine ⟨?_, ?_, ?_, fun kind => ?_⟩
    · simp only [Parser.declaration.eq_2]
      exact Grows.accept_bind classDecl (Grows.accept_bind (Keeps.bind (function _) fun _ => Keeps.pure _)
        (Grows.accept_bind varDecl ih.statement))
    · simp only [Parser.statement.eq_2]
      refine Grows.accept_bind forStmt (Grows.accept_bind ?_ (Grows.accept_bind ?_ (Grows.accept_bind ?_
        (Grows.accept_bind (Keeps.bind block fun _ => Keeps.pure _) (Grows.accept_bind ?_ ih.exprStmt)))))
      -- the branches after `if`, `while`, `return` and `print`
      all_goals
        repeat with_reducible (first
          | assumption | apply Keeps.pure | apply Keeps.previous | apply Keeps.accept | apply Keeps.expect
          | apply Keeps.check | apply Keeps.bind | split | intro _)
    · simp only [Parser.exprStmt.eq_2]
      exact Grows.bind_left (exprGrows fuel).expression expression fun _ =>
        Keeps.bind (Keeps.expect _ _) fun _ => Keeps.pure _
    · simp only [Parser.function.eq_2]
      refine Grows.expect_bind fun name => ?_
      repeat with_reducible (first
        | assumption | apply parameters | apply Keeps.pure | apply Keeps.expect | apply Keeps.check | apply Keeps.bind
        | split | intro _)

/-! ### Fuel that is enough -/

/-- No fault recorded so far is the nesting limit. -/
def State.Unlimited (s : State) : Prop := ∀ e ∈ s.recorded, e.fault ≠ .nestingLimit

theorem State.Unlimited.push {s : State} (unlimited : s.Unlimited) {e : ParseError} (fault : e.fault ≠ .nestingLimit) :
    ({ s with recorded := s.recorded.push e } : State).Unlimited := by
  intro e' mem
  rcases Array.mem_push.1 mem with old | rfl
  · exact unlimited e' old
  · exact fault

/-- A step that keeps a state valid, and that from a valid state with at most `n` fuel for its
tokens left, 32 for each, does not run out: it throws no nesting fault and records none. -/
structure Fits {α : Type} (p : M α) (n : Nat) : Prop where
  keeps : Keeps p
  run : ∀ s, s.Valid → 32 * s.rest.length ≤ n → s.Unlimited →
    (exec p s).2.Unlimited ∧ ∀ e, (exec p s).1 = .error e → e.fault ≠ .nestingLimit

section Fits
variable {α β : Type} {n : Nat}

theorem Fits.mono {p : M α} {m : Nat} (fits : Fits p n) (le : m ≤ n) : Fits p m :=
  ⟨fits.keeps, fun s valid enough => fits.run s valid (Nat.le_trans enough le)⟩

/-- No state has too few tokens for a budget of nothing. -/
theorem Fits.zero {p : M α} (keeps : Keeps p) : Fits p 0 := by
  refine ⟨keeps, fun s valid enough => ?_⟩
  have := valid.rest_pos
  omega

/-- A step that records nothing and throws no nesting fault fits every budget. -/
theorem Fits.of_quiet {p : M α} (keeps : Keeps p)
    (quiet : ∀ s, s.Valid → (exec p s).2.recorded = s.recorded ∧ ∀ e, (exec p s).1 = .error e → e.fault ≠ .nestingLimit) :
    Fits p n := by
  refine ⟨keeps, fun s valid _ unlimited => ?_⟩
  obtain ⟨same, thrown⟩ := quiet s valid
  exact ⟨fun e mem => unlimited e (same ▸ mem), thrown⟩

theorem Fits.pure (a : α) : Fits (pure a : M α) n :=
  .of_quiet (Keeps.pure a) fun _ _ => ⟨rfl, fun _ h => by cases h⟩

theorem Fits.throw {e : ParseError} (fault : e.fault ≠ .nestingLimit) : Fits (throw e : M α) n :=
  .of_quiet (Keeps.throw e) fun _ _ => ⟨rfl, fun _ h => by cases h; exact fault⟩

/-- A step that answers from the state it is in, and leaves it. -/
theorem Fits.of_reads {p : M α} (keeps : Keeps p) (reads : ∀ s, s.Valid → ∃ a, exec p s = (.ok a, s)) : Fits p n :=
  .of_quiet keeps fun s valid => by
    obtain ⟨a, h⟩ := reads s valid
    exact ⟨by rw [h], fun _ thrown => by rw [h] at thrown; cases thrown⟩

theorem Fits.peek : Fits peek n :=
  .of_reads Keeps.peek fun s valid => by
    obtain ⟨t, r, hr⟩ := valid.rest_cons
    exact ⟨t, exec_peek hr⟩

theorem Fits.previous : Fits previous n := .of_reads Keeps.previous fun _ _ => ⟨_, rfl⟩

theorem Fits.get : Fits (get : M State) n := .of_reads Keeps.get fun s _ => ⟨s, rfl⟩

theorem Fits.atEnd : Fits atEnd n :=
  .of_reads Keeps.atEnd fun s valid => by
    obtain ⟨t, r, hr⟩ := valid.rest_cons
    exact ⟨_, exec_atEnd hr⟩

theorem Fits.check (k : TokenKind) : Fits (check k) n :=
  .of_reads (Keeps.check k) fun s valid => by
    obtain ⟨t, r, hr⟩ := valid.rest_cons
    exact ⟨_, exec_check hr k⟩

theorem Fits.checkAny (ks : List TokenKind) : Fits (checkAny ks) n :=
  .of_reads (Keeps.checkAny ks) fun s valid => by
    obtain ⟨t, r, hr⟩ := valid.rest_cons
    exact ⟨_, exec_checkAny hr ks⟩

theorem Fits.advance : Fits advance n :=
  .of_quiet Keeps.advance fun s valid => by
    obtain ⟨t, r, hr⟩ := valid.rest_cons
    cases notEnd : isEof t.kind
    · rw [exec_advance hr notEnd]
      exact ⟨rfl, fun _ h => by cases h⟩
    · -- at the end of input nothing moves
      have : exec Parser.advance s = exec Parser.previous s := by
        simp only [Parser.advance, exec_bind, exec_atEnd hr, notEnd]
        rfl
      rw [this]
      exact ⟨rfl, fun _ h => by cases h⟩

theorem Fits.note (t : Token) {fault : ParseFault} (ne : fault ≠ .nestingLimit) : Fits (note t fault) n :=
  ⟨Keeps.note t fault, fun s _ _ unlimited => ⟨unlimited.push ne, fun _ h => by cases h⟩⟩

theorem Fits.bind {x : M α} {f : α → M β} (first : Fits x n) (next : ∀ a, Fits (f a) n) : Fits (x >>= f) n := by
  refine ⟨first.keeps.bind fun a => (next a).keeps, fun s valid enough unlimited => ?_⟩
  obtain ⟨unlimited₁, thrown₁⟩ := first.run s valid enough unlimited
  rw [exec_bind]
  rcases h : exec x s with ⟨r, s₁⟩
  rw [h] at unlimited₁ thrown₁
  cases r with
  | error e => exact ⟨unlimited₁, fun e' h' => by cases h'; exact thrown₁ e rfl⟩
  | ok a =>
    obtain ⟨valid₁, within₁⟩ := first.keeps.at h valid
    have := within₁.rest_length_le
    exact (next a).run s₁ valid₁ (by omega) unlimited₁

/-- After a token is accepted there is one token fewer to pay for. -/
theorem Fits.accept_bind {k : TokenKind} {f : Bool → M β} (hit : Fits (f true) (n - 32)) (miss : Fits (f false) n) :
    Fits (accept k >>= f) n := by
  refine ⟨(Keeps.accept k).bind fun b => Bool.casesOn b miss.keeps hit.keeps, fun s valid enough => ?_⟩
  obtain ⟨t, r, hr⟩ := valid.rest_cons
  rw [exec_accept_bind hr]
  split
  · next matched =>
    obtain ⟨notEnd, -⟩ := Bool.and_eq_true_iff.1 matched
    obtain ⟨valid₁, -, rest₁⟩ := valid.step hr (by simpa using notEnd)
    rw [hr, List.length_cons] at enough
    exact hit.run s.next valid₁ (by rw [rest₁]; omega)
  · exact miss.run s valid enough

/-- After a token is expected and found there is one token fewer to pay for. -/
theorem Fits.expect_bind {k : TokenKind} {fault : ParseFault} {f : Token → M β} (next : ∀ t, Fits (f t) (n - 32))
    (ne : fault ≠ .nestingLimit) : Fits (expect k fault >>= f) n := by
  refine ⟨(Keeps.expect k fault).bind fun t => (next t).keeps, fun s valid enough unlimited => ?_⟩
  obtain ⟨t, r, hr⟩ := valid.rest_cons
  rw [exec_expect_bind hr]
  split
  · next matched =>
    obtain ⟨notEnd, -⟩ := Bool.and_eq_true_iff.1 matched
    obtain ⟨valid₁, -, rest₁⟩ := valid.step hr (by simpa using notEnd)
    rw [hr, List.length_cons] at enough
    exact (next t).run s.next valid₁ (by rw [rest₁]; omega) unlimited
  · exact ⟨unlimited, fun _ h => by cases h; exact ne⟩

/-- `if ← accept k then A else B`. -/
theorem Fits.accept_if {k : TokenKind} {A B : M β} (hit : Fits A (n - 32)) (miss : Fits B n) :
    Fits (accept k >>= fun b => if b = true then A else B) n :=
  Fits.accept_bind hit miss

/-- An operator of a level is found, and so is not the end of input: advancing past it leaves one
token fewer to pay for. -/
theorem Fits.checkAny_advance {ks : List TokenKind} {f : Token → M β} {other : M β} (next : ∀ t, Fits (f t) (n - 32))
    (miss : Fits other n) : Fits (Parser.checkAny ks >>= fun b => if b = true then Parser.advance >>= f else other) n := by
  refine ⟨(Keeps.checkAny ks).bind fun b => ?_, fun s valid enough => ?_⟩
  · cases b
    · exact miss.keeps
    · exact Keeps.advance.bind fun t => (next t).keeps
  obtain ⟨t, r, hr⟩ := valid.rest_cons
  rw [exec_checkAny_bind hr]
  split
  · next found =>
    have notEnd : isEof t.kind = false := by simpa using (Bool.and_eq_true_iff.1 found).1
    obtain ⟨valid₁, -, rest₁⟩ := valid.step hr notEnd
    rw [exec_advance_bind hr notEnd]
    rw [hr, List.length_cons] at enough
    exact (next t).run s.next valid₁ (by rw [rest₁]; omega)
  · exact miss.run s valid enough

/-- A step that consumed a token leaves one token fewer to pay for. -/
theorem Fits.bind_grows {x : M α} {f : α → M β} (first : Fits x n) (grows : Grows x) (next : ∀ a, Fits (f a) (n - 32)) :
    Fits (x >>= f) n := by
  refine ⟨first.keeps.bind fun a => (next a).keeps, fun s valid enough unlimited => ?_⟩
  obtain ⟨unlimited₁, thrown₁⟩ := first.run s valid enough unlimited
  rw [exec_bind]
  rcases h : exec x s with ⟨r, s₁⟩
  rw [h] at unlimited₁ thrown₁
  cases r with
  | error e => exact ⟨unlimited₁, fun e' h' => by cases h'; exact thrown₁ e rfl⟩
  | ok a =>
    obtain ⟨valid₁, -⟩ := first.keeps.at h valid
    have := grows s a s₁ valid h
    exact (next a).run s₁ valid₁ (by omega) unlimited₁

theorem Fits.zero_sub {p : M α} (keeps : Keeps p) (m : Nat) : Fits p (0 - m) :=
  (Fits.zero keeps).mono (by omega)

end Fits

theorem Level.three_le_depth (lvl : Level) : 3 ≤ lvl.depth := by
  cases lvl <;> decide

/-- The expression rules at one amount of fuel: each runs out only when the fuel falls short of
its rank and 32 for each token left. -/
structure ExprFits (fuel : Nat) : Prop where
  expression : Fits (expression fuel) (fuel - 13)
  logicOr : Fits (logicOr fuel) (fuel - 12)
  orRest : ∀ left, Fits (orRest fuel left) (fuel - 1)
  logicAnd : Fits (logicAnd fuel) (fuel - 11)
  andRest : ∀ left, Fits (andRest fuel left) (fuel - 1)
  binary : ∀ lvl, Fits (binary fuel lvl) (fuel - (lvl.depth + 1))
  operand : ∀ lvl, Fits (operand fuel lvl) (fuel - lvl.depth)
  binaryRest : ∀ lvl left, Fits (binaryRest fuel lvl left) (fuel - 1)
  unary : Fits (unary fuel) (fuel - 2)
  callRest : ∀ callee, Fits (callRest fuel callee) (fuel - 1)
  arguments : ∀ acc, Fits (arguments fuel acc) (fuel - 14)
  primary : Fits (primary fuel) (fuel - 1)

/-- Each expression rule calls rules of lower rank before it consumes a token and rules of any
rank after, so it fits its budget when they fit theirs: induction on the fuel. -/
theorem exprFits : ∀ fuel, ExprFits fuel
  | 0 => by
    have keeps := exprKeeps 0
    exact ⟨.zero_sub keeps.expression _, .zero_sub keeps.logicOr _, fun _ => .zero_sub (keeps.orRest _) _,
      .zero_sub keeps.logicAnd _, fun _ => .zero_sub (keeps.andRest _) _, fun _ => .zero_sub (keeps.binary _) _,
      fun _ => .zero_sub (keeps.operand _) _, fun _ _ => .zero_sub (keeps.binaryRest _ _) _, .zero_sub keeps.unary _,
      fun _ => .zero_sub (keeps.callRest _) _, fun _ => .zero_sub (keeps.arguments _) _, .zero_sub keeps.primary _⟩
  | fuel + 1 => by
    have ih := exprFits fuel
    refine ⟨?_, ?_, fun left => ?_, ?_, fun left => ?_, fun lvl => ?binary, fun lvl => ?operand,
      fun lvl left => ?binaryRest, ?_, fun callee => ?_, fun acc => ?_, ?_⟩
    case binary =>
      simp only [Parser.binary.eq_2]
      have := Level.three_le_depth lvl
      exact Fits.bind ((ih.operand lvl).mono (by omega)) fun _ => (ih.binaryRest lvl _).mono (by omega)
    case operand =>
      simp only [Parser.operand.eq_2]
      split
      · next inner next =>
        have := Level.depth_of_next next
        exact (ih.binary inner).mono (by omega)
      · next last =>
        have := Level.depth_of_last last
        exact ih.unary.mono (by omega)
    case binaryRest =>
      simp only [Parser.binaryRest.eq_2]
      have := Level.depth_le lvl
      exact Fits.checkAny_advance (fun _ => Fits.bind ((ih.operand lvl).mono (by omega)) fun _ =>
        (ih.binaryRest lvl _).mono (by omega)) (Fits.pure _)
    all_goals
      simp only [Parser.expression.eq_2, Parser.logicOr.eq_2, Parser.orRest.eq_2, Parser.logicAnd.eq_2,
        Parser.andRest.eq_2, Parser.unary.eq_2, Parser.callRest.eq_2, Parser.arguments.eq_2, Parser.primary.eq_2,
        pure_bind]
      repeat with_reducible (first
        | apply Fits.accept_if | apply Fits.accept_bind | apply Fits.expect_bind
        | exact ih.expression.mono (by omega) | exact ih.logicOr.mono (by omega)
        | exact (ih.orRest _).mono (by omega) | exact ih.logicAnd.mono (by omega)
        | exact (ih.andRest _).mono (by omega) | exact (ih.binary _).mono (by simp only [Level.depth]; omega)
        | exact ih.unary.mono (by omega) | exact (ih.callRest _).mono (by omega)
        | exact (ih.arguments _).mono (by omega) | exact ih.primary.mono (by omega)
        | apply Fits.bind | apply Fits.pure | apply Fits.peek | apply Fits.previous | apply Fits.check
        | apply Fits.advance | apply Fits.note | apply Fits.throw | split | intro _
        | simp only [ne_eq, reduceCtorEq, not_false_eq_true])


/-- The statement rules at one amount of fuel, ranked above the expression rules they call. -/
structure StmtFits (fuel : Nat) : Prop where
  declaration : Fits (declaration fuel) (fuel - 16)
  classDecl : Fits (classDecl fuel) (fuel - 1)
  methodList : ∀ acc, Fits (methodList fuel acc) (fuel - 2)
  function : ∀ kind, Fits (function fuel kind) (fuel - 1)
  parameters : ∀ acc, Fits (parameters fuel acc) (fuel - 1)
  varDecl : Fits (varDecl fuel) (fuel - 1)
  statement : Fits (statement fuel) (fuel - 15)
  exprStmt : Fits (exprStmt fuel) (fuel - 14)
  forStmt : Fits (forStmt fuel) (fuel - 1)
  block : Fits (block fuel) (fuel - 18)
  blockBody : ∀ acc, Fits (blockBody fuel acc) (fuel - 17)

/-- The loops over the members of a body call a rule of the same rank as the loop, and can do so
only because that rule consumes a token first (`stmtGrows`). -/
theorem stmtFits : ∀ fuel, StmtFits fuel
  | 0 => by
    have keeps := stmtKeeps 0
    exact ⟨.zero_sub keeps.declaration _, .zero_sub keeps.classDecl _, fun _ => .zero_sub (keeps.methodList _) _,
      fun _ => .zero_sub (keeps.function _) _, fun _ => .zero_sub (keeps.parameters _) _,
      .zero_sub keeps.varDecl _, .zero_sub keeps.statement _, .zero_sub keeps.exprStmt _,
      .zero_sub keeps.forStmt _, .zero_sub keeps.block _, fun _ => .zero_sub (keeps.blockBody _) _⟩
  | fuel + 1 => by
    have ih := stmtFits fuel
    have ex := exprFits fuel
    refine ⟨?_, ?_, fun acc => ?methodList, fun kind => ?_, fun acc => ?_, ?_, ?_, ?_, ?_, ?_,
      fun acc => ?blockBody⟩
    case methodList =>
      simp only [Parser.methodList.eq_2]
      refine Fits.bind (Fits.check _) fun _ => Fits.bind Fits.atEnd fun _ => ?_
      split
      · exact Fits.bind_grows ((ih.function _).mono (by omega)) ((stmtGrows fuel).function _)
          fun _ => (ih.methodList _).mono (by omega)
      · exact Fits.pure _
    case blockBody =>
      simp only [Parser.blockBody.eq_2]
      refine Fits.bind (Fits.check _) fun _ => Fits.bind Fits.atEnd fun _ => ?_
      split
      · exact Fits.bind_grows (ih.declaration.mono (by omega)) (stmtGrows fuel).declaration
          fun _ => (ih.blockBody _).mono (by omega)
      · exact Fits.pure _
    all_goals
      simp only [Parser.declaration.eq_2, Parser.classDecl.eq_2, Parser.function.eq_2, Parser.parameters.eq_2,
        Parser.varDecl.eq_2, Parser.statement.eq_2, Parser.exprStmt.eq_2, Parser.forStmt.eq_2, Parser.block.eq_2,
        pure_bind]
      repeat with_reducible (first
        | apply Fits.accept_if | apply Fits.accept_bind | apply Fits.expect_bind
        | exact ih.classDecl.mono (by omega) | exact (ih.methodList _).mono (by omega)
        | exact (ih.function _).mono (by omega) | exact (ih.parameters _).mono (by omega)
        | exact ih.varDecl.mono (by omega) | exact ih.statement.mono (by omega)
        | exact ih.exprStmt.mono (by omega) | exact ih.forStmt.mono (by omega)
        | exact ih.block.mono (by omega) | exact (ih.blockBody _).mono (by omega)
        | exact ex.expression.mono (by omega)
        | apply Fits.bind | apply Fits.pure | apply Fits.peek | apply Fits.previous | apply Fits.check
        | apply Fits.note | split | intro _
        | simp only [ne_eq, reduceCtorEq, not_false_eq_true])

/-! ### Recovery -/

end Parser

/-- The keywords that start a declaration or a statement; recovery after a fault stops before one. -/
def TokenKind.isStatementKeyword : TokenKind → Bool
  | .classKw | .funKw | .varKw | .forKw | .ifKw | .whileKw | .printKw | .returnKw => true
  | _ => false

theorem TokenKind.same_semicolon {k : TokenKind} : k.same .semicolon = true ↔ k = .semicolon := by
  cases k <;> simp [TokenKind.same, TokenKind.name]

namespace Parser

/-- The token consumed last. -/
def State.last (s : State) : Token := s.tokens.getD (s.pos - 1) default

theorem exec_previous (s : State) : exec previous s = (.ok s.last, s) := rfl

theorem State.last_next {s : State} {t : Token} {r : List Token} (h : s.rest = t :: r) : s.next.last = t := by
  have read := exec_previous s.next
  rw [exec_previous_next h] at read
  cases read
  rfl

/-- Where recovery stops, after `prev` and before `rest`: at the end of input, just after a `;`, or
before a keyword that starts a statement. -/
def Boundary (prev : Token) : List Token → Prop
  | [] => True
  | t :: _ => isEof t.kind = true ∨ prev.kind = .semicolon ∨ t.kind.isStatementKeyword = true

/-- Recovery after `prev` over `rest` leaves `rest'`: it skips tokens up to the first boundary. -/
inductive Recovers : Token → List Token → List Token → Prop
  | stop {prev : Token} {rest : List Token} : Boundary prev rest → Recovers prev rest rest
  | skip {prev t : Token} {rest rest' : List Token} :
      ¬ Boundary prev (t :: rest) → Recovers t rest rest' → Recovers prev (t :: rest) rest'

theorem Recovers.suffix {prev : Token} {rest rest' : List Token} (recovers : Recovers prev rest rest') :
    rest' <:+ rest := by
  induction recovers with
  | stop => exact List.suffix_refl _
  | skip _ _ ih => exact ih.trans (List.suffix_cons _ _)

/-- One round of the skipping loop, with its keyword test as a test. -/
theorem skipToBoundary_succ (n : Nat) : synchronize.skipToBoundary (n + 1) = (do
    if ← atEnd then return
    if (← previous).kind.same .semicolon then return
    if (← peek).kind.isStatementKeyword then return
    let _ ← advance
    synchronize.skipToBoundary n) := by
  rw [synchronize.skipToBoundary.eq_2]
  congr
  funext atEnd
  congr
  funext previous
  congr
  funext next
  cases next.kind <;> rfl

/-- The skipping loop, with a round for each token left but the end, stops at the first boundary. -/
theorem skipToBoundary_recovers : ∀ n s, s.Valid → s.rest.length ≤ n + 1 →
    ∃ s', exec (synchronize.skipToBoundary n) s = (.ok (), s') ∧ s'.Valid ∧ s.Within s' ∧
      s'.recorded = s.recorded ∧ Recovers s.last s.rest s'.rest
  | 0, s, valid, short => by
    -- no round left: only the end of input remains
    obtain ⟨t, r, hr⟩ := valid.rest_cons
    have empty : r = [] := by
      rw [hr, List.length_cons] at short
      exact List.length_eq_zero_iff.1 (by omega)
    subst empty
    have eof : isEof t.kind = true := (hr ▸ valid.rest_ends).single
    exact ⟨s, rfl, valid, .refl s, rfl, .stop (by rw [hr]; exact Or.inl eof)⟩
  | n + 1, s, valid, short => by
    obtain ⟨t, r, hr⟩ := valid.rest_cons
    have stop : Boundary s.last s.rest → ∃ s', exec (pure () : M Unit) s = (.ok (), s') ∧ s'.Valid ∧
        s.Within s' ∧ s'.recorded = s.recorded ∧ Recovers s.last s.rest s'.rest :=
      fun boundary => ⟨s, rfl, valid, .refl s, rfl, .stop boundary⟩
    rw [skipToBoundary_succ, exec_atEnd_bind hr]
    cases eof : isEof t.kind
    case true => exact stop (by rw [hr]; exact Or.inl eof)
    simp only [Bool.false_eq_true, ↓reduceIte]
    rw [exec_bind_of_ok _ (exec_previous s)]
    cases semi : s.last.kind.same .semicolon
    case true => exact stop (by rw [hr]; exact Or.inr (Or.inl (TokenKind.same_semicolon.1 semi)))
    simp only [Bool.false_eq_true, ↓reduceIte]
    rw [exec_peek_bind hr]
    cases kw : t.kind.isStatementKeyword
    case true => exact stop (by rw [hr]; exact Or.inr (Or.inr kw))
    -- no boundary here: the token is skipped
    simp only [Bool.false_eq_true, ↓reduceIte]
    rw [exec_advance_bind hr eof]
    obtain ⟨valid₁, within₁, rest₁⟩ := valid.step hr eof
    have shorter : s.next.rest.length ≤ n + 1 := by
      rw [hr, List.length_cons] at short
      rw [rest₁]
      omega
    obtain ⟨s', run, valid', within', recorded', recovers⟩ := skipToBoundary_recovers n s.next valid₁ shorter
    rw [rest₁, State.last_next hr] at recovers
    have notSemi : s.last.kind ≠ .semicolon := fun same => by
      rw [TokenKind.same_semicolon.2 same] at semi
      cases semi
    refine ⟨s', run, valid', within₁.trans within', recorded', ?_⟩
    rw [hr]
    exact .skip (by simp [Boundary, eof, kw, notSemi]) recovers

/-- Recovery from a token that is not the end of input skips it, then the tokens after it up to
the first boundary. -/
theorem synchronize_recovers {s : State} {t : Token} {r : List Token} (valid : s.Valid) (hr : s.rest = t :: r)
    (notEnd : isEof t.kind = false) :
    ∃ s', exec synchronize s = (.ok (), s') ∧ s'.Valid ∧ s.Within s' ∧ s'.recorded = s.recorded ∧
      Recovers t r s'.rest := by
  obtain ⟨valid₁, within₁, rest₁⟩ := valid.step hr notEnd
  have short : s.next.rest.length ≤ s.tokens.size + 1 := by
    rw [State.length_rest]
    simp only [State.next_tokens]
    omega
  obtain ⟨s', run, valid', within', recorded', recovers⟩ := skipToBoundary_recovers _ s.next valid₁ short
  refine ⟨s', ?_, valid', within₁.trans within', recorded', ?_⟩
  · rw [synchronize, exec_advance_bind hr notEnd, exec_bind_of_ok _ (exec_get _)]
    exact run
  · rwa [rest₁, State.last_next hr] at recovers

/-- At the end of input recovery has nothing to skip. -/
theorem synchronize_at_end {s : State} {t : Token} {r : List Token} (valid : s.Valid) (hr : s.rest = t :: r)
    (atEnd : isEof t.kind = true) : exec synchronize s = (.ok (), s) := by
  have stay : exec advance s = (.ok s.last, s) := by
    simp only [advance, exec_bind, exec_atEnd hr, atEnd, Bool.not_true]
    rfl
  obtain ⟨n, size⟩ : ∃ n, s.tokens.size = n + 1 := Nat.exists_eq_succ_of_ne_zero (by have := valid.inside; omega)
  rw [synchronize, exec_bind_of_ok _ stay, exec_bind_of_ok _ (exec_get _)]
  simp only [size]
  rw [skipToBoundary_succ, exec_atEnd_bind hr, atEnd]
  rfl

/-- Recovery consumes a token unless only the end of input is left. -/
theorem synchronize_progress {s : State} (valid : s.Valid) :
    ∃ s', exec synchronize s = (.ok (), s') ∧ s'.Valid ∧ s.Within s' ∧ s'.recorded = s.recorded ∧
      (s'.rest.length = 1 ∨ s'.rest.length < s.rest.length) := by
  obtain ⟨t, r, hr⟩ := valid.rest_cons
  cases eof : isEof t.kind
  case true =>
    have empty := valid.rest_of_end hr eof
    subst empty
    exact ⟨s, synchronize_at_end valid hr eof, valid, .refl s, rfl, Or.inl (by simp [hr])⟩
  obtain ⟨s', run, valid', within', recorded', recovers⟩ := synchronize_recovers valid hr eof
  have := recovers.suffix.length_le
  exact ⟨s', run, valid', within', recorded', Or.inr (by rw [hr, List.length_cons]; omega)⟩

/-! ### The loop over declarations -/

/-- The loop over declarations, with a round for each token left: each round consumes a token, so
the loop reaches the end of input, where only the end-of-input token is left; each declaration has
the fuel it needs, so no fault recorded on the way is the nesting limit. -/
theorem declarations_reach_end : ∀ b acc s, s.Valid → s.Unlimited → s.rest.length ≤ b + 1 →
    ∃ stmts s', exec (declarations b acc) s = (.ok stmts, s') ∧ s'.Valid ∧ s.Within s' ∧
      s'.rest.length = 1 ∧ s'.Unlimited
  | 0, acc, s, valid, unlimited, short =>
    ⟨acc, s, rfl, valid, .refl s, by have := valid.rest_pos; omega, unlimited⟩
  | b + 1, acc, s, valid, unlimited, short => by
    obtain ⟨t, r, hr⟩ := valid.rest_cons
    rw [declarations, exec_atEnd_bind hr]
    cases eof : isEof t.kind
    case true =>
      have empty := valid.rest_of_end hr eof
      subst empty
      exact ⟨acc, s, rfl, valid, .refl s, by simp [hr], unlimited⟩
    simp only [Bool.false_eq_true, ↓reduceIte]
    rw [exec_bind_of_ok _ (exec_get _), exec_bind, exec_tryCatch, exec_bind]
    -- the declaration at the fuel of the loop: enough for every token
    have enough : 32 * s.rest.length ≤ fuelFor s.tokens - 16 := by
      rw [State.length_rest, fuelFor]
      omega
    have fits := (stmtFits (fuelFor s.tokens)).declaration.run s valid enough unlimited
    rcases decl : exec (declaration (fuelFor s.tokens)) s with ⟨res, s₁⟩
    rw [decl] at fits
    obtain ⟨valid₁, within₁⟩ := (stmtKeeps _).declaration.at decl valid
    have := within₁.rest_length_le
    cases res with
    | ok d =>
      -- a declaration that succeeds has consumed a token
      have grows := (stmtGrows _).declaration s d s₁ valid decl
      obtain ⟨stmts, s', run, valid', within', done, unlimited'⟩ :=
        declarations_reach_end b (acc.push d) s₁ valid₁ fits.1 (by omega)
      exact ⟨stmts, s', run, valid', within₁.trans within', done, unlimited'⟩
    | error e =>
      -- the fault is recorded, then recovery consumes a token unless at the end
      have valid₂ := valid₁.of_note e
      obtain ⟨s₃, sync, valid₃, within₃, recorded₃, progress⟩ := synchronize_progress valid₂
      have unlimited₃ : s₃.Unlimited := by
        unfold State.Unlimited
        rw [recorded₃]
        exact fits.1.push (fits.2 e rfl)
      have shorter : s₃.rest.length ≤ b + 1 := by
        rcases progress with done | moved
        · omega
        · have same : ({ s₁ with recorded := s₁.recorded.push e } : State).rest = s₁.rest := rfl
          rw [same] at moved
          omega
      obtain ⟨stmts, s', run, valid', within', done, unlimited'⟩ :=
        declarations_reach_end b acc s₃ valid₃ unlimited₃ shorter
      refine ⟨stmts, s', ?_, valid', within₁.trans ((State.Within.of_note s₁ e).trans (within₃.trans within')),
        done, unlimited'⟩
      simp only [exec_modify, exec_bind, sync, exec_pure]
      exact run

/-! ### Parsing a program or an expression -/

/-- The state a parse starts from has recorded nothing. -/
theorem State.unlimited_start (tokens : Array Token) : State.Unlimited ⟨tokens, 0, #[]⟩ := by
  simp [State.Unlimited]

/-- A lone expression never runs out of fuel: the fault it reports is one of the grammar's. -/
theorem exprParse_not_exhausted {tokens : List Token} (start : State.Valid ⟨tokens.toArray, 0, #[]⟩) (e : ParseError)
    (parsed : Expr.parse tokens = .error e) : e.fault ≠ .nestingLimit := by
  have enough : 32 * (State.rest ⟨tokens.toArray, 0, #[]⟩).length ≤ fuelFor tokens.toArray - 13 := by
    simp only [State.length_rest, fuelFor]
    omega
  have fits := (exprFits (fuelFor tokens.toArray)).expression.run _ start enough (State.unlimited_start _)
  rw [exprParse_eq, exec_bind] at parsed
  rcases run : exec (expression (fuelFor tokens.toArray)) ⟨tokens.toArray, 0, #[]⟩ with ⟨res, s₁⟩
  rw [run] at fits parsed
  obtain ⟨unlimited₁, faults⟩ := fits
  cases res with
  | error e' =>
    cases parsed
    exact faults _ rfl
  | ok x =>
    simp only at parsed
    rw [exec_bind_of_ok _ (exec_getThe _)] at parsed
    split at parsed
    · next first found =>
      -- the first fault recorded on the way
      rw [exec_bind, exec_throw] at parsed
      cases parsed
      exact unlimited₁ _ (Array.mem_of_getElem? found)
    · -- tokens left over
      obtain ⟨valid₁, -⟩ := (exprKeeps _).expression.at run start
      obtain ⟨t, r, hr⟩ := valid₁.rest_cons
      rw [exec_atEnd_bind hr] at parsed
      split at parsed
      · rw [exec_peek_bind hr, exec_bind, exec_throw] at parsed
        cases parsed
        simp only [ne_eq, reduceCtorEq, not_false_eq_true]
      · cases parsed

/-- Parsing finishes within its bounds on every token list that ends with its one end-of-input
token: the loop over declarations, given one round more than there are tokens, reaches the end of
input without leaving the tokens, and no fault that parsing a program or a lone expression reports
is the nesting limit, so the fuel never runs out. -/
theorem parse_terminates (tokens : List Token) (ends : Ends tokens) :
    (∃ stmts s, exec (declarations (tokens.length + 1) #[]) ⟨tokens.toArray, 0, #[]⟩ = (.ok stmts, s) ∧
      s.Valid ∧ s.rest.length = 1) ∧
    (∀ es, Stmt.parseProgram tokens = .error es → ∀ e ∈ es, e.fault ≠ .nestingLimit) ∧
    (∀ e, Expr.parse tokens = .error e → e.fault ≠ .nestingLimit) := by
  obtain ⟨ts, last, split, isEnd, inner⟩ := ends
  subst split
  have start := State.valid_start isEnd inner
  obtain ⟨stmts, s, run, valid, -, done, unlimited⟩ :=
    declarations_reach_end ((ts ++ [last]).length + 1) #[] _ start (State.unlimited_start _) (by simp [State.rest])
  refine ⟨⟨stmts, s, run, valid, done⟩, fun es parsed e mem => ?_, exprParse_not_exhausted start⟩
  -- the loop never throws: a program's faults are the ones it recorded
  rw [parseProgram_eq, List.size_toArray, run] at parsed
  simp only at parsed
  split at parsed
  · cases parsed
  · cases parsed
    exact unlimited e (by simpa using mem)

/-- A fault, and recovery at the `print` after it: `var = ; print x;`. -/
theorem parse_terminates_after_fault :
    let tokens : List Token := [⟨.varKw, "var", 1⟩, ⟨.equal, "=", 1⟩, ⟨.semicolon, ";", 1⟩,
      ⟨.printKw, "print", 1⟩, ⟨.identifier, "x", 1⟩, ⟨.semicolon, ";", 1⟩] ++ [⟨.eof, "", 1⟩]
    Ends tokens ∧
      (∃ stmts s, exec (declarations (tokens.length + 1) #[]) ⟨tokens.toArray, 0, #[]⟩ = (.ok stmts, s) ∧
        s.Valid ∧ s.rest.length = 1) ∧
      (∀ es, Stmt.parseProgram tokens = .error es → ∀ e ∈ es, e.fault ≠ .nestingLimit) ∧
      (∀ e, Expr.parse tokens = .error e → e.fault ≠ .nestingLimit) :=
  have ends : Ends ([⟨.varKw, "var", 1⟩, ⟨.equal, "=", 1⟩, ⟨.semicolon, ";", 1⟩, ⟨.printKw, "print", 1⟩,
      ⟨.identifier, "x", 1⟩, ⟨.semicolon, ";", 1⟩] ++ [⟨.eof, "", 1⟩]) := ⟨_, _, rfl, rfl, by decide⟩
  ⟨ends, parse_terminates _ ends⟩

end Parser

end Lox
