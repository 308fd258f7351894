import Lox.Proofs.ParserSound
/-!
Completeness of the parser: from a state whose tokens a grammar relation derives, the rule
succeeds with the derived tree, records no fault, and stops where the derivation stops. A rule
looks one token past what it derives (a binary level checks for one more operator, a call for one
more suffix), so each statement carries the condition that the token after the derivation does not
continue it, `Stops`. Fuel is enough when there are 32 for each token the rule consumes and a few
for the descent from the rule to its first token; `fuelFor` gives 64 for each token.
-/
namespace Lox.Parser

open Grammar

/-- The step run from `s` succeeds with `x`, leaves `rest`, and keeps the tokens and the faults
recorded as they were. -/
def Yields {α : Type} (p : M α) (s : State) (x : α) (rest : List Token) : Prop :=
  ∃ s', exec p s = (.ok x, s') ∧ s'.tokens = s.tokens ∧ s'.recorded = s.recorded ∧ s'.rest = rest

/-- The front token is of none of the kinds. -/
def Stops (ks : List TokenKind) (rest : List Token) : Prop := ∀ k ∈ ks, Misses k rest

/-- The suffixes that continue a call. -/
def callStops : List TokenKind := [.leftParen, .dot]

/-- The kinds that would continue an operand of a level: the operators of the tighter levels and
the call suffixes. -/
def Level.inner : Level → List TokenKind
  | .equality => Level.comparison.ops ++ Level.term.ops ++ Level.factor.ops ++ callStops
  | .comparison => Level.term.ops ++ Level.factor.ops ++ callStops
  | .term => Level.factor.ops ++ callStops
  | .factor => callStops

/-- The kinds that would continue an expression of a level. -/
def Level.stops (lvl : Level) : List TokenKind := lvl.ops ++ lvl.inner

/-- The kinds that would continue a `logic_and`. -/
def andStops : List TokenKind := .andKw :: Level.equality.stops

/-- The kinds that would continue a `logic_or`. -/
def orStops : List TokenKind := .orKw :: andStops

/-- The kinds that would continue an expression, `=` included. -/
def exprStops : List TokenKind := .equal :: orStops

/-- A token of another kind than one without payload misses it. -/
theorem misses_of_ne {t : Token} {r : List Token} {k : TokenKind} (free : k.carries = false) (ne : t.kind ≠ k) :
    Misses k (t :: r) := by
  show (!isEof t.kind && t.kind.same k) = false
  cases same : t.kind.same k
  · simp
  · exact absurd ((TokenKind.same_iff free).1 same) ne

/-! ### Steps that succeed -/

section
variable {α β : Type} {s : State} {t : Token} {r rest : List Token} {x : β}

theorem Yields.pure {a : α} (h : s.rest = rest) : Yields (pure a : M α) s a rest := ⟨s, rfl, rfl, rfl, h⟩

theorem Yields.bind {p : M α} {f : α → M β} {a : α} (first : Yields p s a r)
    (next : ∀ s₁ : State, s₁.tokens = s.tokens → s₁.recorded = s.recorded → s₁.rest = r →
      Yields (f a) s₁ x rest) : Yields (p >>= f) s x rest := by
  obtain ⟨s₁, h₁, tokens₁, recorded₁, rest₁⟩ := first
  obtain ⟨s₂, h₂, tokens₂, recorded₂, rest₂⟩ := next s₁ tokens₁ recorded₁ rest₁
  exact ⟨s₂, by rw [exec_bind_of_ok _ h₁, h₂], tokens₂.trans tokens₁, recorded₂.trans recorded₁, rest₂⟩

/-- A step that behaves as another from the same state yields what the other yields. -/
theorem Yields.of_exec {p q : M β} (same : exec p s = exec q s) (y : Yields q s x rest) : Yields p s x rest := by
  obtain ⟨s', h, rest'⟩ := y
  exact ⟨s', same.trans h, rest'⟩

/-- A step that moves one token on and then behaves as another. -/
theorem Yields.of_exec_next {p q : M β} (same : exec p s = exec q s.next) (y : Yields q s.next x rest) :
    Yields p s x rest := by
  obtain ⟨s', h, rest'⟩ := y
  exact ⟨s', same.trans h, rest'⟩

/-- A token of the kind asked for matches it. -/
theorem matches_of_kind {k : TokenKind} (is : t.kind = k) (notEnd : isEof k = false) :
    (!isEof t.kind && t.kind.same k) = true := by
  rw [is,notEnd]
  simp [TokenKind.same]

theorem Yields.accept_bind {k : TokenKind} {f : Bool → M β} (hr : s.rest = t :: r) (is : t.kind = k)
    (notEnd : isEof k = false) (next : Yields (f true) s.next x rest) : Yields (accept k >>= f) s x rest :=
  .of_exec_next (by rw [exec_accept_bind hr,if_pos (matches_of_kind is notEnd)]) next

theorem Yields.accept_bind_miss {k : TokenKind} {f : Bool → M β} (hr : s.rest = t :: r)
    (missed : Misses k s.rest) (next : Yields (f false) s x rest) : Yields (accept k >>= f) s x rest := by
  rw [hr] at missed
  have missed : (!isEof t.kind && t.kind.same k) = false := missed
  exact .of_exec (by rw [exec_accept_bind hr,missed]; rfl) next

/-- `if ← accept k then A else B` on a token of kind `k`. -/
theorem Yields.accept_then {k : TokenKind} {A B : M β} (hr : s.rest = t :: r) (is : t.kind = k)
    (notEnd : isEof k = false) (next : Yields A s.next x rest) :
    Yields (accept k >>= fun b => if b = true then A else B) s x rest :=
  Yields.accept_bind hr is notEnd next

/-- `if ← accept k then A else B` on a token of another kind. -/
theorem Yields.accept_else {k : TokenKind} {A B : M β} (hr : s.rest = t :: r) (ne : t.kind ≠ k)
    (free : k.carries = false) (next : Yields B s x rest) :
    Yields (accept k >>= fun b => if b = true then A else B) s x rest :=
  Yields.accept_bind_miss hr (hr ▸ misses_of_ne free ne) next

theorem Yields.expect_bind {k : TokenKind} {fault : ParseFault} {f : Token → M β} (hr : s.rest = t :: r)
    (is : t.kind = k) (notEnd : isEof k = false) (next : Yields (f t) s.next x rest) :
    Yields (expect k fault >>= f) s x rest :=
  .of_exec_next (by rw [exec_expect_bind hr,if_pos (matches_of_kind is notEnd)]) next

theorem Yields.check_bind {k : TokenKind} {f : Bool → M β} (hr : s.rest = t :: r)
    (next : Yields (f (!isEof t.kind && t.kind.same k)) s x rest) : Yields (check k >>= f) s x rest :=
  .of_exec (exec_check_bind hr k f) next

theorem Yields.atEnd_bind {f : Bool → M β} (hr : s.rest = t :: r) (next : Yields (f (isEof t.kind)) s x rest) :
    Yields (atEnd >>= f) s x rest :=
  .of_exec (exec_atEnd_bind hr f) next

theorem Yields.checkAny_bind {ks : List TokenKind} {f : Bool → M β} (hr : s.rest = t :: r)
    (next : Yields (f (!isEof t.kind && ks.any t.kind.same)) s x rest) : Yields (checkAny ks >>= f) s x rest :=
  .of_exec (exec_checkAny_bind hr ks f) next

theorem Yields.peek_bind {f : Token → M β} (hr : s.rest = t :: r) (next : Yields (f t) s x rest) :
    Yields (peek >>= f) s x rest :=
  .of_exec (exec_peek_bind hr f) next

theorem Yields.advance_bind {f : Token → M β} (hr : s.rest = t :: r) (notEnd : isEof t.kind = false)
    (next : Yields (f t) s.next x rest) : Yields (advance >>= f) s x rest :=
  .of_exec_next (exec_advance_bind hr notEnd f) next

theorem Yields.previous_bind {f : Token → M β} (hr : s.rest = t :: r) (next : Yields (f t) s.next x rest) :
    Yields (previous >>= f) s.next x rest :=
  .of_exec (exec_previous_next_bind hr f) next

end

/-! ### Tokens that stop a rule -/

@[simp] theorem stops_cons {k : TokenKind} {ks : List TokenKind} {rest : List Token} :
    Stops (k :: ks) rest ↔ Misses k rest ∧ Stops ks rest := by
  simp [Stops]

@[simp] theorem stops_append {ks ks' : List TokenKind} {rest : List Token} :
    Stops (ks ++ ks') rest ↔ Stops ks rest ∧ Stops ks' rest := by
  simp only [Stops,List.mem_append]
  exact ⟨fun h => ⟨fun k mem => h k (.inl mem), fun k mem => h k (.inr mem)⟩,
    fun ⟨a, b⟩ k mem => mem.elim (a k) (b k)⟩

/-- The end of input misses every kind. -/
theorem misses_of_eof {t : Token} {r : List Token} {k : TokenKind} (isEnd : isEof t.kind = true) :
    Misses k (t :: r) := by
  simp [Misses,isEnd]

/-- A token of a kind outside a list of kinds without payload stops it. -/
theorem stops_of_not_mem {t : Token} {r : List Token} {ks : List TokenKind} (free : ∀ k ∈ ks, k.carries = false)
    (out : t.kind ∉ ks) : Stops ks (t :: r) :=
  fun k mem => misses_of_ne (free k mem) (fun same => out (same ▸ mem))

theorem stops_of_eof {t : Token} {r : List Token} {ks : List TokenKind} (isEnd : isEof t.kind = true) :
    Stops ks (t :: r) :=
  fun _ _ => misses_of_eof isEnd

theorem exprStops_free : ∀ k ∈ exprStops, k.carries = false := by decide

/-- The tokens that end an expression in a statement, a group or an argument list stop it. -/
theorem stops_of_closing {t : Token} {r : List Token} {ks : List TokenKind} (sub : ∀ k ∈ ks, k ∈ exprStops)
    (closing : t.kind = .semicolon ∨ t.kind = .rightParen ∨ t.kind = .comma) : Stops ks (t :: r) := by
  refine stops_of_not_mem (fun k mem => exprStops_free k (sub k mem)) fun mem => ?_
  have := sub _ mem
  rcases closing with is | is | is <;> rw [is] at this <;> simp [exprStops,orStops,andStops,Level.stops,
    Level.inner,Level.ops,callStops] at this

theorem Level.stops_free (lvl : Level) : ∀ k ∈ lvl.stops, k.carries = false := by
  cases lvl <;> decide

theorem Level.inner_free (lvl : Level) : ∀ k ∈ lvl.inner, k.carries = false := by
  cases lvl <;> decide

/-- The operand of a level is stopped by what stops the next tighter level. -/
theorem Level.stops_of_next {lvl inner : Level} (next : lvl.next = some inner) : inner.stops = lvl.inner := by
  cases lvl <;> simp only [Level.next,Option.some.injEq,reduceCtorEq] at next <;> subst next <;> rfl

theorem Level.inner_of_last {lvl : Level} (last : lvl.next = none) : lvl.inner = callStops := by
  cases lvl <;> simp only [Level.next,reduceCtorEq] at last
  rfl

/-- An operator of a level does not continue an operand of it. -/
theorem Level.not_mem_inner {lvl : Level} {k : TokenKind} (op : k ∈ lvl.ops) : k ∉ lvl.inner := by
  cases lvl <;> simp only [Level.ops,List.mem_cons,List.not_mem_nil,or_false] at op <;>
    rcases op with rfl | rfl | rfl | rfl <;> simp [Level.inner,Level.ops,callStops]

/-- What follows the first operand of an `or` chain stops a `logic_and`. -/
theorem OrTail.stops {r left e rest} (tail : OrTail r left e rest) (stops : Stops orStops rest) :
    Stops andStops r := by
  cases tail with
  | done => exact (stops_cons.1 stops).2
  | more isOr _ _ =>
    refine stops_of_not_mem (by decide) ?_
    rw [isOr]
    simp [andStops,Level.stops,Level.inner,Level.ops,callStops]

theorem AndTail.stops {r left e rest} (tail : AndTail r left e rest) (stops : Stops andStops rest) :
    Stops Level.equality.stops r := by
  cases tail with
  | done => exact (stops_cons.1 stops).2
  | more isAnd _ _ =>
    refine stops_of_not_mem (Level.stops_free _) ?_
    rw [isAnd]
    simp [Level.stops,Level.inner,Level.ops,callStops]

theorem BinaryTail.stops {lvl r left e rest} (tail : BinaryTail lvl r left e rest) (stops : Stops lvl.stops rest) :
    Stops lvl.inner r := by
  cases tail with
  | done => exact (stops_append.1 stops).2
  | more isOp _ _ => exact stops_of_not_mem (Level.inner_free _) (Level.not_mem_inner isOp)

/-- After an argument comes `,` or the closing `)`. -/
theorem MoreArguments.stops {r es rest} (more : MoreArguments r es rest) {ks : List TokenKind}
    (sub : ∀ k ∈ ks, k ∈ exprStops) (closes : ∃ rp r', rest = rp :: r' ∧ rp.kind = .rightParen) : Stops ks r := by
  cases more with
  | done =>
    obtain ⟨rp, r', rfl, closes⟩ := closes
    exact stops_of_closing sub (.inr (.inl closes))
  | more isComma _ _ => exact stops_of_closing sub (.inr (.inr isComma))

/-- A rule's relation never derives from an empty rest, so what stops it is a token. -/
theorem Misses.cons {k : TokenKind} {rest : List Token} (missed : Misses k rest) : ∃ t r, rest = t :: r := by
  cases rest with
  | nil => exact missed.elim
  | cons t r => exact ⟨t, r, rfl⟩

/-- A token that starts a rule misses a kind the rule cannot start with. -/
theorem misses_of_starts {starts : TokenKind → Bool} {t : Token} {r : List Token} {k : TokenKind}
    (first : starts t.kind = true) (out : starts k = false) (free : k.carries = false) : Misses k (t :: r) :=
  misses_of_ne free fun same => by rw [same,out] at first; cases first

theorem isEof_of_starts {starts : TokenKind → Bool} {k : TokenKind} (first : starts k = true)
    (out : starts .eof = false) : isEof k = false := by
  cases k <;> first | rfl | (rw [out] at first; cases first)

/-- What stops a list of kinds makes the test for any of them fail. -/
theorem any_of_stops {ks : List TokenKind} {t : Token} {r : List Token} (stops : Stops ks (t :: r)) :
    (!isEof t.kind && ks.any t.kind.same) = false := by
  cases e : isEof t.kind
  · have none : ∀ k ∈ ks, t.kind.same k = false := fun k mem => by simpa [Misses,e] using stops k mem
    simpa using none
  · rfl

/-- An operator of the level makes the level's test succeed. -/
theorem any_of_mem_ops {lvl : Level} {t : Token} (op : t.kind ∈ lvl.ops) :
    (!isEof t.kind && lvl.ops.any t.kind.same) = true := by
  have notEnd : isEof t.kind = false := by
    have ends : ∀ k ∈ lvl.ops, isEof k = false := by cases lvl <;> decide
    exact ends _ op
  simp only [notEnd,Bool.not_false,Bool.true_and,List.any_eq_true]
  exact ⟨t.kind, op, by simp [TokenKind.same]⟩

/-- How deep the descent from an operand of a level to its first token goes, as fuel. -/
def Level.depth : Level → Nat
  | .equality => 9
  | .comparison => 7
  | .term => 5
  | .factor => 3

theorem Level.depth_le (lvl : Level) : lvl.depth ≤ 9 := by
  cases lvl <;> decide

theorem Level.depth_of_next {lvl inner : Level} (next : lvl.next = some inner) : inner.depth + 2 = lvl.depth := by
  cases lvl <;> simp only [Level.next,Option.some.injEq,reduceCtorEq] at next <;> subst next <;> rfl

theorem Level.depth_of_last {lvl : Level} (last : lvl.next = none) : lvl.depth = 3 := by
  cases lvl <;> simp only [Level.next,reduceCtorEq] at last
  rfl

/-! ### Expressions -/

/-- The expression rules at one amount of fuel, each complete for its relation: enough fuel, a
token after the derivation that does not continue it, and a state at its first token. -/
structure ExprComplete (fuel : Nat) : Prop where
  expression : ∀ {ts e rest}, Expression ts e rest → Stops exprStops rest →
    32 * ts.length + 13 ≤ fuel + 32 * rest.length → ∀ s, s.rest = ts → Yields (expression fuel) s e rest
  logicOr : ∀ {ts e rest}, LogicOr ts e rest → Stops orStops rest →
    32 * ts.length + 12 ≤ fuel + 32 * rest.length → ∀ s, s.rest = ts → Yields (logicOr fuel) s e rest
  orRest : ∀ {ts left e rest}, OrTail ts left e rest → Stops orStops rest →
    32 * ts.length + 1 ≤ fuel + 32 * rest.length → ∀ s, s.rest = ts → Yields (orRest fuel left) s e rest
  logicAnd : ∀ {ts e rest}, LogicAnd ts e rest → Stops andStops rest →
    32 * ts.length + 11 ≤ fuel + 32 * rest.length → ∀ s, s.rest = ts → Yields (logicAnd fuel) s e rest
  andRest : ∀ {ts left e rest}, AndTail ts left e rest → Stops andStops rest →
    32 * ts.length + 1 ≤ fuel + 32 * rest.length → ∀ s, s.rest = ts → Yields (andRest fuel left) s e rest
  binary : ∀ {lvl ts e rest}, Grammar.Binary lvl ts e rest → Stops lvl.stops rest →
    32 * ts.length + lvl.depth + 1 ≤ fuel + 32 * rest.length → ∀ s, s.rest = ts → Yields (binary fuel lvl) s e rest
  operand : ∀ {lvl ts e rest}, Operand lvl ts e rest → Stops lvl.inner rest →
    32 * ts.length + lvl.depth ≤ fuel + 32 * rest.length → ∀ s, s.rest = ts → Yields (operand fuel lvl) s e rest
  binaryRest : ∀ {lvl ts left e rest}, BinaryTail lvl ts left e rest → Stops lvl.stops rest →
    32 * ts.length + 1 ≤ fuel + 32 * rest.length → ∀ s, s.rest = ts → Yields (binaryRest fuel lvl left) s e rest
  unary : ∀ {ts e rest}, Unary ts e rest → Stops callStops rest →
    32 * ts.length + 2 ≤ fuel + 32 * rest.length → ∀ s, s.rest = ts → Yields (unary fuel) s e rest
  callRest : ∀ {ts callee e rest}, CallTail ts callee e rest → Stops callStops rest →
    32 * ts.length + 1 ≤ fuel + 32 * rest.length → ∀ s, s.rest = ts → Yields (callRest fuel callee) s e rest
  arguments : ∀ {ts e r es rest} (acc : Array Expr), Expression ts e r → MoreArguments r es rest →
    (∃ rp r', rest = rp :: r' ∧ rp.kind = .rightParen) → acc.size + es.length < 255 →
    32 * ts.length + 14 ≤ fuel + 32 * rest.length → ∀ s, s.rest = ts →
    Yields (arguments fuel acc) s (acc.toList ++ e :: es).toArray rest
  primary : ∀ {ts e rest}, Primary ts e rest →
    32 * ts.length + 1 ≤ fuel + 32 * rest.length → ∀ s, s.rest = ts → Yields (primary fuel) s e rest

/-- With no fuel there is nothing to show: every rule needs some. -/
theorem exprComplete_zero : ExprComplete 0 := by
  constructor
  · intro ts e rest d _ enough; have := d.length_lt; omega
  · intro ts e rest d _ enough; have := d.length_lt; omega
  · intro ts left e rest d _ enough; have := d.length_le; omega
  · intro ts e rest d _ enough; have := d.length_lt; omega
  · intro ts left e rest d _ enough; have := d.length_le; omega
  · intro lvl ts e rest d _ enough; have := d.length_lt; omega
  · intro lvl ts e rest d _ enough; have := d.length_lt; cases lvl <;> simp [Level.depth] at enough <;> omega
  · intro lvl ts left e rest d _ enough; have := d.length_le; omega
  · intro ts e rest d _ enough; have := d.length_lt; omega
  · intro ts callee e rest d _ enough; have := d.length_le; omega
  · intro ts e r es rest acc d more _ _ enough; have := d.length_lt; have := more.length_le; omega
  · intro ts e rest d enough; have := d.length_lt; omega

section
variable {fuel : Nat} (ih : ExprComplete fuel)
include ih

theorem expression_complete {ts e rest} (d : Expression ts e rest) (stops : Stops exprStops rest)
    (enough : 32 * ts.length + 13 ≤ fuel + 1 + 32 * rest.length) (s : State) (hs : s.rest = ts) :
    Yields (expression (fuel + 1)) s e rest := by
  rw [expression]
  cases d with
  | @assign name eq ts value _ ident equals rhs =>
    -- the name alone is a `logic_or`, stopped by the `=`
    have target : LogicOr (name :: eq :: ts) (.ident name .global) (eq :: ts) := (Call.mk (.ident ident) .done).logicOr
    have atEquals : Stops orStops (eq :: ts) :=
      stops_of_not_mem (fun k mem => exprStops_free k (.tail _ mem)) (by rw [equals]; simp [orStops,andStops,
        Level.stops,Level.inner,Level.ops,callStops])
    have := rhs.length_lt
    simp only [List.length_cons] at enough
    refine (ih.logicOr target atEquals (by simp only [List.length_cons]; omega) s hs).bind fun s₁ _ _ rest₁ => ?_
    refine Yields.accept_bind rest₁ equals rfl ?_
    simp only [↓reduceIte]
    refine Yields.previous_bind rest₁ ?_
    refine (ih.expression rhs stops (by omega) _ (State.rest_next rest₁)).bind fun s₂ _ _ rest₂ => ?_
    exact Yields.pure rest₂
  | @set eq ts object name r value _ target equals rhs =>
    have atEquals : Stops orStops (eq :: r) :=
      stops_of_not_mem (fun k mem => exprStops_free k (.tail _ mem)) (by rw [equals]; simp [orStops,andStops,
        Level.stops,Level.inner,Level.ops,callStops])
    have := target.length_lt
    have := rhs.length_lt
    simp only [List.length_cons] at *
    refine (ih.logicOr target.logicOr atEquals (by simp only [List.length_cons]; omega) s hs).bind
      fun s₁ _ _ rest₁ => ?_
    refine Yields.accept_bind rest₁ equals rfl ?_
    simp only [↓reduceIte]
    refine Yields.previous_bind rest₁ ?_
    refine (ih.expression rhs stops (by omega) _ (State.rest_next rest₁)).bind fun s₂ _ _ rest₂ => ?_
    exact Yields.pure rest₂
  | logicOr or =>
    obtain ⟨missed, stops'⟩ := stops_cons.1 stops
    obtain ⟨t, r, hr⟩ := missed.cons
    refine (ih.logicOr or stops' (by omega) s hs).bind fun s₁ _ _ rest₁ => ?_
    refine Yields.accept_bind_miss (rest₁.trans hr) (rest₁ ▸ missed) ?_
    simp only [Bool.false_eq_true,↓reduceIte]
    exact Yields.pure rest₁

theorem logicOr_complete {ts e rest} (d : LogicOr ts e rest) (stops : Stops orStops rest)
    (enough : 32 * ts.length + 12 ≤ fuel + 1 + 32 * rest.length) (s : State) (hs : s.rest = ts) :
    Yields (logicOr (fuel + 1)) s e rest := by
  rw [logicOr]
  obtain ⟨head, tail⟩ := d
  have := head.length_lt
  have := tail.length_le
  refine (ih.logicAnd head (OrTail.stops tail stops) (by omega) s hs).bind fun s₁ _ _ rest₁ => ?_
  exact ih.orRest tail stops (by omega) s₁ rest₁

theorem orRest_complete {ts left e rest} (d : OrTail ts left e rest) (stops : Stops orStops rest)
    (enough : 32 * ts.length + 1 ≤ fuel + 1 + 32 * rest.length) (s : State) (hs : s.rest = ts) :
    Yields (orRest (fuel + 1) left) s e rest := by
  rw [orRest]
  cases d with
  | done =>
    obtain ⟨missed, -⟩ := stops_cons.1 stops
    obtain ⟨t, r, hr⟩ := missed.cons
    refine Yields.accept_bind_miss (hs.trans hr) (hs ▸ missed) ?_
    simp only [Bool.false_eq_true,↓reduceIte]
    exact Yields.pure hs
  | more isOr operand tail =>
    have := operand.length_lt
    have := tail.length_le
    simp only [List.length_cons] at enough
    refine Yields.accept_bind hs isOr rfl ?_
    simp only [↓reduceIte]
    refine Yields.previous_bind hs ?_
    refine (ih.logicAnd operand (OrTail.stops tail stops) (by omega) _ (State.rest_next hs)).bind fun s₂ _ _ rest₂ => ?_
    exact ih.orRest tail stops (by omega) s₂ rest₂

theorem logicAnd_complete {ts e rest} (d : LogicAnd ts e rest) (stops : Stops andStops rest)
    (enough : 32 * ts.length + 11 ≤ fuel + 1 + 32 * rest.length) (s : State) (hs : s.rest = ts) :
    Yields (logicAnd (fuel + 1)) s e rest := by
  rw [logicAnd]
  obtain ⟨head, tail⟩ := d
  have := head.length_lt
  have := tail.length_le
  refine (ih.binary head (AndTail.stops tail stops) (by simp only [Level.depth]; omega) s hs).bind fun s₁ _ _ rest₁ => ?_
  exact ih.andRest tail stops (by omega) s₁ rest₁

theorem andRest_complete {ts left e rest} (d : AndTail ts left e rest) (stops : Stops andStops rest)
    (enough : 32 * ts.length + 1 ≤ fuel + 1 + 32 * rest.length) (s : State) (hs : s.rest = ts) :
    Yields (andRest (fuel + 1) left) s e rest := by
  rw [andRest]
  cases d with
  | done =>
    obtain ⟨missed, -⟩ := stops_cons.1 stops
    obtain ⟨t, r, hr⟩ := missed.cons
    refine Yields.accept_bind_miss (hs.trans hr) (hs ▸ missed) ?_
    simp only [Bool.false_eq_true,↓reduceIte]
    exact Yields.pure hs
  | more isAnd operand tail =>
    have := operand.length_lt
    have := tail.length_le
    simp only [List.length_cons] at enough
    refine Yields.accept_bind hs isAnd rfl ?_
    simp only [↓reduceIte]
    refine Yields.previous_bind hs ?_
    refine (ih.binary operand (AndTail.stops tail stops) (by simp only [Level.depth]; omega) _ (State.rest_next hs)).bind
      fun s₂ _ _ rest₂ => ?_
    exact ih.andRest tail stops (by omega) s₂ rest₂

theorem binary_complete {lvl ts e rest} (d : Grammar.Binary lvl ts e rest) (stops : Stops lvl.stops rest)
    (enough : 32 * ts.length + lvl.depth + 1 ≤ fuel + 1 + 32 * rest.length) (s : State) (hs : s.rest = ts) :
    Yields (binary (fuel + 1) lvl) s e rest := by
  rw [binary]
  obtain ⟨head, tail⟩ := d
  have := head.length_lt
  have := tail.length_le
  refine (ih.operand head (BinaryTail.stops tail stops) (by omega) s hs).bind fun s₁ _ _ rest₁ => ?_
  exact ih.binaryRest tail stops (by omega) s₁ rest₁

theorem operand_complete {lvl ts e rest} (d : Operand lvl ts e rest) (stops : Stops lvl.inner rest)
    (enough : 32 * ts.length + lvl.depth ≤ fuel + 1 + 32 * rest.length) (s : State) (hs : s.rest = ts) :
    Yields (operand (fuel + 1) lvl) s e rest := by
  rw [operand]
  cases d with
  | next tighter inner =>
    have := Level.depth_of_next tighter
    simp only [tighter]
    exact ih.binary inner (Level.stops_of_next tighter ▸ stops) (by omega) s hs
  | unary last inner =>
    have := Level.depth_of_last last
    simp only [last]
    exact ih.unary inner (Level.inner_of_last last ▸ stops) (by omega) s hs

theorem binaryRest_complete {lvl ts left e rest} (d : BinaryTail lvl ts left e rest) (stops : Stops lvl.stops rest)
    (enough : 32 * ts.length + 1 ≤ fuel + 1 + 32 * rest.length) (s : State) (hs : s.rest = ts) :
    Yields (binaryRest (fuel + 1) lvl left) s e rest := by
  rw [binaryRest]
  cases d with
  | done =>
    obtain ⟨ops, -⟩ := stops_append.1 stops
    have nonempty : lvl.ops ≠ [] := by cases lvl <;> simp [Level.ops]
    obtain ⟨k, ks, split⟩ := List.exists_cons_of_ne_nil nonempty
    obtain ⟨t, r, hr⟩ := (ops k (split ▸ List.mem_cons_self)).cons
    refine Yields.checkAny_bind (hs.trans hr) ?_
    rw [any_of_stops (hr ▸ ops)]
    simp only [Bool.false_eq_true,↓reduceIte]
    exact Yields.pure hs
  | more isOp operand tail =>
    have := operand.length_lt
    have := tail.length_le
    have := lvl.depth_le
    simp only [List.length_cons] at enough
    have key := any_of_mem_ops isOp
    refine Yields.checkAny_bind hs ?_
    rw [key]
    simp only [↓reduceIte]
    simp only [Bool.and_eq_true,Bool.not_eq_eq_eq_not,Bool.not_true] at key
    refine Yields.advance_bind hs key.1 ?_
    refine (ih.operand operand (BinaryTail.stops tail stops) (by omega) _ (State.rest_next hs)).bind fun s₂ _ _ rest₂ => ?_
    exact ih.binaryRest tail stops (by omega) s₂ rest₂

theorem unary_complete {ts e rest} (d : Unary ts e rest) (stops : Stops callStops rest)
    (enough : 32 * ts.length + 2 ≤ fuel + 1 + 32 * rest.length) (s : State) (hs : s.rest = ts) :
    Yields (unary (fuel + 1)) s e rest := by
  rw [unary]
  cases d with
  | operator isOperator operand =>
    have := operand.length_lt
    simp only [List.length_cons] at enough
    rcases isOperator with isBang | isMinus
    · refine Yields.accept_bind hs isBang rfl ?_
      simp only [↓reduceIte]
      refine Yields.previous_bind hs ?_
      refine (ih.unary operand stops (by omega) _ (State.rest_next hs)).bind fun s₂ _ _ rest₂ => ?_
      exact Yields.pure rest₂
    · refine Yields.accept_bind_miss hs (hs ▸ misses_of_ne rfl (by rw [isMinus]; simp)) ?_
      simp only [Bool.false_eq_true,↓reduceIte]
      refine Yields.accept_bind hs isMinus rfl ?_
      simp only [↓reduceIte]
      refine Yields.previous_bind hs ?_
      refine (ih.unary operand stops (by omega) _ (State.rest_next hs)).bind fun s₂ _ _ rest₂ => ?_
      exact Yields.pure rest₂
  | call inner =>
    obtain ⟨head, tail⟩ := inner
    obtain ⟨t, r, split, first⟩ := head.first
    have := head.length_lt
    have := tail.length_le
    -- a primary starts with neither `!` nor `-`
    refine Yields.accept_bind_miss (hs.trans split) (hs ▸ split ▸ misses_of_starts first rfl rfl) ?_
    simp only [Bool.false_eq_true,↓reduceIte]
    refine Yields.accept_bind_miss (hs.trans split) (hs ▸ split ▸ misses_of_starts first rfl rfl) ?_
    simp only [Bool.false_eq_true,↓reduceIte]
    refine (ih.primary head (by omega) s hs).bind fun s₁ _ _ rest₁ => ?_
    exact ih.callRest tail stops (by omega) s₁ rest₁

theorem callRest_complete {ts callee e rest} (d : CallTail ts callee e rest) (stops : Stops callStops rest)
    (enough : 32 * ts.length + 1 ≤ fuel + 1 + 32 * rest.length) (s : State) (hs : s.rest = ts) :
    Yields (callRest (fuel + 1) callee) s e rest := by
  rw [callRest]
  cases d with
  | done =>
    have paren := (stops_cons.1 stops).1
    have dot := (stops_cons.1 (stops_cons.1 stops).2).1
    obtain ⟨t, r, hr⟩ := paren.cons
    refine Yields.accept_bind_miss (hs.trans hr) (hs ▸ paren) ?_
    simp only [Bool.false_eq_true,↓reduceIte]
    refine Yields.accept_bind_miss (hs.trans hr) (hs ▸ dot) ?_
    simp only [Bool.false_eq_true,↓reduceIte]
    exact Yields.pure hs
  | @call lp rp ts callee args r e rest opens arguments closes few tail =>
    have := tail.length_le
    refine Yields.accept_bind hs opens rfl ?_
    simp only [↓reduceIte]
    cases arguments with
    | none =>
      simp only [List.length_cons] at enough
      refine Yields.check_bind (State.rest_next hs) ?_
      rw [matches_of_kind closes rfl]
      simp only [↓reduceIte]
      refine (Yields.pure (State.rest_next hs)).bind fun s₂ _ _ rest₂ => ?_
      refine Yields.expect_bind rest₂ closes rfl ?_
      exact ih.callRest tail stops (by omega) _ (State.rest_next rest₂)
    | some first more =>
      obtain ⟨t, r', split, starts⟩ := first.first
      have := first.length_lt
      have := more.length_le
      simp only [List.length_cons] at *
      have miss : Misses .rightParen (t :: r') := misses_of_starts starts rfl rfl
      refine Yields.check_bind ((State.rest_next hs).trans split) ?_
      rw [show (!isEof t.kind && t.kind.same .rightParen) = false from miss]
      simp only [Bool.false_eq_true,↓reduceIte]
      refine (ih.arguments #[] first more ⟨rp, r, rfl, closes⟩ (by simp; omega) (by simp only [List.length_cons]; omega) _
        (State.rest_next hs)).bind fun s₂ _ _ rest₂ => ?_
      refine Yields.expect_bind rest₂ closes rfl ?_
      simpa using ih.callRest tail stops (by omega) _ (State.rest_next rest₂)
  | get isDot ident tail =>
    have := tail.length_le
    simp only [List.length_cons] at enough
    refine Yields.accept_bind_miss hs (hs ▸ misses_of_ne rfl (by rw [isDot]; simp)) ?_
    simp only [Bool.false_eq_true,↓reduceIte]
    refine Yields.accept_bind hs isDot rfl ?_
    simp only [↓reduceIte]
    refine Yields.expect_bind (State.rest_next hs) ident rfl ?_
    exact ih.callRest tail stops (by omega) _ (State.rest_next (State.rest_next hs))

theorem arguments_complete {ts e r es rest} (acc : Array Expr) (first : Expression ts e r)
    (more : MoreArguments r es rest) (closes : ∃ rp r', rest = rp :: r' ∧ rp.kind = .rightParen)
    (few : acc.size + es.length < 255) (enough : 32 * ts.length + 14 ≤ fuel + 1 + 32 * rest.length) (s : State)
    (hs : s.rest = ts) : Yields (arguments (fuel + 1) acc) s (acc.toList ++ e :: es).toArray rest := by
  rw [arguments]
  have small : ¬ acc.size ≥ 255 := by omega
  simp only [small,↓reduceIte]
  have := first.length_lt
  have := more.length_le
  refine (ih.expression first (MoreArguments.stops more (fun _ => id) closes) (by omega) s hs).bind
    fun s₁ _ _ rest₁ => ?_
  cases more with
  | done =>
    obtain ⟨rp, r', split, isParen⟩ := closes
    refine Yields.accept_bind_miss (rest₁.trans split) (rest₁ ▸ split ▸ misses_of_ne rfl (by rw [isParen]; simp)) ?_
    simp only [Bool.false_eq_true,↓reduceIte]
    have same : acc.push e = (acc.toList ++ [e]).toArray := by
      apply Array.toList_inj.1
      simp
    rw [same]
    exact Yields.pure rest₁
  | more isComma arg tail =>
    refine Yields.accept_bind rest₁ isComma rfl ?_
    simp only [↓reduceIte]
    have := arg.length_lt
    simp only [List.length_cons] at *
    have next := ih.arguments (acc.push e) arg tail closes (by simp; omega) (by omega) _ (State.rest_next rest₁)
    simpa using next

theorem primary_complete {ts e rest} (d : Primary ts e rest)
    (enough : 32 * ts.length + 1 ≤ fuel + 1 + 32 * rest.length) (s : State) (hs : s.rest = ts) :
    Yields (primary (fuel + 1)) s e rest := by
  rw [primary]
  have := d.length_lt
  cases d with
  | false is => exact .accept_then hs is rfl (.pure (State.rest_next hs))
  | true is =>
    refine .accept_else hs (by simp [is]) rfl ?_
    exact .accept_then hs is rfl (.pure (State.rest_next hs))
  | nil is =>
    refine .accept_else hs (by simp [is]) rfl ?_
    refine .accept_else hs (by simp [is]) rfl ?_
    exact .accept_then hs is rfl (.pure (State.rest_next hs))
  | number is =>
    refine .accept_else hs (by simp [is]) rfl ?_
    refine .accept_else hs (by simp [is]) rfl ?_
    refine .accept_else hs (by simp [is]) rfl ?_
    refine .peek_bind hs ?_
    simp only [is]
    exact .advance_bind hs (by rw [is]; rfl) (.pure (State.rest_next hs))
  | string is =>
    refine .accept_else hs (by simp [is]) rfl ?_
    refine .accept_else hs (by simp [is]) rfl ?_
    refine .accept_else hs (by simp [is]) rfl ?_
    refine .peek_bind hs ?_
    simp only [is]
    exact .advance_bind hs (by rw [is]; rfl) (.pure (State.rest_next hs))
  | this is =>
    refine .accept_else hs (by simp [is]) rfl ?_
    refine .accept_else hs (by simp [is]) rfl ?_
    refine .accept_else hs (by simp [is]) rfl ?_
    refine .peek_bind hs ?_
    simp only [is]
    refine .accept_else hs (by simp [is]) rfl ?_
    refine .accept_then hs is rfl ?_
    exact .previous_bind hs (.pure (State.rest_next hs))
  | ident is =>
    refine .accept_else hs (by simp [is]) rfl ?_
    refine .accept_else hs (by simp [is]) rfl ?_
    refine .accept_else hs (by simp [is]) rfl ?_
    refine .peek_bind hs ?_
    simp only [is]
    refine .accept_else hs (by simp [is]) rfl ?_
    refine .accept_else hs (by simp [is]) rfl ?_
    refine .accept_then hs is rfl ?_
    exact .previous_bind hs (.pure (State.rest_next hs))
  | group opens inner closes =>
    refine .accept_else hs (by simp [opens]) rfl ?_
    refine .accept_else hs (by simp [opens]) rfl ?_
    refine .accept_else hs (by simp [opens]) rfl ?_
    refine .peek_bind hs ?_
    simp only [opens]
    refine .accept_else hs (by simp [opens]) rfl ?_
    refine .accept_else hs (by simp [opens]) rfl ?_
    refine .accept_else hs (by simp [opens]) rfl ?_
    refine .accept_then hs opens rfl ?_
    have := inner.length_lt
    simp only [List.length_cons] at *
    refine (ih.expression inner (stops_of_closing (fun _ => id) (.inr (.inl closes)))
      (by simp only [List.length_cons]; omega) _
      (State.rest_next hs)).bind fun s₂ _ _ rest₂ => ?_
    exact .expect_bind rest₂ closes rfl (.pure (State.rest_next rest₂))
  | super is isDot ident =>
    refine .accept_else hs (by simp [is]) rfl ?_
    refine .accept_else hs (by simp [is]) rfl ?_
    refine .accept_else hs (by simp [is]) rfl ?_
    refine .peek_bind hs ?_
    simp only [is]
    refine .accept_then hs is rfl ?_
    refine .previous_bind hs ?_
    refine .expect_bind (State.rest_next hs) isDot rfl ?_
    exact .expect_bind (State.rest_next (State.rest_next hs)) ident rfl
      (.pure (State.rest_next (State.rest_next (State.rest_next hs))))

end

/-- Every expression rule is complete at every amount of fuel. -/
theorem exprComplete : ∀ fuel, ExprComplete fuel
  | 0 => exprComplete_zero
  | fuel + 1 =>
    have ih := exprComplete fuel
    ⟨expression_complete ih, logicOr_complete ih, orRest_complete ih, logicAnd_complete ih, andRest_complete ih,
      binary_complete ih, operand_complete ih, binaryRest_complete ih, unary_complete ih, callRest_complete ih,
      arguments_complete ih, primary_complete ih⟩

/-! ### Statements -/

/-- A token that starts a rule is not of a kind the rule cannot start with. -/
theorem ne_of_starts {starts : TokenKind → Bool} {a b : TokenKind} (first : starts a = true)
    (out : starts b = false) : a ≠ b :=
  fun same => by rw [same,out] at first; cases first

/-- No `else` in front, and something there: a failed test for `else`. -/
theorem NoElse.misses {rest : List Token} (noElse : NoElse rest) (more : rest ≠ []) : Misses .elseKw rest := by
  cases rest with
  | nil => exact absurd rfl more
  | cons t r =>
    show (!isEof t.kind && t.kind.same .elseKw) = false
    simp [show t.kind.same .elseKw = false from noElse]

/-- The statement rules at one amount of fuel, each complete for its relation. The rules called
after their first token are complete for the parts of their rule that follow it. -/
structure StmtComplete (fuel : Nat) : Prop where
  declaration : ∀ {ts s rest}, Declaration ts s rest → rest ≠ [] →
    32 * ts.length + 16 ≤ fuel + 32 * rest.length → ∀ st, st.rest = ts → Yields (declaration fuel) st s rest
  classDecl : ∀ {name lb rb : Token} {ts sup r methods rest}, name.kind = .identifier →
    Superclass ts sup (lb :: r) → lb.kind = .leftBrace → Functions r methods (rb :: rest) →
    rb.kind = .rightBrace → 32 * (name :: ts).length + 1 ≤ fuel + 32 * rest.length → ∀ st, st.rest = name :: ts →
    Yields (classDecl fuel) st (.classDecl name sup methods) rest
  methodList : ∀ {ts ds rest} (acc : Array FunDecl), Functions ts ds rest →
    (∃ rb r, rest = rb :: r ∧ rb.kind = .rightBrace) → 32 * ts.length + 2 ≤ fuel + 32 * rest.length →
    ∀ st, st.rest = ts → Yields (methodList fuel acc) st (acc.toList ++ ds).toArray rest
  function : ∀ {ts d rest} (kind : FunKind), Function ts d rest →
    32 * ts.length + 1 ≤ fuel + 32 * rest.length → ∀ st, st.rest = ts → Yields (function fuel kind) st d rest
  parameters : ∀ {name : Token} {ts ps rest} (acc : Array Token), name.kind = .identifier →
    MoreParameters ts ps rest → (∃ rp r, rest = rp :: r ∧ rp.kind = .rightParen) → acc.size + ps.length < 255 →
    32 * (name :: ts).length + 1 ≤ fuel + 32 * rest.length → ∀ st, st.rest = name :: ts →
    Yields (parameters fuel acc) st (acc.toList ++ name :: ps).toArray rest
  varDecl : ∀ {ts s rest}, VarDecl ts s rest →
    32 * ts.length + 1 ≤ fuel + 32 * rest.length → ∀ st, st.rest = ts → Yields (varDecl fuel) st s rest
  statement : ∀ {ts s rest}, Statement ts s rest → rest ≠ [] →
    32 * ts.length + 15 ≤ fuel + 32 * rest.length → ∀ st, st.rest = ts → Yields (statement fuel) st s rest
  exprStmt : ∀ {semi : Token} {ts e rest}, Expression ts e (semi :: rest) → semi.kind = .semicolon →
    32 * ts.length + 14 ≤ fuel + 32 * rest.length → ∀ st, st.rest = ts →
    Yields (exprStmt fuel) st (.expression e) rest
  forStmt : ∀ {lp semi rp : Token} {ts init r1 cond r2 incr r3 body rest}, lp.kind = .leftParen →
    ForInit ts init r1 → OptExpression r1 cond (semi :: r2) → semi.kind = .semicolon →
    OptExpression r2 incr (rp :: r3) → rp.kind = .rightParen → Statement r3 body rest → rest ≠ [] →
    32 * (lp :: ts).length + 1 ≤ fuel + 32 * rest.length → ∀ st, st.rest = lp :: ts →
    Yields (forStmt fuel) st (forLoop init cond incr body) rest
  block : ∀ {rb : Token} {ts body rest}, Declarations ts body (rb :: rest) → rb.kind = .rightBrace →
    32 * ts.length + 1 ≤ fuel + 32 * rest.length → ∀ st, st.rest = ts → Yields (block fuel) st body rest
  blockBody : ∀ {ts ds rest} (acc : Array Stmt), Declarations ts ds rest →
    (∃ rb r, rest = rb :: r ∧ rb.kind = .rightBrace) → 32 * ts.length + 17 ≤ fuel + 32 * rest.length →
    ∀ st, st.rest = ts → Yields (blockBody fuel acc) st (acc.toList ++ ds).toArray rest

theorem stmtComplete_zero : StmtComplete 0 := by
  constructor
  · intro ts s rest d _ enough; have := d.length_lt; omega
  · intro name lb rb ts sup r methods rest _ superclass _ body _ enough
    have := superclass.length_le; have := body.length_le; simp only [List.length_cons] at *; omega
  · intro ts ds rest acc d _ enough; have := d.length_le; omega
  · intro ts d rest kind d' enough; have := d'.length_lt; omega
  · intro name ts ps rest acc _ more _ _ enough; have := more.length_le; simp only [List.length_cons] at *; omega
  · intro ts s rest d enough; have := d.length_lt; omega
  · intro ts s rest d _ enough; have := d.length_lt; omega
  · intro semi ts e rest d _ enough; have := d.length_lt; simp only [List.length_cons] at *; omega
  · intro lp semi rp ts init r1 cond r2 incr r3 body rest _ first condition _ increment _ loop _ enough
    have := first.length_lt; have := condition.length_le; have := increment.length_le; have := loop.length_lt
    simp only [List.length_cons] at *; omega
  · intro rb ts body rest d _ enough; have := d.length_le; simp only [List.length_cons] at *; omega
  · intro ts ds rest acc d _ enough; have := d.length_le; omega

section
variable {fuel : Nat} (ih : StmtComplete fuel)
include ih

theorem declaration_complete {ts s rest} (d : Declaration ts s rest) (more : rest ≠ [])
    (enough : 32 * ts.length + 16 ≤ fuel + 1 + 32 * rest.length) (st : State) (hs : st.rest = ts) :
    Yields (declaration (fuel + 1)) st s rest := by
  rw [declaration]
  cases d with
  | classDecl isClass ident superclass opens body closes =>
    simp only [List.length_cons] at enough
    exact .accept_then hs isClass rfl
      (ih.classDecl ident superclass opens body closes (by simp only [List.length_cons]; omega) _ (State.rest_next hs))
  | function isFun decl =>
    have := decl.length_lt
    simp only [List.length_cons] at enough
    refine .accept_else hs (by simp [isFun]) rfl (.accept_then hs isFun rfl ?_)
    exact (ih.function .function decl (by omega) _ (State.rest_next hs)).bind fun _ _ _ rest₁ => .pure rest₁
  | var isVar decl =>
    have := decl.length_lt
    simp only [List.length_cons] at enough
    refine .accept_else hs (by simp [isVar]) rfl (.accept_else hs (by simp [isVar]) rfl ?_)
    exact .accept_then hs isVar rfl (ih.varDecl decl (by omega) _ (State.rest_next hs))
  | statement stmt =>
    obtain ⟨t, r, split, first⟩ := stmt.first
    have hr := hs.trans split
    refine .accept_else hr (ne_of_starts first rfl) rfl (.accept_else hr (ne_of_starts first rfl) rfl ?_)
    exact .accept_else hr (ne_of_starts first rfl) rfl (ih.statement stmt more (by omega) st hs)

theorem classDecl_complete {name lb rb : Token} {ts sup r methods rest} (ident : name.kind = .identifier)
    (superclass : Superclass ts sup (lb :: r)) (opens : lb.kind = .leftBrace) (body : Functions r methods (rb :: rest))
    (closes : rb.kind = .rightBrace) (enough : 32 * (name :: ts).length + 1 ≤ fuel + 1 + 32 * rest.length)
    (st : State) (hs : st.rest = name :: ts) :
    Yields (classDecl (fuel + 1)) st (.classDecl name sup methods) rest := by
  rw [classDecl]
  have := superclass.length_le
  have := body.length_le
  simp only [List.length_cons] at *
  refine .expect_bind hs ident rfl ?_
  have hr := State.rest_next hs
  -- the rest of the class after its superclass clause
  have body' : ∀ st₁ : State, st₁.rest = lb :: r → Yields (do
      let _ ← expect .leftBrace .expectClassBodyOpen
      let methods ← methodList fuel #[]
      let _ ← expect .rightBrace .expectClassBodyClose
      pure (Stmt.classDecl name sup methods.toList)) st₁ (.classDecl name sup methods) rest := by
    intro st₁ h₁
    refine .expect_bind h₁ opens rfl ?_
    refine (ih.methodList #[] body ⟨rb, rest, rfl, closes⟩ (by simp only [List.length_cons]; omega) _
      (State.rest_next h₁)).bind
      fun st₂ _ _ rest₂ => ?_
    refine .expect_bind rest₂ closes rfl ?_
    simpa using Yields.pure (State.rest_next rest₂)
  cases superclass with
  | none =>
    refine .accept_bind_miss hr (hr ▸ misses_of_ne rfl (by rw [opens]; simp)) ?_
    simp only [Bool.false_eq_true,↓reduceIte]
    exact (Yields.pure hr).bind fun st₁ _ _ rest₁ => body' st₁ rest₁
  | some isLess ident' =>
    refine .accept_bind hr isLess rfl ?_
    simp only [↓reduceIte]
    refine .expect_bind (State.rest_next hr) ident' rfl ?_
    exact (Yields.pure (State.rest_next (State.rest_next hr))).bind fun st₁ _ _ rest₁ => body' st₁ rest₁

theorem methodList_complete {ts ds rest} (acc : Array FunDecl) (d : Functions ts ds rest)
    (closes : ∃ rb r, rest = rb :: r ∧ rb.kind = .rightBrace) (enough : 32 * ts.length + 2 ≤ fuel + 1 + 32 * rest.length)
    (st : State) (hs : st.rest = ts) : Yields (methodList (fuel + 1) acc) st (acc.toList ++ ds).toArray rest := by
  rw [methodList]
  cases d with
  | done =>
    obtain ⟨rb, r, split, isBrace⟩ := closes
    have hr := hs.trans split
    refine .check_bind hr (.atEnd_bind hr ?_)
    rw [matches_of_kind isBrace rfl]
    simpa using Yields.pure hs
  | more first tail =>
    have := first.length_lt
    have := tail.length_le
    obtain ⟨name, r, split, ident⟩ := first.first
    have hr := hs.trans split
    refine .check_bind hr (.atEnd_bind hr ?_)
    have miss : Misses .rightBrace (name :: r) := misses_of_ne rfl (by simp [ident])
    rw [show (!isEof name.kind && name.kind.same .rightBrace) = false from miss,
      show isEof name.kind = false by rw [ident]; rfl]
    simp only [Bool.not_false,Bool.and_self,↓reduceIte]
    refine (ih.function .method first (by omega) st hs).bind fun st₁ _ _ rest₁ => ?_
    simpa using ih.methodList (acc.push _) tail closes (by omega) st₁ rest₁

theorem function_complete {ts d rest} (kind : FunKind) (decl : Function ts d rest)
    (enough : 32 * ts.length + 1 ≤ fuel + 1 + 32 * rest.length) (st : State) (hs : st.rest = ts) :
    Yields (function (fuel + 1) kind) st d rest := by
  rw [function]
  cases decl with
  | @mk name lp rp lb rb ts params r body rest ident opens parameters closes few bodyOpens decls bodyCloses =>
  have := parameters.length_le
  have := decls.length_le
  simp only [List.length_cons] at *
  refine .expect_bind hs ident rfl (.expect_bind (State.rest_next hs) opens rfl ?_)
  have hr := State.rest_next (State.rest_next hs)
  -- what follows the parameter list
  have close : ∀ (ps : List Token) (st₁ : State), st₁.rest = rp :: lb :: r → Yields (do
      let _ ← expect .rightParen .expectParamsClose
      let _ ← expect .leftBrace (.expectBodyOpen kind)
      let body ← block fuel
      pure (FunDecl.mk name ps body)) st₁ (.mk name ps body) rest := by
    intro ps st₁ h₁
    refine .expect_bind h₁ closes rfl (.expect_bind (State.rest_next h₁) bodyOpens rfl ?_)
    exact (ih.block decls bodyCloses (by omega) _ (State.rest_next (State.rest_next h₁))).bind
      fun _ _ _ rest₂ => .pure rest₂
  cases parameters with
  | none =>
    refine .check_bind hr ?_
    rw [matches_of_kind closes rfl]
    simp only [↓reduceIte]
    exact (Yields.pure hr).bind fun st₁ _ _ rest₁ => by simpa using close [] st₁ rest₁
  | @some name' ts' ps' _ ident' more =>
    have miss : Misses .rightParen (name' :: ts') := misses_of_ne rfl (by simp [ident'])
    refine .check_bind hr ?_
    rw [show (!isEof name'.kind && name'.kind.same .rightParen) = false from miss]
    simp only [Bool.false_eq_true,↓reduceIte]
    have := more.length_le
    refine (ih.parameters #[] ident' more ⟨_, _, rfl, closes⟩ (by simp at few ⊢; omega)
      (by simp only [List.length_cons] at *; omega) _ hr).bind fun st₁ _ _ rest₁ => ?_
    simpa using close _ st₁ rest₁

theorem parameters_complete {name : Token} {ts ps rest} (acc : Array Token) (ident : name.kind = .identifier)
    (more : MoreParameters ts ps rest) (closes : ∃ rp r, rest = rp :: r ∧ rp.kind = .rightParen)
    (few : acc.size + ps.length < 255) (enough : 32 * (name :: ts).length + 1 ≤ fuel + 1 + 32 * rest.length)
    (st : State) (hs : st.rest = name :: ts) :
    Yields (parameters (fuel + 1) acc) st (acc.toList ++ name :: ps).toArray rest := by
  rw [parameters]
  have small : ¬ acc.size ≥ 255 := by omega
  simp only [small,↓reduceIte]
  refine .expect_bind hs ident rfl ?_
  have hr := State.rest_next hs
  cases more with
  | done =>
    obtain ⟨rp, r, split, isParen⟩ := closes
    refine .accept_bind_miss (hr.trans split) (hr ▸ split ▸ misses_of_ne rfl (by rw [isParen]; simp)) ?_
    simp only [Bool.false_eq_true,↓reduceIte]
    have same : acc.push name = (acc.toList ++ [name]).toArray := by
      apply Array.toList_inj.1
      simp
    rw [same]
    exact .pure hr
  | more isComma ident' tail =>
    have := tail.length_le
    simp only [List.length_cons] at *
    refine .accept_bind hr isComma rfl ?_
    simp only [↓reduceIte]
    simpa using ih.parameters (acc.push name) ident' tail closes (by simp; omega)
      (by simp only [List.length_cons]; omega) _ (State.rest_next hr)

omit ih in
theorem varDecl_complete {ts s rest} (decl : VarDecl ts s rest)
    (enough : 32 * ts.length + 1 ≤ fuel + 1 + 32 * rest.length) (st : State) (hs : st.rest = ts) :
    Yields (varDecl (fuel + 1)) st s rest := by
  rw [varDecl]
  cases decl with
  | bare ident ends =>
    refine .expect_bind hs ident rfl ?_
    have hr := State.rest_next hs
    refine .accept_bind_miss hr (hr ▸ misses_of_ne rfl (by rw [ends]; simp)) ?_
    simp only [Bool.false_eq_true,↓reduceIte]
    refine (Yields.pure hr).bind fun st₁ _ _ rest₁ => ?_
    exact .expect_bind rest₁ ends rfl (.pure (State.rest_next rest₁))
  | init ident equals value ends =>
    have := value.length_lt
    simp only [List.length_cons] at *
    refine .expect_bind hs ident rfl ?_
    have hr := State.rest_next hs
    refine .accept_bind hr equals rfl ?_
    simp only [↓reduceIte]
    refine ((exprComplete fuel).expression value (stops_of_closing (fun _ => id) (.inl ends))
      (by simp only [List.length_cons]; omega) _ (State.rest_next hr)).bind fun st₁ _ _ rest₁ => ?_
    refine (Yields.pure rest₁).bind fun st₂ _ _ rest₂ => ?_
    exact .expect_bind rest₂ ends rfl (.pure (State.rest_next rest₂))

omit ih in
theorem exprStmt_complete {semi : Token} {ts e rest} (e' : Expression ts e (semi :: rest))
    (ends : semi.kind = .semicolon) (enough : 32 * ts.length + 14 ≤ fuel + 1 + 32 * rest.length) (st : State)
    (hs : st.rest = ts) : Yields (exprStmt (fuel + 1)) st (.expression e) rest := by
  rw [exprStmt]
  refine ((exprComplete fuel).expression e' (stops_of_closing (fun _ => id) (.inl ends))
    (by simp only [List.length_cons]; omega) st hs).bind fun st₁ _ _ rest₁ => ?_
  exact .expect_bind rest₁ ends rfl (.pure (State.rest_next rest₁))

theorem block_complete {rb : Token} {ts body rest} (decls : Declarations ts body (rb :: rest))
    (closes : rb.kind = .rightBrace) (enough : 32 * ts.length + 1 ≤ fuel + 1 + 32 * rest.length) (st : State)
    (hs : st.rest = ts) : Yields (block (fuel + 1)) st body rest := by
  rw [block]
  refine (ih.blockBody #[] decls ⟨rb, rest, rfl, closes⟩ (by simp only [List.length_cons]; omega) st hs).bind
    fun st₁ _ _ rest₁ => ?_
  refine .expect_bind rest₁ closes rfl ?_
  simpa using Yields.pure (State.rest_next rest₁)

theorem blockBody_complete {ts ds rest} (acc : Array Stmt) (decls : Declarations ts ds rest)
    (closes : ∃ rb r, rest = rb :: r ∧ rb.kind = .rightBrace)
    (enough : 32 * ts.length + 17 ≤ fuel + 1 + 32 * rest.length) (st : State) (hs : st.rest = ts) :
    Yields (blockBody (fuel + 1) acc) st (acc.toList ++ ds).toArray rest := by
  rw [blockBody]
  cases decls with
  | done =>
    obtain ⟨rb, r, split, isBrace⟩ := closes
    have hr := hs.trans split
    refine .check_bind hr (.atEnd_bind hr ?_)
    rw [matches_of_kind isBrace rfl]
    simpa using Yields.pure hs
  | @more _ _ r₁ _ _ first tail =>
    have := first.length_lt
    have := tail.length_le
    obtain ⟨t, r, split, starts⟩ := first.first
    have hr := hs.trans split
    have miss : Misses .rightBrace (t :: r) := misses_of_starts starts rfl rfl
    refine .check_bind hr (.atEnd_bind hr ?_)
    rw [show (!isEof t.kind && t.kind.same .rightBrace) = false from miss, isEof_of_starts starts rfl]
    simp only [Bool.not_false,Bool.and_self,↓reduceIte]
    obtain ⟨rb, r', split', _⟩ := closes
    have more : r₁ ≠ [] := fun empty => by
      have := tail.length_le
      rw [empty,split'] at this
      simp at this
    refine (ih.declaration first more (by omega) st hs).bind fun st₁ _ _ rest₁ => ?_
    simpa using ih.blockBody (acc.push _) tail ⟨rb, r', split', by assumption⟩ (by omega) st₁ rest₁

omit ih in
/-- An optional expression tested for by the token after it, then what follows it. -/
theorem optExpression_complete {k : TokenKind} {close : Token} {ts v r rest} {β : Type} {g : Option Expr → M β}
    {x : β} (d : OptExpression ts v (close :: r)) (closes : close.kind = k)
    (closing : k = .semicolon ∨ k = .rightParen) (enough : 32 * ts.length + 13 ≤ fuel + 32 * r.length)
    (st : State) (hs : st.rest = ts) (next : ∀ st₁ : State, st₁.rest = close :: r → Yields (g v) st₁ x rest) :
    Yields (do
      if ← check k then
        let v ← pure none
        g v
      else
        let e ← expression fuel
        let v ← pure (some e)
        g v) st x rest := by
  have free : k.carries = false := by rcases closing with rfl | rfl <;> rfl
  cases d with
  | none =>
    refine .check_bind hs ?_
    rw [matches_of_kind closes (by rcases closing with rfl | rfl <;> rfl)]
    simp only [↓reduceIte]
    exact (Yields.pure hs).bind fun st₁ _ _ rest₁ => next st₁ rest₁
  | some e' =>
    obtain ⟨t, r', split, starts⟩ := e'.first
    have miss : Misses k (t :: r') := misses_of_starts starts (by rcases closing with rfl | rfl <;> rfl) free
    refine .check_bind (hs.trans split) ?_
    rw [show (!isEof t.kind && t.kind.same k) = false from miss]
    simp only [Bool.false_eq_true,↓reduceIte]
    have stops : Stops exprStops (close :: r) :=
      stops_of_closing (fun _ => id) (by rcases closing with rfl | rfl <;> simp [closes])
    refine ((exprComplete fuel).expression e' stops (by simp only [List.length_cons]; omega) st hs).bind
      fun st₁ _ _ rest₁ => ?_
    exact (Yields.pure rest₁).bind fun st₂ _ _ rest₂ => next st₂ rest₂

/-- The first clause of a `for` loop, then what follows it. -/
theorem forInit_complete {ts init r1 rest} {β : Type} {g : Option Stmt → M β} {x : β} (d : ForInit ts init r1)
    (enough : 32 * ts.length + 14 ≤ fuel + 32 * r1.length) (st : State) (hs : st.rest = ts)
    (next : ∀ st₁ : State, st₁.rest = r1 → Yields (g init) st₁ x rest) :
    Yields (do
      if ← accept .semicolon then
        let init ← pure none
        g init
      else
        if ← accept .varKw then
          let d ← varDecl fuel
          let init ← pure (some d)
          g init
        else
          let d ← exprStmt fuel
          let init ← pure (some d)
          g init) st x rest := by
  cases d with
  | none ends =>
    refine .accept_then hs ends rfl ?_
    exact (Yields.pure (State.rest_next hs)).bind fun st₁ _ _ rest₁ => next st₁ rest₁
  | var isVar decl =>
    have := decl.length_lt
    simp only [List.length_cons] at enough
    refine .accept_else hs (by simp [isVar]) rfl (.accept_then hs isVar rfl ?_)
    refine (ih.varDecl decl (by omega) _ (State.rest_next hs)).bind fun st₁ _ _ rest₁ => ?_
    exact (Yields.pure rest₁).bind fun st₂ _ _ rest₂ => next st₂ rest₂
  | expression e' ends =>
    obtain ⟨t, r, split, starts⟩ := e'.first
    have hr := hs.trans split
    refine .accept_else hr (ne_of_starts starts rfl) rfl (.accept_else hr (ne_of_starts starts rfl) rfl ?_)
    refine (ih.exprStmt e' ends (by omega) st hs).bind fun st₁ _ _ rest₁ => ?_
    exact (Yields.pure rest₁).bind fun st₂ _ _ rest₂ => next st₂ rest₂

theorem forStmt_complete {lp semi rp : Token} {ts init r1 cond r2 incr r3 body rest} (opens : lp.kind = .leftParen)
    (first : ForInit ts init r1) (condition : OptExpression r1 cond (semi :: r2)) (ends : semi.kind = .semicolon)
    (increment : OptExpression r2 incr (rp :: r3)) (closes : rp.kind = .rightParen) (loop : Statement r3 body rest)
    (more : rest ≠ []) (enough : 32 * (lp :: ts).length + 1 ≤ fuel + 1 + 32 * rest.length) (st : State)
    (hs : st.rest = lp :: ts) : Yields (forStmt (fuel + 1)) st (forLoop init cond incr body) rest := by
  rw [forStmt]
  have := first.length_lt
  have := condition.length_le
  have := increment.length_le
  have := loop.length_lt
  simp only [List.length_cons] at *
  refine .expect_bind hs opens rfl ?_
  refine forInit_complete ih first (by omega) _ (State.rest_next hs) fun st₁ rest₁ => ?_
  refine optExpression_complete condition ends (.inl rfl) (by omega) st₁ rest₁ fun st₂ rest₂ => ?_
  refine .expect_bind rest₂ ends rfl ?_
  refine optExpression_complete increment closes (.inr rfl) (by omega) _ (State.rest_next rest₂)
    fun st₃ rest₃ => ?_
  refine .expect_bind rest₃ closes rfl ?_
  refine (ih.statement loop more (by omega) _ (State.rest_next rest₃)).bind fun st₄ _ _ rest₄ => ?_
  exact .pure rest₄

theorem statement_complete {ts s rest} (d : Statement ts s rest) (more : rest ≠ [])
    (enough : 32 * ts.length + 15 ≤ fuel + 1 + 32 * rest.length) (st : State) (hs : st.rest = ts) :
    Yields (statement (fuel + 1)) st s rest := by
  rw [statement]
  have := d.length_lt
  cases d with
  | expression e' ends =>
    obtain ⟨t, r, split, starts⟩ := e'.first
    have hr := hs.trans split
    refine .accept_else hr (ne_of_starts starts rfl) rfl (.accept_else hr (ne_of_starts starts rfl) rfl ?_)
    refine .accept_else hr (ne_of_starts starts rfl) rfl (.accept_else hr (ne_of_starts starts rfl) rfl ?_)
    refine .accept_else hr (ne_of_starts starts rfl) rfl (.accept_else hr (ne_of_starts starts rfl) rfl ?_)
    exact ih.exprStmt e' ends (by omega) st hs
  | print isPrint e' ends =>
    have := e'.length_lt
    simp only [List.length_cons] at *
    refine .accept_else hs (by simp [isPrint]) rfl (.accept_else hs (by simp [isPrint]) rfl ?_)
    refine .accept_else hs (by simp [isPrint]) rfl (.accept_else hs (by simp [isPrint]) rfl ?_)
    refine .accept_else hs (by simp [isPrint]) rfl (.accept_then hs isPrint rfl ?_)
    refine ((exprComplete fuel).expression e' (stops_of_closing (fun _ => id) (.inl ends))
      (by simp only [List.length_cons]; omega) _ (State.rest_next hs)).bind fun st₁ _ _ rest₁ => ?_
    exact .expect_bind rest₁ ends rfl (.pure (State.rest_next rest₁))
  | returnStmt isReturn value ends =>
    have := value.length_le
    simp only [List.length_cons] at *
    refine .accept_else hs (by simp [isReturn]) rfl (.accept_else hs (by simp [isReturn]) rfl ?_)
    refine .accept_else hs (by simp [isReturn]) rfl (.accept_then hs isReturn rfl ?_)
    refine .previous_bind hs ?_
    refine optExpression_complete value ends (.inl rfl) (by omega) _ (State.rest_next hs) fun st₁ rest₁ => ?_
    exact .expect_bind rest₁ ends rfl (.pure (State.rest_next rest₁))
  | block opens decls closes =>
    have := decls.length_le
    simp only [List.length_cons] at *
    refine .accept_else hs (by simp [opens]) rfl (.accept_else hs (by simp [opens]) rfl ?_)
    refine .accept_else hs (by simp [opens]) rfl (.accept_else hs (by simp [opens]) rfl ?_)
    refine .accept_then hs opens rfl ?_
    exact (ih.block decls closes (by omega) _ (State.rest_next hs)).bind fun _ _ _ rest₁ => .pure rest₁
  | ifThen isIf opens cond closes thenBranch noElse =>
    have := cond.length_lt
    have := thenBranch.length_lt
    simp only [List.length_cons] at *
    refine .accept_else hs (by simp [isIf]) rfl (.accept_then hs isIf rfl ?_)
    refine .expect_bind (State.rest_next hs) opens rfl ?_
    refine ((exprComplete fuel).expression cond (stops_of_closing (fun _ => id) (.inr (.inl closes)))
      (by simp only [List.length_cons]; omega) _ (State.rest_next (State.rest_next hs))).bind
      fun st₁ _ _ rest₁ => ?_
    refine .expect_bind rest₁ closes rfl ?_
    refine (ih.statement thenBranch more (by omega) _ (State.rest_next rest₁)).bind fun st₂ _ _ rest₂ => ?_
    obtain ⟨t, r, split⟩ := List.exists_cons_of_ne_nil more
    refine .accept_bind_miss (rest₂.trans split) (rest₂ ▸ NoElse.misses noElse more) ?_
    simp only [Bool.false_eq_true,↓reduceIte]
    exact (Yields.pure rest₂).bind fun _ _ _ rest₃ => .pure rest₃
  | ifElse isIf opens cond closes thenBranch isElse elseBranch =>
    have := cond.length_lt
    have := thenBranch.length_lt
    have := elseBranch.length_lt
    simp only [List.length_cons] at *
    refine .accept_else hs (by simp [isIf]) rfl (.accept_then hs isIf rfl ?_)
    refine .expect_bind (State.rest_next hs) opens rfl ?_
    refine ((exprComplete fuel).expression cond (stops_of_closing (fun _ => id) (.inr (.inl closes)))
      (by simp only [List.length_cons]; omega) _ (State.rest_next (State.rest_next hs))).bind
      fun st₁ _ _ rest₁ => ?_
    refine .expect_bind rest₁ closes rfl ?_
    refine (ih.statement thenBranch (by simp) (by simp only [List.length_cons]; omega) _
      (State.rest_next rest₁)).bind fun st₂ _ _ rest₂ => ?_
    refine .accept_bind rest₂ isElse rfl ?_
    simp only [↓reduceIte]
    refine (ih.statement elseBranch more (by omega) _ (State.rest_next rest₂)).bind fun st₃ _ _ rest₃ => ?_
    exact (Yields.pure rest₃).bind fun _ _ _ rest₄ => .pure rest₄
  | whileLoop isWhile opens cond closes body =>
    have := cond.length_lt
    have := body.length_lt
    simp only [List.length_cons] at *
    refine .accept_else hs (by simp [isWhile]) rfl (.accept_else hs (by simp [isWhile]) rfl ?_)
    refine .accept_then hs isWhile rfl ?_
    refine .expect_bind (State.rest_next hs) opens rfl ?_
    refine ((exprComplete fuel).expression cond (stops_of_closing (fun _ => id) (.inr (.inl closes)))
      (by simp only [List.length_cons]; omega) _ (State.rest_next (State.rest_next hs))).bind
      fun st₁ _ _ rest₁ => ?_
    refine .expect_bind rest₁ closes rfl ?_
    exact (ih.statement body more (by omega) _ (State.rest_next rest₁)).bind fun _ _ _ rest₂ => .pure rest₂
  | forLoop isFor opens first condition ends increment closes loop =>
    simp only [List.length_cons] at *
    refine .accept_then hs isFor rfl ?_
    exact ih.forStmt opens first condition ends increment closes loop more (by simp only [List.length_cons]; omega)
      _ (State.rest_next hs)

end

/-- Every statement rule is complete at every amount of fuel. -/
theorem stmtComplete : ∀ fuel, StmtComplete fuel
  | 0 => stmtComplete_zero
  | fuel + 1 =>
    have ih := stmtComplete fuel
    ⟨declaration_complete ih, classDecl_complete ih, methodList_complete ih, function_complete ih,
      parameters_complete ih, varDecl_complete, statement_complete ih, exprStmt_complete, forStmt_complete ih,
      block_complete ih, blockBody_complete ih⟩

/-! ### Programs -/

section
variable {α β : Type} {s : State} {rest : List Token} {x : β}

theorem Yields.tryCatch {p : M α} {handle : ParseError → M α} {a : α} (y : Yields p s a rest) :
    Yields (MonadExcept.tryCatch p handle) s a rest := by
  obtain ⟨s', h, rest'⟩ := y
  exact ⟨s', by rw [exec_tryCatch,h], rest'⟩

theorem Yields.get_bind {f : State → M β} (next : Yields (f s) s x rest) : Yields (get >>= f) s x rest :=
  .of_exec (exec_bind_of_ok _ (exec_get s)) next

end

/-- `fuelFor` gives every declaration from any state enough fuel. -/
theorem declaration_fuel (st : State) (rest : List Token) :
    32 * st.rest.length + 16 ≤ fuelFor st.tokens + 32 * rest.length := by
  have := st.length_rest
  simp only [fuelFor]
  omega

/-- The loop over declarations, with at least as many rounds left as tokens, reads every
declaration the grammar derives up to the end of input. -/
theorem declarations_complete {e : Token} (isEnd : isEof e.kind = true) :
    ∀ k {ts ds} (acc : Array Stmt), Declarations ts ds [e] → ∀ st : State, st.rest = ts →
      ts.length ≤ k → Yields (declarations k acc) st (acc.toList ++ ds).toArray [e] := by
  -- induction on the rounds left, each of which reads one declaration
  intro k
  induction k with
  | zero =>
    intro ts ds acc d st hs short
    have := d.length_le
    simp at this
    omega
  | succ k ih =>
    intro ts ds acc d st hs short
    rw [declarations]
    cases d with
    | done =>
      refine .atEnd_bind hs ?_
      simpa [isEnd] using (Yields.pure hs : Yields (pure acc : M _) st acc [e])
    | @more _ s r ss _ first tail =>
      obtain ⟨t, r', split, starts⟩ := first.first
      have notEnd := isEof_of_starts starts rfl
      have more : r ≠ [] := by
        have := tail.length_le
        rintro rfl
        simp at this
      refine .atEnd_bind (hs.trans split) ?_
      simp only [notEnd,Bool.false_eq_true,↓reduceIte]
      refine .get_bind ?_
      have enough := hs ▸ declaration_fuel st r
      have body : Yields (declaration (fuelFor st.tokens) >>= fun d => pure (acc.push d)) st (acc.push s) r :=
        ((stmtComplete _).declaration first more enough st hs).bind fun _ _ _ rest₁ => .pure rest₁
      refine (Yields.tryCatch body).bind fun st₁ _ _ rest₁ => ?_
      have list : (acc.push s).toList ++ ss = acc.toList ++ s :: ss := by simp
      rw [← list]
      exact ih _ tail st₁ rest₁ (by have := first.length_lt; omega)

theorem Yields.run_ok {β : Type} {p : M β} {s : State} {x : β} {rest : List Token} (y : Yields p s x rest) :
    (exec p s).1 = .ok x := by
  obtain ⟨s', h, -⟩ := y
  rw [h]

/-- A program the grammar derives parses, to the statements derived. -/
theorem parseProgram_complete {ts : List Token} {e : Token} {stmts : List Stmt} (isEnd : isEof e.kind = true)
    (d : Declarations (ts ++ [e]) stmts [e]) : Stmt.parseProgram (ts ++ [e]) = .ok stmts := by
  obtain ⟨s', h, -, recorded, -⟩ := declarations_complete isEnd ((ts ++ [e]).toArray.size + 1) #[] d
    ⟨(ts ++ [e]).toArray, 0, #[]⟩ (by simp [State.rest]) (by simp)
  rw [parseProgram_eq,h]
  simp [recorded]

/-- An expression the grammar derives up to the end of input parses, to the tree derived. -/
theorem exprParse_complete {ts : List Token} {e : Token} {x : Expr} (isEnd : isEof e.kind = true)
    (d : Expression (ts ++ [e]) x [e]) : Expr.parse (ts ++ [e]) = .ok x := by
  rw [exprParse_eq]
  have start : State.rest ⟨(ts ++ [e]).toArray, 0, #[]⟩ = ts ++ [e] := by simp [State.rest]
  refine Yields.run_ok (?_ : Yields _ _ _ [e])
  refine (((exprComplete (fuelFor (ts ++ [e]).toArray)).expression d (stops_of_eof isEnd)
    (by simp [fuelFor]; omega) _ start).bind fun st₁ _ recorded₁ rest₁ => ?_)
  refine .of_exec (exec_bind_of_ok _ (exec_getThe _)) ?_
  simp only [recorded₁,Array.getElem?_empty]
  refine .atEnd_bind rest₁ ?_
  simpa [isEnd] using Yields.pure rest₁

/-! ### The parser decides the grammar -/

/-- On tokens that end in the one end-of-input token, a program parses exactly when the grammar
derives it, and to the statements derived; so does a lone expression. -/
theorem parser_accepts_exactly_grammar {ts : List Token} {e : Token} (isEnd : isEof e.kind = true)
    (inner : ∀ t ∈ ts, isEof t.kind = false) :
    (∀ stmts, Stmt.parseProgram (ts ++ [e]) = .ok stmts ↔ Declarations (ts ++ [e]) stmts [e]) ∧
    (∀ x, Expr.parse (ts ++ [e]) = .ok x ↔ Expression (ts ++ [e]) x [e]) := by
  constructor
  · intro stmts
    exact ⟨parseProgram_sound isEnd inner, parseProgram_complete isEnd⟩
  · intro x
    exact ⟨exprParse_sound isEnd inner, exprParse_complete isEnd⟩

/-- The tokens of `print nil;` meet the hypotheses. -/
theorem parser_accepts_exactly_grammar_print :
    isEof TokenKind.eof = true ∧
    (∀ t ∈ [⟨.printKw, "print", 1⟩, ⟨.nilKw, "nil", 1⟩, ⟨.semicolon, ";", 1⟩], isEof (Token.kind t) = false) ∧
    ((∀ stmts, Stmt.parseProgram ([⟨.printKw, "print", 1⟩, ⟨.nilKw, "nil", 1⟩, ⟨.semicolon, ";", 1⟩] ++
        [⟨.eof, "", 1⟩]) = .ok stmts ↔
      Declarations ([⟨.printKw, "print", 1⟩, ⟨.nilKw, "nil", 1⟩, ⟨.semicolon, ";", 1⟩] ++ [⟨.eof, "", 1⟩]) stmts
        [⟨.eof, "", 1⟩]) ∧
    (∀ x, Expr.parse ([⟨.printKw, "print", 1⟩, ⟨.nilKw, "nil", 1⟩, ⟨.semicolon, ";", 1⟩] ++ [⟨.eof, "", 1⟩]) = .ok x ↔
      Expression ([⟨.printKw, "print", 1⟩, ⟨.nilKw, "nil", 1⟩, ⟨.semicolon, ";", 1⟩] ++ [⟨.eof, "", 1⟩]) x
        [⟨.eof, "", 1⟩])) :=
  ⟨rfl, by decide, parser_accepts_exactly_grammar rfl (by decide)⟩

/-- A program has one derivation: the grammar is unambiguous. -/
theorem Declarations.unique {ts : List Token} {e : Token} {ss ss' : List Stmt} (isEnd : isEof e.kind = true)
    (d : Declarations (ts ++ [e]) ss [e]) (d' : Declarations (ts ++ [e]) ss' [e]) : ss = ss' := by
  have same := (parseProgram_complete isEnd d).symm.trans (parseProgram_complete isEnd d')
  simpa using same

/-- A lone expression has one derivation. -/
theorem Expression.unique {ts : List Token} {e : Token} {x x' : Expr} (isEnd : isEof e.kind = true)
    (d : Expression (ts ++ [e]) x [e]) (d' : Expression (ts ++ [e]) x' [e]) : x = x' := by
  have same := (exprParse_complete isEnd d).symm.trans (exprParse_complete isEnd d')
  simpa using same

end Lox.Parser
