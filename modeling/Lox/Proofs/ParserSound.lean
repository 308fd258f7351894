import Lox.Proofs.ParserSteps
/-!
Soundness of the parser: every rule that succeeds from a valid state without recording a fault has
consumed tokens that its grammar relation derives into the result. The rules take fuel, and the
statement is proved for all fuel at once, by induction, first for the expression rules and then
for the statement rules, which call them.
-/
namespace Lox.Parser

open Grammar

/-- A parsing step is sound for a relation: when it succeeds from a valid state, it ends in a
valid state further on, and if no fault has been recorded by then, the tokens it consumed derive
its result. -/
def Sound {α : Type} (p : M α) (R : List Token → α → List Token → Prop) : Prop :=
  ∀ s x s', exec p s = (.ok x, s') → s.Valid → s'.Valid ∧ s.Within s' ∧ (s'.Clean → R s.rest x s'.rest)

/-- The operators of every level carry no payload. -/
theorem carries_of_mem_ops {lvl : Level} {k : TokenKind} (mem : k ∈ lvl.ops) : k.carries = false := by
  cases lvl <;> simp only [Level.ops,List.mem_cons,List.not_mem_nil,or_false] at mem <;>
    rcases mem with rfl | rfl | rfl | rfl <;> rfl

theorem mem_ops_of_any {lvl : Level} {k : TokenKind} (h : lvl.ops.any k.same = true) : k ∈ lvl.ops := by
  obtain ⟨k', mem, same⟩ := List.any_eq_true.1 h
  rw [(TokenKind.same_iff (carries_of_mem_ops mem)).1 same]
  exact mem

/-- The expression rules at one amount of fuel, each sound for its relation. -/
structure ExprSound (fuel : Nat) : Prop where
  expression : Sound (expression fuel) Expression
  logicOr : Sound (logicOr fuel) LogicOr
  orRest : ∀ left, Sound (orRest fuel left) (fun ts e rest => OrTail ts left e rest)
  logicAnd : Sound (logicAnd fuel) LogicAnd
  andRest : ∀ left, Sound (andRest fuel left) (fun ts e rest => AndTail ts left e rest)
  binary : ∀ lvl, Sound (binary fuel lvl) (Grammar.Binary lvl)
  operand : ∀ lvl, Sound (operand fuel lvl) (Operand lvl)
  binaryRest : ∀ lvl left, Sound (binaryRest fuel lvl left) (fun ts e rest => BinaryTail lvl ts left e rest)
  unary : Sound (unary fuel) Unary
  callRest : ∀ callee, Sound (callRest fuel callee) (fun ts e rest => CallTail ts callee e rest)
  arguments : ∀ acc, Sound (arguments fuel acc) (fun ts args rest =>
    ∃ e r es, args.toList = acc.toList ++ e :: es ∧ args.size ≤ 255 ∧ Expression ts e r ∧ MoreArguments r es rest)
  primary : Sound (primary fuel) Primary

/-- Running out of fuel is a fault, never a success. -/
theorem outOfFuel_ne_ok {α : Type} {s s' : State} {x : α} : exec outOfFuel s ≠ (.ok x, s') := by
  intro h
  rw [outOfFuel] at h
  obtain ⟨t, s₁, -, h⟩ := exec_bind_ok h
  cases h

theorem exprSound_zero : ExprSound 0 := by
  refine ⟨?_,?_,?_,?_,?_,?_,?_,?_,?_,?_,?_,?_⟩ <;> intros <;> intro s x s' h <;>
    simp only [Parser.expression,Parser.logicOr,Parser.orRest,Parser.logicAnd,Parser.andRest,Parser.binary,
      Parser.operand,Parser.binaryRest,Parser.unary,Parser.callRest,Parser.arguments,Parser.primary] at h <;>
    exact absurd h outOfFuel_ne_ok

section
variable {fuel : Nat} (ih : ExprSound fuel)
include ih

theorem expression_sound : Sound (expression (fuel + 1)) Expression := by
  intro s x s' h valid
  rw [expression] at h
  obtain ⟨target, s₁, h₁, h⟩ := exec_bind_ok h
  obtain ⟨valid₁, within₁, or⟩ := ih.logicOr s target s₁ h₁ valid
  obtain ⟨t, r, hr⟩ := valid₁.rest_cons
  rw [exec_accept_bind hr] at h
  split at h
  · next equals =>
    obtain ⟨isEq, notEnd⟩ := kind_of_match rfl equals
    obtain ⟨valid₂, within₂, rest₂⟩ := valid₁.step hr notEnd
    simp only [↓reduceIte,exec_previous_next_bind hr] at h
    obtain ⟨value, s₃, h₃, h⟩ := exec_bind_ok h
    obtain ⟨valid₃, within₃, rhs⟩ := ih.expression _ value s₃ h₃ valid₂
    have upTo₂ := within₁.trans within₂
    split at h
    · next name addr =>
      cases h
      refine ⟨valid₃, upTo₂.trans within₃, fun clean => ?_⟩
      have lhs := or ((within₂.trans within₃).clean clean)
      obtain ⟨split, ident, -⟩ := Call.ident_inv (LogicOr.call_of_plain trivial lhs)
      rw [split,hr]
      exact .assign ident isEq (rest₂ ▸ rhs clean)
    · next object name =>
      cases h
      refine ⟨valid₃, upTo₂.trans within₃, fun clean => ?_⟩
      have lhs := or ((within₂.trans within₃).clean clean)
      rw [hr] at lhs
      exact .set (LogicOr.call_of_plain trivial lhs) isEq (rest₂ ▸ rhs clean)
    · -- any other target is recorded as invalid
      rw [exec_note_bind] at h
      cases h
      refine ⟨valid₃.of_note _, (upTo₂.trans within₃).trans (.of_note _ _), fun clean => ?_⟩
      exact absurd clean (State.Within.not_clean_of_note (.refl _))
  · simp only [Bool.false_eq_true,↓reduceIte] at h
    cases h
    exact ⟨valid₁, within₁, fun clean => .logicOr (or clean)⟩

theorem logicOr_sound : Sound (logicOr (fuel + 1)) LogicOr := by
  intro s x s' h valid
  rw [logicOr] at h
  obtain ⟨first, s₁, h₁, h⟩ := exec_bind_ok h
  obtain ⟨valid₁, within₁, head⟩ := ih.logicAnd s first s₁ h₁ valid
  obtain ⟨valid₂, within₂, tail⟩ := ih.orRest first s₁ x s' h valid₁
  exact ⟨valid₂, within₁.trans within₂, fun clean => .mk (head (within₂.clean clean)) (tail clean)⟩

theorem orRest_sound (left : Expr) : Sound (orRest (fuel + 1) left) (fun ts e rest => OrTail ts left e rest) := by
  intro s x s' h valid
  rw [orRest] at h
  obtain ⟨t, r, hr⟩ := valid.rest_cons
  rw [exec_accept_bind hr] at h
  split at h
  · next matched =>
    obtain ⟨isOr, notEnd⟩ := kind_of_match rfl matched
    obtain ⟨valid₁, within₁, rest₁⟩ := valid.step hr notEnd
    simp only [↓reduceIte,exec_previous_next_bind hr] at h
    obtain ⟨right, s₂, h₂, h⟩ := exec_bind_ok h
    obtain ⟨valid₂, within₂, operand⟩ := ih.logicAnd _ right s₂ h₂ valid₁
    obtain ⟨valid₃, within₃, tail⟩ := ih.orRest _ s₂ x s' h valid₂
    refine ⟨valid₃, (within₁.trans within₂).trans within₃, fun clean => ?_⟩
    rw [hr]
    exact .more isOr (rest₁ ▸ operand (within₃.clean clean)) (tail clean)
  · simp only [Bool.false_eq_true,↓reduceIte] at h
    cases h
    exact ⟨valid, .refl _, fun _ => .done⟩

theorem logicAnd_sound : Sound (logicAnd (fuel + 1)) LogicAnd := by
  intro s x s' h valid
  rw [logicAnd] at h
  obtain ⟨first, s₁, h₁, h⟩ := exec_bind_ok h
  obtain ⟨valid₁, within₁, head⟩ := ih.binary .equality s first s₁ h₁ valid
  obtain ⟨valid₂, within₂, tail⟩ := ih.andRest first s₁ x s' h valid₁
  exact ⟨valid₂, within₁.trans within₂, fun clean => .mk (head (within₂.clean clean)) (tail clean)⟩

theorem andRest_sound (left : Expr) :
    Sound (andRest (fuel + 1) left) (fun ts e rest => AndTail ts left e rest) := by
  intro s x s' h valid
  rw [andRest] at h
  obtain ⟨t, r, hr⟩ := valid.rest_cons
  rw [exec_accept_bind hr] at h
  split at h
  · next matched =>
    obtain ⟨isAnd, notEnd⟩ := kind_of_match rfl matched
    obtain ⟨valid₁, within₁, rest₁⟩ := valid.step hr notEnd
    simp only [↓reduceIte,exec_previous_next_bind hr] at h
    obtain ⟨right, s₂, h₂, h⟩ := exec_bind_ok h
    obtain ⟨valid₂, within₂, operand⟩ := ih.binary .equality _ right s₂ h₂ valid₁
    obtain ⟨valid₃, within₃, tail⟩ := ih.andRest _ s₂ x s' h valid₂
    refine ⟨valid₃, (within₁.trans within₂).trans within₃, fun clean => ?_⟩
    rw [hr]
    exact .more isAnd (rest₁ ▸ operand (within₃.clean clean)) (tail clean)
  · simp only [Bool.false_eq_true,↓reduceIte] at h
    cases h
    exact ⟨valid, .refl _, fun _ => .done⟩

theorem binary_sound (lvl : Level) : Sound (binary (fuel + 1) lvl) (Grammar.Binary lvl) := by
  intro s x s' h valid
  rw [binary] at h
  obtain ⟨first, s₁, h₁, h⟩ := exec_bind_ok h
  obtain ⟨valid₁, within₁, head⟩ := ih.operand lvl s first s₁ h₁ valid
  obtain ⟨valid₂, within₂, tail⟩ := ih.binaryRest lvl first s₁ x s' h valid₁
  exact ⟨valid₂, within₁.trans within₂, fun clean => .mk (head (within₂.clean clean)) (tail clean)⟩

theorem operand_sound (lvl : Level) : Sound (operand (fuel + 1) lvl) (Operand lvl) := by
  intro s x s' h valid
  rw [operand] at h
  split at h
  · next inner tighter =>
    obtain ⟨valid', within, derives⟩ := ih.binary inner s x s' h valid
    exact ⟨valid', within, fun clean => .next tighter (derives clean)⟩
  · next last =>
    obtain ⟨valid', within, derives⟩ := ih.unary s x s' h valid
    exact ⟨valid', within, fun clean => .unary last (derives clean)⟩

theorem binaryRest_sound (lvl : Level) (left : Expr) :
    Sound (binaryRest (fuel + 1) lvl left) (fun ts e rest => BinaryTail lvl ts left e rest) := by
  intro s x s' h valid
  rw [binaryRest] at h
  obtain ⟨t, r, hr⟩ := valid.rest_cons
  rw [exec_checkAny_bind hr] at h
  split at h
  · next matched =>
    simp only [Bool.and_eq_true,Bool.not_eq_eq_eq_not,Bool.not_true] at matched
    obtain ⟨notEnd, isOp⟩ := matched
    obtain ⟨valid₁, within₁, rest₁⟩ := valid.step hr notEnd
    rw [exec_advance_bind hr notEnd] at h
    obtain ⟨right, s₂, h₂, h⟩ := exec_bind_ok h
    obtain ⟨valid₂, within₂, operand⟩ := ih.operand lvl _ right s₂ h₂ valid₁
    obtain ⟨valid₃, within₃, tail⟩ := ih.binaryRest lvl _ s₂ x s' h valid₂
    refine ⟨valid₃, (within₁.trans within₂).trans within₃, fun clean => ?_⟩
    rw [hr]
    exact .more (mem_ops_of_any isOp) (rest₁ ▸ operand (within₃.clean clean)) (tail clean)
  · cases h
    exact ⟨valid, .refl _, fun _ => .done⟩

theorem unary_sound : Sound (unary (fuel + 1)) Unary := by
  intro s x s' h valid
  rw [unary] at h
  obtain ⟨t, r, hr⟩ := valid.rest_cons
  rw [exec_accept_bind hr] at h
  split at h
  · next matched =>
    obtain ⟨isBang, notEnd⟩ := kind_of_match rfl matched
    obtain ⟨valid₁, within₁, rest₁⟩ := valid.step hr notEnd
    simp only [↓reduceIte,exec_previous_next_bind hr] at h
    obtain ⟨e, s₂, h₂, h⟩ := exec_bind_ok h
    obtain ⟨valid₂, within₂, operand⟩ := ih.unary _ e s₂ h₂ valid₁
    cases h
    refine ⟨valid₂, within₁.trans within₂, fun clean => ?_⟩
    rw [hr]
    exact .operator (.inl isBang) (rest₁ ▸ operand clean)
  · simp only [Bool.false_eq_true,↓reduceIte] at h
    rw [exec_accept_bind hr] at h
    split at h
    · next matched =>
      obtain ⟨isMinus, notEnd⟩ := kind_of_match rfl matched
      obtain ⟨valid₁, within₁, rest₁⟩ := valid.step hr notEnd
      simp only [↓reduceIte,exec_previous_next_bind hr] at h
      obtain ⟨e, s₂, h₂, h⟩ := exec_bind_ok h
      obtain ⟨valid₂, within₂, operand⟩ := ih.unary _ e s₂ h₂ valid₁
      cases h
      refine ⟨valid₂, within₁.trans within₂, fun clean => ?_⟩
      rw [hr]
      exact .operator (.inr isMinus) (rest₁ ▸ operand clean)
    · simp only [Bool.false_eq_true,↓reduceIte] at h
      obtain ⟨first, s₁, h₁, h⟩ := exec_bind_ok h
      obtain ⟨valid₁, within₁, head⟩ := ih.primary s first s₁ h₁ valid
      obtain ⟨valid₂, within₂, tail⟩ := ih.callRest first s₁ x s' h valid₁
      exact ⟨valid₂, within₁.trans within₂, fun clean => .call (.mk (head (within₂.clean clean)) (tail clean))⟩

/-- The end of a call: its closing parenthesis, then more call suffixes. -/
theorem closeCall_sound (callee : Expr) (args : List Expr) {s x s'}
    (h : exec (do
      let paren ← expect .rightParen .expectArgumentsClose
      callRest fuel (.call callee paren args)) s = (.ok x, s')) (valid : s.Valid) :
    s'.Valid ∧ s.Within s' ∧ (s'.Clean →
      ∃ rp r, s.rest = rp :: r ∧ rp.kind = .rightParen ∧ CallTail r (.call callee rp args) x s'.rest) := by
  obtain ⟨t, r, hr⟩ := valid.rest_cons
  rw [exec_expect_bind hr] at h
  split at h
  · next matched =>
    obtain ⟨closes, notEnd⟩ := kind_of_match rfl matched
    obtain ⟨valid₁, within₁, rest₁⟩ := valid.step hr notEnd
    obtain ⟨valid₂, within₂, tail⟩ := ih.callRest _ _ x s' h valid₁
    exact ⟨valid₂, within₁.trans within₂, fun clean => ⟨t, r, hr, closes, rest₁ ▸ tail clean⟩⟩
  · cases h

theorem callRest_sound (callee : Expr) :
    Sound (callRest (fuel + 1) callee) (fun ts e rest => CallTail ts callee e rest) := by
  intro s x s' h valid
  rw [callRest] at h
  obtain ⟨t, r, hr⟩ := valid.rest_cons
  rw [exec_accept_bind hr] at h
  split at h
  · next matched =>
    obtain ⟨opens, notEnd⟩ := kind_of_match rfl matched
    obtain ⟨valid₁, within₁, rest₁⟩ := valid.step hr notEnd
    obtain ⟨t₁, r₁, hr₁⟩ := valid₁.rest_cons
    simp only [↓reduceIte] at h
    rw [exec_check_bind hr₁] at h
    split at h
    · -- no arguments before `)`
      rw [exec_bind_of_ok _ (exec_pure _ _)] at h
      obtain ⟨valid₂, within₂, close⟩ := closeCall_sound ih callee _ h valid₁
      refine ⟨valid₂, within₁.trans within₂, fun clean => ?_⟩
      obtain ⟨rp, r₂, split, closes, tail⟩ := close clean
      rw [hr, ← rest₁, split]
      exact .call opens .none closes (by simp) tail
    · obtain ⟨args, s₂, h₂, h⟩ := exec_bind_ok h
      obtain ⟨valid₂, within₂, derives⟩ := ih.arguments #[] _ args s₂ h₂ valid₁
      obtain ⟨valid₃, within₃, close⟩ := closeCall_sound ih callee _ h valid₂
      refine ⟨valid₃, (within₁.trans within₂).trans within₃, fun clean => ?_⟩
      obtain ⟨rp, r₂, split, closes, tail⟩ := close clean
      obtain ⟨e, r', es, list, few, first, more⟩ := derives (within₃.clean clean)
      simp only [List.nil_append] at list
      rw [split] at more
      rw [list] at tail
      have len : (e :: es).length ≤ 255 := by rw [← list,Array.length_toList]; exact few
      rw [hr, ← rest₁]
      exact .call opens (.some first more) closes len tail
  · simp only [Bool.false_eq_true,↓reduceIte] at h
    rw [exec_accept_bind hr] at h
    split at h
    · next matched =>
      obtain ⟨isDot, notEnd⟩ := kind_of_match rfl matched
      obtain ⟨valid₁, within₁, rest₁⟩ := valid.step hr notEnd
      obtain ⟨t₁, r₁, hr₁⟩ := valid₁.rest_cons
      simp only [↓reduceIte] at h
      rw [exec_expect_bind hr₁] at h
      split at h
      · next named =>
        obtain ⟨ident, notEnd₁⟩ := kind_of_match rfl named
        obtain ⟨valid₂, within₂, rest₂⟩ := valid₁.step hr₁ notEnd₁
        obtain ⟨valid₃, within₃, tail⟩ := ih.callRest _ _ x s' h valid₂
        refine ⟨valid₃, (within₁.trans within₂).trans within₃, fun clean => ?_⟩
        rw [hr, ← rest₁, hr₁]
        exact .get isDot ident (rest₂ ▸ tail clean)
      · cases h
    · simp only [Bool.false_eq_true,↓reduceIte] at h
      cases h
      exact ⟨valid, .refl _, fun _ => .done⟩

/-- The arguments after the size check: one expression, then more after a comma. -/
theorem moreArguments_sound (acc : Array Expr) {s x s'}
    (h : exec (do
      let e ← expression fuel
      let more ← accept .comma
      if more = true then arguments fuel (acc.push e) else pure (acc.push e)) s = (.ok x, s'))
    (valid : s.Valid) :
    s'.Valid ∧ s.Within s' ∧ (s'.Clean → acc.size < 255 → ∃ e r es, x.toList = acc.toList ++ e :: es ∧
      x.size ≤ 255 ∧ Expression s.rest e r ∧ MoreArguments r es s'.rest) := by
  obtain ⟨e, s₁, h₁, h⟩ := exec_bind_ok h
  obtain ⟨valid₁, within₁, first⟩ := ih.expression s e s₁ h₁ valid
  obtain ⟨t, r, hr⟩ := valid₁.rest_cons
  rw [exec_accept_bind hr] at h
  split at h
  · next matched =>
    obtain ⟨isComma, notEnd⟩ := kind_of_match rfl matched
    obtain ⟨valid₂, within₂, rest₂⟩ := valid₁.step hr notEnd
    simp only [↓reduceIte] at h
    obtain ⟨valid₃, within₃, more⟩ := ih.arguments _ _ x s' h valid₂
    refine ⟨valid₃, (within₁.trans within₂).trans within₃, fun clean _ => ?_⟩
    obtain ⟨e', r', es, list, few, next, tail⟩ := more clean
    refine ⟨e, s₁.rest, e' :: es, by simp [list], few, first ((within₂.trans within₃).clean clean), ?_⟩
    rw [hr]
    exact .more isComma (rest₂ ▸ next) tail
  · simp only [Bool.false_eq_true,↓reduceIte] at h
    cases h
    exact ⟨valid₁, within₁, fun clean few => ⟨e, _, [], by simp, by simp; omega, first clean, .done⟩⟩

theorem arguments_sound (acc : Array Expr) : Sound (arguments (fuel + 1) acc) (fun ts args rest =>
    ∃ e r es, args.toList = acc.toList ++ e :: es ∧ args.size ≤ 255 ∧ Expression ts e r ∧ MoreArguments r es rest) := by
  intro s x s' h valid
  rw [arguments] at h
  by_cases big : acc.size ≥ 255
  · -- the 256th argument is recorded, so the parse is not clean
    obtain ⟨t, r, hr⟩ := valid.rest_cons
    simp only [big,↓reduceIte] at h
    rw [exec_peek_bind hr,exec_note_bind] at h
    obtain ⟨valid', within', -⟩ := moreArguments_sound ih acc h (valid.of_note _)
    exact ⟨valid', (State.Within.of_note _ _).trans within',
      fun clean => absurd clean (State.Within.not_clean_of_note within')⟩
  · simp only [big,↓reduceIte] at h
    obtain ⟨valid', within', derives⟩ := moreArguments_sound ih acc h valid
    exact ⟨valid', within', fun clean => derives clean (by omega)⟩

theorem primary_sound : Sound (primary (fuel + 1)) Primary := by
  intro s x s' h valid
  rw [primary] at h
  obtain ⟨t, r, hr⟩ := valid.rest_cons
  -- the one-token primaries end one token further on
  have single {e : Expr} (derives : Primary (t :: r) e r) (notEnd : isEof t.kind = false) :
      s.next.Valid ∧ s.Within s.next ∧ (s.next.Clean → Primary s.rest e s.next.rest) := by
    obtain ⟨valid₁, within₁, rest₁⟩ := valid.step hr notEnd
    exact ⟨valid₁, within₁, fun _ => hr ▸ rest₁ ▸ derives⟩
  rw [exec_accept_bind hr] at h
  split at h
  · next matched =>
    obtain ⟨is, notEnd⟩ := kind_of_match rfl matched
    cases h
    exact single (.false is) notEnd
  simp only [Bool.false_eq_true,↓reduceIte] at h
  rw [exec_accept_bind hr] at h
  split at h
  · next matched =>
    obtain ⟨is, notEnd⟩ := kind_of_match rfl matched
    cases h
    exact single (.true is) notEnd
  simp only [Bool.false_eq_true,↓reduceIte] at h
  rw [exec_accept_bind hr] at h
  split at h
  · next matched =>
    obtain ⟨is, notEnd⟩ := kind_of_match rfl matched
    cases h
    exact single (.nil is) notEnd
  simp only [Bool.false_eq_true,↓reduceIte] at h
  rw [exec_peek_bind hr] at h
  split at h
  · next n is =>
    have notEnd : isEof t.kind = false := by rw [is]; rfl
    rw [exec_advance_bind hr notEnd] at h
    cases h
    exact single (.number is) notEnd
  · next str is =>
    have notEnd : isEof t.kind = false := by rw [is]; rfl
    rw [exec_advance_bind hr notEnd] at h
    cases h
    exact single (.string is) notEnd
  rw [exec_accept_bind hr] at h
  split at h
  · next matched =>
    obtain ⟨is, notEnd⟩ := kind_of_match rfl matched
    obtain ⟨valid₁, within₁, rest₁⟩ := valid.step hr notEnd
    obtain ⟨t₁, r₁, hr₁⟩ := valid₁.rest_cons
    simp only [↓reduceIte,exec_previous_next_bind hr,exec_expect_bind hr₁] at h
    split at h
    · next dotted =>
      obtain ⟨isDot, notEnd₁⟩ := kind_of_match rfl dotted
      obtain ⟨valid₂, within₂, rest₂⟩ := valid₁.step hr₁ notEnd₁
      obtain ⟨t₂, r₂, hr₂⟩ := valid₂.rest_cons
      rw [exec_expect_bind hr₂] at h
      split at h
      · next named =>
        obtain ⟨ident, notEnd₂⟩ := kind_of_match rfl named
        obtain ⟨valid₃, within₃, rest₃⟩ := valid₂.step hr₂ notEnd₂
        cases h
        refine ⟨valid₃, (within₁.trans within₂).trans within₃, fun _ => ?_⟩
        rw [hr, ← rest₁, hr₁, ← rest₂, hr₂, ← rest₃]
        exact .super is isDot ident
      · cases h
    · cases h
  simp only [Bool.false_eq_true,↓reduceIte] at h
  rw [exec_accept_bind hr] at h
  split at h
  · next matched =>
    obtain ⟨is, notEnd⟩ := kind_of_match rfl matched
    simp only [↓reduceIte,exec_previous_next_bind hr] at h
    cases h
    exact single (.this is) notEnd
  simp only [Bool.false_eq_true,↓reduceIte] at h
  rw [exec_accept_bind hr] at h
  split at h
  · next matched =>
    obtain ⟨is, notEnd⟩ := kind_of_match rfl matched
    simp only [↓reduceIte,exec_previous_next_bind hr] at h
    cases h
    exact single (.ident is) notEnd
  simp only [Bool.false_eq_true,↓reduceIte] at h
  rw [exec_accept_bind hr] at h
  split at h
  · next matched =>
    obtain ⟨opens, notEnd⟩ := kind_of_match rfl matched
    obtain ⟨valid₁, within₁, rest₁⟩ := valid.step hr notEnd
    simp only [↓reduceIte] at h
    obtain ⟨e, s₂, h₂, h⟩ := exec_bind_ok h
    obtain ⟨valid₂, within₂, inner⟩ := ih.expression _ e s₂ h₂ valid₁
    obtain ⟨t₂, r₂, hr₂⟩ := valid₂.rest_cons
    rw [exec_expect_bind hr₂] at h
    split at h
    · next closed =>
      obtain ⟨closes, notEnd₂⟩ := kind_of_match rfl closed
      obtain ⟨valid₃, within₃, rest₃⟩ := valid₂.step hr₂ notEnd₂
      cases h
      refine ⟨valid₃, (within₁.trans within₂).trans within₃, fun clean => ?_⟩
      have derives := inner (within₃.clean clean)
      rw [hr₂] at derives
      rw [hr, ← rest₁, rest₃]
      exact .group opens derives closes
    · cases h
  simp only [Bool.false_eq_true,↓reduceIte,exec_peek_bind hr] at h
  cases h

end

/-- Every expression rule is sound at every amount of fuel. -/
theorem exprSound : ∀ fuel, ExprSound fuel
  | 0 => exprSound_zero
  | fuel + 1 =>
    have ih := exprSound fuel
    ⟨expression_sound ih, logicOr_sound ih, orRest_sound ih, logicAnd_sound ih, andRest_sound ih, binary_sound ih,
      operand_sound ih, binaryRest_sound ih, unary_sound ih, callRest_sound ih, arguments_sound ih, primary_sound ih⟩

/-! ### Statements -/

/-- The statement rules at one amount of fuel, each sound for its relation. The rules called after
their first token (`classDecl`, `forStmt`) are sound for their rule with that token in front. -/
structure StmtSound (fuel : Nat) : Prop where
  declaration : Sound (declaration fuel) Declaration
  classDecl : Sound (classDecl fuel)
    (fun ts s rest => ∀ {kw : Token}, kw.kind = .classKw → Declaration (kw :: ts) s rest)
  methodList : ∀ acc, Sound (methodList fuel acc) (fun ts ms rest =>
    ∃ more, ms.toList = acc.toList ++ more ∧ Functions ts more rest)
  function : ∀ kind, Sound (function fuel kind) Function
  parameters : ∀ acc, Sound (parameters fuel acc) (fun ts ps rest => ∃ name more r, ts = name :: r ∧
    name.kind = .identifier ∧ ps.toList = acc.toList ++ name :: more ∧ ps.size ≤ 255 ∧ MoreParameters r more rest)
  varDecl : Sound (varDecl fuel) VarDecl
  statement : Sound (statement fuel) Statement
  exprStmt : Sound (exprStmt fuel) (fun ts s rest =>
    ∃ e semi, s = .expression e ∧ semi.kind = .semicolon ∧ Expression ts e (semi :: rest))
  forStmt : Sound (forStmt fuel)
    (fun ts s rest => ∀ {kw : Token}, kw.kind = .forKw → Statement (kw :: ts) s rest)
  block : Sound (block fuel) (fun ts body rest => ∃ rb, rb.kind = .rightBrace ∧ Declarations ts body (rb :: rest))
  blockBody : ∀ acc, Sound (blockBody fuel acc) (fun ts body rest =>
    ∃ more, body.toList = acc.toList ++ more ∧ Declarations ts more rest)

theorem stmtSound_zero : StmtSound 0 := by
  constructor <;> intros <;> intro s x s' h <;>
    simp only [Parser.declaration.eq_1,Parser.classDecl.eq_1,Parser.methodList.eq_1,Parser.function.eq_1,
      Parser.parameters.eq_1,Parser.varDecl.eq_1,Parser.statement.eq_1,Parser.exprStmt.eq_1,Parser.forStmt.eq_1,
      Parser.block.eq_1,Parser.blockBody.eq_1] at h <;>
    exact absurd h outOfFuel_ne_ok

theorem isEof_eq {k : TokenKind} (h : isEof k = true) : k = .eof := by
  cases k <;> simp_all [isEof]

/-- A failed `accept .elseKw` leaves no `else` in front. -/
theorem Misses.noElse {rest : List Token} (missed : Misses .elseKw rest) : NoElse rest := by
  cases rest with
  | nil => exact missed.elim
  | cons t r =>
    show t.kind.same .elseKw = false
    cases e : isEof t.kind
    · simpa [Misses,e] using missed
    · rw [isEof_eq e]
      rfl

/-- An optional expression tested for by the token after it, then what follows it. -/
theorem optExpression_sound (fuel : Nat) (k : TokenKind) {β : Type} {g : Option Expr → M β} {s s' : State} {x : β}
    (h : exec (do
      if ← check k then
        let v ← pure none
        g v
      else
        let e ← expression fuel
        let v ← pure (some e)
        g v) s = (.ok x, s'))
    (valid : s.Valid) :
    ∃ v s₁, s₁.Valid ∧ s.Within s₁ ∧ (s₁.Clean → OptExpression s.rest v s₁.rest) ∧ exec (g v) s₁ = (.ok x, s') := by
  obtain ⟨t, r, hr⟩ := valid.rest_cons
  rw [exec_check_bind hr] at h
  split at h
  · rw [exec_bind_of_ok _ (exec_pure _ _)] at h
    exact ⟨none, s, valid, .refl _, fun _ => .none, h⟩
  · obtain ⟨e, s₁, h₁, h⟩ := exec_bind_ok h
    obtain ⟨valid₁, within₁, derives⟩ := (exprSound fuel).expression s e s₁ h₁ valid
    rw [exec_bind_of_ok _ (exec_pure _ _)] at h
    exact ⟨some e, s₁, valid₁, within₁, fun clean => .some (derives clean), h⟩

/-- The optional superclass clause of a class, then what follows it. -/
theorem superclass_sound {β : Type} {g : Option Expr → M β} {s s' : State} {x : β}
    (h : exec (do
      if ← accept .less then
        let name ← expect .identifier .expectSuperclassName
        let superclass ← pure (some (Expr.ident name .global))
        g superclass
      else
        let superclass ← pure none
        g superclass) s = (.ok x, s'))
    (valid : s.Valid) :
    ∃ sup s₁, s₁.Valid ∧ s.Within s₁ ∧ Superclass s.rest sup s₁.rest ∧ exec (g sup) s₁ = (.ok x, s') := by
  rcases exec_accept_bind_ok rfl h valid with ⟨lt, hr, isLess, valid₁, within₁, h⟩ | ⟨-, h⟩
  · simp only [↓reduceIte] at h
    obtain ⟨name, hr₁, ident, valid₂, within₂, h⟩ := exec_expect_bind_ok rfl h valid₁
    refine ⟨_, _, valid₂, within₁.trans within₂, ?_, h⟩
    rw [hr, hr₁]
    exact .some isLess ident
  · simp only [Bool.false_eq_true,↓reduceIte] at h
    exact ⟨_, _, valid, .refl _, .none, h⟩

theorem varDecl_sound (fuel : Nat) : Sound (varDecl (fuel + 1)) VarDecl := by
  intro s x s' h valid
  rw [varDecl] at h
  obtain ⟨name, hr, ident, valid₁, within₁, h⟩ := exec_expect_bind_ok rfl h valid
  rcases exec_accept_bind_ok rfl h valid₁ with ⟨eq, hr₁, equals, valid₂, within₂, h⟩ | ⟨-, h⟩
  · simp only [↓reduceIte] at h
    obtain ⟨e, s₃, h₃, h⟩ := exec_bind_ok h
    obtain ⟨valid₃, within₃, value⟩ := (exprSound fuel).expression _ e s₃ h₃ valid₂
    rw [exec_bind_of_ok _ (exec_pure _ _)] at h
    obtain ⟨semi, hr₃, ends, valid₄, within₄, h⟩ := exec_expect_bind_ok rfl h valid₃
    cases h
    refine ⟨valid₄, within₁.trans (within₂.trans (within₃.trans within₄)), fun clean => ?_⟩
    have value := value (within₄.clean clean)
    rw [hr₃] at value
    rw [hr, hr₁]
    exact .init ident equals value ends
  · simp only [Bool.false_eq_true,↓reduceIte] at h
    rw [exec_bind_of_ok _ (exec_pure _ _)] at h
    obtain ⟨semi, hr₁, ends, valid₂, within₂, h⟩ := exec_expect_bind_ok rfl h valid₁
    cases h
    refine ⟨valid₂, within₁.trans within₂, fun _ => ?_⟩
    rw [hr, hr₁]
    exact .bare ident ends

theorem exprStmt_sound (fuel : Nat) : Sound (exprStmt (fuel + 1)) (fun ts s rest =>
    ∃ e semi, s = .expression e ∧ semi.kind = .semicolon ∧ Expression ts e (semi :: rest)) := by
  intro s x s' h valid
  rw [exprStmt] at h
  obtain ⟨e, s₁, h₁, h⟩ := exec_bind_ok h
  obtain ⟨valid₁, within₁, derives⟩ := (exprSound fuel).expression _ e s₁ h₁ valid
  obtain ⟨semi, hr₁, ends, valid₂, within₂, h⟩ := exec_expect_bind_ok rfl h valid₁
  cases h
  refine ⟨valid₂, within₁.trans within₂, fun clean => ⟨e, semi, rfl, ends, ?_⟩⟩
  rw [← hr₁]
  exact derives (within₂.clean clean)

section
variable {fuel : Nat} (ih : StmtSound fuel)
include ih

theorem declaration_sound : Sound (declaration (fuel + 1)) Declaration := by
  intro s x s' h valid
  rw [declaration] at h
  rcases exec_accept_bind_ok rfl h valid with ⟨kw, hr, isClass, valid₁, within₁, h⟩ | ⟨-, h⟩
  · simp only [↓reduceIte] at h
    obtain ⟨valid₂, within₂, decl⟩ := ih.classDecl _ x s' h valid₁
    exact ⟨valid₂, within₁.trans within₂, fun clean => hr ▸ decl clean isClass⟩
  simp only [Bool.false_eq_true,↓reduceIte] at h
  rcases exec_accept_bind_ok rfl h valid with ⟨kw, hr, isFun, valid₁, within₁, h⟩ | ⟨-, h⟩
  · simp only [↓reduceIte] at h
    obtain ⟨d, s₂, h₂, h⟩ := exec_bind_ok h
    obtain ⟨valid₂, within₂, decl⟩ := ih.function .function _ d s₂ h₂ valid₁
    cases h
    exact ⟨valid₂, within₁.trans within₂, fun clean => hr ▸ .function isFun (decl clean)⟩
  simp only [Bool.false_eq_true,↓reduceIte] at h
  rcases exec_accept_bind_ok rfl h valid with ⟨kw, hr, isVar, valid₁, within₁, h⟩ | ⟨-, h⟩
  · simp only [↓reduceIte] at h
    obtain ⟨valid₂, within₂, decl⟩ := ih.varDecl _ x s' h valid₁
    exact ⟨valid₂, within₁.trans within₂, fun clean => hr ▸ .var isVar (decl clean)⟩
  simp only [Bool.false_eq_true,↓reduceIte] at h
  obtain ⟨valid', within', stmt⟩ := ih.statement s x s' h valid
  exact ⟨valid', within', fun clean => .statement (stmt clean)⟩

theorem classDecl_sound : Sound (classDecl (fuel + 1))
    (fun ts s rest => ∀ {kw : Token}, kw.kind = .classKw → Declaration (kw :: ts) s rest) := by
  intro s x s' h valid
  rw [classDecl] at h
  obtain ⟨name, hr, ident, valid₁, within₁, h⟩ := exec_expect_bind_ok rfl h valid
  obtain ⟨sup, s₂, valid₂, within₂, super, h⟩ := superclass_sound h valid₁
  obtain ⟨lb, hr₂, opens, valid₃, within₃, h⟩ := exec_expect_bind_ok rfl h valid₂
  obtain ⟨methods, s₄, h₄, h⟩ := exec_bind_ok h
  obtain ⟨valid₄, within₄, body⟩ := ih.methodList #[] _ methods s₄ h₄ valid₃
  obtain ⟨rb, hr₄, closes, valid₅, within₅, h⟩ := exec_expect_bind_ok rfl h valid₄
  cases h
  refine ⟨valid₅, within₁.trans (within₂.trans (within₃.trans (within₄.trans within₅))), fun clean => ?_⟩
  intro kw isClass
  obtain ⟨more, list, functions⟩ := body (within₅.clean clean)
  rw [Array.toList_empty,List.nil_append] at list
  rw [hr₂] at super
  rw [hr₄] at functions
  rw [hr, list]
  exact .classDecl isClass ident super opens functions closes

theorem methodList_sound (acc : Array FunDecl) : Sound (methodList (fuel + 1) acc) (fun ts ms rest =>
    ∃ more, ms.toList = acc.toList ++ more ∧ Functions ts more rest) := by
  intro s x s' h valid
  rw [methodList] at h
  obtain ⟨t, r, hr⟩ := valid.rest_cons
  rw [exec_check_bind hr,exec_atEnd_bind hr] at h
  split at h
  · obtain ⟨d, s₁, h₁, h⟩ := exec_bind_ok h
    obtain ⟨valid₁, within₁, first⟩ := ih.function .method s d s₁ h₁ valid
    obtain ⟨valid₂, within₂, tail⟩ := ih.methodList _ s₁ x s' h valid₁
    refine ⟨valid₂, within₁.trans within₂, fun clean => ?_⟩
    obtain ⟨more, list, functions⟩ := tail clean
    exact ⟨d :: more, by simp [list], .more (first (within₂.clean clean)) functions⟩
  · cases h
    exact ⟨valid, .refl _, fun _ => ⟨[], by simp, .done⟩⟩

/-- The parameter list of a function, absent before `)`, then what follows it. -/
theorem parameterList_sound {β : Type} {g : Array Token → M β} {s s' : State} {x : β}
    (h : exec (do
      if ← check .rightParen then
        let params ← pure #[]
        g params
      else
        let params ← parameters fuel #[]
        g params) s = (.ok x, s'))
    (valid : s.Valid) :
    ∃ ps s₁, s₁.Valid ∧ s.Within s₁ ∧ (s₁.Clean → Parameters s.rest ps.toList s₁.rest ∧ ps.size ≤ 255) ∧
      exec (g ps) s₁ = (.ok x, s') := by
  obtain ⟨t, r, hr⟩ := valid.rest_cons
  rw [exec_check_bind hr] at h
  split at h
  · rw [exec_bind_of_ok _ (exec_pure _ _)] at h
    exact ⟨#[], s, valid, .refl _, fun _ => ⟨.none, by simp⟩, h⟩
  · obtain ⟨ps, s₁, h₁, h⟩ := exec_bind_ok h
    obtain ⟨valid₁, within₁, params⟩ := ih.parameters #[] s ps s₁ h₁ valid
    refine ⟨ps, s₁, valid₁, within₁, fun clean => ?_, h⟩
    obtain ⟨name, more, r', split, ident, list, few, tail⟩ := params clean
    rw [Array.toList_empty,List.nil_append] at list
    rw [list, split]
    exact ⟨.some ident tail, few⟩

theorem function_sound (kind : FunKind) : Sound (function (fuel + 1) kind) Function := by
  intro s x s' h valid
  rw [function] at h
  obtain ⟨name, hr, ident, valid₁, within₁, h⟩ := exec_expect_bind_ok rfl h valid
  obtain ⟨lp, hr₁, opens, valid₂, within₂, h⟩ := exec_expect_bind_ok rfl h valid₁
  obtain ⟨params, s₃, valid₃, within₃, parameters, h⟩ := parameterList_sound ih h valid₂
  obtain ⟨rp, hr₃, closes, valid₄, within₄, h⟩ := exec_expect_bind_ok rfl h valid₃
  obtain ⟨lb, hr₄, bodyOpens, valid₅, within₅, h⟩ := exec_expect_bind_ok rfl h valid₄
  obtain ⟨body, s₆, h₆, h⟩ := exec_bind_ok h
  obtain ⟨valid₆, within₆, block⟩ := ih.block _ body s₆ h₆ valid₅
  cases h
  have upTo₃ := within₄.trans (within₅.trans within₆)
  refine ⟨valid₆, within₁.trans (within₂.trans (within₃.trans upTo₃)), fun clean => ?_⟩
  obtain ⟨rb, bodyCloses, decls⟩ := block clean
  obtain ⟨params', few⟩ := parameters (upTo₃.clean clean)
  rw [hr₃, hr₄] at params'
  rw [hr, hr₁]
  exact .mk ident opens params' closes (by simpa using few) bodyOpens decls bodyCloses

/-- The parameters after the size check: a name, then more after a comma. -/
theorem moreParameters_sound (acc : Array Token) {s x s'}
    (h : exec (do
      let name ← expect .identifier .expectParamName
      let more ← accept .comma
      if more = true then parameters fuel (acc.push name) else pure (acc.push name)) s = (.ok x, s'))
    (valid : s.Valid) :
    s'.Valid ∧ s.Within s' ∧ (s'.Clean → acc.size < 255 → ∃ name more r, s.rest = name :: r ∧
      name.kind = .identifier ∧ x.toList = acc.toList ++ name :: more ∧ x.size ≤ 255 ∧
      MoreParameters r more s'.rest) := by
  obtain ⟨name, hr, ident, valid₁, within₁, h⟩ := exec_expect_bind_ok rfl h valid
  rcases exec_accept_bind_ok rfl h valid₁ with ⟨comma, hr₁, isComma, valid₂, within₂, h⟩ | ⟨-, h⟩
  · simp only [↓reduceIte] at h
    obtain ⟨valid₃, within₃, more⟩ := ih.parameters _ _ x s' h valid₂
    refine ⟨valid₃, within₁.trans (within₂.trans within₃), fun clean _ => ?_⟩
    obtain ⟨name', more', r', split, ident', list, few, tail⟩ := more clean
    refine ⟨name, name' :: more', s.next.rest, hr, ident, by simp [list], few, ?_⟩
    rw [hr₁, split]
    exact .more isComma ident' tail
  · simp only [Bool.false_eq_true,↓reduceIte] at h
    cases h
    exact ⟨valid₁, within₁, fun _ few => ⟨name, [], _, hr, ident, by simp, by simp; omega, .done⟩⟩

theorem parameters_sound (acc : Array Token) : Sound (parameters (fuel + 1) acc) (fun ts ps rest =>
    ∃ name more r, ts = name :: r ∧ name.kind = .identifier ∧ ps.toList = acc.toList ++ name :: more ∧
      ps.size ≤ 255 ∧ MoreParameters r more rest) := by
  intro s x s' h valid
  rw [parameters] at h
  by_cases big : acc.size ≥ 255
  · -- the 256th parameter is recorded, so the parse is not clean
    obtain ⟨t, r, hr⟩ := valid.rest_cons
    simp only [big,↓reduceIte] at h
    rw [exec_peek_bind hr,exec_note_bind] at h
    obtain ⟨valid', within', -⟩ := moreParameters_sound ih acc h (valid.of_note _)
    exact ⟨valid', (State.Within.of_note _ _).trans within',
      fun clean => absurd clean (State.Within.not_clean_of_note within')⟩
  · simp only [big,↓reduceIte] at h
    obtain ⟨valid', within', derives⟩ := moreParameters_sound ih acc h valid
    exact ⟨valid', within', fun clean => derives clean (by omega)⟩

/-- The first clause of a `for` loop, then what follows it. -/
theorem forInit_sound {β : Type} {g : Option Stmt → M β} {s s' : State} {x : β}
    (h : exec (do
      if ← accept .semicolon then
        let init ← pure none
        g init
      else
        if ← accept .varKw then
          let d ← varDecl fuel
          let init ← pure (some d)
          g init
        else
          let d ← exprStmt fuel
          let init ← pure (some d)
          g init) s = (.ok x, s'))
    (valid : s.Valid) :
    ∃ init s₁, s₁.Valid ∧ s.Within s₁ ∧ (s₁.Clean → ForInit s.rest init s₁.rest) ∧
      exec (g init) s₁ = (.ok x, s') := by
  rcases exec_accept_bind_ok rfl h valid with ⟨semi, hr, ends, valid₁, within₁, h⟩ | ⟨-, h⟩
  · simp only [↓reduceIte] at h
    rw [exec_bind_of_ok _ (exec_pure _ _)] at h
    exact ⟨none, _, valid₁, within₁, fun _ => hr ▸ .none ends, h⟩
  simp only [Bool.false_eq_true,↓reduceIte] at h
  rcases exec_accept_bind_ok rfl h valid with ⟨kw, hr, isVar, valid₁, within₁, h⟩ | ⟨-, h⟩
  · simp only [↓reduceIte] at h
    obtain ⟨d, s₂, h₂, h⟩ := exec_bind_ok h
    obtain ⟨valid₂, within₂, decl⟩ := ih.varDecl _ d s₂ h₂ valid₁
    rw [exec_bind_of_ok _ (exec_pure _ _)] at h
    exact ⟨some d, s₂, valid₂, within₁.trans within₂, fun clean => hr ▸ .var isVar (decl clean), h⟩
  · simp only [Bool.false_eq_true,↓reduceIte] at h
    obtain ⟨d, s₁, h₁, h⟩ := exec_bind_ok h
    obtain ⟨valid₁, within₁, stmt⟩ := ih.exprStmt _ d s₁ h₁ valid
    rw [exec_bind_of_ok _ (exec_pure _ _)] at h
    refine ⟨some d, s₁, valid₁, within₁, fun clean => ?_, h⟩
    obtain ⟨e, semi, rfl, ends, derives⟩ := stmt clean
    exact .expression derives ends

theorem forStmt_sound : Sound (forStmt (fuel + 1))
    (fun ts s rest => ∀ {kw : Token}, kw.kind = .forKw → Statement (kw :: ts) s rest) := by
  intro s x s' h valid
  rw [forStmt] at h
  obtain ⟨lp, hr, opens, valid₁, within₁, h⟩ := exec_expect_bind_ok rfl h valid
  obtain ⟨init, s₂, valid₂, within₂, first, h⟩ := forInit_sound ih h valid₁
  obtain ⟨cond, s₃, valid₃, within₃, condition, h⟩ := optExpression_sound fuel .semicolon h valid₂
  obtain ⟨semi, hr₃, ends, valid₄, within₄, h⟩ := exec_expect_bind_ok rfl h valid₃
  obtain ⟨incr, s₅, valid₅, within₅, increment, h⟩ := optExpression_sound fuel .rightParen h valid₄
  obtain ⟨rp, hr₅, closes, valid₆, within₆, h⟩ := exec_expect_bind_ok rfl h valid₅
  obtain ⟨body, s₇, h₇, h⟩ := exec_bind_ok h
  obtain ⟨valid₇, within₇, loop⟩ := ih.statement _ body s₇ h₇ valid₆
  cases h
  have upTo₅ := within₆.trans within₇
  have upTo₃ := within₄.trans (within₅.trans upTo₅)
  have upTo₂ := within₃.trans upTo₃
  refine ⟨valid₇, within₁.trans (within₂.trans upTo₂), fun clean => ?_⟩
  intro kw isFor
  have condition := condition (upTo₃.clean clean)
  have increment := increment (upTo₅.clean clean)
  rw [hr₃] at condition
  rw [hr₅] at increment
  rw [hr]
  exact .forLoop isFor opens (first (upTo₂.clean clean)) condition ends increment closes (loop clean)

theorem block_sound : Sound (block (fuel + 1))
    (fun ts body rest => ∃ rb, rb.kind = .rightBrace ∧ Declarations ts body (rb :: rest)) := by
  intro s x s' h valid
  rw [block] at h
  obtain ⟨body, s₁, h₁, h⟩ := exec_bind_ok h
  obtain ⟨valid₁, within₁, decls⟩ := ih.blockBody #[] _ body s₁ h₁ valid
  obtain ⟨rb, hr₁, closes, valid₂, within₂, h⟩ := exec_expect_bind_ok rfl h valid₁
  cases h
  refine ⟨valid₂, within₁.trans within₂, fun clean => ⟨rb, closes, ?_⟩⟩
  obtain ⟨more, list, decls⟩ := decls (within₂.clean clean)
  rw [Array.toList_empty,List.nil_append] at list
  rw [list, ← hr₁]
  exact decls

theorem blockBody_sound (acc : Array Stmt) : Sound (blockBody (fuel + 1) acc) (fun ts body rest =>
    ∃ more, body.toList = acc.toList ++ more ∧ Declarations ts more rest) := by
  intro s x s' h valid
  rw [blockBody] at h
  obtain ⟨t, r, hr⟩ := valid.rest_cons
  rw [exec_check_bind hr,exec_atEnd_bind hr] at h
  split at h
  · obtain ⟨d, s₁, h₁, h⟩ := exec_bind_ok h
    obtain ⟨valid₁, within₁, first⟩ := ih.declaration s d s₁ h₁ valid
    obtain ⟨valid₂, within₂, tail⟩ := ih.blockBody _ s₁ x s' h valid₁
    refine ⟨valid₂, within₁.trans within₂, fun clean => ?_⟩
    obtain ⟨more, list, decls⟩ := tail clean
    exact ⟨d :: more, by simp [list], .more (first (within₂.clean clean)) decls⟩
  · cases h
    exact ⟨valid, .refl _, fun _ => ⟨[], by simp, .done⟩⟩

theorem statement_sound : Sound (statement (fuel + 1)) Statement := by
  intro s x s' h valid
  rw [statement] at h
  rcases exec_accept_bind_ok rfl h valid with ⟨kw, hr, isFor, valid₁, within₁, h⟩ | ⟨-, h⟩
  · simp only [↓reduceIte] at h
    obtain ⟨valid₂, within₂, loop⟩ := ih.forStmt _ x s' h valid₁
    exact ⟨valid₂, within₁.trans within₂, fun clean => hr ▸ loop clean isFor⟩
  simp only [Bool.false_eq_true,↓reduceIte] at h
  rcases exec_accept_bind_ok rfl h valid with ⟨kw, hr, isIf, valid₁, within₁, h⟩ | ⟨-, h⟩
  · simp only [↓reduceIte] at h
    obtain ⟨lp, hr₁, opens, valid₂, within₂, h⟩ := exec_expect_bind_ok rfl h valid₁
    obtain ⟨c, s₃, h₃, h⟩ := exec_bind_ok h
    obtain ⟨valid₃, within₃, cond⟩ := (exprSound fuel).expression _ c s₃ h₃ valid₂
    obtain ⟨rp, hr₃, closes, valid₄, within₄, h⟩ := exec_expect_bind_ok rfl h valid₃
    obtain ⟨t, s₅, h₅, h⟩ := exec_bind_ok h
    obtain ⟨valid₅, within₅, thenBranch⟩ := ih.statement _ t s₅ h₅ valid₄
    have upTo₂ := within₁.trans (within₂.trans (within₃.trans (within₄.trans within₅)))
    rcases exec_accept_bind_ok rfl h valid₅ with ⟨el, hr₅, isElse, valid₆, within₆, h⟩ | ⟨missed, h⟩
    · simp only [↓reduceIte] at h
      obtain ⟨f, s₇, h₇, h⟩ := exec_bind_ok h
      obtain ⟨valid₇, within₇, elseBranch⟩ := ih.statement _ f s₇ h₇ valid₆
      cases h
      refine ⟨valid₇, upTo₂.trans (within₆.trans within₇), fun clean => ?_⟩
      have upTo₅ := within₆.trans within₇
      have cond := cond ((within₄.trans (within₅.trans upTo₅)).clean clean)
      have thenBranch := thenBranch (upTo₅.clean clean)
      rw [hr₃] at cond
      rw [hr₅] at thenBranch
      rw [hr, hr₁]
      exact .ifElse isIf opens cond closes thenBranch isElse (elseBranch clean)
    · simp only [Bool.false_eq_true,↓reduceIte] at h
      cases h
      refine ⟨valid₅, upTo₂, fun clean => ?_⟩
      have cond := cond ((within₄.trans within₅).clean clean)
      rw [hr₃] at cond
      rw [hr, hr₁]
      exact .ifThen isIf opens cond closes (thenBranch clean) missed.noElse
  simp only [Bool.false_eq_true,↓reduceIte] at h
  rcases exec_accept_bind_ok rfl h valid with ⟨kw, hr, isWhile, valid₁, within₁, h⟩ | ⟨-, h⟩
  · simp only [↓reduceIte] at h
    obtain ⟨lp, hr₁, opens, valid₂, within₂, h⟩ := exec_expect_bind_ok rfl h valid₁
    obtain ⟨c, s₃, h₃, h⟩ := exec_bind_ok h
    obtain ⟨valid₃, within₃, cond⟩ := (exprSound fuel).expression _ c s₃ h₃ valid₂
    obtain ⟨rp, hr₃, closes, valid₄, within₄, h⟩ := exec_expect_bind_ok rfl h valid₃
    obtain ⟨b, s₅, h₅, h⟩ := exec_bind_ok h
    obtain ⟨valid₅, within₅, body⟩ := ih.statement _ b s₅ h₅ valid₄
    cases h
    refine ⟨valid₅, within₁.trans (within₂.trans (within₃.trans (within₄.trans within₅))), fun clean => ?_⟩
    have cond := cond ((within₄.trans within₅).clean clean)
    rw [hr₃] at cond
    rw [hr, hr₁]
    exact .whileLoop isWhile opens cond closes (body clean)
  simp only [Bool.false_eq_true,↓reduceIte] at h
  rcases exec_accept_bind_ok rfl h valid with ⟨kw, hr, isReturn, valid₁, within₁, h⟩ | ⟨-, h⟩
  · simp only [↓reduceIte] at h
    rw [exec_previous_next_bind hr] at h
    obtain ⟨v, s₂, valid₂, within₂, value, h⟩ := optExpression_sound fuel .semicolon h valid₁
    obtain ⟨semi, hr₂, ends, valid₃, within₃, h⟩ := exec_expect_bind_ok rfl h valid₂
    cases h
    refine ⟨valid₃, within₁.trans (within₂.trans within₃), fun clean => ?_⟩
    have value := value (within₃.clean clean)
    rw [hr₂] at value
    rw [hr]
    exact .returnStmt isReturn value ends
  simp only [Bool.false_eq_true,↓reduceIte] at h
  rcases exec_accept_bind_ok rfl h valid with ⟨lb, hr, opens, valid₁, within₁, h⟩ | ⟨-, h⟩
  · simp only [↓reduceIte] at h
    obtain ⟨body, s₂, h₂, h⟩ := exec_bind_ok h
    obtain ⟨valid₂, within₂, block⟩ := ih.block _ body s₂ h₂ valid₁
    cases h
    refine ⟨valid₂, within₁.trans within₂, fun clean => ?_⟩
    obtain ⟨rb, closes, decls⟩ := block clean
    rw [hr]
    exact .block opens decls closes
  simp only [Bool.false_eq_true,↓reduceIte] at h
  rcases exec_accept_bind_ok rfl h valid with ⟨kw, hr, isPrint, valid₁, within₁, h⟩ | ⟨-, h⟩
  · simp only [↓reduceIte] at h
    obtain ⟨e, s₂, h₂, h⟩ := exec_bind_ok h
    obtain ⟨valid₂, within₂, derives⟩ := (exprSound fuel).expression _ e s₂ h₂ valid₁
    obtain ⟨semi, hr₂, ends, valid₃, within₃, h⟩ := exec_expect_bind_ok rfl h valid₂
    cases h
    refine ⟨valid₃, within₁.trans (within₂.trans within₃), fun clean => ?_⟩
    have derives := derives (within₃.clean clean)
    rw [hr₂] at derives
    rw [hr]
    exact .print isPrint derives ends
  simp only [Bool.false_eq_true,↓reduceIte] at h
  obtain ⟨valid', within', stmt⟩ := ih.exprStmt s x s' h valid
  refine ⟨valid', within', fun clean => ?_⟩
  obtain ⟨e, semi, rfl, ends, derives⟩ := stmt clean
  exact .expression derives ends

end

/-- Every statement rule is sound at every amount of fuel. -/
theorem stmtSound : ∀ fuel, StmtSound fuel
  | 0 => stmtSound_zero
  | fuel + 1 =>
    have ih := stmtSound fuel
    ⟨declaration_sound ih, classDecl_sound ih, methodList_sound ih, function_sound ih, parameters_sound ih,
      varDecl_sound fuel, statement_sound ih, exprStmt_sound fuel, forStmt_sound ih, block_sound ih,
      blockBody_sound ih⟩

/-! ### Programs -/

theorem State.length_rest (s : State) : s.rest.length = s.tokens.size - s.pos := by
  simp [State.rest]

/-- At the end of input, the end-of-input token is all that is left. -/
theorem State.Valid.rest_of_end {s : State} {t : Token} {r : List Token} (valid : s.Valid) (hr : s.rest = t :: r)
    (atEnd : isEof t.kind = true) : r = [] := by
  obtain ⟨ts, e, split, isEnd, inner⟩ := valid.rest_ends
  rw [hr] at split
  cases ts with
  | nil =>
    simp only [List.nil_append,List.cons.injEq] at split
    exact split.2
  | cons t' ts =>
    obtain ⟨rfl, -⟩ := List.cons.inj split
    simp [inner t (by simp)] at atEnd

/-- The loop over declarations, with at least as many rounds left as tokens: it reaches the end of
input, and if no fault was recorded the declarations it read derive from what it consumed. -/
theorem declarations_sound : ∀ k (acc : Array Stmt) s x s', exec (declarations k acc) s = (.ok x, s') →
    s.Valid → s'.Clean → s.rest.length ≤ k →
    ∃ more e, x.toList = acc.toList ++ more ∧ Declarations s.rest more [e] ∧ s'.rest = [e]
  | 0, _, s, _, _, _, valid, _, short => by
    obtain ⟨t, r, hr⟩ := valid.rest_cons
    simp [hr] at short
  | k + 1, acc, s, x, s', h, valid, clean, short => by
    rw [declarations] at h
    obtain ⟨t, r, hr⟩ := valid.rest_cons
    rw [exec_atEnd_bind hr] at h
    split at h
    · next atEnd =>
      cases h
      have empty := valid.rest_of_end hr atEnd
      subst empty
      exact ⟨[], t, by simp, hr ▸ .done, hr⟩
    · rw [exec_bind_of_ok _ (exec_get _)] at h
      obtain ⟨acc', s₁, h₁, h⟩ := exec_bind_ok h
      rw [exec_tryCatch] at h₁
      split at h₁
      · next a s₂ decl =>
        cases h₁
        obtain ⟨d, s₃, h₃, h₄⟩ := exec_bind_ok decl
        cases h₄
        obtain ⟨valid₁, within₁, derives⟩ := (stmtSound _).declaration s d s₁ h₃ valid
        obtain ⟨-, within₂⟩ := (Keeps.declarations k _).at h valid₁
        have derives := derives (within₂.clean clean)
        have shorter : s₁.rest.length ≤ k := by
          have := derives.length_lt
          omega
        obtain ⟨more, e, list, decls, last⟩ := declarations_sound k _ s₁ x s' h valid₁ clean shorter
        exact ⟨d :: more, e, by simp [list], .more derives decls, last⟩
      · next e s₂ failed =>
        -- the fault is recorded, so the loop does not end clean
        obtain ⟨valid₂, -⟩ := (Keeps.bind (stmtKeeps _).declaration fun _ => Keeps.pure _).at failed valid
        obtain ⟨u, s₃, h₃, h₄⟩ := exec_bind_ok h₁
        rw [exec_modify] at h₃
        cases h₃
        obtain ⟨valid₄, within₄⟩ := (Keeps.bind Keeps.synchronize fun _ => Keeps.pure acc).at h₄ (valid₂.of_note _)
        obtain ⟨-, within₅⟩ := (Keeps.declarations k _).at h valid₄
        exact absurd clean (State.Within.not_clean_of_note (within₄.trans within₅))

/-- The state a parse starts from is valid. -/
theorem State.valid_start {ts : List Token} {e : Token} (isEnd : isEof e.kind = true)
    (inner : ∀ t ∈ ts, isEof t.kind = false) : State.Valid ⟨(ts ++ [e]).toArray, 0, #[]⟩ :=
  ⟨⟨ts, e, by simp, isEnd, inner⟩, by simp⟩

theorem Ends.single {e : Token} (h : Ends [e]) : isEof e.kind = true := by
  obtain ⟨ts, e', split, isEnd, -⟩ := h
  cases ts with
  | nil => simp_all
  | cons t ts => simp at split

/-- The end-of-input token is the only one of its kind. -/
theorem eq_of_mem_ends {ts : List Token} {e e' : Token} (inner : ∀ t ∈ ts, isEof t.kind = false)
    (mem : e' ∈ ts ++ [e]) (isEnd : isEof e'.kind = true) : e' = e := by
  rcases List.mem_append.1 mem with mem | mem
  · simp [inner e' mem] at isEnd
  · simpa using mem

/-- Parsing a program runs the loop over declarations from the start, with one round more than there
are tokens. -/
theorem parseProgram_eq (tokens : List Token) : Stmt.parseProgram tokens =
    match exec (declarations (tokens.toArray.size + 1) #[]) ⟨tokens.toArray, 0, #[]⟩ with
    | (.ok stmts, s) => if s.recorded.isEmpty then .ok stmts.toList else .error s.recorded.toList
    | (.error e, s) => .error (s.recorded.push e).toList := by
  unfold Stmt.parseProgram exec
  dsimp only
  generalize (declarations (tokens.toArray.size + 1) #[]).run.run ⟨tokens.toArray, 0, #[]⟩ = run
  rcases run with ⟨r, s⟩
  cases r <;> rfl

/-- A program that parses without a fault is derived by the grammar. -/
theorem parseProgram_sound {ts : List Token} {e : Token} {stmts : List Stmt} (isEnd : isEof e.kind = true)
    (inner : ∀ t ∈ ts, isEof t.kind = false) (h : Stmt.parseProgram (ts ++ [e]) = .ok stmts) :
    Declarations (ts ++ [e]) stmts [e] := by
  rw [parseProgram_eq] at h
  have start := State.valid_start isEnd inner
  rcases run : exec (declarations ((ts ++ [e]).toArray.size + 1) #[]) ⟨(ts ++ [e]).toArray, 0, #[]⟩ with ⟨r, s'⟩
  rw [run] at h
  cases r with
  | error => cases h
  | ok x =>
    simp only at h
    split at h
    · next empty =>
      cases h
      have clean : s'.Clean := by simpa [State.Clean] using empty
      obtain ⟨-, within⟩ := (Keeps.declarations _ _).at run start
      obtain ⟨more, e', list, decls, last⟩ := declarations_sound _ _ _ x s' run start clean (by simp [State.rest])
      have ends := ((Keeps.declarations _ _).at run start).1.rest_ends
      rw [last] at ends
      have mem : e' ∈ ts ++ [e] := by
        have : e' ∈ s'.rest := by simp [last]
        have := List.mem_of_mem_drop this
        rwa [within.tokens,List.toList_toArray] at this
      rw [eq_of_mem_ends inner mem ends.single] at decls
      simpa [list,State.rest] using decls
    · cases h

/-- Parsing a lone expression runs the expression rule from the start, then checks that no fault was
recorded and that the input has ended. -/
theorem exprParse_eq (tokens : List Token) : Expr.parse tokens = (exec (do
    let e ← expression (fuelFor tokens.toArray)
    if let some first := (← getThe State).recorded[0]? then throw first
    if !(← atEnd) then throw ⟨← peek, .expectEnd⟩
    return e) ⟨tokens.toArray, 0, #[]⟩).1 := rfl

/-- An expression that parses is derived by the grammar, up to the end of input. -/
theorem exprParse_sound {ts : List Token} {e : Token} {x : Expr} (isEnd : isEof e.kind = true)
    (inner : ∀ t ∈ ts, isEof t.kind = false) (h : Expr.parse (ts ++ [e]) = .ok x) :
    Expression (ts ++ [e]) x [e] := by
  rw [exprParse_eq] at h
  have start := State.valid_start isEnd inner
  rcases run : exec (do
    let e ← expression (fuelFor (ts ++ [e]).toArray)
    if let some first := (← getThe State).recorded[0]? then throw first
    if !(← atEnd) then throw ⟨← peek, .expectEnd⟩
    return e) ⟨(ts ++ [e]).toArray, 0, #[]⟩ with ⟨r, s'⟩
  rw [run] at h
  cases h
  obtain ⟨y, s₁, h₁, h⟩ := exec_bind_ok run
  obtain ⟨valid₁, within₁, derives⟩ := (exprSound _).expression _ y s₁ h₁ start
  rw [exec_bind_of_ok _ (exec_getThe _)] at h
  split at h
  · cases h
  · next none =>
    have clean : s₁.Clean := by
      rcases Nat.eq_zero_or_pos s₁.recorded.size with zero | pos
      · exact zero
      · exact absurd (Array.getElem?_eq_getElem pos) (none _)
    obtain ⟨t, r, hr⟩ := valid₁.rest_cons
    rw [exec_atEnd_bind hr] at h
    split at h
    · rw [exec_peek_bind hr] at h
      cases h
    · next atEnd =>
      have ends : isEof t.kind = true := by simpa using atEnd
      have empty := valid₁.rest_of_end hr ends
      subst empty
      have mem : t ∈ ts ++ [e] := by
        have : t ∈ s₁.rest := by simp [hr]
        have := List.mem_of_mem_drop this
        rwa [within₁.tokens,List.toList_toArray] at this
      rw [eq_of_mem_ends inner mem ends] at hr
      cases h
      have derives := derives clean
      rw [hr] at derives
      simpa [State.rest] using derives

end Lox.Parser
