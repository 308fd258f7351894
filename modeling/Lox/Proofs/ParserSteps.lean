import Lox.Proofs.Grammar
/-!
The parser's primitive steps, read off a state whose tokens end with their only end-of-input
token. `Parser.exec` runs a step from a state; `State.rest` is what is left of the tokens. On such
a state each primitive (`peek`, `atEnd`, `check`, `advance`, `accept`, `expect`, `note`) has one
equation in terms of the first token left, and the rules of the parser are reasoned about through
these equations and `exec_bind` alone.
-/
namespace Lox.Parser

/-- Runs a parsing step from a state: its result and the state after it. -/
def exec {α : Type} (p : M α) (s : State) : Except ParseError α × State := (p.run.run s).run

/-- The end-of-input kind. -/
def isEof : TokenKind → Bool
  | .eof => true
  | _ => false

/-- The tokens from the current position on. -/
def State.rest (s : State) : List Token := s.tokens.toList.drop s.pos

/-- The state one token further on. -/
def State.next (s : State) : State := { s with pos := s.pos + 1 }

/-- A token list that ends with an end-of-input token and has no other. -/
def Ends (l : List Token) : Prop := ∃ ts e, l = ts ++ [e] ∧ isEof e.kind ∧ ∀ t ∈ ts, isEof t.kind = false

/-- A state over tokens that end with their only end-of-input token, not past it. -/
structure State.Valid (s : State) : Prop where
  ends : Ends s.tokens.toList
  inside : s.pos < s.tokens.size

/-- The state moved on without touching its tokens, and with at least the faults it had. -/
structure State.Within (s s' : State) : Prop where
  tokens : s'.tokens = s.tokens
  pos : s.pos ≤ s'.pos
  recorded : s.recorded.size ≤ s'.recorded.size

/-- No fault has been recorded. -/
def State.Clean (s : State) : Prop := s.recorded.size = 0

@[simp] theorem State.next_tokens (s : State) : s.next.tokens = s.tokens := rfl
@[simp] theorem State.next_pos (s : State) : s.next.pos = s.pos + 1 := rfl
@[simp] theorem State.next_recorded (s : State) : s.next.recorded = s.recorded := rfl

theorem State.Within.refl (s : State) : s.Within s := ⟨rfl,Nat.le_refl _,Nat.le_refl _⟩

theorem State.Within.trans {s₁ s₂ s₃ : State} (a : s₁.Within s₂) (b : s₂.Within s₃) : s₁.Within s₃ :=
  ⟨b.tokens.trans a.tokens,Nat.le_trans a.pos b.pos,Nat.le_trans a.recorded b.recorded⟩

/-- A state that a clean one moved on from is clean. -/
theorem State.Within.clean {s₁ s₂ : State} (w : s₁.Within s₂) (clean : s₂.Clean) : s₁.Clean := by
  have := w.recorded
  unfold State.Clean at *
  omega

/-- Recording a fault leaves no later state clean. -/
theorem State.Within.not_clean_of_note {s₁ s₂ : State} {e : ParseError}
    (w : ({ s₁ with recorded := s₁.recorded.push e } : State).Within s₂) : ¬ s₂.Clean := by
  have grows : s₁.recorded.size + 1 ≤ s₂.recorded.size := by simpa using w.recorded
  unfold State.Clean
  omega

theorem State.Within.of_note (s : State) (e : ParseError) :
    s.Within { s with recorded := s.recorded.push e } := ⟨rfl,Nat.le_refl _,by simp⟩

theorem State.Valid.of_note {s : State} (valid : s.Valid) (e : ParseError) :
    ({ s with recorded := s.recorded.push e } : State).Valid := ⟨valid.ends,valid.inside⟩

/-! ### Running steps -/

@[simp] theorem exec_pure {α : Type} (a : α) (s : State) : exec (pure a : M α) s = (.ok a, s) := rfl

@[simp] theorem exec_throw {α : Type} (e : ParseError) (s : State) : exec (throw e : M α) s = (.error e, s) := rfl

theorem exec_bind {α β : Type} (x : M α) (f : α → M β) (s : State) :
    exec (x >>= f) s = match exec x s with
      | (.ok a, s₁) => exec (f a) s₁
      | (.error e, s₁) => (.error e, s₁) := by
  simp only [exec, ExceptT.run_bind, StateT.run_bind, Id.run_bind]
  rcases (x.run.run s).run with ⟨r, s₁⟩
  cases r <;> rfl

/-- A bound step that succeeds is one that succeeded followed by one that succeeds. -/
theorem exec_bind_ok {α β : Type} {x : M α} {f : α → M β} {s s₂ : State} {b : β}
    (h : exec (x >>= f) s = (.ok b, s₂)) : ∃ a s₁, exec x s = (.ok a, s₁) ∧ exec (f a) s₁ = (.ok b, s₂) := by
  rw [exec_bind] at h
  rcases hx : exec x s with ⟨r, s₁⟩
  rw [hx] at h
  cases r with
  | error e => cases h
  | ok a => exact ⟨a,s₁,rfl,h⟩

theorem exec_bind_of_ok {α β : Type} {x : M α} (f : α → M β) {s s₁ : State} {a : α}
    (h : exec x s = (.ok a, s₁)) : exec (x >>= f) s = exec (f a) s₁ := by
  rw [exec_bind,h]

theorem exec_map {α β : Type} (f : α → β) (x : M α) (s : State) :
    exec (f <$> x) s = match exec x s with
      | (.ok a, s₁) => (.ok (f a), s₁)
      | (.error e, s₁) => (.error e, s₁) := by
  simp only [exec, ExceptT.run_map, StateT.run_map, Id.run_map]
  rcases (x.run.run s).run with ⟨r, s₁⟩
  cases r <;> rfl

@[simp] theorem exec_get (s : State) : exec (get : M State) s = (.ok s, s) := rfl

@[simp] theorem exec_getThe (s : State) : exec (getThe State : M State) s = (.ok s, s) := rfl

@[simp] theorem exec_modify (f : State → State) (s : State) : exec (modify f : M Unit) s = (.ok (), f s) := rfl

/-! ### The token cursor -/

theorem State.rest_next {s : State} {t : Token} {r : List Token} (h : s.rest = t :: r) : s.next.rest = r := by
  unfold State.rest at *
  simp only [State.next_tokens,State.next_pos]
  rw [← List.drop_drop,h]
  rfl

theorem State.getElem_of_rest {s : State} {t : Token} {r : List Token} (h : s.rest = t :: r) :
    s.pos < s.tokens.size ∧ s.tokens[s.pos]? = some t := by
  unfold State.rest at h
  rcases Nat.lt_or_ge s.pos s.tokens.size with lt | ge
  · refine ⟨lt,?_⟩
    rw [List.drop_eq_getElem_cons (by simpa using lt)] at h
    simp only [List.cons.injEq] at h
    simp [← h.1]
  · rw [List.drop_eq_nil_of_le (by simpa using ge)] at h
    cases h

/-- A valid state has a token left. -/
theorem State.Valid.rest_cons {s : State} (valid : s.Valid) : ∃ t r, s.rest = t :: r := by
  unfold State.rest
  cases h : s.tokens.toList.drop s.pos with
  | nil =>
    have := valid.inside
    rw [List.drop_eq_nil_iff] at h
    simp at h
    omega
  | cons t r => exact ⟨t,r,rfl⟩

theorem Ends.of_cons {t : Token} {r : List Token} (h : Ends (t :: r)) (notEnd : isEof t.kind = false) :
    r ≠ [] := by
  obtain ⟨ts,e,eq,eof,others⟩ := h
  intro nil
  subst nil
  cases ts with
  | nil =>
    simp only [List.nil_append,List.cons.injEq] at eq
    rw [eq.1] at notEnd
    simp [eof] at notEnd
  | cons u us => simp at eq

/-- The rest of a valid state ends with the end-of-input token. -/
theorem State.Valid.rest_ends {s : State} (valid : s.Valid) : Ends s.rest := by
  obtain ⟨ts,e,eq,eof,others⟩ := valid.ends
  have inside := valid.inside
  have len : s.tokens.toList.length = ts.length + 1 := by simp [eq]
  refine ⟨ts.drop s.pos,e,?_,eof,fun t mem => others t (List.mem_of_mem_drop mem)⟩
  unfold State.rest
  rw [eq,List.drop_append_of_le_length (by simp at len; omega)]

/-- Moving past a token that is not the end of input keeps a state valid. -/
theorem State.Valid.next {s : State} {t : Token} {r : List Token} (valid : s.Valid) (h : s.rest = t :: r)
    (notEnd : isEof t.kind = false) : s.next.Valid := by
  refine ⟨valid.ends,?_⟩
  have nonempty := Ends.of_cons (h ▸ valid.rest_ends) notEnd
  have len : s.rest.length = s.tokens.size - s.pos := by simp [State.rest]
  rw [h] at len
  have : r.length ≠ 0 := by simpa using nonempty
  simp only [List.length_cons] at len
  simp only [State.next_tokens,State.next_pos]
  omega

theorem State.Within.next (s : State) : s.Within s.next := ⟨rfl,by simp,Nat.le_refl _⟩

/-- Moving past a token that is not the end of input. -/
theorem State.Valid.step {s : State} {t : Token} {r : List Token} (valid : s.Valid) (hr : s.rest = t :: r)
    (notEnd : isEof t.kind = false) : s.next.Valid ∧ s.Within s.next ∧ s.next.rest = r :=
  ⟨valid.next hr notEnd,State.Within.next s,State.rest_next hr⟩

/-- A token that matched a kind without payload is of that kind and is not the end of input. -/
theorem kind_of_match {t : Token} {k : TokenKind} (free : k.carries = false)
    (h : (!isEof t.kind && t.kind.same k) = true) : t.kind = k ∧ isEof t.kind = false := by
  simp only [Bool.and_eq_true,Bool.not_eq_eq_eq_not,Bool.not_true] at h
  exact ⟨(TokenKind.same_iff free).1 h.2,h.1⟩

/-- The front token is not of the kind, or is the end of input: what a failed `accept` or
`check` leaves. -/
def Misses (k : TokenKind) : List Token → Prop
  | t :: _ => (!isEof t.kind && t.kind.same k) = false
  | [] => False

section
variable {s : State} {t : Token} {r : List Token}

theorem exec_peek (h : s.rest = t :: r) : exec peek s = (.ok t, s) := by
  obtain ⟨lt,get⟩ := State.getElem_of_rest h
  have same : min s.pos (s.tokens.size - 1) = s.pos := by omega
  have : exec peek s = (.ok (s.tokens.getD (min s.pos (s.tokens.size - 1)) default), s) := rfl
  rw [this,same,Array.getD_eq_getD_getElem?,get]
  rfl

theorem exec_atEnd (h : s.rest = t :: r) : exec atEnd s = (.ok (isEof t.kind), s) := by
  obtain ⟨-,get⟩ := State.getElem_of_rest h
  unfold atEnd
  rw [exec_bind_of_ok _ (exec_get s)]
  simp only [get]
  rfl

theorem exec_check (h : s.rest = t :: r) (k : TokenKind) :
    exec (check k) s = (.ok (!isEof t.kind && t.kind.same k), s) := by
  simp only [check,exec_bind,exec_atEnd h]
  cases isEof t.kind <;> simp [exec_map,exec_peek h]

theorem exec_previous_next (h : s.rest = t :: r) : exec previous s.next = (.ok t, s.next) := by
  obtain ⟨-,get⟩ := State.getElem_of_rest h
  have : exec previous s.next = (.ok (s.tokens.getD (s.pos + 1 - 1) default), s.next) := rfl
  rw [this,Nat.add_sub_cancel,Array.getD_eq_getD_getElem?,get]
  rfl

theorem exec_advance (h : s.rest = t :: r) (notEnd : isEof t.kind = false) :
    exec advance s = (.ok t, s.next) := by
  simp only [advance,exec_bind,exec_atEnd h,notEnd]
  simp only [Bool.not_false,if_true,exec_bind]
  exact exec_previous_next h

theorem exec_accept (h : s.rest = t :: r) (k : TokenKind) :
    exec (accept k) s = if !isEof t.kind && t.kind.same k then (.ok true, s.next) else (.ok false, s) := by
  simp only [accept,exec_bind,exec_check h]
  cases e : isEof t.kind
  · cases same : t.kind.same k
    · simp
    · simp [exec_map,exec_advance h e]
  · simp

theorem exec_expect (h : s.rest = t :: r) (k : TokenKind) (fault : ParseFault) :
    exec (expect k fault) s =
      if !isEof t.kind && t.kind.same k then (.ok t, s.next) else (.error ⟨t, fault⟩, s) := by
  simp only [expect,exec_bind,exec_check h]
  cases e : isEof t.kind
  · cases same : t.kind.same k
    · simp [exec_bind,exec_peek h]
    · simp [exec_advance h e]
  · simp [exec_bind,exec_peek h]

theorem exec_note (t' : Token) (fault : ParseFault) :
    exec (note t' fault) s = (.ok (), { s with recorded := s.recorded.push ⟨t', fault⟩ }) := rfl

theorem exec_checkAny (h : s.rest = t :: r) (ks : List TokenKind) :
    exec (checkAny ks) s = (.ok (!isEof t.kind && ks.any t.kind.same), s) := by
  induction ks with
  | nil => simp [checkAny]
  | cons k ks ih =>
    simp only [checkAny,exec_bind,exec_check h]
    cases e : isEof t.kind <;> cases same : t.kind.same k <;> simp_all

end

section
variable {s : State} {t : Token} {r : List Token}

/-! ### Primitive steps followed by more -/

theorem exec_peek_bind {β : Type} (h : s.rest = t :: r) (f : Token → M β) :
    exec (peek >>= f) s = exec (f t) s := exec_bind_of_ok f (exec_peek h)

theorem exec_atEnd_bind {β : Type} (h : s.rest = t :: r) (f : Bool → M β) :
    exec (atEnd >>= f) s = exec (f (isEof t.kind)) s := exec_bind_of_ok f (exec_atEnd h)

theorem exec_check_bind {β : Type} (h : s.rest = t :: r) (k : TokenKind) (f : Bool → M β) :
    exec (check k >>= f) s = exec (f (!isEof t.kind && t.kind.same k)) s := exec_bind_of_ok f (exec_check h k)

theorem exec_checkAny_bind {β : Type} (h : s.rest = t :: r) (ks : List TokenKind) (f : Bool → M β) :
    exec (checkAny ks >>= f) s = exec (f (!isEof t.kind && ks.any t.kind.same)) s :=
  exec_bind_of_ok f (exec_checkAny h ks)

theorem exec_previous_next_bind {β : Type} (h : s.rest = t :: r) (f : Token → M β) :
    exec (previous >>= f) s.next = exec (f t) s.next := exec_bind_of_ok f (exec_previous_next h)

theorem exec_advance_bind {β : Type} (h : s.rest = t :: r) (notEnd : isEof t.kind = false) (f : Token → M β) :
    exec (advance >>= f) s = exec (f t) s.next := exec_bind_of_ok f (exec_advance h notEnd)

theorem exec_accept_bind {β : Type} (h : s.rest = t :: r) (k : TokenKind) (f : Bool → M β) :
    exec (accept k >>= f) s =
      if !isEof t.kind && t.kind.same k then exec (f true) s.next else exec (f false) s := by
  rw [exec_bind,exec_accept h]
  cases (!isEof t.kind && t.kind.same k) <;> rfl

theorem exec_expect_bind {β : Type} (h : s.rest = t :: r) (k : TokenKind) (fault : ParseFault) (f : Token → M β) :
    exec (expect k fault >>= f) s =
      if !isEof t.kind && t.kind.same k then exec (f t) s.next else (.error ⟨t, fault⟩, s) := by
  rw [exec_bind,exec_expect h]
  cases (!isEof t.kind && t.kind.same k) <;> rfl

theorem exec_note_bind {β : Type} (t' : Token) (fault : ParseFault) (f : Unit → M β) :
    exec (note t' fault >>= f) s = exec (f ()) { s with recorded := s.recorded.push ⟨t', fault⟩ } :=
  exec_bind_of_ok f (exec_note t' fault)

/-! ### Successful steps -/

/-- A successful `expect` consumed a token of its kind. -/
theorem exec_expect_bind_ok {β : Type} {k : TokenKind} {fault : ParseFault} {f : Token → M β} {s' : State} {x : β}
    (free : k.carries = false) (h : exec (expect k fault >>= f) s = (.ok x, s')) (valid : s.Valid) :
    ∃ t, s.rest = t :: s.next.rest ∧ t.kind = k ∧ s.next.Valid ∧ s.Within s.next ∧
      exec (f t) s.next = (.ok x, s') := by
  obtain ⟨t, r, hr⟩ := valid.rest_cons
  rw [exec_expect_bind hr] at h
  split at h
  · next matched =>
    obtain ⟨is, notEnd⟩ := kind_of_match free matched
    obtain ⟨valid₁, within₁, rest₁⟩ := valid.step hr notEnd
    exact ⟨t, rest₁ ▸ hr, is, valid₁, within₁, h⟩
  · cases h

/-- A successful step after `accept`: it consumed a token of its kind, or the front token is not
of that kind. -/
theorem exec_accept_bind_ok {β : Type} {k : TokenKind} {f : Bool → M β} {s' : State} {x : β}
    (free : k.carries = false) (h : exec (accept k >>= f) s = (.ok x, s')) (valid : s.Valid) :
    (∃ t, s.rest = t :: s.next.rest ∧ t.kind = k ∧ s.next.Valid ∧ s.Within s.next ∧
      exec (f true) s.next = (.ok x, s')) ∨ (Misses k s.rest ∧ exec (f false) s = (.ok x, s')) := by
  obtain ⟨t, r, hr⟩ := valid.rest_cons
  rw [exec_accept_bind hr] at h
  split at h
  · next matched =>
    obtain ⟨is, notEnd⟩ := kind_of_match free matched
    obtain ⟨valid₁, within₁, rest₁⟩ := valid.step hr notEnd
    exact .inl ⟨t, rest₁ ▸ hr, is, valid₁, within₁, h⟩
  · next missed =>
    exact .inr ⟨hr ▸ Bool.eq_false_iff.2 missed, h⟩

end

/-! ### Steps that keep the state valid

Every step of the parser keeps its tokens, moves only forward and never past the end of input, and
only adds faults, whether it succeeds or fails. The rules are built from the primitives by binding,
so this follows from one lemma per primitive and one for `bind`. -/

/-- A step keeps a valid state valid, and moves it on without touching its tokens or faults. -/
structure Keeps {α : Type} (p : M α) : Prop where
  run : ∀ s, s.Valid → (exec p s).2.Valid ∧ s.Within (exec p s).2

theorem Keeps.at {α : Type} {p : M α} (keeps : Keeps p) {s s' : State} {r : Except ParseError α}
    (h : exec p s = (r, s')) (valid : s.Valid) : s'.Valid ∧ s.Within s' := by
  simpa [h] using keeps.run s valid

theorem Keeps.pure {α : Type} (a : α) : Keeps (pure a : M α) := ⟨fun s valid => ⟨valid,.refl s⟩⟩

theorem Keeps.throw {α : Type} (e : ParseError) : Keeps (throw e : M α) := ⟨fun s valid => ⟨valid,.refl s⟩⟩

theorem Keeps.bind {α β : Type} {x : M α} {f : α → M β} (first : Keeps x) (next : ∀ a, Keeps (f a)) :
    Keeps (x >>= f) := by
  refine ⟨fun s valid => ?_⟩
  rw [exec_bind]
  rcases h : exec x s with ⟨r, s₁⟩
  obtain ⟨valid₁, within₁⟩ := first.at h valid
  cases r with
  | error e => exact ⟨valid₁,within₁⟩
  | ok a =>
    obtain ⟨valid₂, within₂⟩ := (next a).run s₁ valid₁
    exact ⟨valid₂,within₁.trans within₂⟩

theorem exec_tryCatch {α : Type} (x : M α) (handle : ParseError → M α) (s : State) :
    exec (MonadExcept.tryCatch x handle) s = match exec x s with
      | (.ok a, s₁) => (.ok a, s₁)
      | (.error e, s₁) => exec (handle e) s₁ := by
  show ((ExceptT.tryCatch x handle).run.run s).run = _
  simp only [exec,ExceptT.tryCatch,ExceptT.run_mk,StateT.run_bind,Id.run_bind]
  rcases h : (StateT.run x s).run with ⟨r, s₁⟩
  have h' : (StateT.run (ExceptT.run x) s).run = (r, s₁) := h
  simp only [h']
  cases r <;> rfl

theorem Keeps.tryCatch {α : Type} {x : M α} {handle : ParseError → M α} (body : Keeps x)
    (handler : ∀ e, Keeps (handle e)) : Keeps (MonadExcept.tryCatch x handle) := by
  refine ⟨fun s valid => ?_⟩
  rw [exec_tryCatch]
  rcases h : exec x s with ⟨r, s₁⟩
  obtain ⟨valid₁, within₁⟩ := body.at h valid
  cases r with
  | ok a => exact ⟨valid₁,within₁⟩
  | error e =>
    obtain ⟨valid₂, within₂⟩ := (handler e).run s₁ valid₁
    exact ⟨valid₂,within₁.trans within₂⟩

theorem Keeps.get : Keeps (get : M State) := ⟨fun s valid => ⟨valid,.refl s⟩⟩

theorem Keeps.peek : Keeps peek := by
  refine ⟨fun s valid => ?_⟩
  obtain ⟨t, r, hr⟩ := valid.rest_cons
  rw [exec_peek hr]
  exact ⟨valid,.refl s⟩

theorem Keeps.previous : Keeps previous := ⟨fun s valid => ⟨valid,.refl s⟩⟩

theorem Keeps.atEnd : Keeps atEnd := by
  refine ⟨fun s valid => ?_⟩
  obtain ⟨t, r, hr⟩ := valid.rest_cons
  rw [exec_atEnd hr]
  exact ⟨valid,.refl s⟩

theorem Keeps.check (k : TokenKind) : Keeps (check k) := by
  refine ⟨fun s valid => ?_⟩
  obtain ⟨t, r, hr⟩ := valid.rest_cons
  rw [exec_check hr]
  exact ⟨valid,.refl s⟩

theorem Keeps.checkAny (ks : List TokenKind) : Keeps (checkAny ks) := by
  refine ⟨fun s valid => ?_⟩
  obtain ⟨t, r, hr⟩ := valid.rest_cons
  rw [exec_checkAny hr]
  exact ⟨valid,.refl s⟩

theorem Keeps.advance : Keeps advance := by
  refine ⟨fun s valid => ?_⟩
  obtain ⟨t, r, hr⟩ := valid.rest_cons
  cases notEnd : isEof t.kind
  · rw [exec_advance hr notEnd]
    obtain ⟨valid', within', -⟩ := valid.step hr notEnd
    exact ⟨valid',within'⟩
  · -- at the end of input nothing moves
    have : exec Parser.advance s = exec Parser.previous s := by
      simp only [Parser.advance,exec_bind,exec_atEnd hr,notEnd]
      rfl
    rw [this]
    exact ⟨valid,.refl s⟩

theorem Keeps.accept (k : TokenKind) : Keeps (accept k) := by
  refine ⟨fun s valid => ?_⟩
  obtain ⟨t, r, hr⟩ := valid.rest_cons
  rw [exec_accept hr]
  split
  · next matched =>
    simp only [Bool.and_eq_true,Bool.not_eq_eq_eq_not,Bool.not_true] at matched
    obtain ⟨valid', within', -⟩ := valid.step hr matched.1
    exact ⟨valid',within'⟩
  · exact ⟨valid,.refl s⟩

theorem Keeps.expect (k : TokenKind) (fault : ParseFault) : Keeps (expect k fault) := by
  refine ⟨fun s valid => ?_⟩
  obtain ⟨t, r, hr⟩ := valid.rest_cons
  rw [exec_expect hr]
  split
  · next matched =>
    simp only [Bool.and_eq_true,Bool.not_eq_eq_eq_not,Bool.not_true] at matched
    obtain ⟨valid', within', -⟩ := valid.step hr matched.1
    exact ⟨valid',within'⟩
  · exact ⟨valid,.refl s⟩

theorem Keeps.note (t : Token) (fault : ParseFault) : Keeps (note t fault) :=
  ⟨fun _ valid => ⟨valid.of_note _,.of_note _ _⟩⟩

theorem Keeps.record (e : ParseError) :
    Keeps (modify fun s => { s with recorded := s.recorded.push e } : M Unit) :=
  ⟨fun _ valid => ⟨valid.of_note _,.of_note _ _⟩⟩

theorem Keeps.outOfFuel {α : Type} : Keeps (outOfFuel : M α) := Keeps.bind Keeps.peek fun _ => Keeps.throw _

/-! ### Every rule keeps the state valid -/

/-- The expression rules at one amount of fuel keep the state valid. -/
structure ExprKeeps (fuel : Nat) : Prop where
  expression : Keeps (expression fuel)
  logicOr : Keeps (logicOr fuel)
  orRest : ∀ left, Keeps (orRest fuel left)
  logicAnd : Keeps (logicAnd fuel)
  andRest : ∀ left, Keeps (andRest fuel left)
  binary : ∀ lvl, Keeps (binary fuel lvl)
  operand : ∀ lvl, Keeps (operand fuel lvl)
  binaryRest : ∀ lvl left, Keeps (binaryRest fuel lvl left)
  unary : Keeps (unary fuel)
  callRest : ∀ callee, Keeps (callRest fuel callee)
  arguments : ∀ acc, Keeps (arguments fuel acc)
  primary : Keeps (primary fuel)

/-- Each expression rule is primitives bound together and calls with less fuel, so it keeps the
state valid by `Keeps.bind` and induction on the fuel. -/
theorem exprKeeps : ∀ fuel, ExprKeeps fuel
  | 0 => by
    constructor <;> intros <;>
      simp only [Parser.expression,Parser.logicOr,Parser.orRest,Parser.logicAnd,Parser.andRest,Parser.binary,
        Parser.operand,Parser.binaryRest,Parser.unary,Parser.callRest,Parser.arguments,Parser.primary] <;>
      exact Keeps.outOfFuel
  | fuel + 1 => by
    obtain ⟨expression, logicOr, orRest, logicAnd, andRest, binary, operand, binaryRest, unary, callRest,
      arguments, primary⟩ := exprKeeps fuel
    constructor <;> intros <;>
      simp only [Parser.expression,Parser.logicOr,Parser.orRest,Parser.logicAnd,Parser.andRest,Parser.binary,
        Parser.operand,Parser.binaryRest,Parser.unary,Parser.callRest,Parser.arguments,Parser.primary] <;>
      repeat with_reducible (first
        | assumption | apply orRest | apply andRest | apply binary | apply operand | apply binaryRest | apply callRest
        | apply arguments | apply Keeps.pure | apply Keeps.throw | apply Keeps.peek | apply Keeps.previous
        | apply Keeps.accept | apply Keeps.expect | apply Keeps.check | apply Keeps.checkAny | apply Keeps.advance
        | apply Keeps.note | apply Keeps.get | apply Keeps.bind | split | intro _)

/-- The statement rules at one amount of fuel keep the state valid. -/
structure StmtKeeps (fuel : Nat) : Prop where
  declaration : Keeps (declaration fuel)
  classDecl : Keeps (classDecl fuel)
  methodList : ∀ acc, Keeps (methodList fuel acc)
  function : ∀ kind, Keeps (function fuel kind)
  parameters : ∀ acc, Keeps (parameters fuel acc)
  varDecl : Keeps (varDecl fuel)
  statement : Keeps (statement fuel)
  exprStmt : Keeps (exprStmt fuel)
  forStmt : Keeps (forStmt fuel)
  block : Keeps (block fuel)
  blockBody : ∀ acc, Keeps (blockBody fuel acc)

theorem stmtKeeps : ∀ fuel, StmtKeeps fuel
  | 0 => by
    constructor <;> intros <;>
      simp only [Parser.declaration.eq_1,Parser.classDecl.eq_1,Parser.methodList.eq_1,Parser.function.eq_1,
        Parser.parameters.eq_1,Parser.varDecl.eq_1,Parser.statement.eq_1,Parser.exprStmt.eq_1,Parser.forStmt.eq_1,
        Parser.block.eq_1,Parser.blockBody.eq_1] <;>
      exact Keeps.outOfFuel
  | fuel + 1 => by
    obtain ⟨declaration, classDecl, methodList, function, parameters, varDecl, statement, exprStmt, forStmt,
      block, blockBody⟩ := stmtKeeps fuel
    have expression := (exprKeeps fuel).expression
    constructor <;> intros <;>
      simp only [Parser.declaration.eq_2,Parser.classDecl.eq_2,Parser.methodList.eq_2,Parser.function.eq_2,
        Parser.parameters.eq_2,Parser.varDecl.eq_2,Parser.statement.eq_2,Parser.exprStmt.eq_2,Parser.forStmt.eq_2,
        Parser.block.eq_2,Parser.blockBody.eq_2] <;>
      repeat with_reducible (first
        | assumption | apply methodList | apply function | apply parameters | apply blockBody | apply Keeps.pure
        | apply Keeps.throw | apply Keeps.peek | apply Keeps.previous | apply Keeps.atEnd | apply Keeps.accept
        | apply Keeps.expect | apply Keeps.check | apply Keeps.advance | apply Keeps.note | apply Keeps.get
        | apply Keeps.bind | split | intro _)

theorem Keeps.skipToBoundary : ∀ n, Keeps (synchronize.skipToBoundary n)
  | 0 => Keeps.pure _
  | n + 1 => by
    have next := Keeps.skipToBoundary n
    simp only [synchronize.skipToBoundary]
    repeat with_reducible (first
      | assumption | apply Keeps.pure | apply Keeps.peek | apply Keeps.previous | apply Keeps.atEnd
      | apply Keeps.advance | apply Keeps.bind | split | intro _)

theorem Keeps.synchronize : Keeps synchronize :=
  Keeps.bind Keeps.advance fun _ => Keeps.bind Keeps.get fun _ => Keeps.skipToBoundary _

theorem Keeps.declarations : ∀ n acc, Keeps (declarations n acc)
  | 0, _ => Keeps.pure _
  | n + 1, acc => by
    have next := Keeps.declarations n
    simp only [Parser.declarations]
    repeat with_reducible (first
      | apply next | apply Keeps.pure | apply Keeps.get | apply Keeps.atEnd | apply Keeps.synchronize
      | apply Keeps.record | apply (stmtKeeps _).declaration | apply Keeps.tryCatch | apply Keeps.bind | split
      | intro _)

end Lox.Parser
