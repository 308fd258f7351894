import Lox.Proofs.ScanAutomaton
import Lox.Proofs.LineMaps
/-!
The lines the scanner gives. The automaton reads no line: started `k` lines further down, after
some items, it yields those items and then what it yields from the first line, each moved down by
`k` (`Automaton.run_shift`). Its line goes up by one at each newline and at nothing else
(`Automaton.foldl_line`), and each item is yielded on the line reached, so every item of a text lies
between its first line and the line of its last character (`Automaton.scan_lines`). A newline ends
every lexeme but a string or a comment, so a text that scans cleanly, a newline and a second text
scan to the first text's tokens but its end and then the second's, moved down by the first text's
lines (`Token.scanAll_join`).
-/
namespace Lox
namespace Automaton

/-- The line an item is reported at. -/
def Item.line : Item → Nat
  | .ok t => t.line
  | .error e => e.line

/-- An item moved down by `k` lines. -/
def Item.shift (k : Nat) : Item → Item
  | .ok t => .ok (t.mapLines (· + k))
  | .error e => .error { e with line := e.line + k }

@[simp] theorem Item.shift_ok (k : Nat) (t : Token) : Item.shift k (.ok t) = .ok (t.mapLines (· + k)) := rfl

@[simp] theorem Item.shift_error (k : Nat) (e : LexError) :
    Item.shift k (.error e) = .error { e with line := e.line + k } := rfl

/-- A state moved down by `k` lines, after the items `before`. -/
def State.shift (k : Nat) (before : List Item) (st : State) : State :=
  ⟨st.mode, st.line + k, before ++ st.items.map (Item.shift k)⟩

/-! ### The automaton reads no line -/

section Shift

variable (k : Nat)

@[simp] theorem token_shift (kind : TokenKind) (text : List Char) (line : Nat) :
    Item.shift k (Lexer.token kind text line) = Lexer.token kind text (line + k) := rfl

@[simp] theorem number_shift (whole places text : List Char) (line : Nat) :
    Item.shift k (number whole places text line) = number whole places text (line + k) := by
  cases places <;> rfl

theorem Mode.pending_shift (mode : Mode) (line : Nat) :
    (mode.pending line).map (Item.shift k) = mode.pending (line + k) := by
  cases mode <;> simp [Mode.pending]

theorem begin_shift (before items : List Item) (line : Nat) (c : Char) :
    begin (line + k) (before ++ items.map (Item.shift k)) c = (begin line items c).shift k before := by
  simp only [begin]
  split <;> (try split_ifs) <;> simp [State.shift, Nat.add_right_comm]

theorem step_shift (before : List Item) (st : State) (c : Char) :
    step (st.shift k before) c = (step st c).shift k before := by
  rcases st with ⟨mode, line, items⟩
  -- the lexeme that `c` ends yields what its mode holds, on the shifted line
  have next : begin (line + k) (before ++ items.map (Item.shift k) ++ mode.pending (line + k)) c =
      (begin line (items ++ mode.pending line) c).shift k before := by
    rw [← Mode.pending_shift, List.append_assoc, ← List.map_append, begin_shift]
  cases mode
  case start => exact begin_shift k before items line c
  all_goals
    simp only [step, State.shift, List.append_assoc] at next ⊢
    split_ifs <;> simp [next, Nat.add_right_comm, Token.mapLines]

theorem foldl_shift (before : List Item) (cs : List Char) (st : State) :
    cs.foldl step (st.shift k before) = (cs.foldl step st).shift k before := by
  induction cs generalizing st with
  | nil => rfl
  | cons c cs ih => simp only [List.foldl_cons, step_shift, ih]

theorem run_shift (before : List Item) (st : State) (cs : List Char) :
    run (st.shift k before) cs = before ++ (run st cs).map (Item.shift k) := by
  rw [run, run, foldl_shift]
  simp only [State.yields, State.shift, List.map_append, ← Mode.pending_shift, List.append_assoc, List.map_cons,
    List.map_nil, Item.shift_ok]
  rfl

end Shift

/-! ### Lines -/

theorem begin_line (line : Nat) (items : List Item) (c : Char) :
    (begin line items c).line = line + if c = '\n' then 1 else 0 := by
  simp only [begin]
  split <;> (try split_ifs) <;> simp_all

theorem step_line (st : State) (c : Char) : (step st c).line = st.line + if c = '\n' then 1 else 0 := by
  rcases st with ⟨mode, line, items⟩
  cases mode <;> simp only [step] <;> (try split_ifs) <;> simp_all [begin_line, Lexer.isWordChar]

theorem foldl_line (cs : List Char) (st : State) : (cs.foldl step st).line = st.line + cs.count '\n' := by
  induction cs generalizing st with
  | nil => rfl
  | cons c cs ih =>
    rw [List.foldl_cons, ih, step_line, List.count_cons]
    by_cases newline : c = '\n' <;> simp [newline, Nat.add_assoc, Nat.add_comm 1]

@[simp] theorem Item.line_error (e : LexError) : Item.line (.error e) = e.line := rfl

@[simp] theorem Item.line_token (kind : TokenKind) (text : List Char) (line : Nat) :
    Item.line (Lexer.token kind text line) = line := rfl

@[simp] theorem Item.line_number (whole places text : List Char) (line : Nat) :
    (number whole places text line).line = line := by
  cases places <;> rfl

theorem Mode.pending_line (mode : Mode) (line : Nat) : ∀ i ∈ mode.pending line, i.line = line := by
  cases mode <;> simp [Mode.pending]

/-- `items'` is `items` followed by items on `line`. -/
def Adds (line : Nat) (items items' : List Item) : Prop := ∃ new, items' = items ++ new ∧ ∀ i ∈ new, i.line = line

theorem Adds.refl (line : Nat) (items : List Item) : Adds line items items :=
  ⟨[], (List.append_nil _).symm, fun _ mem => absurd mem List.not_mem_nil⟩

theorem Adds.one {line : Nat} (items : List Item) {i : Item} (lined : i.line = line) : Adds line items (items ++ [i]) :=
  ⟨[i], rfl, by simp [lined]⟩

theorem Adds.trans {line : Nat} {a b c : List Item} : Adds line a b → Adds line b c → Adds line a c
  | ⟨new, grown, lined⟩, ⟨new', grown', lined'⟩ =>
    ⟨new ++ new', by rw [grown', grown, List.append_assoc], fun i mem => (List.mem_append.1 mem).elim (lined i) (lined' i)⟩

theorem begin_items (line : Nat) (items : List Item) (c : Char) : Adds line items (begin line items c).items := by
  simp only [begin]
  split <;> (try split_ifs) <;> first | exact Adds.refl line items | exact Adds.one items rfl

theorem step_items (st : State) (c : Char) : Adds st.line st.items (step st c).items := by
  rcases st with ⟨mode, line, items⟩
  -- where `c` ends the lexeme: the mode's items, then what `c` begins
  have next : Adds line items (begin line (items ++ mode.pending line) c).items :=
    Adds.trans ⟨_, rfl, Mode.pending_line mode line⟩ (begin_items line _ c)
  cases mode
  case start => exact begin_items line items c
  all_goals
    simp only [step]
    split_ifs <;> first | exact next | exact Adds.refl line items | exact Adds.one items rfl

/-- Every item lies between line `first` and the line the automaton has reached. -/
def State.Within (first : Nat) (st : State) : Prop :=
  first ≤ st.line ∧ ∀ i ∈ st.items, first ≤ i.line ∧ i.line ≤ st.line

theorem State.Within.after {first : Nat} {st : State} (within : st.Within first) (c : Char) :
    (step st c).Within first := by
  obtain ⟨new, grown, lined⟩ := step_items st c
  have rises : st.line ≤ (step st c).line := by rw [step_line]; omega
  refine ⟨within.1.trans rises, fun i mem => ?_⟩
  rw [grown, List.mem_append] at mem
  rcases mem with old | fresh
  · exact ⟨(within.2 i old).1, (within.2 i old).2.trans rises⟩
  · rw [lined i fresh]
    exact ⟨within.1, rises⟩

theorem State.Within.foldl {first : Nat} (cs : List Char) : ∀ {st : State}, st.Within first →
    (cs.foldl step st).Within first := by
  induction cs with
  | nil => exact id
  | cons c cs ih => exact fun within => ih (within.after c)

/-- Every item of a text lies between its first line and the line of its last character. -/
theorem scan_lines (source : String) :
    ∀ i ∈ scan source, 1 ≤ i.line ∧ i.line ≤ source.toList.count '\n' + 1 := by
  have within := State.Within.foldl source.toList (show State.Within 1 ⟨.start, 1, []⟩ from ⟨le_refl 1, by simp⟩)
  have reached := foldl_line source.toList ⟨.start, 1, []⟩
  rw [Nat.add_comm] at reached
  intro i mem
  simp only [scan, run, State.yields, List.mem_append, List.mem_singleton] at mem
  rcases mem with (old | pending) | rfl
  · rw [← reached]
    exact within.2 i old
  · rw [Mode.pending_line _ _ i pending, ← reached]
    exact ⟨within.1, le_refl _⟩
  · rw [← reached]
    exact ⟨within.1, le_refl _⟩

/-! ### A newline between two texts -/

/-- A newline ends every lexeme but a string or a comment, whose mode yields an error at the end. -/
theorem step_newline {mode : Mode} {line : Nat} {items : List Item}
    (closed : ∀ e, .error e ∉ mode.pending line) :
    step ⟨mode, line, items⟩ '\n' = ⟨.start, line + 1, items ++ mode.pending line⟩ := by
  cases mode <;> simp_all [step, begin, Mode.pending, Lexer.isWordChar]

/-- Two texts joined by a newline, the first scanning with no error: the first text's items but
its end, then the second's moved down by the first text's lines. -/
theorem scan_join (first second : String) (clean : ∀ e, .error e ∉ scan first) :
    scan (first ++ "\n" ++ second) =
      (scan first).dropLast ++ (scan second).map (Item.shift (first.toList.count '\n' + 1)) := by
  have reached := foldl_line first.toList ⟨.start, 1, []⟩
  have joined : (first ++ "\n" ++ second).toList = first.toList ++ '\n' :: second.toList := by simp
  simp only [scan, run] at clean ⊢
  rw [joined, List.foldl_append, List.foldl_cons]
  generalize first.toList.foldl step ⟨.start, 1, []⟩ = st at clean reached ⊢
  rcases st with ⟨mode, line, items⟩
  simp only [State.yields, List.mem_append, not_or] at clean
  have moved : (⟨.start, line + 1, items ++ mode.pending line⟩ : State) =
      State.shift line (items ++ mode.pending line) ⟨.start, 1, []⟩ := by
    simp [State.shift, Nat.add_comm]
  -- after the newline the automaton is where the second text starts, moved down by `line`
  rw [step_newline fun e => (clean e).1.2, moved, ← run, run_shift]
  simp only at reached
  simp [State.yields, run, reached, Nat.add_comm]

/-- The lexing error an item is, if it is one. -/
def Item.error? : Item → Option LexError
  | .ok _ => none
  | .error e => some e

/-- A scan ends with a token: the end of input. -/
theorem scan_ends (source : String) : ∃ items t, scan source = items ++ [.ok t] :=
  ⟨_, _, rfl⟩

/-- The tokens of items moved down are the tokens moved down. -/
theorem tokens_shift (k : Nat) (items : List Item) :
    (items.map (Item.shift k)).filterMap Except.toOption = (items.filterMap Except.toOption).map (Token.mapLines (· + k)) := by
  induction items with
  | nil => rfl
  | cons i items ih => cases i <;> simp [List.filterMap_cons, Except.toOption, ih]

/-- The errors of items moved down are the errors moved down. -/
theorem errors_shift (k : Nat) (items : List Item) :
    (items.map (Item.shift k)).filterMap Item.error? =
      (items.filterMap Item.error?).map fun e => { e with line := e.line + k } := by
  induction items with
  | nil => rfl
  | cons i items ih => cases i <;> simp [List.filterMap_cons, Item.error?, ih]

end Automaton

/-- The tokens of a text are its items that are tokens, and its lexing errors those that are errors. -/
theorem Token.scanAll_eq (source : String) :
    Token.scanAll source = ((Automaton.scan source).filterMap Except.toOption,
      (Automaton.scan source).filterMap Automaton.Item.error?) := by
  unfold Token.scanAll
  rw [show Token.scan source = Automaton.scan source from Automaton.scanFrom_eq_run 1 source.toList #[]]
  induction Automaton.scan source with
  | nil => rfl
  | cons i items ih => cases i <;> simp [ih, List.filterMap_cons, Except.toOption, Automaton.Item.error?]

/-- Two texts joined by a newline, the first with no lexing error: the first text's tokens but its
end, then the second's moved down by the first text's lines, and the second text's lexing errors,
moved down as well. -/
theorem Token.scanAll_join (first second : String) (clean : (Token.scanAll first).2 = []) :
    Token.scanAll (first ++ "\n" ++ second) =
      ((Token.scanAll first).1.dropLast ++
          (Token.scanAll second).1.map (Token.mapLines (· + (first.toList.count '\n' + 1))),
        (Token.scanAll second).2.map fun e => { e with line := e.line + (first.toList.count '\n' + 1) }) := by
  obtain ⟨items, t, ends⟩ := Automaton.scan_ends first
  rw [Token.scanAll_eq, ends] at clean
  simp only [List.filterMap_append, List.filterMap_cons, List.filterMap_nil, Automaton.Item.error?,
    List.append_nil] at clean
  have noError : ∀ e, .error e ∉ Automaton.scan first := by
    intro e mem
    rw [ends, List.mem_append] at mem
    rcases mem with mem | mem
    · simpa [Automaton.Item.error?] using List.filterMap_eq_nil_iff.1 clean _ mem
    · simp at mem
  rw [Token.scanAll_eq, Token.scanAll_eq, Token.scanAll_eq, Automaton.scan_join first second noError, ends]
  simp only [List.dropLast_concat, List.filterMap_append, Automaton.tokens_shift, Automaton.errors_shift, clean,
    List.nil_append, List.filterMap_cons, List.filterMap_nil, Except.toOption]

/-- Every token of a text lies between its first line and the line of its last character. -/
theorem Token.scanAll_lines (source : String) :
    ∀ t ∈ (Token.scanAll source).1, 1 ≤ t.line ∧ t.line ≤ source.toList.count '\n' + 1 := by
  intro t mem
  rw [Token.scanAll_eq] at mem
  obtain ⟨i, scanned, token⟩ := List.mem_filterMap.1 mem
  cases i with
  | ok t' =>
    cases token
    exact Automaton.scan_lines source (.ok t) scanned
  | error e => cases token

end Lox
