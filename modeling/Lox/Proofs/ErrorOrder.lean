import Mathlib
import Lox.Session
import Lox.Proofs.ScanLines
/-!
The order of a unit's static errors. The scanner meets its lexing errors from the top of the text
down: the line it has reached only grows, and it yields every item on the line reached
(`Automaton.scan_inOrder`). When the parse fails, the lexing and syntax errors are merged and
sorted by line, stably. So the errors come line by line, and on each line the lexing errors of
that line come first, in the order the scanner met them, then the syntax errors of that line in
the order the parser recorded them (`Stmt.ofSource_errors_by_line`). A line is all the position
an error carries: two errors of one line are not ordered by their places in it, and `)@` reports
the `@` before the `)` (`Stmt.ofSource_lex_error_first`).
-/
namespace Lox

namespace Automaton

/-- The items are in line order, and none lies below the line reached. -/
def State.InOrder (st : State) : Prop :=
  st.items.Pairwise (fun a b => a.line ≤ b.line) ∧ ∀ i ∈ st.items, i.line ≤ st.line

theorem State.InOrder.after {st : State} (ordered : st.InOrder) (c : Char) : (step st c).InOrder := by
  obtain ⟨new, grown, lined⟩ := step_items st c
  have rises : st.line ≤ (step st c).line := by rw [step_line]; omega
  refine ⟨?_, fun i mem => ?_⟩
  · rw [grown, List.pairwise_append]
    refine ⟨ordered.1, List.pairwise_of_forall_mem_list fun a a_new b b_new => ?_, fun a old b fresh => ?_⟩
    · rw [lined a a_new, lined b b_new]
    · rw [lined b fresh]
      exact ordered.2 a old
  · rw [grown, List.mem_append] at mem
    rcases mem with old | fresh
    · exact (ordered.2 i old).trans rises
    · rw [lined i fresh]
      exact rises

theorem State.InOrder.foldl (cs : List Char) : ∀ {st : State}, st.InOrder → (cs.foldl step st).InOrder := by
  induction cs with
  | nil => exact id
  | cons c cs ih => exact fun ordered => ih (ordered.after c)

/-- The scanner yields its items in line order. -/
theorem scan_inOrder (source : String) : (scan source).Pairwise (fun a b => a.line ≤ b.line) := by
  have ordered := State.InOrder.foldl source.toList (show State.InOrder ⟨.start, 1, []⟩ by simp [State.InOrder])
  show (source.toList.foldl step ⟨.start, 1, []⟩).yields.Pairwise _
  generalize source.toList.foldl step ⟨.start, 1, []⟩ = st at ordered ⊢
  -- what the last mode holds and the end of input both lie on the line reached
  have last : ∀ i ∈ st.mode.pending st.line ++ [.ok ⟨.eof, "", st.line⟩], i.line = st.line := by
    intro i mem
    rcases List.mem_append.1 mem with pending | eof
    · exact Mode.pending_line _ _ i pending
    · rw [List.mem_singleton.1 eof]
      rfl
  rw [State.yields, List.append_assoc, List.pairwise_append]
  refine ⟨ordered.1, List.pairwise_of_forall_mem_list fun a a_last b b_last => ?_, fun a old b b_last => ?_⟩
  · rw [last a a_last, last b b_last]
  · rw [last b b_last]
    exact ordered.2 a old

end Automaton

/-- The lexing errors of a text are in line order. -/
theorem Token.scanAll_errors_inOrder (source : String) :
    (Token.scanAll source).2.Pairwise (fun a b => a.line ≤ b.line) := by
  rw [Token.scanAll_eq]
  refine (Automaton.scan_inOrder source).filterMap _ fun a a' le e found e' found' => ?_
  cases a <;> cases a' <;> simp only [Automaton.Item.error?, reduceCtorEq, Option.some.injEq] at found found'
  subst found found'
  exact le

/-! ### Sorting by line -/

section Sorting

variable {α : Type} (key : α → Nat)

/-- Sorting by a key puts the keys in order. -/
theorem pairwise_mergeSort_key (l : List α) :
    (l.mergeSort fun a b => decide (key a ≤ key b)).Pairwise (fun a b => key a ≤ key b) := by
  have sorted : (l.mergeSort fun a b => decide (key a ≤ key b)).Pairwise
      (fun a b => decide (key a ≤ key b) = true) := List.pairwise_mergeSort
    (fun a b c ab bc => by simp only [decide_eq_true_eq] at *; omega)
    (fun a b => by simp only [Bool.or_eq_true, decide_eq_true_eq]; omega) l
  exact sorted.imp fun le => by simpa using le

/-- Sorting by a key is stable: the elements with any one key keep their order. -/
theorem filter_mergeSort_key (l : List α) (n : Nat) :
    (l.mergeSort fun a b => decide (key a ≤ key b)).filter (fun a => key a == n) =
      l.filter (fun a => key a == n) := by
  let same : α → Bool := fun a => key a == n
  have tied : (l.filter same).Pairwise (fun a b => decide (key a ≤ key b) = true) := by
    refine List.pairwise_of_forall_mem_list fun a a_mem b b_mem => ?_
    simp only [List.mem_filter, beq_iff_eq, same] at a_mem b_mem
    simp [a_mem.2, b_mem.2]
  -- the elements with key `n` stay a sublist, and sorting loses none of them
  have kept := List.sublist_mergeSort
    (fun a b c ab bc => by simp only [decide_eq_true_eq] at *; omega)
    (fun a b => by simp only [Bool.or_eq_true, decide_eq_true_eq]; omega) tied List.filter_sublist
  have within := kept.filter same
  simp only [List.filter_filter, Bool.and_self] at within
  have count := ((List.mergeSort_perm l fun a b => decide (key a ≤ key b)).filter same).length_eq
  exact (within.eq_of_length count.symm).symm

end Sorting

/-! ### The errors of a unit -/

/-- The syntax errors a parse reports: none when it succeeds. -/
def Stmt.syntaxErrors (tokens : List Token) : List ParseError :=
  match Stmt.parseProgram tokens with
  | .ok _ => []
  | .error es => es

@[simp] theorem Diagnostic.line_lex (e : LexError) : (Diagnostic.lex e).line = some e.line := rfl

@[simp] theorem Diagnostic.line_parse (e : ParseError) : (Diagnostic.parse e).line = some e.token.line := rfl

/-- The errors of a unit that does not read, line by line: the lines increase, and on each line
come the lexing errors of that line, in the order the scanner met them, and then the syntax
errors of that line, in the order the parser recorded them. -/
theorem Stmt.ofSource_errors_by_line (source : String) {ds : List Diagnostic}
    (refused : Stmt.ofSource source = .error ds) :
    ds.Pairwise (fun a b => a.line.getD 0 ≤ b.line.getD 0) ∧
    ∀ n, ds.filter (fun d => d.line.getD 0 == n) =
      ((Token.scanAll source).2.filter (fun e => e.line == n)).map .lex ++
        ((Stmt.syntaxErrors (Token.scanAll source).1).filter (fun e => e.token.line == n)).map .parse := by
  unfold Stmt.ofSource at refused
  unfold Stmt.syntaxErrors
  have ordered := Token.scanAll_errors_inOrder source
  generalize Token.scanAll source = scanned at refused ordered
  obtain ⟨tokens, lexErrors⟩ := scanned
  simp only at refused ordered ⊢
  rcases parsed : Stmt.parseProgram tokens with parseErrors | stmts <;> rw [parsed] at refused
  · simp only [Except.error.injEq] at refused
    subst refused
    refine ⟨pairwise_mergeSort_key (fun d : Diagnostic => d.line.getD 0) _, fun n => ?_⟩
    rw [filter_mergeSort_key (fun d : Diagnostic => d.line.getD 0)]
    simp [List.filter_map, Function.comp_def]
  · -- the parse succeeded: the lexing errors alone, in the order scanned
    cases clean : lexErrors.isEmpty <;> simp only [clean, Bool.false_eq_true, ↓reduceIte, reduceCtorEq,
      Except.error.injEq] at refused
    subst refused
    refine ⟨?_, fun n => by simp [List.filter_map, Function.comp_def]⟩
    rw [List.pairwise_map]
    exact ordered

/-- Errors on two lines: the syntax error of the first line, then the lexing error and the syntax
error of the second. -/
theorem Stmt.ofSource_errors_by_line_reported :
    let ds : List Diagnostic := [.parse ⟨⟨.plus, "+", 1⟩, .expectExpression⟩, .lex ⟨2, .unexpected '@'⟩,
      .parse ⟨⟨.semicolon, ";", 2⟩, .expectExpression⟩]
    Stmt.ofSource "+;\n@;" = .error ds ∧
      ds.Pairwise (fun a b => a.line.getD 0 ≤ b.line.getD 0) ∧
      ∀ n, ds.filter (fun d => d.line.getD 0 == n) =
        ((Token.scanAll "+;\n@;").2.filter (fun e => e.line == n)).map .lex ++
          ((Stmt.syntaxErrors (Token.scanAll "+;\n@;").1).filter
            (fun e => e.token.line == n)).map .parse :=
  have refused : Stmt.ofSource "+;\n@;" = .error [.parse ⟨⟨.plus, "+", 1⟩, .expectExpression⟩,
      .lex ⟨2, .unexpected '@'⟩, .parse ⟨⟨.semicolon, ";", 2⟩, .expectExpression⟩] := by cbv
  ⟨refused, Stmt.ofSource_errors_by_line _ refused⟩

/-- On one line a lexing error is reported before a syntax error, wherever each stands in the line:
in `)@` the `)` cannot start an expression and the `@` is no character of the language, and the
`@` comes first. -/
theorem Stmt.ofSource_lex_error_first :
    Stmt.ofSource ")@" =
      .error [.lex ⟨1, .unexpected '@'⟩, .parse ⟨⟨.rightParen, ")", 1⟩, .expectExpression⟩] := by
  cbv

end Lox
