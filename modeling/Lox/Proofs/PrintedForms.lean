import Lox.Proofs.ScannedTokens
import Lox.Proofs.ScanLines
/-!
What the two printed forms of a parsed expression determine. The prefix form is a tree of words
in parentheses (`SExp`), and such a tree is read back from its text alone
(`SExp.render_append_inj`); the postfix form is a list of words separated by blanks, read back
by a stack machine (`readPost`). Reading either form gives the expression back with its lines and
scopes forgotten, the postfix form with its groupings also dropped, as long as no string literal
and no reference to a variable named like one of the printers' own words stands in it: `inf`, the
text of an infinite number, in both forms, and `neg`, the postfix form's unary minus, in the
postfix form. With such a name the forms are ambiguous (`Expr.printed_forms_collide`).
-/
namespace Lox

/-! ### Trees of words -/

/-- A blank or a parenthesis: the characters that end a word of the prefix form. -/
def isDelimiter (c : Char) : Bool := c == ' ' || c == '(' || c == ')'

/-- A word of the printed forms: no blank and no parenthesis in it. -/
def Word (w : List Char) : Prop := ∀ c ∈ w, isDelimiter c = false

/-- What may follow a tree in the prefix form: nothing, a blank or a closing parenthesis. -/
def Closes (r : List Char) : Prop := r = [] ∨ (∃ r', r = ' ' :: r') ∨ ∃ r', r = ')' :: r'

/-- A word followed by what may follow a tree is read back from the text. -/
theorem Word.append_inj : ∀ {w₁ w₂ r₁ r₂ : List Char}, Word w₁ → Word w₂ → Closes r₁ → Closes r₂ →
    w₁ ++ r₁ = w₂ ++ r₂ → w₁ = w₂ ∧ r₁ = r₂
  | [], [], _, _, _, _, _, _, same => ⟨rfl, same⟩
  | [], c :: w₂, _, _, _, plain₂, closes₁, _, same => by
    have word := plain₂ c List.mem_cons_self
    rcases closes₁ with rfl | ⟨r, rfl⟩ | ⟨r, rfl⟩ <;> simp only [List.nil_append, List.cons_append,
      reduceCtorEq, List.cons.injEq] at same <;> simp [← same.1, isDelimiter] at word
  | c :: w₁, [], _, _, plain₁, _, _, closes₂, same => by
    have word := plain₁ c List.mem_cons_self
    rcases closes₂ with rfl | ⟨r, rfl⟩ | ⟨r, rfl⟩ <;> simp only [List.nil_append, List.cons_append,
      reduceCtorEq, List.cons.injEq] at same <;> simp [same.1, isDelimiter] at word
  | c :: w₁, d :: w₂, _, _, plain₁, plain₂, closes₁, closes₂, same => by
    simp only [List.cons_append, List.cons.injEq] at same
    obtain ⟨rfl, same⟩ := same
    obtain ⟨rfl, rfl⟩ := Word.append_inj (fun c mem => plain₁ c (List.mem_cons_of_mem _ mem))
      (fun c mem => plain₂ c (List.mem_cons_of_mem _ mem)) closes₁ closes₂ same
    exact ⟨rfl, rfl⟩

/-- A word followed by what may follow a tree does not begin with a parenthesis. -/
theorem Word.append_ne_open {w r x : List Char} (word : Word w) (closes : Closes r) : w ++ r ≠ '(' :: x := by
  intro same
  cases w with
  | nil => rcases closes with rfl | ⟨r, rfl⟩ | ⟨r, rfl⟩ <;> simp at same
  | cons c w =>
    rw [List.cons_append, List.cons.injEq] at same
    have := word c List.mem_cons_self
    simp [same.1, isDelimiter] at this

/-- A tree of words as the prefix form writes it: a word, or a head word and the subtrees after
it, in parentheses. -/
inductive SExp where
  | atom (word : String)
  | list (head : String) (kids : List SExp)

mutual

/-- The text of a tree: a list is `(head kid kid …)`. -/
def SExp.render : SExp → List Char
  | .atom w => w.toList
  | .list h kids => '(' :: h.toList ++ SExp.renderAll kids ++ [')']

/-- The subtrees of a list, each after a blank. -/
def SExp.renderAll : List SExp → List Char
  | [] => []
  | k :: ks => ' ' :: k.render ++ SExp.renderAll ks

end

mutual

/-- Every word of the tree is a word of the printed forms. -/
def SExp.Words : SExp → Prop
  | .atom w => Word w.toList
  | .list h kids => Word h.toList ∧ SExp.WordsAll kids

/-- Every word of every subtree is a word of the printed forms. -/
def SExp.WordsAll : List SExp → Prop
  | [] => True
  | k :: ks => k.Words ∧ SExp.WordsAll ks

end

theorem SExp.renderAll_closes (ks : List SExp) (r : List Char) : Closes (SExp.renderAll ks ++ ')' :: r) := by
  cases ks with
  | nil => exact .inr (.inr ⟨r, rfl⟩)
  | cons k ks => exact .inr (.inl ⟨k.render ++ (SExp.renderAll ks ++ ')' :: r), by simp [SExp.renderAll]⟩)

mutual

/-- A tree is read back from its text, whatever may follow it: the prefix form is unambiguous. -/
theorem SExp.render_append_inj : ∀ {s₁ s₂ : SExp} {r₁ r₂ : List Char}, s₁.Words → s₂.Words →
    Closes r₁ → Closes r₂ → s₁.render ++ r₁ = s₂.render ++ r₂ → s₁ = s₂ ∧ r₁ = r₂
  | .atom w₁, .atom w₂, _, _, plain₁, plain₂, closes₁, closes₂, same => by
    obtain ⟨words, rfl⟩ := Word.append_inj plain₁ plain₂ closes₁ closes₂ same
    exact ⟨by rw [String.toList_inj.1 words], rfl⟩
  | .atom w, .list h kids, _, _, plain, _, closes, _, same => by
    simp only [SExp.render, List.cons_append, List.append_assoc] at same
    exact absurd same (Word.append_ne_open plain closes)
  | .list h kids, .atom w, _, _, _, plain, _, closes, same => by
    simp only [SExp.render, List.cons_append, List.append_assoc] at same
    exact absurd same.symm (Word.append_ne_open plain closes)
  | .list h₁ kids₁, .list h₂ kids₂, r₁, r₂, plain₁, plain₂, _, _, same => by
    simp only [SExp.render, List.cons_append, List.append_assoc, List.cons.injEq, true_and] at same
    obtain ⟨heads, kids⟩ := Word.append_inj plain₁.1 plain₂.1 (SExp.renderAll_closes kids₁ r₁)
      (SExp.renderAll_closes kids₂ r₂) same
    obtain ⟨rfl, rfl⟩ := SExp.renderAll_append_inj plain₁.2 plain₂.2 kids
    exact ⟨by rw [String.toList_inj.1 heads], rfl⟩

/-- The subtrees of a list are read back up to its closing parenthesis. -/
theorem SExp.renderAll_append_inj : ∀ {ks₁ ks₂ : List SExp} {r₁ r₂ : List Char}, SExp.WordsAll ks₁ →
    SExp.WordsAll ks₂ → SExp.renderAll ks₁ ++ ')' :: r₁ = SExp.renderAll ks₂ ++ ')' :: r₂ → ks₁ = ks₂ ∧ r₁ = r₂
  | [], [], _, _, _, _, same => ⟨rfl, by simpa [SExp.renderAll] using same⟩
  | [], _ :: _, _, _, _, _, same => by simp [SExp.renderAll] at same
  | _ :: _, [], _, _, _, _, same => by simp [SExp.renderAll] at same
  | k₁ :: ks₁, k₂ :: ks₂, r₁, r₂, plain₁, plain₂, same => by
    simp only [SExp.renderAll, List.cons_append, List.append_assoc, List.cons.injEq, true_and] at same
    obtain ⟨rfl, rests⟩ := SExp.render_append_inj plain₁.1 plain₂.1 (SExp.renderAll_closes ks₁ r₁)
      (SExp.renderAll_closes ks₂ r₂) same
    obtain ⟨rfl, rfl⟩ := SExp.renderAll_append_inj plain₁.2 plain₂.2 rests
    exact ⟨rfl, rfl⟩

end

/-! ### The prefix form as a tree -/

mutual

/-- The tree of words an expression's prefix form writes. -/
def Expr.toSExp : Expr → SExp
  | .literal v => .atom v.text
  | .grouping e => .list "group" [e.toSExp]
  | .unary op r => .list op.lexeme [r.toSExp]
  | .binary l op r => .list op.lexeme [l.toSExp, r.toSExp]
  | .logical l op r => .list op.lexeme [l.toSExp, r.toSExp]
  | .ident name _ => .atom name.lexeme
  | .assign name v _ => .list "=" [.atom name.lexeme, v.toSExp]
  | .call f _ args => .list "call" (f.toSExp :: Expr.toSExpAll args)
  | .get o name => .list "." [o.toSExp, .atom name.lexeme]
  | .set o name v => .list "=" [.list "." [o.toSExp, .atom name.lexeme], v.toSExp]
  | .thisRef _ _ => .atom "this"
  | .superGet _ m _ => .list "super" [.atom m.lexeme]

/-- The trees of a list of expressions. -/
def Expr.toSExpAll : List Expr → List SExp
  | [] => []
  | e :: es => e.toSExp :: Expr.toSExpAll es

end

mutual

/-- The prefix form is the text of the expression's tree. -/
theorem Expr.render_toSExp : ∀ e : Expr, e.toSExp.render = e.toPrefix.toList
  | .literal v | .ident _ _ | .thisRef _ _ | .superGet _ _ _ => by
    simp [Expr.toSExp, SExp.render, SExp.renderAll, Expr.toPrefix]
  | .grouping e | .unary _ e | .get e _ => by
    simp [Expr.toSExp, SExp.render, SExp.renderAll, Expr.toPrefix, Expr.render_toSExp e]
  | .binary l _ r | .logical l _ r | .set l _ r => by
    simp [Expr.toSExp, SExp.render, SExp.renderAll, Expr.toPrefix, Expr.render_toSExp l, Expr.render_toSExp r]
  | .assign _ v _ => by
    simp [Expr.toSExp, SExp.render, SExp.renderAll, Expr.toPrefix, Expr.render_toSExp v]
  | .call f _ args => by
    simp [Expr.toSExp, SExp.render, SExp.renderAll, Expr.toPrefix, Expr.render_toSExp f,
      Expr.renderAll_toSExpAll args]

/-- The trees of arguments are written as `spaced` writes their prefix forms. -/
theorem Expr.renderAll_toSExpAll : ∀ es : List Expr, SExp.renderAll (Expr.toSExpAll es) = (spaced (es.map Expr.toPrefix)).toList
  | [] => by simp [Expr.toSExpAll, SExp.renderAll, spaced]
  | e :: es => by
    have rest := Expr.renderAll_toSExpAll es
    simp only [spaced] at rest
    simp [Expr.toSExpAll, SExp.renderAll, spaced, Expr.render_toSExp e, rest]

end

/-! ### What the printers write of a parsed expression -/

mutual

/-- No string literal and no reference to a variable with one of these names. -/
def Expr.FreeOf (names : List String) : Expr → Prop
  | .literal (.str _) => False
  | .literal _ => True
  | .grouping e => e.FreeOf names
  | .unary _ r => r.FreeOf names
  | .binary l _ r | .logical l _ r | .set l _ r => l.FreeOf names ∧ r.FreeOf names
  | .ident name _ => name.lexeme ∉ names
  | .assign _ v _ => v.FreeOf names
  | .call f _ args => f.FreeOf names ∧ Expr.FreeOfAll names args
  | .get o _ => o.FreeOf names
  | .thisRef _ _ | .superGet _ _ _ => True

/-- No expression of the list holds a string literal or refers to one of the names. -/
def Expr.FreeOfAll (names : List String) : List Expr → Prop
  | [] => True
  | e :: es => e.FreeOf names ∧ Expr.FreeOfAll names es

end

/-- The operators of the grammar: the unary ones, the binary levels' and the logical ones. -/
def operatorKinds : List TokenKind :=
  [.bang, .minus, .plus, .star, .slash, .equalEqual, .bangEqual, .less, .lessEqual, .greater, .greaterEqual,
    .andKw, .orKw]

/-- The kind of an operator, from its lexeme. -/
def operatorKind : String → TokenKind
  | "!" => .bang | "-" => .minus | "+" => .plus | "*" => .star | "/" => .slash
  | "==" => .equalEqual | "!=" => .bangEqual | "<" => .less | "<=" => .lessEqual
  | ">" => .greater | ">=" => .greaterEqual | "and" => .andKw | "or" => .orKw
  | _ => .eof

/-- A token of a kind written one way, its line forgotten, is that kind and that lexeme. -/
theorem Token.Lexical.forget_line {t : Token} {w : String} (lexical : t.Lexical) (spelled : t.kind.spelling? = some w) :
    t.mapLines (fun _ => 0) = ⟨t.kind, w, 0⟩ := by
  obtain ⟨k, lexeme, line⟩ := t
  cases k <;> simp_all [Token.Lexical, TokenKind.spelling?, Token.mapLines]

/-- An operator token is read back from its lexeme. -/
theorem Token.Lexical.operator {t : Token} (lexical : t.Lexical) (op : t.kind ∈ operatorKinds) :
    t.mapLines (fun _ => 0) = ⟨operatorKind t.lexeme, t.lexeme, 0⟩ ∧ t.lexeme ∉ ["group", "super", "call", "=", "."] := by
  obtain ⟨k, lexeme, line⟩ := t
  simp only [operatorKinds, List.mem_cons, List.not_mem_nil, or_false] at op
  rcases op with rfl | rfl | rfl | rfl | rfl | rfl | rfl | rfl | rfl | rfl | rfl | rfl | rfl <;>
    simp only [Token.Lexical, TokenKind.spelling?, Option.some.injEq] at lexical <;> subst lexical <;>
    exact ⟨rfl, by simp⟩

/-- A name token, its line forgotten, is an identifier of that lexeme. -/
theorem Token.Lexical.name {t : Token} (lexical : t.Lexical) (ident : t.kind = .identifier) :
    t.mapLines (fun _ => 0) = ⟨.identifier, t.lexeme, 0⟩ ∧ Lexer.isName t.lexeme.toList = true ∧
      TokenKind.keyword? t.lexeme = none := by
  obtain ⟨k, lexeme, line⟩ := t
  simp only at ident
  subst ident
  exact ⟨rfl, lexical⟩

/-! ### Reading the prefix form back -/

/-- A digit is no letter. -/
theorem Char.isAlpha_eq_false_of_isDigit {c : Char} (digit : c.isDigit = true) : c.isAlpha = false := by
  simp only [Char.isDigit, Char.isAlpha, Char.isUpper, Char.isLower, Bool.and_eq_true, decide_eq_true_eq] at *
  simp only [UInt32.le_iff_toNat_le] at *
  grind

/-- A number's text reads as a name only when it is infinity's. -/
theorem Literal.number_text_name {x : Float} (number : Double.ofFloat x ≠ .nan)
    (named : Lexer.isName (Literal.number x).text.toList = true) : (Literal.number x).text = "inf" := by
  rcases Literal.text_lead number with inf | ⟨c, rest, text, lead⟩
  · exact inf
  · rw [text] at named
    simp only [Lexer.isName, Bool.and_eq_true, Bool.or_eq_true, beq_iff_eq] at named
    rcases lead with digit | ⟨rfl, -⟩
    · rcases named.1 with alpha | rfl
      · simp [Char.isAlpha_eq_false_of_isDigit digit] at alpha
      · simp at digit
    · simp at named

/-- The number a text is the text of, if it is one. -/
noncomputable def numberOfText (w : String) : Float :=
  Function.invFun (fun x : Float => (Literal.number x).text) w

theorem numberOfText_text (x : Float) : numberOfText (Literal.number x).text = x :=
  Function.leftInverse_invFun (fun _ _ same => Literal.number_text_injective same) x

/-- The expression a word of the prefix form stands for: a keyword literal, a name, or a number. -/
noncomputable def atomExpr (w : String) : Expr :=
  if w = "true" then .literal (.bool true)
  else if w = "false" then .literal (.bool false)
  else if w = "nil" then .literal .nil
  else if w = "this" then .thisRef ⟨.thisKw, "this", 0⟩ .global
  else if Lexer.isName w.toList = true ∧ w ≠ "inf" then .ident ⟨.identifier, w, 0⟩ .global
  else .literal (.number (numberOfText w))

theorem atomExpr_literal {v : Literal} (scanned : v.Scanned) (plain : (Expr.literal v).FreeOf names) :
    atomExpr v.text = .literal v := by
  cases v with
  | number x =>
    -- the keyword texts are names other than infinity, which a number's text is not
    have named := Literal.number_text_name (x := x) scanned
    by_cases inf : (Literal.number x).text = "inf"
    · have back : numberOfText "inf" = x := inf ▸ numberOfText_text x
      rw [inf]
      simp [atomExpr, back]
    · have notName : Lexer.isName (Literal.number x).text.toList = false := by
        cases h : Lexer.isName (Literal.number x).text.toList
        · rfl
        · exact absurd (named h) inf
      have keywords : ∀ k ∈ ["true", "false", "nil", "this"], (Literal.number x).text ≠ k := by
        intro k mem same
        simp only [List.mem_cons, List.not_mem_nil, or_false] at mem
        rcases mem with rfl | rfl | rfl | rfl <;> simp [same, Lexer.isName, Lexer.isWordChar] at notName
      simp at keywords
      simp [atomExpr, keywords, notName, numberOfText_text]
  | str s => exact absurd plain id
  | bool b => cases b <;> rfl
  | nil => rfl

theorem atomExpr_ident {name : Token} (lexical : name.Lexical) (ident : name.kind = .identifier)
    (notInf : name.lexeme ≠ "inf") : atomExpr name.lexeme = (Expr.ident name .global).mapLines fun _ => 0 := by
  obtain ⟨forget, named, notKeyword⟩ := lexical.name ident
  have keywords : ∀ k ∈ ["true", "false", "nil", "this"], name.lexeme ≠ k := by
    intro k mem same
    simp only [List.mem_cons, List.not_mem_nil, or_false] at mem
    rcases mem with rfl | rfl | rfl | rfl <;> simp [same, TokenKind.keyword?] at notKeyword
  simp at keywords
  simp [atomExpr, keywords, named, notInf, Expr.mapLines, forget]

/-- A call: the callee, then the arguments. -/
def callOf : List Expr → Option Expr
  | f :: args => some (.call f ⟨.rightParen, ")", 0⟩ args)
  | [] => none

/-- A grouping of one expression. -/
def groupOf : List Expr → Option Expr
  | [e] => some (.grouping e)
  | _ => none

/-- A method of the superclass, named by the one word of the list. -/
def superOf : List SExp → Option Expr
  | [.atom m] => some (.superGet ⟨.superKw, "super", 0⟩ ⟨.identifier, m, 0⟩ .global)
  | _ => none

/-- An assignment to a name, or to a property. -/
def assignOf : List SExp → List Expr → Option Expr
  | [.atom w, _], [_, v] => some (.assign ⟨.identifier, w, 0⟩ v .global)
  | _, [.get o name, v] => some (.set o name v)
  | _, _ => none

/-- A property of an object, named by the second word of the list. -/
def getOf : List SExp → List Expr → Option Expr
  | [_, .atom w], [o, _] => some (.get o ⟨.identifier, w, 0⟩)
  | _, _ => none

/-- An operator written `h` applied to its operands. -/
def operatorOf (h : String) : List Expr → Option Expr
  | [e] => some (.unary ⟨operatorKind h, h, 0⟩ e)
  | [l, r] =>
    some (if h = "and" ∨ h = "or" then .logical l ⟨operatorKind h, h, 0⟩ r else .binary l ⟨operatorKind h, h, 0⟩ r)
  | _ => none

/-- The expression a list of the prefix form stands for, from its head word, its subtrees and the
expressions they stand for. -/
def assemble (h : String) (kids : List SExp) (es : List Expr) : Option Expr :=
  if h = "call" then callOf es
  else if h = "group" then groupOf es
  else if h = "super" then superOf kids
  else if h = "=" then assignOf kids es
  else if h = "." then getOf kids es
  else operatorOf h es

mutual

/-- The expression a tree of the prefix form stands for, if any. -/
noncomputable def SExp.decode : SExp → Option Expr
  | .atom w => some (atomExpr w)
  | .list h kids => (SExp.decodeAll kids).bind (assemble h kids)

/-- The expressions a list of trees stands for, if each tree stands for one. -/
noncomputable def SExp.decodeAll : List SExp → Option (List Expr)
  | [] => some []
  | k :: ks => k.decode.bind fun e => (SExp.decodeAll ks).map (e :: ·)

end

theorem Parser.Level.ops_operators {lvl : Parser.Level} {k : TokenKind} (mem : k ∈ lvl.ops) : k ∈ operatorKinds := by
  cases lvl <;> simp only [Parser.Level.ops, List.mem_cons, List.not_mem_nil, or_false] at mem <;>
    rcases mem with rfl | rfl | rfl | rfl <;> simp [operatorKinds]

/-- A binary operator is read back from its lexeme, as every operator is, and is written neither
`and` nor `or`, which the prefix form reads as logical operators. -/
theorem Token.Lexical.binary {op : Token} (lexical : op.Lexical) {lvl : Parser.Level} (mem : op.kind ∈ lvl.ops) :
    op.mapLines (fun _ => 0) = ⟨operatorKind op.lexeme, op.lexeme, 0⟩ ∧
      op.lexeme ∉ ["group", "super", "call", "=", "."] ∧ ¬(op.lexeme = "and" ∨ op.lexeme = "or") := by
  obtain ⟨forget, special⟩ := lexical.operator (Parser.Level.ops_operators mem)
  refine ⟨forget, special, ?_⟩
  have kind : op.kind = operatorKind op.lexeme := by simpa using congrArg Token.kind forget
  rintro (same | same) <;> rw [same] at kind <;> cases lvl <;> simp [kind, operatorKind, Parser.Level.ops] at mem

mutual

/-- Reading the tree of a parsed expression gives the expression back, lines forgotten, when no
string literal and no variable named `inf` stands in it. -/
theorem Expr.decode_toSExp : ∀ e : Expr, e.Printable → e.FreeOf ["inf"] →
    e.toSExp.decode = some (e.mapLines fun _ => 0)
  | .literal v, scanned, plain => by
    simp [Expr.toSExp, SExp.decode, atomExpr_literal scanned plain, Expr.mapLines]
  | .grouping e, printable, plain => by
    simp [Expr.toSExp, SExp.decode, SExp.decodeAll, Expr.decode_toSExp e printable plain, assemble, groupOf, Expr.mapLines]
  | .unary op r, ⟨kind, lexical, printable⟩, plain => by
    obtain ⟨forget, special⟩ := lexical.operator (by rcases kind with k | k <;> simp [k, operatorKinds])
    simp only [List.mem_cons, List.not_mem_nil, or_false, not_or] at special
    simp [Expr.toSExp, SExp.decode, SExp.decodeAll, Expr.decode_toSExp r printable plain, assemble, operatorOf, special,
      Expr.mapLines, forget]
  | .binary l op r, ⟨⟨lvl, level⟩, lexical, printable₁, printable₂⟩, ⟨plain₁, plain₂⟩ => by
    obtain ⟨forget, special, notLogical⟩ := lexical.binary level
    simp only [List.mem_cons, List.not_mem_nil, or_false, not_or] at special notLogical
    simp [Expr.toSExp, SExp.decode, SExp.decodeAll, Expr.decode_toSExp l printable₁ plain₁,
      Expr.decode_toSExp r printable₂ plain₂, assemble, operatorOf, special, notLogical, Expr.mapLines, forget]
  | .logical l op r, ⟨kind, lexical, printable₁, printable₂⟩, ⟨plain₁, plain₂⟩ => by
    obtain ⟨forget, special⟩ := lexical.operator (by rcases kind with k | k <;> simp [k, operatorKinds])
    have logical : op.lexeme = "and" ∨ op.lexeme = "or" := by
      rcases kind with k | k <;> simp [Token.Lexical, k, TokenKind.spelling?] at lexical <;> simp [← lexical]
    simp only [List.mem_cons, List.not_mem_nil, or_false, not_or] at special
    simp [Expr.toSExp, SExp.decode, SExp.decodeAll, Expr.decode_toSExp l printable₁ plain₁,
      Expr.decode_toSExp r printable₂ plain₂, assemble, operatorOf, special, logical, Expr.mapLines, forget]
  | .ident name a, ⟨isIdent, lexical, global⟩, plain => by
    subst global
    simp only [Expr.FreeOf, List.mem_cons, List.not_mem_nil, or_false] at plain
    simp [Expr.toSExp, SExp.decode, atomExpr_ident lexical isIdent plain]
  | .assign name v a, ⟨isIdent, lexical, global, printable⟩, plain => by
    subst global
    obtain ⟨forget, -, -⟩ := lexical.name isIdent
    simp [Expr.toSExp, SExp.decode, SExp.decodeAll, Expr.decode_toSExp v printable plain, assemble, assignOf,
      Expr.mapLines, forget]
  | .call f paren args, ⟨kind, lexical, printable, printables⟩, ⟨plain, plains⟩ => by
    have forget := lexical.forget_line (w := ")") (by simp [kind, TokenKind.spelling?])
    simp [Expr.toSExp, SExp.decode, SExp.decodeAll, Expr.decode_toSExp f printable plain,
      Expr.decodeAll_toSExpAll args printables plains, assemble, callOf, Expr.mapLines, forget, kind]
  | .get o name, ⟨isIdent, lexical, printable⟩, plain => by
    obtain ⟨forget, -, -⟩ := lexical.name isIdent
    simp [Expr.toSExp, SExp.decode, SExp.decodeAll, Expr.decode_toSExp o printable plain, assemble, getOf,
      Expr.mapLines, forget]
  | .set o name v, ⟨isIdent, lexical, printable₁, printable₂⟩, ⟨plain₁, plain₂⟩ => by
    obtain ⟨forget, -, -⟩ := lexical.name isIdent
    simp [Expr.toSExp, SExp.decode, SExp.decodeAll, Expr.decode_toSExp o printable₁ plain₁,
      Expr.decode_toSExp v printable₂ plain₂, assemble, assignOf, getOf, Expr.mapLines, forget]
  | .thisRef kw a, ⟨kind, lexical, global⟩, _ => by
    subst global
    have forget := lexical.forget_line (w := "this") (by simp [kind, TokenKind.spelling?])
    simp [Expr.toSExp, SExp.decode, atomExpr, Expr.mapLines, forget, kind]
  | .superGet kw m a, ⟨kind, lexical, isIdent, named, global⟩, _ => by
    subst global
    have forget := lexical.forget_line (w := "super") (by simp [kind, TokenKind.spelling?])
    obtain ⟨forgetName, -, -⟩ := named.name isIdent
    simp [Expr.toSExp, SExp.decode, SExp.decodeAll, assemble, superOf, Expr.mapLines, forget, forgetName, kind]

/-- Reading the trees of parsed arguments gives them back, lines forgotten. -/
theorem Expr.decodeAll_toSExpAll : ∀ es : List Expr, Expr.PrintableAll es → Expr.FreeOfAll ["inf"] es →
    SExp.decodeAll (Expr.toSExpAll es) = some (Expr.mapLinesAll (fun _ => 0) es)
  | [], _, _ => rfl
  | e :: es, ⟨printable, printables⟩, ⟨plain, plains⟩ => by
    simp [Expr.toSExpAll, SExp.decodeAll, Expr.decode_toSExp e printable plain,
      Expr.decodeAll_toSExpAll es printables plains, Expr.mapLinesAll]

end

/-! ### The words of the printed forms -/

theorem isDelimiter_of_isWordChar {c : Char} (word : Lexer.isWordChar c = true) : isDelimiter c = false := by
  simp only [isDelimiter, Bool.or_eq_false_iff, beq_eq_false_iff_ne, ne_eq]
  refine ⟨⟨?_, ?_⟩, ?_⟩ <;> rintro rfl <;> revert word <;> decide

theorem Lexer.isName_chars {w : List Char} (named : Lexer.isName w = true) : ∀ c ∈ w, Lexer.isWordChar c = true := by
  cases w with
  | nil => simp [Lexer.isName] at named
  | cons c r =>
    simp only [Lexer.isName, Bool.and_eq_true, Bool.or_eq_true, beq_iff_eq, List.all_eq_true] at named
    intro d mem
    rcases List.mem_cons.1 mem with rfl | mem
    · rcases named.1 with alpha | rfl
      · simp [Lexer.isWordChar, Char.isAlphanum, alpha]
      · rfl
    · exact named.2 d mem

theorem Word.of_isName {w : List Char} (named : Lexer.isName w = true) : Word w :=
  fun c mem => isDelimiter_of_isWordChar (Lexer.isName_chars named c mem)

/-- A number's text is one word. -/
theorem Word.of_number (x : Float) : Word (Literal.number x).text.toList := by
  intro c mem
  rcases Literal.text_chars x c mem with digit | rfl | rfl | alpha
  · exact isDelimiter_of_isWordChar (by simp [Lexer.isWordChar, Char.isAlphanum, digit])
  · rfl
  · rfl
  · exact isDelimiter_of_isWordChar (by simp [Lexer.isWordChar, Char.isAlphanum, alpha])

/-- The lexeme of an operator token is one word. -/
theorem Token.Lexical.operator_word {t : Token} (lexical : t.Lexical) (op : t.kind ∈ operatorKinds) :
    Word t.lexeme.toList := by
  obtain ⟨k, lexeme, line⟩ := t
  simp only [operatorKinds, List.mem_cons, List.not_mem_nil, or_false] at op
  rcases op with rfl | rfl | rfl | rfl | rfl | rfl | rfl | rfl | rfl | rfl | rfl | rfl | rfl <;>
    simp only [Token.Lexical, TokenKind.spelling?, Option.some.injEq] at lexical <;> subst lexical <;>
    simp [Word, isDelimiter]

mutual

/-- Every word of the tree of a parsed expression with no string literal is one word. -/
theorem Expr.toSExp_words : ∀ e : Expr, e.Printable → e.FreeOf names → e.toSExp.Words
  | .literal (.number x), _, _ => Word.of_number x
  | .literal (.str _), _, plain => absurd plain id
  | .literal (.bool b), _, _ => by cases b <;> simp [Expr.toSExp, SExp.Words, Literal.text, Word, isDelimiter]
  | .literal .nil, _, _ => by simp [Expr.toSExp, SExp.Words, Literal.text, Word, isDelimiter]
  | .grouping e, printable, plain => by
    simp [Expr.toSExp, SExp.Words, SExp.WordsAll, Expr.toSExp_words e printable plain, Word, isDelimiter]
  | .unary op r, ⟨kind, lexical, printable⟩, plain => by
    have word := lexical.operator_word (by rcases kind with k | k <;> simp [k, operatorKinds])
    simp [Expr.toSExp, SExp.Words, SExp.WordsAll, Expr.toSExp_words r printable plain, word]
  | .binary l op r, ⟨⟨_, level⟩, lexical, printable₁, printable₂⟩, ⟨plain₁, plain₂⟩ => by
    have word := lexical.operator_word (Parser.Level.ops_operators level)
    simp [Expr.toSExp, SExp.Words, SExp.WordsAll, Expr.toSExp_words l printable₁ plain₁,
      Expr.toSExp_words r printable₂ plain₂, word]
  | .logical l op r, ⟨kind, lexical, printable₁, printable₂⟩, ⟨plain₁, plain₂⟩ => by
    have word := lexical.operator_word (by rcases kind with k | k <;> simp [k, operatorKinds])
    simp [Expr.toSExp, SExp.Words, SExp.WordsAll, Expr.toSExp_words l printable₁ plain₁,
      Expr.toSExp_words r printable₂ plain₂, word]
  | .ident name _, ⟨isIdent, lexical, _⟩, _ => Word.of_isName (lexical.name isIdent).2.1
  | .assign name v _, ⟨isIdent, lexical, _, printable⟩, plain =>
    ⟨by simp [Word, isDelimiter], Word.of_isName (lexical.name isIdent).2.1, Expr.toSExp_words v printable plain, trivial⟩
  | .call f _ args, ⟨_, _, printable, printables⟩, ⟨plain, plains⟩ =>
    ⟨by simp [Word, isDelimiter], Expr.toSExp_words f printable plain, Expr.toSExpAll_words args printables plains⟩
  | .get o name, ⟨isIdent, lexical, printable⟩, plain =>
    ⟨by simp [Word, isDelimiter], Expr.toSExp_words o printable plain, Word.of_isName (lexical.name isIdent).2.1, trivial⟩
  | .set o name v, ⟨isIdent, lexical, printable₁, printable₂⟩, ⟨plain₁, plain₂⟩ =>
    ⟨by simp [Word, isDelimiter], ⟨by simp [Word, isDelimiter], Expr.toSExp_words o printable₁ plain₁,
      Word.of_isName (lexical.name isIdent).2.1, trivial⟩, Expr.toSExp_words v printable₂ plain₂, trivial⟩
  | .thisRef _ _, _, _ => by simp [Expr.toSExp, SExp.Words, Word, isDelimiter]
  | .superGet _ m _, ⟨_, _, isIdent, named, _⟩, _ =>
    ⟨by simp [Word, isDelimiter], Word.of_isName (named.name isIdent).2.1, trivial⟩

theorem Expr.toSExpAll_words : ∀ es : List Expr, Expr.PrintableAll es → Expr.FreeOfAll names es →
    SExp.WordsAll (Expr.toSExpAll es)
  | [], _, _ => trivial
  | e :: es, ⟨printable, printables⟩, ⟨plain, plains⟩ =>
    ⟨Expr.toSExp_words e printable plain, Expr.toSExpAll_words es printables plains⟩

end

/-- Two parsed expressions with no string literal and no variable named `inf` and with one prefix
form are one expression, their lines apart. -/
theorem Expr.toPrefix_inj {e₁ e₂ : Expr} (printable₁ : e₁.Printable) (printable₂ : e₂.Printable)
    (plain₁ : e₁.FreeOf ["inf"]) (plain₂ : e₂.FreeOf ["inf"]) (same : e₁.toPrefix = e₂.toPrefix) :
    e₁.mapLines (fun _ => 0) = e₂.mapLines (fun _ => 0) := by
  have texts : e₁.toSExp.render ++ [] = e₂.toSExp.render ++ [] := by
    rw [List.append_nil, List.append_nil, Expr.render_toSExp, Expr.render_toSExp, same]
  obtain ⟨trees, -⟩ := SExp.render_append_inj (Expr.toSExp_words e₁ printable₁ plain₁)
    (Expr.toSExp_words e₂ printable₂ plain₂) (.inl rfl) (.inl rfl) texts
  have read := congrArg SExp.decode trees
  rw [Expr.decode_toSExp e₁ printable₁ plain₁, Expr.decode_toSExp e₂ printable₂ plain₂] at read
  exact Option.some.inj read

/-! ### The postfix form as a list of words -/

mutual

/-- An expression with its groupings dropped: what the postfix form keeps of it. -/
def Expr.ungroup : Expr → Expr
  | .literal v => .literal v
  | .grouping e => e.ungroup
  | .unary op r => .unary op r.ungroup
  | .binary l op r => .binary l.ungroup op r.ungroup
  | .logical l op r => .logical l.ungroup op r.ungroup
  | .ident name a => .ident name a
  | .assign name v a => .assign name v.ungroup a
  | .call f paren args => .call f.ungroup paren (Expr.ungroupAll args)
  | .get o name => .get o.ungroup name
  | .set o name v => .set o.ungroup name v.ungroup
  | .thisRef kw a => .thisRef kw a
  | .superGet kw m a => .superGet kw m a

/-- Each expression of a list with its groupings dropped. -/
def Expr.ungroupAll : List Expr → List Expr
  | [] => []
  | e :: es => e.ungroup :: Expr.ungroupAll es

end

mutual

/-- The words of the postfix form, in order. -/
def Expr.postWords : Expr → List String
  | .literal v => [v.text]
  | .grouping e => e.postWords
  | .unary op r => r.postWords ++ [if op.lexeme == "-" then "neg" else op.lexeme]
  | .binary l op r | .logical l op r => l.postWords ++ r.postWords ++ [op.lexeme]
  | .ident name _ => [name.lexeme]
  | .assign name v _ => v.postWords ++ [name.lexeme, "="]
  | .call f _ args => f.postWords ++ Expr.postWordsAll args ++ ["call/" ++ Nat.repr args.length]
  | .get o name => o.postWords ++ ["." ++ name.lexeme]
  | .set o name v => o.postWords ++ v.postWords ++ ["." ++ name.lexeme, "="]
  | .thisRef _ _ => ["this"]
  | .superGet _ m _ => ["super." ++ m.lexeme]

/-- The words of the postfix forms of a list of expressions, one after the other. -/
def Expr.postWordsAll : List Expr → List String
  | [] => []
  | e :: es => e.postWords ++ Expr.postWordsAll es

end

theorem Expr.postWords_ne_nil : ∀ e : Expr, e.postWords ≠ []
  | .literal _ | .ident _ _ | .thisRef _ _ | .superGet _ _ _ => by simp [Expr.postWords]
  | .grouping e => by simpa [Expr.postWords] using Expr.postWords_ne_nil e
  | .unary _ _ | .binary _ _ _ | .logical _ _ _ | .assign _ _ _ | .call _ _ _ | .get _ _ | .set _ _ _ => by
    simp [Expr.postWords]

mutual

/-- The postfix form is its words joined by blanks. -/
theorem Expr.toPostfix_eq : ∀ e : Expr, e.toPostfix = " ".intercalate e.postWords
  | .literal _ | .ident _ _ | .thisRef _ _ | .superGet _ _ _ => by simp [Expr.toPostfix, Expr.postWords]
  | .grouping e => by simp [Expr.toPostfix, Expr.postWords, Expr.toPostfix_eq e]
  | .unary _ r => by
    rw [Expr.toPostfix, Expr.postWords, String.intercalate_append_of_ne_nil (Expr.postWords_ne_nil r) (by simp),
      ← Expr.toPostfix_eq r, String.intercalate_singleton]
  | .binary l _ r | .logical l _ r => by
    rw [Expr.toPostfix, Expr.postWords, String.intercalate_append_of_ne_nil (by simp [Expr.postWords_ne_nil l])
      (by simp), String.intercalate_append_of_ne_nil (Expr.postWords_ne_nil l) (Expr.postWords_ne_nil r),
      ← Expr.toPostfix_eq l, ← Expr.toPostfix_eq r, String.intercalate_singleton]
  | .assign _ v _ => by
    rw [Expr.toPostfix, Expr.postWords, String.intercalate_append_of_ne_nil (Expr.postWords_ne_nil v) (by simp),
      ← Expr.toPostfix_eq v]
    exact String.toList_inj.1 (by simp)
  | .call f _ args => by
    rw [Expr.toPostfix, Expr.postWords, String.intercalate_append_of_ne_nil (by simp [Expr.postWords_ne_nil f])
      (by simp), ← Expr.spaced_postfix args (Expr.postWords_ne_nil f), ← Expr.toPostfix_eq f]
    exact String.toList_inj.1 (by simp)
  | .get o _ => by
    rw [Expr.toPostfix, Expr.postWords, String.intercalate_append_of_ne_nil (Expr.postWords_ne_nil o) (by simp),
      ← Expr.toPostfix_eq o]
    exact String.toList_inj.1 (by simp)
  | .set o _ v => by
    rw [Expr.toPostfix, Expr.postWords, String.intercalate_append_of_ne_nil (by simp [Expr.postWords_ne_nil o])
      (by simp), String.intercalate_append_of_ne_nil (Expr.postWords_ne_nil o) (Expr.postWords_ne_nil v),
      ← Expr.toPostfix_eq o, ← Expr.toPostfix_eq v]
    exact String.toList_inj.1 (by simp)

/-- The arguments' postfix forms, each after a blank, continue a text of words. -/
theorem Expr.spaced_postfix : ∀ (es : List Expr) {ws : List String}, ws ≠ [] →
    " ".intercalate ws ++ spaced (es.map Expr.toPostfix) = " ".intercalate (ws ++ Expr.postWordsAll es)
  | [], _, _ => by simp [spaced, Expr.postWordsAll]
  | e :: es, ws, words => by
    have joined := String.intercalate_append_of_ne_nil (s := " ") words (Expr.postWords_ne_nil e)
    rw [Expr.postWordsAll, ← List.append_assoc, ← Expr.spaced_postfix es (by simp [words]), joined,
      ← Expr.toPostfix_eq e]
    simp [spaced, String.append_assoc]

end

/-- Words with no blank in them are read back from their text joined by blanks. -/
theorem intercalate_blank_inj {ws₁ ws₂ : List String} (words₁ : ∀ w ∈ ws₁, ' ' ∉ w.toList)
    (words₂ : ∀ w ∈ ws₂, ' ' ∉ w.toList) (some₁ : ws₁ ≠ []) (some₂ : ws₂ ≠ [])
    (same : " ".intercalate ws₁ = " ".intercalate ws₂) : ws₁ = ws₂ := by
  have texts := congrArg (fun s : String => s.toList.splitOn ' ') same
  simp only [String.toList_intercalate] at texts
  have blank : " ".toList = [' '] := rfl
  rw [blank, List.splitOn_intercalate ' ' (by simpa using words₁) (by simpa using some₁),
    List.splitOn_intercalate ' ' (by simpa using words₂) (by simpa using some₂)] at texts
  exact List.map_injective_iff.2 (fun _ _ chars => String.toList_inj.1 chars) texts

theorem Word.append {a b : List Char} (word₁ : Word a) (word₂ : Word b) : Word (a ++ b) := by
  intro c mem
  rcases List.mem_append.1 mem with mem | mem
  · exact word₁ c mem
  · exact word₂ c mem

theorem Word.repr (n : Nat) : Word (Nat.repr n).toList := by
  intro c mem
  rw [Nat.toList_repr] at mem
  have digit := Nat.isDigit_of_mem_toDigits (by norm_num) (by norm_num) mem
  exact isDelimiter_of_isWordChar (by simp [Lexer.isWordChar, Char.isAlphanum, digit])

mutual

/-- Every word of the postfix form of a parsed expression with no string literal is one word. -/
theorem Expr.postWords_words : ∀ e : Expr, e.Printable → e.FreeOf names → ∀ w ∈ e.postWords, Word w.toList
  | .literal v, printable, plain, w, mem => by
    simp only [Expr.postWords, List.mem_singleton] at mem
    subst mem
    exact Expr.toSExp_words (.literal v) printable plain
  | .grouping e, printable, plain, w, mem => Expr.postWords_words e printable plain w mem
  | .unary op r, ⟨kind, lexical, printable⟩, plain, w, mem => by
    simp only [Expr.postWords, List.mem_append, List.mem_singleton] at mem
    rcases mem with mem | rfl
    · exact Expr.postWords_words r printable plain w mem
    · split
      · simp [Word, isDelimiter]
      · exact lexical.operator_word (by rcases kind with k | k <;> simp [k, operatorKinds])
  | .binary l op r, ⟨⟨_, level⟩, lexical, printable₁, printable₂⟩, ⟨plain₁, plain₂⟩, w, mem => by
    simp only [Expr.postWords, List.mem_append, List.mem_singleton] at mem
    rcases mem with (mem | mem) | rfl
    · exact Expr.postWords_words l printable₁ plain₁ w mem
    · exact Expr.postWords_words r printable₂ plain₂ w mem
    · exact lexical.operator_word (Parser.Level.ops_operators level)
  | .logical l op r, ⟨kind, lexical, printable₁, printable₂⟩, ⟨plain₁, plain₂⟩, w, mem => by
    simp only [Expr.postWords, List.mem_append, List.mem_singleton] at mem
    rcases mem with (mem | mem) | rfl
    · exact Expr.postWords_words l printable₁ plain₁ w mem
    · exact Expr.postWords_words r printable₂ plain₂ w mem
    · exact lexical.operator_word (by rcases kind with k | k <;> simp [k, operatorKinds])
  | .ident name _, ⟨isIdent, lexical, _⟩, _, w, mem => by
    simp only [Expr.postWords, List.mem_singleton] at mem
    subst mem
    exact Word.of_isName (lexical.name isIdent).2.1
  | .assign name v _, ⟨isIdent, lexical, _, printable⟩, plain, w, mem => by
    simp only [Expr.postWords, List.mem_append, List.mem_cons, List.not_mem_nil, or_false] at mem
    rcases mem with mem | rfl | rfl
    · exact Expr.postWords_words v printable plain w mem
    · exact Word.of_isName (lexical.name isIdent).2.1
    · simp [Word, isDelimiter]
  | .call f _ args, ⟨_, _, printable, printables⟩, ⟨plain, plains⟩, w, mem => by
    simp only [Expr.postWords, List.mem_append, List.mem_singleton] at mem
    rcases mem with (mem | mem) | rfl
    · exact Expr.postWords_words f printable plain w mem
    · exact Expr.postWordsAll_words args printables plains w mem
    · rw [String.toList_append]
      exact Word.append (by simp [Word, isDelimiter]) (Word.repr _)
  | .get o name, ⟨isIdent, lexical, printable⟩, plain, w, mem => by
    simp only [Expr.postWords, List.mem_append, List.mem_singleton] at mem
    rcases mem with mem | rfl
    · exact Expr.postWords_words o printable plain w mem
    · rw [String.toList_append]
      exact Word.append (by simp [Word, isDelimiter]) (Word.of_isName (lexical.name isIdent).2.1)
  | .set o name v, ⟨isIdent, lexical, printable₁, printable₂⟩, ⟨plain₁, plain₂⟩, w, mem => by
    simp only [Expr.postWords, List.mem_append, List.mem_cons, List.not_mem_nil, or_false] at mem
    rcases mem with (mem | mem) | rfl | rfl
    · exact Expr.postWords_words o printable₁ plain₁ w mem
    · exact Expr.postWords_words v printable₂ plain₂ w mem
    · rw [String.toList_append]
      exact Word.append (by simp [Word, isDelimiter]) (Word.of_isName (lexical.name isIdent).2.1)
    · simp [Word, isDelimiter]
  | .thisRef _ _, _, _, w, mem => by
    simp only [Expr.postWords, List.mem_singleton] at mem
    subst mem
    simp [Word, isDelimiter]
  | .superGet _ m _, ⟨_, _, isIdent, named, _⟩, _, w, mem => by
    simp only [Expr.postWords, List.mem_singleton] at mem
    subst mem
    rw [String.toList_append]
    exact Word.append (by simp [Word, isDelimiter]) (Word.of_isName (named.name isIdent).2.1)

theorem Expr.postWordsAll_words : ∀ es : List Expr, Expr.PrintableAll es → Expr.FreeOfAll names es →
    ∀ w ∈ Expr.postWordsAll es, Word w.toList
  | [], _, _, w, mem => by simp [Expr.postWordsAll] at mem
  | e :: es, ⟨printable, printables⟩, ⟨plain, plains⟩, w, mem => by
    rcases List.mem_append.1 mem with mem | mem
    · exact Expr.postWords_words e printable plain w mem
    · exact Expr.postWordsAll_words es printables plains w mem

end

/-! ### Reading the postfix form back -/

/-- The lexemes of the binary and logical operators. -/
def binaryWords : List String := ["+", "-", "*", "/", "==", "!=", "<", "<=", ">", ">=", "and", "or"]

/-- A unary operator applied to the top of the stack. -/
def unaryStep (op : Token) : List Expr → Option (List Expr)
  | r :: stack => some (.unary op r :: stack)
  | [] => none

/-- The operator written `h` applied to the top two expressions of the stack. -/
def binaryStep (h : String) : List Expr → Option (List Expr)
  | r :: l :: stack =>
    some ((if h = "and" ∨ h = "or" then .logical l ⟨operatorKind h, h, 0⟩ r else .binary l ⟨operatorKind h, h, 0⟩ r) ::
      stack)
  | _ => none

/-- A call of `n` arguments: the arguments are the top `n` expressions, the callee the one below. -/
def callStep (n : Nat) (stack : List Expr) : Option (List Expr) :=
  match stack.drop n with
  | f :: below => some (.call f ⟨.rightParen, ")", 0⟩ (stack.take n).reverse :: below)
  | [] => none

/-- A property of the top of the stack. -/
def getStep (name : String) : List Expr → Option (List Expr)
  | o :: stack => some (.get o ⟨.identifier, name, 0⟩ :: stack)
  | [] => none

/-- A property of the expression below the top set to the top. -/
def setStep (name : String) : List Expr → Option (List Expr)
  | v :: o :: stack => some (.set o ⟨.identifier, name, 0⟩ v :: stack)
  | _ => none

/-- A name assigned the top of the stack. -/
def assignNameStep (name : String) : List Expr → Option (List Expr)
  | v :: stack => some (.assign ⟨.identifier, name, 0⟩ v .global :: stack)
  | [] => none

/-- What a word followed by `=` does: `.name =` sets a property, `name =` assigns a variable. -/
def assignStep (w : String) (stack : List Expr) : Option (List Expr) :=
  if w.toList.head? = some '.' then setStep (String.ofList (w.toList.drop 1)) stack
  else assignNameStep w stack

/-- What one word of the postfix form does to the stack of expressions read before it. -/
noncomputable def wordStep (w : String) (stack : List Expr) : Option (List Expr) :=
  if w = "neg" then unaryStep ⟨.minus, "-", 0⟩ stack
  else if w = "!" then unaryStep ⟨.bang, "!", 0⟩ stack
  else if w ∈ binaryWords then binaryStep w stack
  else if w.toList.take 5 = "call/".toList then callStep (Lexer.digitsValue (w.toList.drop 5)) stack
  else if w.toList.take 6 = "super.".toList then
    some (.superGet ⟨.superKw, "super", 0⟩ ⟨.identifier, String.ofList (w.toList.drop 6), 0⟩ .global :: stack)
  else if w.toList.head? = some '.' then getStep (String.ofList (w.toList.drop 1)) stack
  else some (atomExpr w :: stack)

/-- The stack machine that reads the postfix form: a word followed by `=` is the target of an
assignment, every other word acts by `wordStep`. -/
noncomputable def readPost : List String → List Expr → Option (List Expr)
  | [], stack => some stack
  | w :: "=" :: rest, stack => (assignStep w stack).bind (readPost rest)
  | w :: rest, stack => (wordStep w stack).bind (readPost rest)

theorem readPost_assign (w : String) (rest : List String) (stack : List Expr) :
    readPost (w :: "=" :: rest) stack = (assignStep w stack).bind (readPost rest) := by
  rw [readPost]

theorem readPost_word (w : String) {rest : List String} (next : rest.head? ≠ some "=") (stack : List Expr) :
    readPost (w :: rest) stack = (wordStep w stack).bind (readPost rest) := by
  cases rest with
  | nil =>
    rw [readPost]
    simp
  | cons w' rest =>
    simp only [List.head?_cons, ne_eq, Option.some.injEq] at next
    rw [readPost]
    simp [next]

/-- A word the postfix reader takes for an operand, not an operator: not one of the operator words
made of letters, made of word characters, points and minus signs, led by a word character or a
minus sign, and by a digit or a minus sign if it holds a point. -/
structure Operand (w : String) : Prop where
  not_operator : w ∉ ["neg", "and", "or", "-"]
  chars : ∀ c ∈ w.toList, Lexer.isWordChar c = true ∨ c = '.' ∨ c = '-'
  lead : ∃ c rest, w.toList = c :: rest ∧ (Lexer.isWordChar c = true ∨ c = '-')
  point : '.' ∈ w.toList → ∃ c rest, w.toList = c :: rest ∧ (c.isDigit = true ∨ c = '-')

/-- The reader pushes an operand as the expression it stands for. -/
theorem wordStep_operand {w : String} (operand : Operand w) (stack : List Expr) :
    wordStep w stack = some (atomExpr w :: stack) := by
  have notNeg : w ≠ "neg" := fun same => operand.not_operator (by simp [same])
  have notBang : w ≠ "!" := by
    rintro rfl
    have := operand.chars '!' (by simp)
    revert this
    decide
  have notBinary : w ∉ binaryWords := by
    intro mem
    obtain ⟨c, rest, text, lead⟩ := operand.lead
    simp only [binaryWords, List.mem_cons, List.not_mem_nil, or_false] at mem
    -- `-`, `and` and `or` are operator words, and every other binary word starts with a symbol
    rcases mem with rfl | rfl | rfl | rfl | rfl | rfl | rfl | rfl | rfl | rfl | rfl | rfl <;>
      first
      | (apply operand.not_operator; simp; done)
      | (simp at text
         obtain ⟨rfl, -⟩ := text
         revert lead
         decide)
  have notCall : w.toList.take 5 ≠ ['c', 'a', 'l', 'l', '/'] := by
    intro call
    have slash : '/' ∈ w.toList := List.mem_of_mem_take (by rw [call]; simp)
    have := operand.chars '/' slash
    revert this
    decide
  have notSuper : w.toList.take 6 ≠ ['s', 'u', 'p', 'e', 'r', '.'] := by
    intro super
    obtain ⟨c, rest, text, lead⟩ := operand.point (List.mem_of_mem_take (by rw [super]; simp))
    rw [text] at super
    simp only [List.take_succ_cons, List.cons.injEq] at super
    obtain ⟨rfl, -⟩ := super
    revert lead
    decide
  have notPoint : w.toList.head? ≠ some '.' := by
    obtain ⟨c, rest, text, lead⟩ := operand.lead
    rw [text, List.head?_cons, ne_eq, Option.some.injEq]
    rintro rfl
    revert lead
    decide
  simp [wordStep, notNeg, notBang, notBinary, notCall, notSuper, notPoint]

/-- A name is an operand, unless it is one of the operator words. -/
theorem Operand.of_isName {w : String} (named : Lexer.isName w.toList = true) (other : w ∉ ["neg", "and", "or"]) :
    Operand w where
  not_operator := by
    intro mem
    simp only [List.mem_cons, List.not_mem_nil, or_false] at mem
    rcases mem with rfl | rfl | rfl | rfl
    · exact other (by simp)
    · exact other (by simp)
    · exact other (by simp)
    · simp [Lexer.isName] at named
  chars c mem := .inl (Lexer.isName_chars named c mem)
  lead := by
    obtain ⟨c, rest, text⟩ : ∃ c rest, w.toList = c :: rest := by
      cases text : w.toList with
      | nil => simp [text, Lexer.isName] at named
      | cons c rest => exact ⟨c, rest, rfl⟩
    exact ⟨c, rest, text, .inl (Lexer.isName_chars named c (by simp [text]))⟩
  point mem := absurd (Lexer.isName_chars named '.' mem) (by decide)

/-- A variable's name is an operand, unless it is `neg`. -/
theorem Operand.of_ident {name : Token} (lexical : name.Lexical) (isIdent : name.kind = .identifier)
    (notNeg : name.lexeme ≠ "neg") : Operand name.lexeme := by
  obtain ⟨-, named, notKeyword⟩ := lexical.name isIdent
  refine Operand.of_isName named ?_
  simp only [List.mem_cons, List.not_mem_nil, or_false, not_or]
  refine ⟨notNeg, ?_, ?_⟩ <;> rintro same <;> simp [same, TokenKind.keyword?] at notKeyword

/-- A number's text is an operand. -/
theorem Operand.of_number {x : Float} (number : Double.ofFloat x ≠ .nan) : Operand (Literal.number x).text := by
  rcases Literal.text_lead number with inf | ⟨c, rest, text, lead⟩
  · rw [inf]
    exact Operand.of_isName (by simp [Lexer.isName, Lexer.isWordChar]) (by simp)
  · have chars : ∀ c ∈ (Literal.number x).text.toList, Lexer.isWordChar c = true ∨ c = '.' ∨ c = '-' := by
      intro d mem
      rcases Literal.text_chars x d mem with digit | rfl | rfl | alpha
      · exact .inl (by simp [Lexer.isWordChar, Char.isAlphanum, digit])
      · exact .inr (.inl rfl)
      · exact .inr (.inr rfl)
      · exact .inl (by simp [Lexer.isWordChar, Char.isAlphanum, alpha])
    refine ⟨?_, chars, ⟨c, rest, text, ?_⟩, fun _ => ⟨c, rest, text, lead.imp id And.left⟩⟩
    · intro mem
      simp only [List.mem_cons, List.not_mem_nil, or_false] at mem
      rcases mem with same | same | same | same <;> rw [same] at text <;> simp at text <;>
        obtain ⟨rfl, rfl⟩ := text <;> simp at lead
    · rcases lead with digit | ⟨rfl, -⟩
      · exact .inl (by simp [Lexer.isWordChar, Char.isAlphanum, digit])
      · exact .inr rfl


theorem Operand.ne_equal {w : String} (operand : Operand w) : w ≠ "=" := by
  rintro rfl
  have := operand.chars '=' (by simp)
  revert this
  decide

/-- The text of a literal with no string in it is an operand. -/
theorem Operand.of_literal {v : Literal} (scanned : v.Scanned) (plain : (Expr.literal v).FreeOf names) :
    Operand v.text := by
  cases v with
  | number x => exact Operand.of_number scanned
  | str s => exact absurd plain id
  | bool b => cases b <;> exact Operand.of_isName (by simp [Literal.text, Lexer.isName, Lexer.isWordChar]) (by simp [Literal.text])
  | nil => exact Operand.of_isName (by simp [Literal.text, Lexer.isName, Lexer.isWordChar]) (by simp [Literal.text])

/-! The stack effect of each kind of word. -/

theorem wordStep_neg (stack : List Expr) : wordStep "neg" stack = unaryStep ⟨.minus, "-", 0⟩ stack := by
  simp [wordStep]

theorem wordStep_bang (stack : List Expr) : wordStep "!" stack = unaryStep ⟨.bang, "!", 0⟩ stack := by
  simp [wordStep]

theorem wordStep_binary {h : String} (mem : h ∈ binaryWords) (stack : List Expr) :
    wordStep h stack = binaryStep h stack := by
  have notNeg : h ≠ "neg" := by rintro rfl; simp [binaryWords] at mem
  have notBang : h ≠ "!" := by rintro rfl; simp [binaryWords] at mem
  simp [wordStep, notNeg, notBang, mem]

/-- Words with different first characters differ. -/
theorem ne_of_head {a b : String} (heads : a.toList.head? ≠ b.toList.head?) : a ≠ b :=
  fun same => heads (by rw [same])

/-- A word led by a character no binary word starts with is not a binary word. -/
theorem not_mem_binaryWords {w : String} {c : Char} (head : w.toList.head? = some c)
    (other : c ∉ ['+', '-', '*', '/', '=', '!', '<', '>', 'a', 'o']) : w ∉ binaryWords := by
  intro mem
  simp only [binaryWords, List.mem_cons, List.not_mem_nil, or_false] at mem
  rcases mem with rfl | rfl | rfl | rfl | rfl | rfl | rfl | rfl | rfl | rfl | rfl | rfl <;>
    simp at head <;> subst head <;> simp at other

theorem wordStep_call (n : Nat) (stack : List Expr) : wordStep ("call/" ++ Nat.repr n) stack = callStep n stack := by
  have head : ("call/" ++ Nat.repr n).toList.head? = some 'c' := by simp
  have notNeg : "call/" ++ Nat.repr n ≠ "neg" := ne_of_head (by simp)
  have notBang : "call/" ++ Nat.repr n ≠ "!" := ne_of_head (by simp)
  simp [wordStep, notNeg, notBang, not_mem_binaryWords head (by simp), Nat.toList_repr, Lexer.digitsValue_toDigits]

theorem wordStep_super (m : String) (stack : List Expr) :
    wordStep ("super." ++ m) stack = some (.superGet ⟨.superKw, "super", 0⟩ ⟨.identifier, m, 0⟩ .global :: stack) := by
  have head : ("super." ++ m).toList.head? = some 's' := by simp
  have notNeg : "super." ++ m ≠ "neg" := ne_of_head (by simp)
  have notBang : "super." ++ m ≠ "!" := ne_of_head (by simp)
  simp [wordStep, notNeg, notBang, not_mem_binaryWords head (by simp)]

theorem wordStep_get (name : String) (stack : List Expr) : wordStep ("." ++ name) stack = getStep name stack := by
  have head : ("." ++ name).toList.head? = some '.' := by simp
  have notNeg : "." ++ name ≠ "neg" := ne_of_head (by simp)
  have notBang : "." ++ name ≠ "!" := ne_of_head (by simp)
  simp [wordStep, notNeg, notBang, not_mem_binaryWords head (by simp)]

theorem assignStep_get (name : String) (stack : List Expr) : assignStep ("." ++ name) stack = setStep name stack := by
  simp [assignStep]

theorem assignStep_name {w : String} (named : Lexer.isName w.toList = true) (stack : List Expr) :
    assignStep w stack = assignNameStep w stack := by
  have notPoint : w.toList.head? ≠ some '.' := by
    cases text : w.toList with
    | nil => simp
    | cons c rest =>
      have := Lexer.isName_chars named c (by simp [text])
      rintro ⟨⟩
      revert this
      decide
  simp [assignStep, notPoint]

/-- A binary or logical operator is written as one of the reader's binary words. -/
theorem Token.Lexical.mem_binaryWords {op : Token} (lexical : op.Lexical)
    (kind : (∃ lvl : Parser.Level, op.kind ∈ lvl.ops) ∨ op.kind = .andKw ∨ op.kind = .orKw) :
    op.lexeme ∈ binaryWords := by
  obtain ⟨k, lexeme, line⟩ := op
  simp only at kind
  rcases kind with ⟨lvl, mem⟩ | rfl | rfl
  · cases lvl <;> simp only [Parser.Level.ops, List.mem_cons, List.not_mem_nil, or_false] at mem <;>
      rcases mem with rfl | rfl | rfl | rfl <;> simp only [Token.Lexical, TokenKind.spelling?, Option.some.injEq] at lexical <;>
      simp [← lexical, binaryWords]
  all_goals simp only [Token.Lexical, TokenKind.spelling?, Option.some.injEq] at lexical
  all_goals simp [← lexical, binaryWords]

/-- The postfix form of a parsed expression does not start with `=`, so the reader never takes its
first word for the target of an assignment. -/
theorem Expr.postWords_head : ∀ e : Expr, e.Printable → e.FreeOf names → ∀ rest : List String,
    (e.postWords ++ rest).head? ≠ some "="
  | .literal v, scanned, plain, rest => by
    simpa [Expr.postWords] using (Operand.of_literal scanned plain).ne_equal
  | .grouping e, printable, plain, rest => Expr.postWords_head e printable plain rest
  | .unary _ r, ⟨_, _, printable⟩, plain, rest => by
    simp only [Expr.postWords, List.append_assoc]
    exact Expr.postWords_head r printable plain _
  | .binary l _ _, ⟨_, _, printable, _⟩, ⟨plain, _⟩, rest | .logical l _ _, ⟨_, _, printable, _⟩, ⟨plain, _⟩, rest => by
    simp only [Expr.postWords, List.append_assoc]
    exact Expr.postWords_head l printable plain _
  | .ident name _, ⟨isIdent, lexical, _⟩, _, rest => by
    have named := (lexical.name isIdent).2.1
    simp only [Expr.postWords, List.singleton_append, List.head?_cons, ne_eq, Option.some.injEq]
    rintro same
    simp [same, Lexer.isName] at named
  | .assign _ v _, ⟨_, _, _, printable⟩, plain, rest => by
    simp only [Expr.postWords, List.append_assoc]
    exact Expr.postWords_head v printable plain _
  | .call f _ _, ⟨_, _, printable, _⟩, ⟨plain, _⟩, rest => by
    simp only [Expr.postWords, List.append_assoc]
    exact Expr.postWords_head f printable plain _
  | .get o _, ⟨_, _, printable⟩, plain, rest => by
    simp only [Expr.postWords, List.append_assoc]
    exact Expr.postWords_head o printable plain _
  | .set o _ _, ⟨_, _, printable, _⟩, ⟨plain, _⟩, rest => by
    simp only [Expr.postWords, List.append_assoc]
    exact Expr.postWords_head o printable plain _
  | .thisRef _ _, _, _, rest => by simp [Expr.postWords]
  | .superGet _ _ _, _, _, rest => by
    simp only [Expr.postWords, List.singleton_append, List.head?_cons, ne_eq, Option.some.injEq]
    intro same
    have := congrArg String.toList same
    simp at this

theorem Expr.postWordsAll_head : ∀ es : List Expr, Expr.PrintableAll es → Expr.FreeOfAll names es →
    ∀ {rest : List String}, rest.head? ≠ some "=" → (Expr.postWordsAll es ++ rest).head? ≠ some "="
  | [], _, _, _, next => next
  | e :: es, ⟨printable, _⟩, ⟨plain, _⟩, rest, _ => by
    rw [Expr.postWordsAll, List.append_assoc]
    exact Expr.postWords_head e printable plain _

theorem Expr.length_ungroupAll : ∀ es : List Expr, (Expr.ungroupAll es).length = es.length
  | [] => rfl
  | _ :: es => by simp [Expr.ungroupAll, Expr.length_ungroupAll es]

mutual

/-- Run over the words of a parsed expression's postfix form, the reader pushes that expression,
its groupings dropped and its lines forgotten, whatever words follow but `=`. -/
theorem Expr.readPost_postWords : ∀ e : Expr, e.Printable → e.FreeOf ["inf", "neg"] →
    ∀ {rest : List String}, rest.head? ≠ some "=" → ∀ stack : List Expr,
      readPost (e.postWords ++ rest) stack = readPost rest ((e.ungroup.mapLines fun _ => 0) :: stack)
  | .literal v, scanned, plain, rest, next, stack => by
    rw [Expr.postWords, List.singleton_append, readPost_word _ next,
      wordStep_operand (Operand.of_literal scanned plain), atomExpr_literal scanned plain]
    rfl
  | .grouping e, printable, plain, rest, next, stack => Expr.readPost_postWords e printable plain next stack
  | .unary op r, ⟨kind, lexical, printable⟩, plain, rest, next, stack => by
    obtain ⟨k, lexeme, line⟩ := op
    simp only at kind
    rcases kind with rfl | rfl <;> simp only [Token.Lexical, TokenKind.spelling?, Option.some.injEq] at lexical <;>
      subst lexical
    · rw [Expr.postWords, List.append_assoc, Expr.readPost_postWords r printable plain (by simp) stack]
      simp [readPost_word _ next, wordStep_bang, unaryStep, Expr.ungroup, Expr.mapLines, Token.mapLines]
    · rw [Expr.postWords, List.append_assoc, Expr.readPost_postWords r printable plain (by simp) stack]
      simp [readPost_word _ next, wordStep_neg, unaryStep, Expr.ungroup, Expr.mapLines, Token.mapLines]
  | .binary l op r, ⟨⟨lvl, level⟩, lexical, printable₁, printable₂⟩, ⟨plain₁, plain₂⟩, rest, next, stack => by
    obtain ⟨forget, -, notLogical⟩ := lexical.binary level
    have mem := lexical.mem_binaryWords (.inl ⟨lvl, level⟩)
    have notEqual : op.lexeme ≠ "=" := by rintro same; simp [same, binaryWords] at mem
    simp only [Expr.postWords, List.append_assoc, List.singleton_append]
    rw [Expr.readPost_postWords l printable₁ plain₁ (Expr.postWords_head r printable₂ plain₂ _),
      Expr.readPost_postWords r printable₂ plain₂ (by simpa using notEqual), readPost_word _ next, wordStep_binary mem]
    simp [binaryStep, notLogical, Expr.ungroup, Expr.mapLines, forget]
  | .logical l op r, ⟨kind, lexical, printable₁, printable₂⟩, ⟨plain₁, plain₂⟩, rest, next, stack => by
    obtain ⟨forget, -⟩ := lexical.operator (by rcases kind with k | k <;> simp [k, operatorKinds])
    have logical : op.lexeme = "and" ∨ op.lexeme = "or" := by
      rcases kind with k | k <;> simp [Token.Lexical, k, TokenKind.spelling?] at lexical <;> simp [← lexical]
    have mem := lexical.mem_binaryWords (.inr kind)
    have notEqual : op.lexeme ≠ "=" := by rintro same; simp [same, binaryWords] at mem
    simp only [Expr.postWords, List.append_assoc, List.singleton_append]
    rw [Expr.readPost_postWords l printable₁ plain₁ (Expr.postWords_head r printable₂ plain₂ _),
      Expr.readPost_postWords r printable₂ plain₂ (by simpa using notEqual), readPost_word _ next, wordStep_binary mem]
    simp [binaryStep, logical, Expr.ungroup, Expr.mapLines, forget]
  | .ident name a, ⟨isIdent, lexical, global⟩, plain, rest, next, stack => by
    subst global
    simp only [Expr.FreeOf, List.mem_cons, List.not_mem_nil, or_false, not_or] at plain
    rw [Expr.postWords, List.singleton_append, readPost_word _ next,
      wordStep_operand (Operand.of_ident lexical isIdent plain.2), atomExpr_ident lexical isIdent plain.1]
    rfl
  | .assign name v a, ⟨isIdent, lexical, global, printable⟩, plain, rest, next, stack => by
    subst global
    obtain ⟨forget, named, -⟩ := lexical.name isIdent
    have notEqual : name.lexeme ≠ "=" := by rintro same; simp [same, Lexer.isName] at named
    simp only [Expr.postWords, List.append_assoc, List.cons_append, List.nil_append]
    rw [Expr.readPost_postWords v printable plain (by simpa using notEqual), readPost_assign,
      assignStep_name named]
    simp [assignNameStep, Expr.ungroup, Expr.mapLines, forget]
  | .call f paren args, ⟨kind, lexical, printable, printables⟩, ⟨plain, plains⟩, rest, next, stack => by
    have forget := lexical.forget_line (w := ")") (by simp [kind, TokenKind.spelling?])
    have notEqual : "call/" ++ Nat.repr args.length ≠ "=" := ne_of_head (by simp)
    simp only [Expr.postWords, List.append_assoc, List.singleton_append]
    rw [Expr.readPost_postWords f printable plain (Expr.postWordsAll_head args printables plains (by simpa using notEqual)),
      Expr.readPost_postWordsAll args printables plains (by simpa using notEqual), readPost_word _ next, wordStep_call]
    have length : (Expr.mapLinesAll (fun _ => 0) (Expr.ungroupAll args)).reverse.length = args.length := by
      rw [List.length_reverse, Expr.length_mapLinesAll, Expr.length_ungroupAll]
    simp [callStep, List.drop_left' length, List.take_left' length, Expr.ungroup, Expr.mapLines, forget, kind]
  | .get o name, ⟨isIdent, lexical, printable⟩, plain, rest, next, stack => by
    obtain ⟨forget, -, -⟩ := lexical.name isIdent
    simp only [Expr.postWords, List.append_assoc, List.singleton_append]
    rw [Expr.readPost_postWords o printable plain (by simpa using ne_of_head (b := "=") (by simp)),
      readPost_word _ next, wordStep_get]
    simp [getStep, Expr.ungroup, Expr.mapLines, forget]
  | .set o name v, ⟨isIdent, lexical, printable₁, printable₂⟩, ⟨plain₁, plain₂⟩, rest, next, stack => by
    obtain ⟨forget, -, -⟩ := lexical.name isIdent
    simp only [Expr.postWords, List.append_assoc, List.cons_append, List.nil_append]
    rw [Expr.readPost_postWords o printable₁ plain₁ (Expr.postWords_head v printable₂ plain₂ _),
      Expr.readPost_postWords v printable₂ plain₂ (by simpa using ne_of_head (b := "=") (by simp)),
      readPost_assign, assignStep_get]
    simp [setStep, Expr.ungroup, Expr.mapLines, forget]
  | .thisRef kw a, ⟨kind, lexical, global⟩, _, rest, next, stack => by
    subst global
    have forget := lexical.forget_line (w := "this") (by simp [kind, TokenKind.spelling?])
    have operand : Operand "this" := Operand.of_isName (by simp [Lexer.isName, Lexer.isWordChar]) (by simp)
    rw [Expr.postWords, List.singleton_append, readPost_word _ next, wordStep_operand operand]
    simp [atomExpr, Expr.ungroup, Expr.mapLines, forget, kind]
  | .superGet kw m a, ⟨kind, lexical, isIdent, named, global⟩, _, rest, next, stack => by
    subst global
    have forget := lexical.forget_line (w := "super") (by simp [kind, TokenKind.spelling?])
    obtain ⟨forgetName, -, -⟩ := named.name isIdent
    rw [Expr.postWords, List.singleton_append, readPost_word _ next, wordStep_super]
    simp [Expr.ungroup, Expr.mapLines, forget, forgetName, kind]

/-- Run over the words of parsed arguments, the reader pushes them in order. -/
theorem Expr.readPost_postWordsAll : ∀ es : List Expr, Expr.PrintableAll es → Expr.FreeOfAll ["inf", "neg"] es →
    ∀ {rest : List String}, rest.head? ≠ some "=" → ∀ stack : List Expr,
      readPost (Expr.postWordsAll es ++ rest) stack =
        readPost rest ((Expr.mapLinesAll (fun _ => 0) (Expr.ungroupAll es)).reverse ++ stack)
  | [], _, _, rest, _, stack => by simp [Expr.postWordsAll, Expr.ungroupAll, Expr.mapLinesAll]
  | e :: es, ⟨printable, printables⟩, ⟨plain, plains⟩, rest, next, stack => by
    rw [Expr.postWordsAll, List.append_assoc,
      Expr.readPost_postWords e printable plain (Expr.postWordsAll_head es printables plains next),
      Expr.readPost_postWordsAll es printables plains next]
    simp [Expr.ungroupAll, Expr.mapLinesAll]

end

/-- Two parsed expressions with no string literal and no variable named `inf` or `neg` and with one
postfix form are one expression, their groupings and lines apart. -/
theorem Expr.toPostfix_inj {e₁ e₂ : Expr} (printable₁ : e₁.Printable) (printable₂ : e₂.Printable)
    (plain₁ : e₁.FreeOf ["inf", "neg"]) (plain₂ : e₂.FreeOf ["inf", "neg"]) (same : e₁.toPostfix = e₂.toPostfix) :
    e₁.ungroup.mapLines (fun _ => 0) = e₂.ungroup.mapLines (fun _ => 0) := by
  have blank : ∀ e : Expr, e.Printable → e.FreeOf ["inf", "neg"] → ∀ w ∈ e.postWords, ' ' ∉ w.toList :=
    fun e printable plain w mem space => by
      simpa [isDelimiter] using Expr.postWords_words e printable plain w mem ' ' space
  have words := intercalate_blank_inj (blank e₁ printable₁ plain₁) (blank e₂ printable₂ plain₂)
    (Expr.postWords_ne_nil e₁) (Expr.postWords_ne_nil e₂) (by rw [← Expr.toPostfix_eq, ← Expr.toPostfix_eq, same])
  have read := Expr.readPost_postWords e₁ printable₁ plain₁ (by simp : ([] : List String).head? ≠ some "=") []
  rw [words, Expr.readPost_postWords e₂ printable₂ plain₂ (by simp) []] at read
  simpa [readPost] using read.symm

/-- The printed forms of parsed expressions determine them. With no string literal and no variable
named `inf` in either of two parsed expressions, one prefix form means one expression, lines apart;
with no variable named `neg` either, one postfix form means one expression, lines and groupings
apart. -/
theorem Expr.printed_forms_determine {source₁ source₂ : String} {e₁ e₂ : Expr}
    (parsed₁ : Expr.parse (Token.scanAll source₁).1 = .ok e₁) (parsed₂ : Expr.parse (Token.scanAll source₂).1 = .ok e₂) :
    (e₁.FreeOf ["inf"] → e₂.FreeOf ["inf"] → e₁.toPrefix = e₂.toPrefix →
      e₁.mapLines (fun _ => 0) = e₂.mapLines (fun _ => 0)) ∧
    (e₁.FreeOf ["inf", "neg"] → e₂.FreeOf ["inf", "neg"] → e₁.toPostfix = e₂.toPostfix →
      e₁.ungroup.mapLines (fun _ => 0) = e₂.ungroup.mapLines (fun _ => 0)) :=
  ⟨Expr.toPrefix_inj (Expr.parse_printable parsed₁) (Expr.parse_printable parsed₂),
    Expr.toPostfix_inj (Expr.parse_printable parsed₁) (Expr.parse_printable parsed₂)⟩

/-- One expression written on one line and across two is printed alike, and is one expression. -/
theorem Expr.printed_forms_determine_across_lines :
    let e₁ : Expr := .binary (.unary ⟨.minus, "-", 1⟩ (.ident ⟨.identifier, "a", 1⟩ .global)) ⟨.star, "*", 1⟩
      (.grouping (.binary (.ident ⟨.identifier, "b", 1⟩ .global) ⟨.plus, "+", 1⟩ (.literal (.number 2))))
    let e₂ : Expr := .binary (.unary ⟨.minus, "-", 1⟩ (.ident ⟨.identifier, "a", 1⟩ .global)) ⟨.star, "*", 2⟩
      (.grouping (.binary (.ident ⟨.identifier, "b", 2⟩ .global) ⟨.plus, "+", 2⟩ (.literal (.number 2))))
    Expr.parse (Token.scanAll "-a * (b + 2)").1 = .ok e₁ ∧ Expr.parse (Token.scanAll "-a\n* (b + 2)").1 = .ok e₂ ∧
      e₁.mapLines (fun _ => 0) = e₂.mapLines (fun _ => 0) ∧
      e₁.ungroup.mapLines (fun _ => 0) = e₂.ungroup.mapLines (fun _ => 0) := by
  intro e₁ e₂
  have parsed₁ : Expr.parse (Token.scanAll "-a * (b + 2)").1 = .ok e₁ := by
    rw [Token.scanAll_eq]
    rfl
  have parsed₂ : Expr.parse (Token.scanAll "-a\n* (b + 2)").1 = .ok e₂ := by
    rw [Token.scanAll_eq]
    rfl
  have free₁ : e₁.FreeOf ["inf", "neg"] := by simp [e₁, Expr.FreeOf]
  have free₂ : e₂.FreeOf ["inf", "neg"] := by simp [e₂, Expr.FreeOf]
  obtain ⟨prefixes, postfixes⟩ := Expr.printed_forms_determine parsed₁ parsed₂
  have samePrefix : e₁.toPrefix = e₂.toPrefix := by simp [e₁, e₂, Expr.toPrefix]
  have samePostfix : e₁.toPostfix = e₂.toPostfix := by simp [e₁, e₂, Expr.toPostfix]
  exact ⟨parsed₁, parsed₂, prefixes (by simp [e₁, Expr.FreeOf]) (by simp [e₂, Expr.FreeOf]) samePrefix,
    postfixes free₁ free₂ samePostfix⟩

set_option maxRecDepth 4000 in
/-- Where a variable is named like a word the printers write for something else, the printed forms
collide. A variable named `inf` prints as a literal too large for a double, which is infinite; and
in the postfix form, where unary minus is `neg`, `f(-neg)` prints as `(-f)(neg)`. -/
theorem Expr.printed_forms_collide :
    let named : Expr := .ident ⟨.identifier, "inf", 1⟩ .global
    let huge : Expr := .literal (.number (Float.ofScientific (Lexer.digitsValue ('1' :: List.replicate 309 '0')) false 0))
    let negated : Expr := .call (.ident ⟨.identifier, "f", 1⟩ .global) ⟨.rightParen, ")", 1⟩
      [.unary ⟨.minus, "-", 1⟩ (.ident ⟨.identifier, "neg", 1⟩ .global)]
    let negating : Expr := .call (.grouping (.unary ⟨.minus, "-", 1⟩ (.ident ⟨.identifier, "f", 1⟩ .global)))
      ⟨.rightParen, ")", 1⟩ [.ident ⟨.identifier, "neg", 1⟩ .global]
    Expr.parse (Token.scanAll "inf").1 = .ok named ∧
      Expr.parse (Token.scanAll (String.ofList ('1' :: List.replicate 309 '0'))).1 = .ok huge ∧
      named.toPrefix = huge.toPrefix ∧ named.toPostfix = huge.toPostfix ∧
      named.mapLines (fun _ => 0) ≠ huge.mapLines (fun _ => 0) ∧
    Expr.parse (Token.scanAll "f(-neg)").1 = .ok negated ∧ Expr.parse (Token.scanAll "(-f)(neg)").1 = .ok negating ∧
      negated.toPostfix = negating.toPostfix ∧
      negated.ungroup.mapLines (fun _ => 0) ≠ negating.ungroup.mapLines (fun _ => 0) := by
  intro named huge negated negating
  have infinite : (Literal.number (Float.ofScientific (Lexer.digitsValue ('1' :: List.replicate 309 '0')) false 0)).text =
      "inf" := by
    decide +kernel
  refine ⟨?_, ?_, ?_, ?_, ?_, ?_, ?_, ?_, ?_⟩
  · rw [Token.scanAll_eq]
    rfl
  · rw [Token.scanAll_eq, Automaton.scan, String.toList_ofList]
    rfl
  · simp only [named, huge, Expr.toPrefix, infinite]
  · simp only [named, huge, Expr.toPostfix, infinite]
  · intro same
    cases same
  · rw [Token.scanAll_eq]
    rfl
  · rw [Token.scanAll_eq]
    rfl
  · apply String.toList_inj.1
    simp [negated, negating, Expr.toPostfix, spaced]
  · simp [negated, negating, Expr.ungroup, Expr.ungroupAll, Expr.mapLines, Expr.mapLinesAll, Token.mapLines]

end Lox
