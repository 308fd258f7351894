import Lox.Syntax
/-!
Reading tokens into syntax by recursive descent, one function per rule of the grammar:

```text
program     → declaration* EOF
declaration → classDecl | funDecl | varDecl | statement
statement   → exprStmt | forStmt | ifStmt | printStmt | returnStmt | whileStmt | block
expression  → assignment
assignment  → ( call "." )? IDENT "=" assignment | logic_or
logic_or    → logic_and ( "or" logic_and )*        and so on down to
unary       → ( "!" | "-" ) unary | call
call        → primary ( "(" arguments? ")" | "." IDENT )*
primary     → NUMBER | STRING | "true" | "false" | "nil" | "this" | IDENT
            | "(" expression ")" | "super" "." IDENT
```

A fault stops the current declaration; the parser records it, skips to the next statement
boundary and goes on, so a program reports every fault. Three faults are recorded without
stopping: an invalid assignment target and the 256th parameter or argument. A `for` loop becomes
a block holding its initializer and a `while` loop.

Each rule takes fuel and passes one less to the rules it calls. Between two tokens consumed the
descent goes through fewer than 32 rules, so `fuelFor` (64 per token) never runs out; the fault
`nestingLimit` stands for running out.
-/
namespace Lox

/-- What kind of function a declaration introduces, for the wording of its faults. -/
inductive FunKind where
  | function
  | method
  deriving DecidableEq, Repr

/-- The word for a function kind. -/
def FunKind.word : FunKind → String
  | .function => "function"
  | .method => "method"

/-- What went wrong while parsing. -/
inductive ParseFault where
  | expectClassName
  | expectSuperclassName
  | expectClassBodyOpen
  | expectClassBodyClose
  | expectFunName (kind : FunKind)
  | expectParamsOpen (kind : FunKind)
  | expectParamName
  | expectParamsClose
  | expectBodyOpen (kind : FunKind)
  | expectVarName
  | expectVarSemicolon
  | expectForOpen
  | expectConditionSemicolon
  | expectForClose
  | expectPrintSemicolon
  | expectExprSemicolon
  | expectIfOpen
  | expectIfClose
  | expectWhileOpen
  | expectWhileClose
  | expectReturnSemicolon
  | expectBlockClose
  | expectPropertyName
  | expectArgumentsClose
  | expectSuperDot
  | expectSuperMethod
  | expectGroupClose
  | expectExpression
  | expectEnd
  | invalidAssignmentTarget
  | tooManyParameters
  | tooManyArguments
  | nestingLimit
  deriving DecidableEq, Repr

/-- The text of a parse fault. -/
def ParseFault.message : ParseFault → String
  | .expectClassName => "Expect class name."
  | .expectSuperclassName => "Expect superclass name."
  | .expectClassBodyOpen => "Expect '\x7b' before class body."
  | .expectClassBodyClose => "Expect '\x7d' after class body."
  | .expectFunName k => "Expect " ++ k.word ++ " name."
  | .expectParamsOpen k => "Expect '(' after " ++ k.word ++ " name."
  | .expectParamName => "Expect parameter name."
  | .expectParamsClose => "Expect ')' after parameters."
  | .expectBodyOpen k => "Expect '\x7b' before " ++ k.word ++ " body."
  | .expectVarName => "Expect variable name."
  | .expectVarSemicolon => "Expect ';' after variable declaration."
  | .expectForOpen => "Expect '(' after 'for'."
  | .expectConditionSemicolon => "Expect ';' after loop condition."
  | .expectForClose => "Expect ')' after for clauses."
  | .expectPrintSemicolon => "Expect ';' after value."
  | .expectExprSemicolon => "Expect ';' after expression."
  | .expectIfOpen => "Expect '(' after 'if'."
  | .expectIfClose => "Expect ')' after if condition."
  | .expectWhileOpen => "Expect '(' after 'while'."
  | .expectWhileClose => "Expect ')' after condition."
  | .expectReturnSemicolon => "Expect ';' after return value."
  | .expectBlockClose => "Expect '\x7d' after block."
  | .expectPropertyName => "Expect property name after '.'."
  | .expectArgumentsClose => "Expect ')' after arguments."
  | .expectSuperDot => "Expect '.' after 'super'."
  | .expectSuperMethod => "Expect superclass method name."
  | .expectGroupClose => "Expect ')' after expression."
  | .expectExpression => "Expect expression."
  | .expectEnd => "Expect end of expression."
  | .invalidAssignmentTarget => "Invalid assignment target."
  | .tooManyParameters => "Can't have more than 255 parameters."
  | .tooManyArguments => "Can't have more than 255 arguments."
  | .nestingLimit => "Too deeply nested."

/-- A parse fault at a token. -/
structure ParseError where
  token : Token
  fault : ParseFault

/-- A parse error as reported: `[line N] Error at 'x': MESSAGE`. -/
def ParseError.message (e : ParseError) : String :=
  "[line " ++ Nat.repr e.token.line ++ "] Error" ++ e.token.location ++ ": " ++ e.fault.message

namespace Parser

/-- The parser's position in the tokens and the faults recorded so far. -/
structure State where
  tokens : Array Token
  pos : Nat
  recorded : Array ParseError

/-- Parsing: a fault stops the rule, and the position and recorded faults survive it. -/
abbrev M := ExceptT ParseError (StateM State)

/-- The current token; past the end, the last one. -/
def peek : M Token := do
  let s ← get
  return s.tokens.getD (min s.pos (s.tokens.size - 1)) default

/-- The token just consumed. -/
def previous : M Token := do
  let s ← get
  return s.tokens.getD (s.pos - 1) default

/-- At the end-of-input token, or past the last token. -/
def atEnd : M Bool := do
  let s ← get
  match s.tokens[s.pos]? with
  | some t => return match t.kind with | .eof => true | _ => false
  | none => return true

/-- Consumes the current token unless at the end, and returns the token consumed last. -/
def advance : M Token := do
  if !(← atEnd) then modify fun s => { s with pos := s.pos + 1 }
  previous

/-- The current token is of the kind; never at the end. -/
def check (k : TokenKind) : M Bool := do
  if ← atEnd then return false
  return (← peek).kind.same k

/-- Consumes the current token if it is of the kind. -/
def accept (k : TokenKind) : M Bool := do
  if ← check k then
    let _ ← advance
    return true
  return false

/-- Consumes a token of the kind, or stops with the fault at the current token. -/
def expect (k : TokenKind) (fault : ParseFault) : M Token := do
  if ← check k then advance else throw ⟨← peek, fault⟩

/-- Records a fault without stopping. -/
def note (t : Token) (fault : ParseFault) : M Unit :=
  modify fun s => { s with recorded := s.recorded.push ⟨t, fault⟩ }

/-- Stops with the nesting fault when the fuel is gone. -/
def outOfFuel {α : Type} : M α := do throw ⟨← peek, .nestingLimit⟩

/-- The left-associative binary levels, from loosest to tightest. -/
inductive Level where
  | equality
  | comparison
  | term
  | factor
  deriving DecidableEq, Repr

/-- The operators of a level. -/
def Level.ops : Level → List TokenKind
  | .equality => [.bangEqual, .equalEqual]
  | .comparison => [.greater, .greaterEqual, .less, .lessEqual]
  | .term => [.minus, .plus]
  | .factor => [.slash, .star]

/-- The next tighter level; below `factor` come the unary operators. -/
def Level.next : Level → Option Level
  | .equality => some .comparison
  | .comparison => some .term
  | .term => some .factor
  | .factor => none

/-- The current token is one of the kinds. -/
def checkAny : List TokenKind → M Bool
  | [] => return false
  | k :: ks => do if ← check k then return true else checkAny ks

mutual

/-- `expression → assignment`: a target followed by `=` becomes an assignment or a property
write; any other target is recorded as invalid and the left side is kept. -/
def expression : Nat → M Expr
  | 0 => outOfFuel
  | fuel + 1 => do
    let target ← logicOr fuel
    if ← accept .equal then
      let equals ← previous
      let value ← expression fuel
      match target with
      | .ident name _ => return .assign name value .global
      | .get object name => return .set object name value
      | _ =>
        note equals .invalidAssignmentTarget
        return target
    else return target

/-- `logic_or → logic_and ( "or" logic_and )*`. -/
def logicOr : Nat → M Expr
  | 0 => outOfFuel
  | fuel + 1 => do orRest fuel (← logicAnd fuel)

/-- The `or` operands after the first. -/
def orRest : Nat → Expr → M Expr
  | 0, _ => outOfFuel
  | fuel + 1, left => do
    if ← accept .orKw then
      let op ← previous
      let right ← logicAnd fuel
      orRest fuel (.logical left op right)
    else return left

/-- `logic_and → equality ( "and" equality )*`. -/
def logicAnd : Nat → M Expr
  | 0 => outOfFuel
  | fuel + 1 => do andRest fuel (← binary fuel .equality)

/-- The `and` operands after the first. -/
def andRest : Nat → Expr → M Expr
  | 0, _ => outOfFuel
  | fuel + 1, left => do
    if ← accept .andKw then
      let op ← previous
      let right ← binary fuel .equality
      andRest fuel (.logical left op right)
    else return left

/-- A binary level: operands of the next level joined to the left by the level's operators. -/
def binary : Nat → Level → M Expr
  | 0, _ => outOfFuel
  | fuel + 1, lvl => do binaryRest fuel lvl (← operand fuel lvl)

/-- An operand of a level: the next level, or a unary expression below `factor`. -/
def operand : Nat → Level → M Expr
  | 0, _ => outOfFuel
  | fuel + 1, lvl =>
    match lvl.next with
    | some l => binary fuel l
    | none => unary fuel

/-- The operators and operands of a level after its first operand. -/
def binaryRest : Nat → Level → Expr → M Expr
  | 0, _, _ => outOfFuel
  | fuel + 1, lvl, left => do
    if ← checkAny lvl.ops then
      let op ← advance
      let right ← operand fuel lvl
      binaryRest fuel lvl (.binary left op right)
    else return left

/-- `unary → ( "!" | "-" ) unary | call`. -/
def unary : Nat → M Expr
  | 0 => outOfFuel
  | fuel + 1 => do
    if ← accept .bang then
      let op ← previous
      return .unary op (← unary fuel)
    else if ← accept .minus then
      let op ← previous
      return .unary op (← unary fuel)
    else
      callRest fuel (← primary fuel)

/-- Calls and property reads after a primary expression. -/
def callRest : Nat → Expr → M Expr
  | 0, _ => outOfFuel
  | fuel + 1, callee => do
    if ← accept .leftParen then
      let args ← if ← check .rightParen then pure #[] else arguments fuel #[]
      let paren ← expect .rightParen .expectArgumentsClose
      callRest fuel (.call callee paren args.toList)
    else if ← accept .dot then
      let name ← expect .identifier .expectPropertyName
      callRest fuel (.get callee name)
    else return callee

/-- Comma-separated arguments; the 256th is recorded at its first token. -/
def arguments : Nat → Array Expr → M (Array Expr)
  | 0, _ => outOfFuel
  | fuel + 1, acc => do
    if acc.size ≥ 255 then note (← peek) .tooManyArguments
    let acc := acc.push (← expression fuel)
    if ← accept .comma then arguments fuel acc else return acc

/-- `primary`: a literal, a name, `this`, `super.name`, or a parenthesized expression. -/
def primary : Nat → M Expr
  | 0 => outOfFuel
  | fuel + 1 => do
    if ← accept .falseKw then return .literal (.bool false)
    if ← accept .trueKw then return .literal (.bool true)
    if ← accept .nilKw then return .literal .nil
    match (← peek).kind with
    | .number x => let _ ← advance; return .literal (.number x)
    | .string s => let _ ← advance; return .literal (.str s)
    | _ =>
      if ← accept .superKw then
        let keyword ← previous
        let _ ← expect .dot .expectSuperDot
        let method ← expect .identifier .expectSuperMethod
        return .superGet keyword method .global
      if ← accept .thisKw then return .thisRef (← previous) .global
      if ← accept .identifier then return .ident (← previous) .global
      if ← accept .leftParen then
        let e ← expression fuel
        let _ ← expect .rightParen .expectGroupClose
        return .grouping e
      throw ⟨← peek, .expectExpression⟩

end

mutual

/-- `declaration → classDecl | funDecl | varDecl | statement`. -/
def declaration : Nat → M Stmt
  | 0 => outOfFuel
  | fuel + 1 => do
    if ← accept .classKw then classDecl fuel
    else if ← accept .funKw then return .function (← function fuel .function)
    else if ← accept .varKw then varDecl fuel
    else statement fuel

/-- `classDecl → "class" IDENT ( "<" IDENT )? "{" function* "}"`, after `class`. -/
def classDecl : Nat → M Stmt
  | 0 => outOfFuel
  | fuel + 1 => do
    let name ← expect .identifier .expectClassName
    let superclass ← if ← accept .less then
        pure (some (.ident (← expect .identifier .expectSuperclassName) .global))
      else pure none
    let _ ← expect .leftBrace .expectClassBodyOpen
    let methods ← methodList fuel #[]
    let _ ← expect .rightBrace .expectClassBodyClose
    return .classDecl name superclass methods.toList

/-- The methods of a class body, up to its closing brace. -/
def methodList : Nat → Array FunDecl → M (Array FunDecl)
  | 0, _ => outOfFuel
  | fuel + 1, acc => do
    if !(← check .rightBrace) && !(← atEnd) then
      methodList fuel (acc.push (← function fuel .method))
    else return acc

/-- `function → IDENT "(" parameters? ")" block`. -/
def function : Nat → FunKind → M FunDecl
  | 0, _ => outOfFuel
  | fuel + 1, kind => do
    let name ← expect .identifier (.expectFunName kind)
    let _ ← expect .leftParen (.expectParamsOpen kind)
    let params ← if ← check .rightParen then pure #[] else parameters fuel #[]
    let _ ← expect .rightParen .expectParamsClose
    let _ ← expect .leftBrace (.expectBodyOpen kind)
    let body ← block fuel
    return .mk name params.toList body

/-- Comma-separated parameter names; the 256th is recorded at its token. -/
def parameters : Nat → Array Token → M (Array Token)
  | 0, _ => outOfFuel
  | fuel + 1, acc => do
    if acc.size ≥ 255 then note (← peek) .tooManyParameters
    let acc := acc.push (← expect .identifier .expectParamName)
    if ← accept .comma then parameters fuel acc else return acc

/-- `varDecl → "var" IDENT ( "=" expression )? ";"`, after `var`. -/
def varDecl : Nat → M Stmt
  | 0 => outOfFuel
  | fuel + 1 => do
    let name ← expect .identifier .expectVarName
    let init ← if ← accept .equal then pure (some (← expression fuel)) else pure none
    let _ ← expect .semicolon .expectVarSemicolon
    return .varDecl name init

/-- `statement`, chosen by its first token. -/
def statement : Nat → M Stmt
  | 0 => outOfFuel
  | fuel + 1 => do
    if ← accept .forKw then forStmt fuel
    else if ← accept .ifKw then
      let _ ← expect .leftParen .expectIfOpen
      let cond ← expression fuel
      let _ ← expect .rightParen .expectIfClose
      let thenBranch ← statement fuel
      let elseBranch ← if ← accept .elseKw then pure (some (← statement fuel)) else pure none
      return .ifElse cond thenBranch elseBranch
    else if ← accept .whileKw then
      let _ ← expect .leftParen .expectWhileOpen
      let cond ← expression fuel
      let _ ← expect .rightParen .expectWhileClose
      return .whileLoop cond (← statement fuel)
    else if ← accept .returnKw then
      let keyword ← previous
      let value ← if ← check .semicolon then pure none else pure (some (← expression fuel))
      let _ ← expect .semicolon .expectReturnSemicolon
      return .returnStmt keyword value
    else if ← accept .leftBrace then return .block (← block fuel)
    else if ← accept .printKw then
      let e ← expression fuel
      let _ ← expect .semicolon .expectPrintSemicolon
      return .print e
    else exprStmt fuel

/-- `exprStmt → expression ";"`. -/
def exprStmt : Nat → M Stmt
  | 0 => outOfFuel
  | fuel + 1 => do
    let e ← expression fuel
    let _ ← expect .semicolon .expectExprSemicolon
    return .expression e

/-- `for (init; cond; incr) body`, after `for`, as `{ init; while (cond) { body; incr; } }`
with absent parts left out and an absent condition read as `true`. -/
def forStmt : Nat → M Stmt
  | 0 => outOfFuel
  | fuel + 1 => do
    let _ ← expect .leftParen .expectForOpen
    -- the `var` test is its own step, made only when there is no `;`
    let init ← if ← accept .semicolon then pure none
      else do
        if ← accept .varKw then pure (some (← varDecl fuel))
        else pure (some (← exprStmt fuel))
    let cond ← if ← check .semicolon then pure none else pure (some (← expression fuel))
    let _ ← expect .semicolon .expectConditionSemicolon
    let incr ← if ← check .rightParen then pure none else pure (some (← expression fuel))
    let _ ← expect .rightParen .expectForClose
    let body ← statement fuel
    let body := match incr with
      | some i => .block [body, .expression i]
      | none => body
    let loop := Stmt.whileLoop (cond.getD (.literal (.bool true))) body
    return match init with
      | some i => .block [i, loop]
      | none => loop

/-- `block → "{" declaration* "}"`, after the opening brace. -/
def block : Nat → M (List Stmt)
  | 0 => outOfFuel
  | fuel + 1 => do
    let body ← blockBody fuel #[]
    let _ ← expect .rightBrace .expectBlockClose
    return body.toList

/-- The declarations of a block, up to its closing brace. -/
def blockBody : Nat → Array Stmt → M (Array Stmt)
  | 0, _ => outOfFuel
  | fuel + 1, acc => do
    if !(← check .rightBrace) && !(← atEnd) then
      blockBody fuel (acc.push (← declaration fuel))
    else return acc

end

/-- After a fault: skips the token at fault, then tokens up to just after a `;` or just before a
keyword that starts a statement. -/
def synchronize : M Unit := do
  let _ ← advance
  let n := (← get).tokens.size
  skipToBoundary n
where
  skipToBoundary : Nat → M Unit
    | 0 => return
    | k + 1 => do
      if ← atEnd then return
      if (← previous).kind.same .semicolon then return
      match (← peek).kind with
      | .classKw | .funKw | .varKw | .forKw | .ifKw | .whileKw | .printKw | .returnKw => return
      | _ =>
        let _ ← advance
        skipToBoundary k

/-- Enough fuel for any rule on these tokens. -/
def fuelFor (tokens : Array Token) : Nat := 64 * (tokens.size + 2)

/-- Declarations up to the end of input; a fault is recorded and followed by `synchronize`. -/
def declarations : Nat → Array Stmt → M (Array Stmt)
  | 0, acc => return acc
  | k + 1, acc => do
    if ← atEnd then return acc
    let fuel := fuelFor (← get).tokens
    let acc ← tryCatch (do return acc.push (← declaration fuel))
      (fun e => do
        modify fun s => { s with recorded := s.recorded.push e }
        synchronize
        return acc)
    declarations k acc

end Parser

/-- Parses a program: its statements, or every fault in the order found. -/
def Stmt.parseProgram (tokens : List Token) : Except (List ParseError) (List Stmt) :=
  let arr := tokens.toArray
  let (r, s) := (Parser.declarations (arr.size + 1) #[]).run.run ⟨arr, 0, #[]⟩
  match r with
  | .ok stmts => if s.recorded.isEmpty then .ok stmts.toList else .error s.recorded.toList
  | .error e => .error (s.recorded.push e).toList

/-- Parses exactly one expression: a fault that stops it wins, then the first recorded one, then
`Expect end of expression.` for tokens left over. -/
def Expr.parse (tokens : List Token) : Except ParseError Expr :=
  let arr := tokens.toArray
  let p : Parser.M Expr := do
    let e ← Parser.expression (Parser.fuelFor arr)
    if let some first := (← getThe Parser.State).recorded[0]? then throw first
    if !(← Parser.atEnd) then throw ⟨← Parser.peek, .expectEnd⟩
    return e
  (p.run.run ⟨arr, 0, #[]⟩).1

end Lox
