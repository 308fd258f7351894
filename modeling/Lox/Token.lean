import Lox.Decimal.Notation
import Lox.Text.Json
/-!
Tokens of Lox source: their kinds, with the contents of a string and the value of a number, the
text they were read from and their line. A token has two written forms, `Token.text`
(`KIND LEXEME LITERAL`) and `Token.json`, a JSON object.
-/
namespace Lox

/-- The kinds of token. A string carries its contents without the quotes and a number its value;
every other kind is described by its lexeme. -/
inductive TokenKind where
  | leftParen | rightParen | leftBrace | rightBrace
  | comma | dot | minus | plus | semicolon | slash | star
  | bang | bangEqual | equal | equalEqual
  | greater | greaterEqual | less | lessEqual
  | identifier
  | string (contents : String)
  | number (value : Float)
  | andKw | classKw | elseKw | falseKw | funKw | forKw | ifKw | nilKw | orKw
  | printKw | returnKw | superKw | thisKw | trueKw | varKw | whileKw
  | eof
  deriving Inhabited

/-- A token: its kind, the source text it was read from, and the line it ended on. -/
structure Token where
  kind : TokenKind
  lexeme : String
  line : Nat
  deriving Inhabited

namespace TokenKind

/-- The upper-case name of a kind, without payload. -/
def name : TokenKind → String
  | leftParen => "LEFT_PAREN"
  | rightParen => "RIGHT_PAREN"
  | leftBrace => "LEFT_BRACE"
  | rightBrace => "RIGHT_BRACE"
  | comma => "COMMA"
  | dot => "DOT"
  | minus => "MINUS"
  | plus => "PLUS"
  | semicolon => "SEMICOLON"
  | slash => "SLASH"
  | star => "STAR"
  | bang => "BANG"
  | bangEqual => "BANG_EQUAL"
  | equal => "EQUAL"
  | equalEqual => "EQUAL_EQUAL"
  | greater => "GREATER"
  | greaterEqual => "GREATER_EQUAL"
  | less => "LESS"
  | lessEqual => "LESS_EQUAL"
  | identifier => "IDENTIFIER"
  | string _ => "STRING"
  | number _ => "NUMBER"
  | andKw => "AND"
  | classKw => "CLASS"
  | elseKw => "ELSE"
  | falseKw => "FALSE"
  | funKw => "FUN"
  | forKw => "FOR"
  | ifKw => "IF"
  | nilKw => "NIL"
  | orKw => "OR"
  | printKw => "PRINT"
  | returnKw => "RETURN"
  | superKw => "SUPER"
  | thisKw => "THIS"
  | trueKw => "TRUE"
  | varKw => "VAR"
  | whileKw => "WHILE"
  | eof => "EOF"

/-- The keyword a word spells, if any. -/
def keyword? : String → Option TokenKind
  | "and" => some andKw
  | "class" => some classKw
  | "else" => some elseKw
  | "false" => some falseKw
  | "fun" => some funKw
  | "for" => some forKw
  | "if" => some ifKw
  | "nil" => some nilKw
  | "or" => some orKw
  | "print" => some printKw
  | "return" => some returnKw
  | "super" => some superKw
  | "this" => some thisKw
  | "true" => some trueKw
  | "var" => some varKw
  | "while" => some whileKw
  | _ => none

/-- The kind of an identifier or keyword lexeme. -/
def ofWord (w : String) : TokenKind := (keyword? w).getD identifier

/-- Two kinds are the same, payloads aside. -/
def same (a b : TokenKind) : Bool := a.name == b.name

end TokenKind

namespace Token

/-- Numbers written for people: every value positionally, the shortest digits with ties going
up, and no mark on integral values. -/
def plainNotation : Notation := ⟨.up, none, "", ""⟩

/-- Numbers in JSON: the shortest digits with ties to even, positional for leading exponents from
`-5` up to `15` with `.0` on integral values, otherwise `1e+16`, `1.5e-7`. -/
def jsonNotation : Notation := ⟨.even, some (-5, 16), ".0", "+"⟩

/-- A number as plain positional text, `inf` and `NaN` for the non-finite ones. -/
def plainNumber (x : Float) : String :=
  match Double.ofFloat x with
  | .finite negative b => plainNotation.writeFinite negative b
  | .infinity negative => if negative then "-inf" else "inf"
  | .nan => "NaN"

/-- A number literal's payload as the token listing writes it: an integral value below `10 ^ 15`
as its integer with `.0`, anything else as plain positional text. -/
def numberLiteralText (x : Float) : String :=
  match Double.ofFloat x with
  | .finite negative b =>
    if b.isIntegral && decide (b.integerPart < Nat.pow 10 15) then
      (if negative && b.integerPart != 0 then "-" else "") ++ Nat.repr b.integerPart ++ ".0"
    else plainNumber x
  | _ => plainNumber x

/-- A number in JSON; infinities and NaN are `null`. -/
def jsonNumber (x : Float) : String :=
  match Double.ofFloat x with
  | .finite negative b => jsonNotation.writeFinite negative b
  | _ => "null"

/-- The payload part of a token's text form. -/
def literalText : TokenKind → String
  | .string s => s
  | .number x => numberLiteralText x
  | _ => "null"

/-- The token listing form `KIND LEXEME LITERAL`, joined by single spaces. -/
def text (t : Token) : String :=
  t.kind.name ++ " " ++ t.lexeme ++ " " ++ literalText t.kind

/-- The kind in JSON: a plain name, or an object holding the payload. -/
def kindJson : TokenKind → String
  | .string s => "\x7b\"STRING\":" ++ Json.quote s ++ "\x7d"
  | .number x => "\x7b\"NUMBER\":" ++ jsonNumber x ++ "\x7d"
  | k => Json.quote k.name

/-- Where an error at this token points: ` at end` for the end of input, else its lexeme. -/
def location (t : Token) : String :=
  match t.kind with
  | .eof => " at end"
  | _ => " at '" ++ t.lexeme ++ "'"

/-- The token as a JSON object with the fields `token_type`, `lexeme` and `line`. -/
def json (t : Token) : String :=
  "\x7b\"token_type\":" ++ kindJson t.kind ++ ",\"lexeme\":" ++ Json.quote t.lexeme ++
    ",\"line\":" ++ Nat.repr t.line ++ "\x7d"

end Token

end Lox
