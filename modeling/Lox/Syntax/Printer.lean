import Lox.Syntax
/-!
Two written forms of an expression. `Expr.toPrefix` writes every compound node as a parenthesized
list led by its operator (`(+ 1.0 (group 2.0))`); `Expr.toPostfix` writes operands before their
operator (`1.0 2.0 +`), drops grouping, writes unary minus as `neg` and a call as `call/N`.
-/
namespace Lox

/-- A literal as the printers write it: an integral number with one decimal (`3.0`), another
number in plain positional digits (`inf` for infinity), a string raw, and the keywords. -/
def Literal.text : Literal → String
  | .number x =>
    match Double.ofFloat x with
    | .finite negative b =>
      if b.isIntegral then (if negative then "-" else "") ++ Nat.repr b.integerPart ++ ".0"
      else Token.plainNumber x
    | _ => Token.plainNumber x
  | .str s => s
  | .bool true => "true"
  | .bool false => "false"
  | .nil => "nil"

/-- Joins texts, each after one space. -/
def spaced (parts : List String) : String :=
  String.join (parts.map (" " ++ ·))

/-- The parenthesized prefix form. -/
def Expr.toPrefix : Expr → String
  | .literal v => v.text
  | .grouping e => "(group " ++ e.toPrefix ++ ")"
  | .unary op r => "(" ++ op.lexeme ++ " " ++ r.toPrefix ++ ")"
  | .binary l op r => "(" ++ op.lexeme ++ " " ++ l.toPrefix ++ " " ++ r.toPrefix ++ ")"
  | .logical l op r => "(" ++ op.lexeme ++ " " ++ l.toPrefix ++ " " ++ r.toPrefix ++ ")"
  | .ident name _ => name.lexeme
  | .assign name v _ => "(= " ++ name.lexeme ++ " " ++ v.toPrefix ++ ")"
  | .call f _ args => "(call " ++ f.toPrefix ++ spaced (args.map Expr.toPrefix) ++ ")"
  | .get o name => "(. " ++ o.toPrefix ++ " " ++ name.lexeme ++ ")"
  | .set o name v => "(= (. " ++ o.toPrefix ++ " " ++ name.lexeme ++ ") " ++ v.toPrefix ++ ")"
  | .thisRef _ _ => "this"
  | .superGet _ m _ => "(super " ++ m.lexeme ++ ")"

/-- The postfix (reverse Polish) form. -/
def Expr.toPostfix : Expr → String
  | .literal v => v.text
  | .grouping e => e.toPostfix
  | .unary op r => r.toPostfix ++ " " ++ (if op.lexeme == "-" then "neg" else op.lexeme)
  | .binary l op r => l.toPostfix ++ " " ++ r.toPostfix ++ " " ++ op.lexeme
  | .logical l op r => l.toPostfix ++ " " ++ r.toPostfix ++ " " ++ op.lexeme
  | .ident name _ => name.lexeme
  | .assign name v _ => v.toPostfix ++ " " ++ name.lexeme ++ " ="
  | .call f _ args =>
    f.toPostfix ++ spaced (args.map Expr.toPostfix) ++ " call/" ++ Nat.repr args.length
  | .get o name => o.toPostfix ++ " ." ++ name.lexeme
  | .set o name v => o.toPostfix ++ " " ++ v.toPostfix ++ " ." ++ name.lexeme ++ " ="
  | .thisRef _ _ => "this"
  | .superGet _ m _ => "super." ++ m.lexeme

end Lox
