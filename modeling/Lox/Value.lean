import Lox.Syntax
/-!
Runtime values of Lox. Functions and classes are values carried whole, each with an identity
number that equality compares; an instance is a reference into the store together with its
class, which never changes. `Value.display` is how `print` and the prompt write a value, and
`Value.typeName` how runtime errors name its kind.
-/
namespace Lox

/-- A function value: an identity, its declaration, the frame it closes over, and whether it is
a class's initializer. -/
structure Closure where
  id : Nat
  decl : FunDecl
  env : Nat
  isInit : Bool
  deriving Inhabited

/-- The number of parameters. -/
def Closure.arity (f : Closure) : Nat := f.decl.params.length

/-- A class: an identity, its name, its superclass and its methods, the latest definition of a
name first. -/
inductive ClassDef where
  | mk (id : Nat) (name : String) (superclass : Option ClassDef) (methods : List (String × Closure))
  deriving Inhabited

namespace ClassDef

/-- The identity of a class. -/
def id : ClassDef → Nat
  | .mk i _ _ _ => i

/-- The declared name of a class. -/
def name : ClassDef → String
  | .mk _ n _ _ => n

/-- The method a class defines under a name, or else its nearest ancestor. -/
def findMethod : ClassDef → String → Option Closure
  | .mk _ _ sup methods, m =>
    match methods.lookup m with
    | some f => some f
    | none =>
      match sup with
      | some s => s.findMethod m
      | none => none

/-- A class takes as many arguments as the `init` it finds, and none without one. -/
def arity (c : ClassDef) : Nat :=
  match c.findMethod "init" with
  | some f => f.arity
  | none => 0

end ClassDef

/-- The functions built into every interpreter. -/
inductive Native where
  /-- Seconds since the epoch, as the host reports them. -/
  | clock
  deriving DecidableEq, Repr, Inhabited

/-- The number of arguments a native function takes. -/
def Native.arity : Native → Nat
  | .clock => 0

/-- The values a Lox program computes with. -/
inductive Value where
  | nil
  | bool (b : Bool)
  | number (x : Float)
  | str (s : String)
  | fn (f : Closure)
  | native (n : Native)
  | cls (c : ClassDef)
  /-- An instance: its reference in the store, and its class. -/
  | obj (ref : Nat) (c : ClassDef)
  deriving Inhabited

namespace Value

/-- Only `nil` and `false` are false. -/
def truthy : Value → Bool
  | .nil => false
  | .bool b => b
  | _ => true

/-- The name of a value's kind in error messages; natives and bound methods are functions. -/
def typeName : Value → String
  | .nil => "nil"
  | .bool _ => "boolean"
  | .number _ => "number"
  | .str _ => "string"
  | .fn _ => "function"
  | .native _ => "function"
  | .cls _ => "class"
  | .obj _ _ => "instance"

/-- Lox equality: never across kinds; numbers as IEEE doubles, so `NaN` differs from itself;
functions, classes and instances by identity. -/
def equal : Value → Value → Bool
  | .nil, .nil => true
  | .bool a, .bool b => a == b
  | .number a, .number b => a == b
  | .str a, .str b => a == b
  | .fn f, .fn g => f.id == g.id
  | .native a, .native b => a == b
  | .cls a, .cls b => a.id == b.id
  | .obj r _, .obj s _ => r == s
  | _, _ => false

/-- A number as Lox writes it: `Infinity`, `-Infinity` and `NaN`; an integral value as its exact
integer, `-0` for negative zero; anything else in its shortest plain digits. -/
def numberText (x : Float) : String :=
  match Double.ofFloat x with
  | .nan => "NaN"
  | .infinity negative => if negative then "-Infinity" else "Infinity"
  | .finite negative b =>
    if b.isIntegral then (if negative then "-" else "") ++ Nat.repr b.integerPart
    else Token.plainNotation.writeFinite negative b

/-- A value as `print` writes it. -/
def display : Value → String
  | .nil => "nil"
  | .bool b => if b then "true" else "false"
  | .number x => numberText x
  | .str s => s
  | .fn f => "<fn " ++ f.decl.name.lexeme ++ ">"
  | .native _ => "<native fn>"
  | .cls c => c.name
  | .obj _ c => c.name ++ " instance"

end Value

/-- The value a literal denotes. -/
def Literal.value : Literal → Value
  | .number x => .number x
  | .str s => .str s
  | .bool b => .bool b
  | .nil => .nil

end Lox
