import FormulaSheet.Value

/-!
# Functions of formulas

The functions that formulas can call. Names are matched exactly. A function first checks how many
arguments it got and then reduces them to a number.

## Main definitions

* `Builtin`: a function with its name, arity and description.
* `Builtin.all`, `Builtin.find?`: the functions, in the order in which they are listed.
* `Builtin.call`: the value of a call.
-/

namespace FormulaSheet

/-- How many arguments a function takes. -/
inductive Arity where
  | exactly (n : Nat)
  | unbounded
deriving DecidableEq, Repr

namespace Arity

/-- Whether a function takes `count` arguments. -/
def accepts : Arity → Nat → Bool
  | exactly n, count => n = count
  | unbounded, _ => true

/-- The arity in the list of functions. -/
def text : Arity → String
  | exactly n => n.repr
  | unbounded => "any"

end Arity

/-- A function of formulas. -/
structure Builtin where
  name : String
  arity : Arity
  description : String
  /-- The number that a function makes of as many arguments as it takes. -/
  reduce : List Float → Float

namespace Builtin

/-- The result of a function of one argument. -/
def unary (f : Float → Float) : List Float → Float
  | [x] => f x
  | _ => Binary64.notANumber

/-- The result of a function of two arguments. -/
def binary (f : Float → Float → Float) : List Float → Float
  | [x, y] => f x y
  | _ => Binary64.notANumber

/-- The sum from left to right. It starts at negative zero, the one number that changes no other
when added to it. -/
def sum (xs : List Float) : Float :=
  xs.foldl (· + ·) (-0.0)

/-- The product from left to right. -/
def product (xs : List Float) : Float :=
  xs.foldl (· * ·) 1.0

/-- The number nearest to the circle constant. -/
def pi : Float :=
  Float.ofBits 0x400921FB54442D18

/-- All functions, in the order in which they are listed. -/
def all : List Builtin :=
  [⟨"sum", .unbounded, "Sum of all arguments (0 when called with none)", sum⟩,
    ⟨"product", .unbounded, "Product of all arguments (1 when called with none)", product⟩,
    ⟨"pi", .exactly 0, "The constant pi", fun _ => pi⟩,
    ⟨"abs", .exactly 1, "Absolute value", unary Float.abs⟩,
    ⟨"sqrt", .exactly 1, "Square root (NaN for negative input)", unary Float.sqrt⟩,
    ⟨"round", .exactly 1, "Round half away from zero", unary Float.round⟩,
    ⟨"pow", .exactly 2, "First argument raised to the power of the second", binary Float.pow⟩]

/-- The function of the given name. -/
def find? (name : String) : Option Builtin :=
  all.find? (·.name = name)

/-- The value of a call with the given arguments. -/
def call (f : Builtin) (args : List Float) : Value :=
  if f.arity.accepts args.length then .number (f.reduce args) else .error .argument

end Builtin

end FormulaSheet
