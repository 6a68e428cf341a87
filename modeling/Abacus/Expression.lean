import Abacus.Operator

/-!
# Expressions

An expression is a literal or an operator over at least one expression.

* `Expression`, `Expression.arguments`: expressions and the arguments of an operation.
* `Expression.nesting`: how many operations stand inside one another.
-/

namespace Abacus

/-- A literal, or an operator over a first argument and any number of others. -/
inductive Expression
  | literal (value : Float)
  | operation (op : Operator) (first : Expression) (rest : List Expression)
  deriving Inhabited

namespace Expression

/-- The arguments of an operation, from left to right. -/
def arguments : Expression → List Expression
  | literal _ => []
  | operation _ first rest => first :: rest

mutual

/-- The greatest number of operations that stand inside one another. -/
def nesting : Expression → Nat
  | literal _ => 0
  | operation _ first rest => 1 + max (nesting first) (nestingOfAll rest)

/-- The greatest nesting among expressions. -/
def nestingOfAll : List Expression → Nat
  | [] => 0
  | e :: rest => max (nesting e) (nestingOfAll rest)

end

end Expression

end Abacus
