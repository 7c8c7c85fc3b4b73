import LiveSheet.Formula.Term

namespace LiveSheet

/-- What a row of tokens can be read as: a term whose outermost operator binds at least as tight
as a level, or arguments with separators between them. -/
inductive Phrase
  | term (level : Nat) (t : Term)
  | args (ts : List Term)

/-- The level of operators before an operand, above those of all operators between operands. -/
def unaryLevel : Nat := 4

/-- The level of terms that no operator around them can take apart. -/
def closedLevel : Nat := 5

/-- The infix grammar of formulas. Operators of one class group from the left, an operator before
an operand takes a term of its own level, and an access belongs to the closed term before it. -/
inductive Reads : List Token → Phrase → Prop
  | atom (s : String) : Reads [.atom s] (.term closedLevel (.atom s))
  | text (s : String) : Reads [.text s] (.term closedLevel (.text s))
  | group {ts : List Token} {t : Term} (inner : Reads ts (.term 0 t)) :
    Reads (.openParen :: ts ++ [.closeParen]) (.term closedLevel t)
  | call {ts : List Token} {args : List Term} (name : String) (inner : Reads ts (.args args)) :
    Reads (.atom name :: .openParen :: ts ++ [.closeParen]) (.term closedLevel (.call name args))
  | access {ts rs cs : List Token} {t row col : Term} (table : Reads ts (.term closedLevel t))
    (first : Reads rs (.term 0 row)) (second : Reads cs (.term 0 col)) :
    Reads (ts ++ .openBracket :: rs ++ .separator :: cs ++ [.closeBracket])
      (.term closedLevel (.access t row col))
  | unary {ts : List Token} {t : Term} (op : UnaryOp) (operand : Reads ts (.term unaryLevel t)) :
    Reads (.operator op.written :: ts) (.term unaryLevel (.unary op t))
  | binary {ls rs : List Token} {l r : Term} (op : BinaryOp)
    (left : Reads ls (.term op.precedence l)) (right : Reads rs (.term (op.precedence + 1) r)) :
    Reads (ls ++ .operator op.symbol :: rs) (.term op.precedence (.binary op l r))
  | loosen {ts : List Token} {level : Nat} {t : Term} (tighter : Reads ts (.term (level + 1) t)) :
    Reads ts (.term level t)
  | noArgs : Reads [] (.args [])
  | lastArg {ts : List Token} {t : Term} (arg : Reads ts (.term 0 t)) : Reads ts (.args [t])
  | moreArgs {ts us : List Token} {t u : Term} {rest : List Term} (arg : Reads ts (.term 0 t))
    (others : Reads us (.args (u :: rest))) :
    Reads (ts ++ .separator :: us) (.args (t :: u :: rest))

def IsFormula (ts : List Token) (t : Term) : Prop :=
  Reads ts (.term 0 t)

end LiveSheet
