import LiveSheet.Formula.Grammar
import LiveSheet.Formula.Postfix
import LiveSheet.Proofs.Formula.Shunting

namespace LiveSheet

def UnaryOp.ofWritten? (symbol : String) : Option UnaryOp :=
  [UnaryOp.minus, .plus, .not].find? fun op => op.written == symbol

/-- The operator between operands of this symbol, if it is of this level. -/
def BinaryOp.ofLevel? (level : Nat) (symbol : String) : Option BinaryOp :=
  match Operator.find? symbol with
  | some (.binary op) => if op.precedence = level then some op else none
  | _ => none

theorem BinaryOp.ofLevel?_eq_some {level : Nat} {symbol : String} {op : BinaryOp}
    (h : BinaryOp.ofLevel? level symbol = some op) :
    symbol = op.symbol ∧ op.precedence = level := by
  unfold BinaryOp.ofLevel? at h
  split at h
  next op' hfind =>
    split at h
    next hlevel =>
      obtain rfl := Option.some.inj h
      exact ⟨(Operator.symbol_of_find? hfind).symm, hlevel⟩
    next => cases h
  next => cases h

namespace Descent

/-- Goes on with what a parser has read, provided that it has left fewer tokens than there were. -/
def andThen {α β : Type} (ts : List Token) (read : Option (α × List Token))
    (next : α → (rest : List Token) → rest.length < ts.length → Option β) : Option β :=
  match read with
  | some (a, rest) => if h : rest.length < ts.length then next a rest h else none
  | none => none

mutual

/-- A term of this level from the front of the tokens, as long as it gets. -/
def term? (level : Nat) (ts : List Token) : Option (Term × List Token) :=
  if level < unaryLevel then
    andThen ts (term? (level + 1) ts) fun left rest _ => more? level left rest
  else if level = unaryLevel then
    match ts with
    | .operator symbol :: rest => do
      let op ← UnaryOp.ofWritten? symbol
      let (t, rest) ← term? unaryLevel rest
      return (.unary op t, rest)
    | ts => term? closedLevel ts
  else
    match ts with
    | .atom name :: .openParen :: .closeParen :: rest => more? level (.call name []) rest
    | .atom name :: .openParen :: rest =>
      andThen rest (args? rest) fun args rest _ => more? level (.call name args) rest
    | .atom s :: rest => more? level (.atom s) rest
    | .text s :: rest => more? level (.text s) rest
    | .openParen :: rest =>
      andThen rest (term? 0 rest) fun
        | t, .closeParen :: rest, _ => more? level t rest
        | _, _, _ => none
    | _ => none
termination_by 8 * ts.length + (6 - level)
decreasing_by all_goals grind [unaryLevel, closedLevel]

/-- The term with what follows it on its level: right operands, or indices of an element. -/
def more? (level : Nat) (left : Term) (ts : List Token) : Option (Term × List Token) :=
  match ts with
  | .operator symbol :: rest =>
    match BinaryOp.ofLevel? level symbol with
    | some op =>
      andThen rest (term? (level + 1) rest) fun right rest _ =>
        more? level (.binary op left right) rest
    | none => some (left, ts)
  | .openBracket :: rest =>
    if level = closedLevel then
      andThen rest (term? 0 rest) fun
        | row, .separator :: rest, _ =>
          andThen rest (term? 0 rest) fun
            | col, .closeBracket :: rest, _ => more? level (.access left row col) rest
            | _, _, _ => none
        | _, _, _ => none
    else some (left, ts)
  | _ => some (left, ts)
termination_by 8 * ts.length
decreasing_by all_goals grind [closedLevel]

/-- Arguments up to the end of a call. -/
def args? (ts : List Token) : Option (List Term × List Token) :=
  andThen ts (term? 0 ts) fun
    | t, .separator :: rest, _ => do
      let (others, rest) ← args? rest
      return (t :: others, rest)
    | t, .closeParen :: rest, _ => some ([t], rest)
    | _, _, _ => none
termination_by 8 * ts.length + 7
decreasing_by all_goals grind

end

/-- The tree of a whole formula. -/
def parse? (ts : List Token) : Option Term :=
  match term? 0 ts with
  | some (t, []) => some t
  | _ => none

theorem andThen_some {α β : Type} {ts rest : List Token} {a : α}
    {next : α → (rest : List Token) → rest.length < ts.length → Option β}
    (h : rest.length < ts.length) : andThen ts (some (a, rest)) next = next a rest h := by
  simp only [andThen, h, dite_true]

variable {ts us rest : List Token} {t u : Term} {as : List Term} {level : Nat}

theorem term?_binary (hlevel : level < unaryLevel) (h : term? (level + 1) ts = some (t, rest))
    (hlt : rest.length < ts.length) : term? level ts = more? level t rest := by
  rw [term?.eq_def, if_pos hlevel, h, andThen_some hlt]

theorem term?_prefix (op : UnaryOp) (h : term? unaryLevel ts = some (t, rest)) :
    term? unaryLevel (.operator op.written :: ts) = some (.unary op t, rest) := by
  have hop : UnaryOp.ofWritten? op.written = some op := by cases op <;> decide
  rw [term?.eq_def, if_neg (Nat.lt_irrefl _), if_pos rfl]
  simp only [hop, h]
  rfl

theorem term?_unprefixed (h : ∀ symbol more, ts ≠ .operator symbol :: more) :
    term? unaryLevel ts = term? closedLevel ts := by
  rw [term?.eq_def, if_neg (Nat.lt_irrefl _), if_pos rfl]
  split
  next symbol more => exact absurd rfl (h symbol more)
  next => rfl

theorem term?_closed (ts : List Token) : term? closedLevel ts =
    match ts with
    | .atom name :: .openParen :: .closeParen :: rest => more? closedLevel (.call name []) rest
    | .atom name :: .openParen :: rest =>
      andThen rest (args? rest) fun args rest _ => more? closedLevel (.call name args) rest
    | .atom s :: rest => more? closedLevel (.atom s) rest
    | .text s :: rest => more? closedLevel (.text s) rest
    | .openParen :: rest =>
      andThen rest (term? 0 rest) fun
        | t, .closeParen :: rest, _ => more? closedLevel t rest
        | _, _, _ => none
    | _ => none := by
  rw [term?.eq_def, if_neg (by decide), if_neg (by decide)]

theorem term?_atom {s : String} (h : rest.head? ≠ some .openParen) :
    term? closedLevel (.atom s :: rest) = more? closedLevel (.atom s) rest := by
  rw [term?_closed]
  split <;> simp_all

theorem term?_text (s : String) :
    term? closedLevel (.text s :: rest) = more? closedLevel (.text s) rest := by
  rw [term?_closed]

theorem term?_group (h : term? 0 ts = some (t, .closeParen :: rest))
    (hlt : (Token.closeParen :: rest).length < ts.length) :
    term? closedLevel (.openParen :: ts) = more? closedLevel t rest := by
  rw [term?_closed]
  simp only [h, andThen_some hlt]

theorem term?_emptyCall (name : String) :
    term? closedLevel (.atom name :: .openParen :: .closeParen :: rest) =
      more? closedLevel (.call name []) rest := by
  rw [term?_closed]

theorem term?_call (name : String) (h : args? ts = some (as, rest))
    (hlt : rest.length < ts.length) (hne : ts.head? ≠ some .closeParen) :
    term? closedLevel (.atom name :: .openParen :: ts) =
      more? closedLevel (.call name as) rest := by
  rw [term?_closed]
  split
  next h' => simp_all
  next h' =>
    simp only [List.cons.injEq, Token.atom.injEq, true_and] at h'
    obtain ⟨rfl, rfl⟩ := h'
    rw [h, andThen_some hlt]
  next hcall h' =>
    cases h'
    exact absurd rfl (hcall ts)
  all_goals simp_all

theorem more?_binary (op : BinaryOp) (h : term? (op.precedence + 1) ts = some (u, rest))
    (hlt : rest.length < ts.length) :
    more? op.precedence t (.operator op.symbol :: ts) =
      more? op.precedence (.binary op t u) rest := by
  have hop : BinaryOp.ofLevel? op.precedence op.symbol = some op := by
    have hfind : Operator.find? op.symbol = some (.binary op) := Operator.find?_symbol (.binary op)
    simp [BinaryOp.ofLevel?, hfind]
  rw [more?]
  simp only [hop, h, andThen_some hlt]

theorem more?_access {row col : Term} (hrow : term? 0 ts = some (row, .separator :: us))
    (hcol : term? 0 us = some (col, .closeBracket :: rest))
    (hlt : (Token.separator :: us).length < ts.length)
    (hlt' : (Token.closeBracket :: rest).length < us.length) :
    more? closedLevel t (.openBracket :: ts) = more? closedLevel (.access t row col) rest := by
  rw [more?]
  simp only [if_true, hrow, andThen_some hlt, hcol, andThen_some hlt']

theorem args?_last (h : term? 0 ts = some (t, .closeParen :: rest))
    (hlt : (Token.closeParen :: rest).length < ts.length) : args? ts = some ([t], rest) := by
  rw [args?, h, andThen_some hlt]

theorem args?_more (h : term? 0 ts = some (t, .separator :: us))
    (hlt : (Token.separator :: us).length < ts.length) (hothers : args? us = some (as, rest)) :
    args? ts = some (t :: as, rest) := by
  rw [args?, h, andThen_some hlt]
  simp only [hothers]
  rfl

/-- A term of this level is over before these tokens. -/
def Ends (level : Nat) (rest : List Token) : Prop :=
  ∀ next ∈ rest.head?, next ≠ .openParen ∧ (level ≤ closedLevel → next ≠ .openBracket) ∧
    ∀ op : BinaryOp, next = .operator op.symbol → op.precedence < level

theorem Ends.mono {level' : Nat} (h : Ends level rest) (hle : level ≤ level') :
    Ends level' rest := by
  intro next hnext
  obtain ⟨hparen, hbracket, hop⟩ := h next hnext
  exact ⟨hparen, fun hc => hbracket (Nat.le_trans hle hc),
    fun op ho => Nat.lt_of_lt_of_le (hop op ho) hle⟩

theorem Ends.nil (level : Nat) : Ends level [] := by
  intro next hnext
  cases hnext

theorem Ends.cons {next : Token} (hparen : next ≠ .openParen) (hbracket : next ≠ .openBracket)
    (hop : ∀ symbol, next ≠ .operator symbol) : Ends level (next :: rest) := by
  rintro _ ⟨⟩
  exact ⟨hparen, fun _ => hbracket, fun op ho => absurd ho (hop op.symbol)⟩

theorem Ends.operator (op : BinaryOp) (rest : List Token) :
    Ends (op.precedence + 1) (.operator op.symbol :: rest) := by
  rintro _ ⟨⟩
  refine ⟨by simp, by simp, fun op' ho => ?_⟩
  have hfind : Operator.find? op.symbol = some (.binary op) := Operator.find?_symbol (.binary op)
  have hfind' : Operator.find? op'.symbol = some (.binary op') :=
    Operator.find?_symbol (.binary op')
  rw [← Token.operator.inj ho, hfind] at hfind'
  cases hfind'
  exact Nat.lt_succ_self _

/-- No operator between operands is as tight as one before an operand. -/
theorem Ends.of_closed (h : Ends closedLevel rest) : Ends unaryLevel rest := by
  intro next hnext
  obtain ⟨hparen, hbracket, -⟩ := h next hnext
  exact ⟨hparen, fun _ => hbracket (Nat.le_refl _), fun op _ => op.precedence_lt⟩

theorem more?_stop (h : Ends level rest) : more? level t rest = some (t, rest) := by
  rw [more?.eq_def]
  split
  next symbol more =>
    obtain ⟨-, -, hop⟩ := h _ rfl
    split
    next op hat =>
      obtain ⟨rfl, hlevel⟩ := BinaryOp.ofLevel?_eq_some hat
      exact absurd hlevel (Nat.ne_of_lt (hop op rfl))
    next => rfl
  next more =>
    obtain ⟨-, hbracket, -⟩ := h _ rfl
    have hne : level ≠ closedLevel := fun hl => hbracket (Nat.le_of_eq hl) rfl
    rw [if_neg hne]
  next => rfl

end Descent

end LiveSheet
