import Mathlib.Data.List.TakeWhile
import LiveSheet.Formula.Postfix

namespace LiveSheet

/-- What a stretch of a formula stands in. -/
inductive Enclosure
  | whole
  | group
  | call (name : String)
  | access
  deriving DecidableEq, Repr

/-- A stretch of a formula that is being read: the operators that wait for their right operand,
innermost first, and what is known of its arguments. -/
structure Scope where
  enclosure : Enclosure
  pending : List Operator
  separators : Nat
  hasArgs : Bool
  deriving DecidableEq, Repr

def Scope.opened (enclosure : Enclosure) : Scope :=
  ⟨enclosure, [], 0, false⟩

def Scope.argCount (s : Scope) : Nat :=
  if s.hasArgs then s.separators + 1 else 0

def Scope.withArgs (s : Scope) : Scope :=
  { s with hasArgs := true }

/-- A formula read up to some token: its postfix form so far, the innermost stretch and those
around it, and whether the last token completed an operand. -/
structure InfixReader where
  output : List Token
  scope : Scope
  outer : List Scope
  afterOperand : Bool
  deriving DecidableEq, Repr

namespace InfixReader

def start : InfixReader :=
  ⟨[], Scope.opened .whole, [], false⟩

def operand (r : InfixReader) (t : Token) : InfixReader :=
  { r with output := r.output ++ [t], scope := r.scope.withArgs, afterOperand := true }

/-- An operator where an operand is expected stands before its operand. The waiting operators that
it completes go out first. -/
def operator (r : InfixReader) (symbol : String) : Except FormulaError InfixReader :=
  let meant := if r.afterOperand then symbol else (Operator.prefixForm? symbol).getD symbol
  match Operator.find? meant with
  | none => .error (.unknownOperator meant)
  | some op =>
    let complete := r.scope.pending.takeWhile (·.popsBefore op)
    let waiting := r.scope.pending.dropWhile (·.popsBefore op)
    .ok { r with
      output := r.output ++ operatorTokens complete
      scope := { r.scope with pending := op :: waiting, hasArgs := true }
      afterOperand := false }

def openGroup (r : InfixReader) : InfixReader :=
  { r with scope := .opened .group, outer := r.scope.withArgs :: r.outer, afterOperand := false }

def openCall (r : InfixReader) (name : String) : InfixReader :=
  { r with scope := .opened (.call name), outer := r.scope.withArgs :: r.outer,
           afterOperand := false }

def openBracket (r : InfixReader) : Except FormulaError InfixReader :=
  if r.afterOperand then
    .ok { r with scope := .opened .access, outer := r.scope :: r.outer, afterOperand := false }
  else .error (.malformedAccess .noTableName)

def drain (r : InfixReader) : InfixReader :=
  { r with output := r.output ++ operatorTokens r.scope.pending,
           scope := { r.scope with pending := [] } }

/-- The reader back in the stretch around the innermost one, whose last tokens are `tokens`. -/
def leave (r : InfixReader) (tokens : List Token) : InfixReader :=
  match r.outer with
  | [] => { r.drain with output := r.drain.output ++ tokens, afterOperand := true }
  | around :: outer => ⟨r.drain.output ++ tokens, around, outer, true⟩

def closeParen (r : InfixReader) : Except FormulaError InfixReader :=
  let unfinished := r.scope.hasArgs && !r.afterOperand
  match r.scope.enclosure with
  | .whole => .error (.malformed .unmatchedParen)
  | .access => .error (.malformed .parenClosesBracket)
  | .group =>
    if unfinished then .error (.malformed .missingBeforeParen)
    else if r.scope.hasArgs then .ok (r.leave [])
    else .error (.malformed .emptyParens)
  | .call name =>
    if unfinished then .error (.malformed .missingBeforeParen)
    else .ok (r.leave [.function name, .argCount r.scope.argCount])

def separator (r : InfixReader) : Except FormulaError InfixReader :=
  if !r.afterOperand then .error (.malformed .missingBeforeSeparator)
  else match r.scope.enclosure with
    | .call _ | .access =>
      let r := r.drain
      .ok { r with scope := { r.scope with separators := r.scope.separators + 1 },
                   afterOperand := false }
    | .whole | .group => .error (.malformed .straySeparator)

def closeBracket (r : InfixReader) : Except FormulaError InfixReader :=
  match r.scope.enclosure with
  | .access =>
    if r.scope.argCount = 2 && r.afterOperand then .ok (r.leave [.tableAccess])
    else .error (.malformedAccess .notTwoIndices)
  | _ => .error (.malformedAccess .unmatchedBracket)

/-- Reads one token that is no function name of a call. -/
def step (r : InfixReader) (t : Token) : Except FormulaError InfixReader :=
  match t with
  | .atom _ | .text _ => .ok (r.operand t)
  | .operator symbol => r.operator symbol
  | .openParen => .ok r.openGroup
  | .closeParen => r.closeParen
  | .separator => r.separator
  | .openBracket => r.openBracket
  | .closeBracket => r.closeBracket
  | .function _ | .argCount _ | .tableAccess => .error (.malformed (.notInfix t))

/-- Reads tokens to the end; an atom right before a parenthesis is the name of a function. -/
def run (r : InfixReader) : List Token → Except FormulaError InfixReader
  | [] => .ok r
  | .atom name :: .openParen :: rest => (r.openCall name).run rest
  | t :: rest =>
    match r.step t with
    | .ok r => r.run rest
    | .error e => .error e

def finish (r : InfixReader) : Except FormulaError (List Token) :=
  match r.scope.enclosure with
  | .whole => .ok r.drain.output
  | .group | .call _ => .error (.malformed .unclosedParen)
  | .access => .error (.malformedAccess .unclosedBracket)

end InfixReader

theorem unstack_eq (completes : Operator → Bool) (ops : List Operator) (rest : List Stacked)
    (marked : ∀ op, rest.head? ≠ some (.operator op)) :
    unstack completes (ops.map .operator ++ rest) =
      (ops.takeWhile completes, (ops.dropWhile completes).map .operator ++ rest) := by
  induction ops with
  | nil =>
    cases rest with
    | nil => rfl
    | cons entry rest =>
      cases entry with
      | operator op => exact absurd rfl (marked op)
      | _ => rfl
  | cons op ops ih =>
    rw [List.map_cons, List.cons_append, unstack, ih]
    by_cases h : completes op = true <;> simp [h]

/-- What has been put on the stack where a stretch begins. -/
def Enclosure.entries : Enclosure → List Stacked
  | .whole => []
  | .group => [.openParen]
  | .call name => [.openParen, .function name]
  | .access => [.openBracket]

def Enclosure.kind? : Enclosure → Option FrameKind
  | .whole => none
  | .group => some .group
  | .call _ => some .call
  | .access => some .table

/-- The part of the stack that belongs to a stretch. -/
def Scope.entries (s : Scope) : List Stacked :=
  s.pending.map .operator ++ s.enclosure.entries

def Scope.frame? (s : Scope) : Option Frame :=
  s.enclosure.kind?.map fun kind => ⟨kind, s.separators, s.hasArgs⟩

namespace InfixReader

/-- The reader with its stretches in one stack and their arguments in another. -/
def yard (r : InfixReader) : ShuntingYard where
  output := r.output
  stack := (r.scope :: r.outer).flatMap Scope.entries
  frames := (r.scope :: r.outer).filterMap Scope.frame?
  afterOperand := r.afterOperand

theorem yard_stack (r : InfixReader) : r.yard.stack =
    r.scope.pending.map .operator ++
      (r.scope.enclosure.entries ++ r.outer.flatMap Scope.entries) := by
  simp [yard, Scope.entries]

/-- The outermost stretch is the whole formula, and no other one is. -/
def Layered : Scope → List Scope → Prop
  | s, [] => s.enclosure = .whole
  | s, around :: outer => s.enclosure ≠ .whole ∧ Layered around outer

def Rooted (r : InfixReader) : Prop :=
  Layered r.scope r.outer

variable {r r' : InfixReader}

theorem Layered.of_enclosure {s t : Scope} {outer : List Scope} (h : Layered s outer)
    (same : t.enclosure = s.enclosure) : Layered t outer := by
  cases outer with
  | nil => exact same.trans h
  | cons around outer => exact ⟨same ▸ h.1, h.2⟩

/-- Under the operators of a stretch there is its open sign, or nothing. -/
theorem Rooted.marked (h : r.Rooted) (op : Operator) :
    (r.scope.enclosure.entries ++ r.outer.flatMap Scope.entries).head? ≠ some (.operator op) := by
  obtain ⟨output, ⟨enclosure, pending, separators, hasArgs⟩, outer, afterOperand⟩ := r
  cases outer with
  | nil =>
    obtain rfl : enclosure = .whole := h
    nofun
  | cons around outer =>
    cases enclosure with
    | whole => exact absurd rfl h.1
    | _ => simp [Enclosure.entries]

theorem Rooted.emit_yard (h : r.Rooted) (completes : Operator → Bool) : r.yard.emit completes =
    yard { r with
      output := r.output ++ operatorTokens (r.scope.pending.takeWhile completes)
      scope := { r.scope with pending := r.scope.pending.dropWhile completes } } := by
  rw [ShuntingYard.emit, yard_stack, unstack_eq completes _ _ h.marked]
  simp [yard, Scope.entries, Scope.frame?, List.filterMap_cons]

theorem Rooted.drain_yard (h : r.Rooted) : r.yard.drain = r.drain.yard := by
  have all : r.scope.pending.takeWhile (fun _ => true) = r.scope.pending :=
    List.takeWhile_eq_self_iff.mpr fun _ _ => rfl
  have none : r.scope.pending.dropWhile (fun _ => true) = [] :=
    List.dropWhile_eq_nil_iff.mpr fun _ _ => rfl
  rw [ShuntingYard.drain, h.emit_yard, all, none, drain]

theorem Rooted.markArgument_yard (h : r.Rooted) :
    r.yard.markArgument = yard { r with scope := r.scope.withArgs } := by
  obtain ⟨output, ⟨enclosure, pending, separators, hasArgs⟩, outer, afterOperand⟩ := r
  cases outer with
  | nil =>
    obtain rfl : enclosure = .whole := h
    rfl
  | cons around outer =>
    cases enclosure with
    | whole => exact absurd rfl h.1
    | _ => rfl

theorem Rooted.operand_yard (h : r.Rooted) (t : Token) :
    r.yard.operand t = (r.operand t).yard := by
  rw [ShuntingYard.operand, h.markArgument_yard]
  rfl

theorem Rooted.operator_yard (h : r.Rooted) (symbol : String) :
    r.yard.operator symbol = (r.operator symbol).map yard := by
  have hafter : r.yard.afterOperand = r.afterOperand := rfl
  unfold ShuntingYard.operator operator
  rw [hafter]
  generalize (if r.afterOperand then symbol else (Operator.prefixForm? symbol).getD symbol) = meant
  dsimp only
  cases Operator.find? meant with
  | none => rfl
  | some op =>
    have hmark := Rooted.markArgument_yard (r := { r with
      output := r.output ++ operatorTokens (r.scope.pending.takeWhile (·.popsBefore op))
      scope := { r.scope with pending := r.scope.pending.dropWhile (·.popsBefore op) } })
      (Layered.of_enclosure h rfl)
    dsimp only
    rw [h.emit_yard, hmark]
    simp [Except.map, yard, Scope.entries, Scope.withArgs, Scope.frame?, List.filterMap_cons]

theorem Rooted.openGroup_yard (h : r.Rooted) : r.yard.openGroup = r.openGroup.yard := by
  rw [ShuntingYard.openGroup, h.markArgument_yard]
  rfl

theorem Rooted.openCall_yard (h : r.Rooted) (name : String) :
    r.yard.openCall name = (r.openCall name).yard := by
  rw [ShuntingYard.openCall, h.markArgument_yard]
  rfl

theorem openBracket_yard (r : InfixReader) :
    r.yard.openBracket = r.openBracket.map yard := by
  unfold ShuntingYard.openBracket openBracket
  change (if r.afterOperand then _ else _) = _
  split <;> rfl

theorem Rooted.closeParen_yard (h : r.Rooted) : r.yard.closeParen = r.closeParen.map yard := by
  rw [ShuntingYard.closeParen, h.drain_yard]
  obtain ⟨output, ⟨enclosure, pending, separators, hasArgs⟩, outer, afterOperand⟩ := r
  cases outer with
  | nil =>
    obtain rfl : enclosure = .whole := h
    rfl
  | cons around outer =>
    cases enclosure with
    | whole => exact absurd rfl h.1
    | group =>
      simp only [closeParen, leave, List.append_nil, apply_ite (Except.map yard)]
      rfl
    | call name =>
      simp only [closeParen, apply_ite (Except.map yard)]
      rfl
    | access => rfl

theorem Rooted.separator_yard (h : r.Rooted) : r.yard.separator = r.separator.map yard := by
  rw [ShuntingYard.separator, h.drain_yard]
  obtain ⟨output, ⟨enclosure, pending, separators, hasArgs⟩, outer, afterOperand⟩ := r
  cases afterOperand with
  | false => rfl
  | true =>
    cases outer with
    | nil =>
      obtain rfl : enclosure = .whole := h
      rfl
    | cons around outer =>
      cases enclosure with
      | whole => exact absurd rfl h.1
      | _ => rfl

theorem Rooted.closeBracket_yard (h : r.Rooted) :
    r.yard.closeBracket = r.closeBracket.map yard := by
  rw [ShuntingYard.closeBracket, h.drain_yard]
  obtain ⟨output, ⟨enclosure, pending, separators, hasArgs⟩, outer, afterOperand⟩ := r
  cases outer with
  | nil =>
    obtain rfl : enclosure = .whole := h
    rfl
  | cons around outer =>
    cases enclosure with
    | whole => exact absurd rfl h.1
    | access =>
      simp only [closeBracket, apply_ite (Except.map yard)]
      rfl
    | _ => rfl

theorem Rooted.step_yard (h : r.Rooted) (t : Token) : r.yard.step t = (r.step t).map yard := by
  cases t with
  | atom text | text content => exact congrArg Except.ok (h.operand_yard _)
  | operator symbol => exact h.operator_yard symbol
  | openParen => exact congrArg Except.ok h.openGroup_yard
  | closeParen => exact h.closeParen_yard
  | separator => exact h.separator_yard
  | openBracket => exact r.openBracket_yard
  | closeBracket => exact h.closeBracket_yard
  | function name | argCount count | tableAccess => rfl

/-! Reading keeps one stretch within another. -/

theorem Rooted.leave (h : r.Rooted) (inner : r.scope.enclosure ≠ .whole) (tokens : List Token) :
    (r.leave tokens).Rooted := by
  obtain ⟨output, scope, outer, afterOperand⟩ := r
  cases outer with
  | nil => exact absurd h inner
  | cons around outer => exact h.2

theorem Rooted.closeParen (h : r.Rooted) (hr : r.closeParen = .ok r') : r'.Rooted := by
  unfold InfixReader.closeParen at hr
  dsimp only at hr
  split at hr
  next => cases hr
  next => cases hr
  next henc =>
    split_ifs at hr
    cases hr
    exact h.leave (by simp [henc]) _
  next name henc =>
    split_ifs at hr
    cases hr
    exact h.leave (by simp [henc]) _

theorem Rooted.closeBracket (h : r.Rooted) (hr : r.closeBracket = .ok r') : r'.Rooted := by
  unfold InfixReader.closeBracket at hr
  split at hr
  next henc =>
    split_ifs at hr
    cases hr
    exact h.leave (by simp [henc]) _
  next => cases hr

theorem Rooted.separator (h : r.Rooted) (hr : r.separator = .ok r') : r'.Rooted := by
  unfold InfixReader.separator at hr
  split_ifs at hr
  split at hr
  next => cases hr; exact Layered.of_enclosure h rfl
  next => cases hr; exact Layered.of_enclosure h rfl
  next => cases hr
  next => cases hr

theorem Rooted.operator (h : r.Rooted) {symbol : String} (hr : r.operator symbol = .ok r') :
    r'.Rooted := by
  unfold InfixReader.operator at hr
  dsimp only at hr
  split at hr
  next => cases hr
  next => cases hr; exact Layered.of_enclosure h rfl

theorem Rooted.openCall (h : r.Rooted) (name : String) : (r.openCall name).Rooted :=
  ⟨by nofun, Layered.of_enclosure h rfl⟩

theorem Rooted.openBracket (h : r.Rooted) (hr : r.openBracket = .ok r') : r'.Rooted := by
  unfold InfixReader.openBracket at hr
  split_ifs at hr
  cases hr
  exact ⟨by nofun, h⟩

theorem Rooted.step (h : r.Rooted) {t : Token} (hr : r.step t = .ok r') : r'.Rooted := by
  cases t with
  | atom text | text content => cases hr; exact Layered.of_enclosure h rfl
  | operator symbol => exact h.operator hr
  | openParen => cases hr; exact ⟨by nofun, Layered.of_enclosure h rfl⟩
  | closeParen => exact h.closeParen hr
  | separator => exact h.separator hr
  | openBracket => exact h.openBracket hr
  | closeBracket => exact h.closeBracket hr
  | function name | argCount count | tableAccess => cases hr

theorem Rooted.run_yard (h : r.Rooted) (tokens : List Token) :
    r.yard.run tokens = (r.run tokens).map yard := by
  fun_induction InfixReader.run r tokens with
  | case1 r => rfl
  | case2 r name rest ih =>
    rw [ShuntingYard.run, h.openCall_yard, ih (h.openCall name)]
  | case3 r t rest hcall r' hstep ih =>
    rw [ShuntingYard.run, h.step_yard, hstep]
    · exact ih (h.step hstep)
    · exact hcall
  | case4 r t rest hcall e hstep =>
    rw [ShuntingYard.run, h.step_yard, hstep]
    · rfl
    · exact hcall

theorem Rooted.run (h : r.Rooted) {tokens : List Token} (hr : r.run tokens = .ok r') :
    r'.Rooted := by
  fun_induction InfixReader.run r tokens with
  | case1 r => cases hr; exact h
  | case2 r name rest ih => exact ih (h.openCall name) hr
  | case3 r t rest hcall r' hstep ih => exact ih (h.step hstep) hr
  | case4 r t rest hcall e hstep => cases hr

end InfixReader

theorem ShuntingYard.unwind_operators (output : List Token) (ops : List Operator)
    (rest : List Stacked) :
    unwind output (ops.map .operator ++ rest) = unwind (output ++ operatorTokens ops) rest := by
  induction ops generalizing output with
  | nil => simp [operatorTokens]
  | cons op ops ih => simp [unwind, ih, operatorTokens]

theorem InfixReader.Rooted.finish_yard {r : InfixReader} (h : r.Rooted) :
    r.yard.finish = r.finish := by
  rw [ShuntingYard.finish, yard_stack, ShuntingYard.unwind_operators]
  obtain ⟨output, ⟨enclosure, pending, separators, hasArgs⟩, outer, afterOperand⟩ := r
  cases outer with
  | nil =>
    obtain rfl : enclosure = .whole := h
    rfl
  | cons around outer =>
    cases enclosure with
    | whole => exact absurd rfl h.1
    | _ => rfl

/-- The two stacks read a formula as its stretches do. -/
theorem toPostfix_eq (tokens : List Token) : toPostfix tokens =
    match InfixReader.start.run tokens with
    | .ok r => r.finish
    | .error e => .error e := by
  have rooted : InfixReader.start.Rooted := rfl
  have hrun : ShuntingYard.start.run tokens = (InfixReader.start.run tokens).map InfixReader.yard :=
    rooted.run_yard tokens
  rw [toPostfix, hrun]
  cases hr : InfixReader.start.run tokens with
  | error e => rfl
  | ok r => exact (rooted.run hr).finish_yard

end LiveSheet
