import Mathlib.Tactic.SplitIfs
import LiveSheet.Formula.Eval
import LiveSheet.Proofs.Formula.Flattening

namespace LiveSheet

/-- A tree whose operators and functions have any number of operands. -/
inductive Loose
  | literal (value : Value)
  | cell (ref : CellRef)
  | element (table : CellRef) (row col : Loose)
  | operator (op : Operator) (operands : List Loose)
  | call (function : Function) (args : List Loose)

mutual

def Expr.loose : Expr → Loose
  | .literal v => .literal v
  | .cell ref => .cell ref
  | .element table row col => .element table row.loose col.loose
  | .unary op x => .operator (.unary op) [x.loose]
  | .binary op l r => .operator (.binary op) [l.loose, r.loose]
  | .call f args => .call f (Expr.looseAll args)

def Expr.looseAll : List Expr → List Loose
  | [] => []
  | e :: es => e.loose :: Expr.looseAll es

end

theorem Expr.looseAll_eq (es : List Expr) : looseAll es = es.map loose := by
  induction es with
  | nil => rfl
  | cons e es ih => rw [looseAll, ih, List.map_cons]

/-- The values that an operator reads by their position; none if one of them is missing. -/
def Operator.read? : Operator → List Value → Option (Except ConversionError Value)
  | .binary op, args => do return op.apply (← args[0]?) (← args[1]?)
  | .unary op, args => do return op.apply (← args[0]?)

/-- An operator reads as many values as its arity says, and no more. -/
theorem Operator.read?_isSome_iff {op : Operator} {args : List Value} :
    (op.read? args).isSome ↔ op.arity ≤ args.length := by
  rcases op with op | op
  · rcases args with _ | ⟨v, _ | ⟨w, args⟩⟩ <;> simp [read?, arity]
  · rcases args with _ | ⟨v, args⟩ <;> simp [read?, arity]

/-- No function can be called without arguments. -/
def Function.call? (f : Function) : List Value → Option (Except ConversionError Value)
  | [] => none
  | v :: vs => some (f.apply (v :: vs))

theorem Function.call?_isSome_iff {f : Function} {args : List Value} :
    (f.call? args).isSome ↔ 0 < args.length := by
  cases args <;> simp [call?]

theorem Function.pos_of_accepts {f : Function} {count : Nat}
    (h : f.signature.accepts count = true) : 0 < count := by
  simpa [Signature.accepts, signature, Nat.one_le_iff_ne_zero, Nat.pos_iff_ne_zero] using h

/-- A computation that has a result unless it is stuck. -/
abbrev Attempt := ExceptT FormulaError Option

namespace Attempt

variable {α β : Type}

def settled (x : Except FormulaError α) : Attempt α :=
  ExceptT.mk (some x)

def applied (x : Option (Except ConversionError α)) : Attempt α :=
  ExceptT.mk (x.map converted)

theorem isSome_bind {m : Attempt α} {f : α → Attempt β} (h : m.run.isSome)
    (hf : ∀ a, m.run = some (.ok a) → (f a).run.isSome) : (m >>= f).run.isSome := by
  obtain ⟨x, hx⟩ := Option.isSome_iff_exists.mp h
  rw [ExceptT.run_bind, hx]
  cases x with
  | ok a => exact hf a hx
  | error e => rfl

theorem of_bind_eq_ok {m : Attempt α} {f : α → Attempt β} {b : β}
    (h : (m >>= f).run = some (.ok b)) :
    ∃ a, m.run = some (.ok a) ∧ (f a).run = some (.ok b) := by
  rw [ExceptT.run_bind] at h
  obtain ⟨x, hx, h⟩ := Option.bind_eq_some_iff.mp h
  cases x with
  | ok a => exact ⟨a, hx, h⟩
  | error e => cases h

/-- If the computation is not stuck, this is its result. -/
def Settles (m : Attempt α) (x : Except FormulaError α) : Prop :=
  ∀ y, m.run = some y → y = x

theorem Settles.of_settled (x : Except FormulaError α) : Settles (settled x) x :=
  fun _ h => (Option.some.inj h).symm

theorem Settles.bind {m : Attempt α} {x : Except FormulaError α} {f : α → Attempt β}
    {g : α → Except FormulaError β} (h : m.Settles x) (hf : ∀ a, (f a).Settles (g a)) :
    (m >>= f).Settles (x >>= g) := by
  intro y hy
  rw [ExceptT.run_bind] at hy
  obtain ⟨z, hz, hy⟩ := Option.bind_eq_some_iff.mp hy
  obtain rfl := h z hz
  cases z with
  | ok a => exact hf a y hy
  | error e => exact (Option.some.inj hy).symm

end Attempt

namespace Loose

mutual

/-- The value of a tree, whose operators read their operands by position. -/
def eval (ctx : Context) : Loose → Attempt Value
  | .literal v => .settled (.ok v)
  | .cell ref => .settled (ctx.value ref)
  | .element table row col => do
    let row ← .settled (asIndex (← row.eval ctx))
    let col ← .settled (asIndex (← col.eval ctx))
    .settled (ctx.element table row col)
  | .operator op operands => do
    let vs ← evalAll ctx operands
    .applied (op.read? vs)
  | .call f args => do
    let vs ← evalAll ctx args
    .applied (f.call? vs)

def evalAll (ctx : Context) : List Loose → Attempt (List Value)
  | [] => .settled (.ok [])
  | t :: ts => do
    let v ← t.eval ctx
    let vs ← evalAll ctx ts
    .settled (.ok (v :: vs))

end

/-- Every operator has as many operands as its arity says, and every function a number of
arguments that it accepts. -/
inductive Fits : Loose → Prop
  | literal (v : Value) : Fits (.literal v)
  | cell (ref : CellRef) : Fits (.cell ref)
  | element (table : CellRef) {row col : Loose} (first : Fits row) (second : Fits col) :
    Fits (.element table row col)
  | operator {op : Operator} {operands : List Loose} (count : operands.length = op.arity)
    (parts : ∀ t ∈ operands, Fits t) : Fits (.operator op operands)
  | call {f : Function} {args : List Loose} (count : f.signature.accepts args.length = true)
    (parts : ∀ t ∈ args, Fits t) : Fits (.call f args)

variable {ctx : Context}

/-- Every part of a list gives one value. -/
theorem length_evalAll {ts : List Loose} {vs : List Value}
    (h : (evalAll ctx ts).run = some (.ok vs)) : vs.length = ts.length := by
  induction ts generalizing vs with
  | nil =>
    cases h
    rfl
  | cons t ts ih =>
    obtain ⟨v, -, h⟩ := Attempt.of_bind_eq_ok h
    obtain ⟨vs, hvs, h⟩ := Attempt.of_bind_eq_ok h
    cases h
    rw [List.length_cons, List.length_cons, ih hvs]

theorem isSome_evalAll {ts : List Loose} (parts : ∀ t ∈ ts, (t.eval ctx).run.isSome) :
    (evalAll ctx ts).run.isSome := by
  induction ts with
  | nil => rfl
  | cons t ts ih =>
    apply Attempt.isSome_bind (parts t (by simp))
    intro v _
    apply Attempt.isSome_bind (ih fun u hu => parts u (by simp [hu]))
    intro vs _
    rfl

/-- No part of a tree that fits is ever stuck. -/
theorem Fits.isSome_eval {t : Loose} (h : t.Fits) (ctx : Context) : (t.eval ctx).run.isSome := by
  induction h with
  | literal v => rfl
  | cell ref => rfl
  | element table _ _ hrow hcol =>
    apply Attempt.isSome_bind hrow
    intro v _
    apply Attempt.isSome_bind rfl
    intro i _
    apply Attempt.isSome_bind hcol
    intro w _
    apply Attempt.isSome_bind rfl
    intro j _
    rfl
  | @operator op operands count _ ih =>
    apply Attempt.isSome_bind (isSome_evalAll ih)
    intro vs hvs
    have hlength : vs.length = op.arity := (length_evalAll hvs).trans count
    have hread := Operator.read?_isSome_iff.mpr (Nat.le_of_eq hlength.symm)
    simpa [Attempt.applied] using hread
  | @call f args count _ ih =>
    apply Attempt.isSome_bind (isSome_evalAll ih)
    intro vs hvs
    have hcall : (f.call? vs).isSome := by
      rw [Function.call?_isSome_iff, length_evalAll hvs]
      exact Function.pos_of_accepts count
    simpa [Attempt.applied] using hcall

end Loose

namespace Expr

variable {ctx : Context}

mutual

theorem settles_loose (e : Expr) : (e.loose.eval ctx).Settles (e.eval ctx) := by
  cases e with
  | literal v => exact .of_settled _
  | cell ref => exact .of_settled _
  | element table row col =>
    apply (settles_loose row).bind
    intro v
    apply (Attempt.Settles.of_settled _).bind
    intro i
    apply (settles_loose col).bind
    intro w
    apply (Attempt.Settles.of_settled _).bind
    intro j
    exact .of_settled _
  | unary op x =>
    -- the list of one operand, a step at a time
    simp only [loose, Loose.eval, Loose.evalAll, bind_assoc]
    apply (settles_loose x).bind
    intro v
    exact .of_settled _
  | binary op l r =>
    simp only [loose, Loose.eval, Loose.evalAll, bind_assoc]
    apply (settles_loose l).bind
    intro v
    apply (settles_loose r).bind
    intro w
    exact .of_settled _
  | call f args =>
    apply (settles_looseAll args).bind
    intro vs
    cases vs with
    | nil =>
      -- without arguments the call is stuck, and there is no result to compare
      intro y hy
      cases hy
    | cons v vs => exact .of_settled _

theorem settles_looseAll (es : List Expr) :
    (Loose.evalAll ctx (looseAll es)).Settles (evalAll ctx es) := by
  cases es with
  | nil => exact .of_settled _
  | cons e es =>
    apply (settles_loose e).bind
    intro v
    apply (settles_looseAll es).bind
    intro vs
    exact .of_settled _

end

end Expr

namespace Loose

def popOperands? (stack : List Loose) (count : Nat) : Option (List Loose × List Loose) :=
  if count ≤ stack.length then some ((stack.take count).reverse, stack.drop count) else none

def pushOperator (stack : List Loose) (symbol : String) : Except FormulaError (List Loose) :=
  match Operator.find? symbol with
  | none => .error (.unknownOperator symbol)
  | some op =>
    match popOperands? stack op.arity with
    | some (operands, rest) => .ok (.operator op operands :: rest)
    | none => .error (.missingOperand symbol)

def pushCall (stack : List Loose) (name : String) (count : Nat) :
    Except FormulaError (List Loose) :=
  match Function.find? name with
  | none => .error (.unknownFunction name)
  | some f =>
    if f.signature.accepts count then
      match popOperands? stack count with
      | some (args, rest) => .ok (.call f args :: rest)
      | none => .error (.missingOperand name)
    else .error (.argumentCount f.signature count)

def pushAccess (stack : List Loose) : Except FormulaError (List Loose) :=
  match popOperands? stack 3 with
  | some ([.cell table, row, col], rest) => .ok (.element table row col :: rest)
  | some _ => .error (.malformedAccess .noTableName)
  | none => .error (.malformedAccess .missingOperand)

def buildFrom (resolve : Resolver) (stack : List Loose) :
    List Token → Except FormulaError (List Loose)
  | [] => .ok stack
  | .function name :: .argCount count :: rest => do
    buildFrom resolve (← pushCall stack name count) rest
  | .function name :: _ => .error (.malformed (.noArgumentCount name))
  | .atom s :: rest => do
    let e ← classifyAtom resolve s
    buildFrom resolve (e.loose :: stack) rest
  | .text s :: rest => buildFrom resolve (.literal (.string s) :: stack) rest
  | .operator symbol :: rest => do buildFrom resolve (← pushOperator stack symbol) rest
  | .tableAccess :: rest => do buildFrom resolve (← pushAccess stack) rest
  | t :: _ => .error (.malformed (.notPostfix t))

/-- The builder that takes as many operands off its stack as the table of operators says. -/
def buildTree (resolve : Resolver) (postfixTokens : List Token) : Except FormulaError Loose :=
  match buildFrom resolve [] postfixTokens with
  | .error e => .error e
  | .ok [] => .error (.malformed .emptyFormula)
  | .ok [t] => .ok t
  | .ok _ => .error (.malformed .missingOperator)

section Agreement

variable {resolve : Resolver}

theorem popOperands?_map (stack : List Expr) (count : Nat) :
    popOperands? (stack.map Expr.loose) count =
      (LiveSheet.popOperands? stack count).map fun taken =>
        (taken.1.map Expr.loose, taken.2.map Expr.loose) := by
  unfold popOperands? LiveSheet.popOperands?
  rw [List.length_map]
  split_ifs
  · simp
  · rfl

theorem pushOperator_map (stack : List Expr) (symbol : String) :
    pushOperator (stack.map Expr.loose) symbol =
      (LiveSheet.pushOperator stack symbol).map (List.map Expr.loose) := by
  unfold pushOperator LiveSheet.pushOperator
  rcases Operator.find? symbol with _ | ⟨op | op⟩
  · rfl
  · rcases stack with _ | ⟨r, _ | ⟨l, rest⟩⟩ <;> rfl
  · rcases stack with _ | ⟨x, rest⟩ <;> rfl

theorem pushCall_map (stack : List Expr) (name : String) (count : Nat) :
    pushCall (stack.map Expr.loose) name count =
      (LiveSheet.pushCall stack name count).map (List.map Expr.loose) := by
  unfold pushCall LiveSheet.pushCall
  cases Function.find? name with
  | none => rfl
  | some f =>
    dsimp only
    rw [popOperands?_map]
    split_ifs
    · cases LiveSheet.popOperands? stack count with
      | none => rfl
      | some taken => simp [Except.map, Expr.loose, Expr.looseAll_eq]
    · rfl

theorem pushAccess_map (stack : List Expr) :
    pushAccess (stack.map Expr.loose) =
      (LiveSheet.pushAccess stack).map (List.map Expr.loose) := by
  rcases stack with _ | ⟨col, _ | ⟨row, _ | ⟨table, rest⟩⟩⟩
  · rfl
  · rfl
  · rfl
  · cases table <;> rfl

theorem buildFrom_map (stack : List Expr) (tokens : List Token) :
    buildFrom resolve (stack.map Expr.loose) tokens =
      (LiveSheet.buildFrom resolve stack tokens).map (List.map Expr.loose) := by
  fun_induction LiveSheet.buildFrom resolve stack tokens with
  | case1 stack => rfl
  | case2 stack name count rest ih =>
    rw [buildFrom, pushCall_map]
    cases hp : LiveSheet.pushCall stack name count with
    | error e => rfl
    | ok stack₁ => exact ih stack₁
  | case3 stack name rest hcall =>
    rw [buildFrom]
    · rfl
    · exact hcall
  | case4 stack s rest ih =>
    rw [buildFrom]
    cases classifyAtom resolve s with
    | error e => rfl
    | ok e => exact ih e
  | case5 stack s rest ih => exact ih
  | case6 stack symbol rest ih =>
    rw [buildFrom, pushOperator_map]
    cases LiveSheet.pushOperator stack symbol with
    | error e => rfl
    | ok stack₁ => exact ih stack₁
  | case7 stack rest ih =>
    rw [buildFrom, pushAccess_map]
    cases LiveSheet.pushAccess stack with
    | error e => rfl
    | ok stack₁ => exact ih stack₁
  | case8 stack t rest hcall hfunction hatom htext hoperator haccess =>
    rw [buildFrom]
    · rfl
    · exact hcall
    · exact hfunction
    · exact hatom
    · exact htext
    · exact hoperator
    · exact haccess

/-- Both builders make the same trees. -/
theorem buildTree_eq (tokens : List Token) :
    buildTree resolve tokens = (LiveSheet.buildTree resolve tokens).map Expr.loose := by
  have hfrom : buildFrom resolve [] tokens =
      (LiveSheet.buildFrom resolve [] tokens).map (List.map Expr.loose) := buildFrom_map [] tokens
  unfold buildTree LiveSheet.buildTree
  rw [hfrom]
  rcases LiveSheet.buildFrom resolve [] tokens with e | (_ | ⟨e, _ | ⟨e', es⟩⟩) <;> rfl

end Agreement

section Fitting

variable {resolve : Resolver} {stack stack' : List Loose}

theorem popOperands?_eq_some {count : Nat} {operands rest : List Loose}
    (h : popOperands? stack count = some (operands, rest)) :
    operands.length = count ∧ operands ⊆ stack ∧ rest ⊆ stack := by
  unfold popOperands? at h
  split_ifs at h with hcount
  cases h
  refine ⟨?_, fun t ht => ?_, fun t ht => List.mem_of_mem_drop ht⟩
  · rw [List.length_reverse, List.length_take, Nat.min_eq_left hcount]
  · exact List.mem_of_mem_take (List.mem_reverse.mp ht)

theorem fits_pushOperator (fits : ∀ t ∈ stack, t.Fits) {symbol : String}
    (h : pushOperator stack symbol = .ok stack') : ∀ t ∈ stack', t.Fits := by
  unfold pushOperator at h
  split at h
  next => cases h
  next op _ =>
    split at h <;> cases h
    next operands rest hpop =>
      obtain ⟨hcount, hoperands, hrest⟩ := popOperands?_eq_some hpop
      exact List.forall_mem_cons.mpr
        ⟨.operator hcount fun t ht => fits t (hoperands ht), fun t ht => fits t (hrest ht)⟩

theorem fits_pushCall (fits : ∀ t ∈ stack, t.Fits) {name : String} {count : Nat}
    (h : pushCall stack name count = .ok stack') : ∀ t ∈ stack', t.Fits := by
  unfold pushCall at h
  split at h
  next => cases h
  next f _ =>
    split_ifs at h with haccepts
    split at h <;> cases h
    next args rest hpop =>
      obtain ⟨rfl, hargs, hrest⟩ := popOperands?_eq_some hpop
      exact List.forall_mem_cons.mpr
        ⟨.call haccepts fun t ht => fits t (hargs ht), fun t ht => fits t (hrest ht)⟩

theorem fits_pushAccess (fits : ∀ t ∈ stack, t.Fits) (h : pushAccess stack = .ok stack') :
    ∀ t ∈ stack', t.Fits := by
  unfold pushAccess at h
  split at h <;> cases h
  next table row col rest hpop =>
    obtain ⟨-, hparts, hrest⟩ := popOperands?_eq_some hpop
    have hrow : row.Fits := fits row (hparts (by simp))
    have hcol : col.Fits := fits col (hparts (by simp))
    exact List.forall_mem_cons.mpr ⟨.element table hrow hcol, fun t ht => fits t (hrest ht)⟩

theorem fits_classifyAtom {s : String} {e : Expr} (h : classifyAtom resolve s = .ok e) :
    e.loose.Fits := by
  cases classifyAtom_eq_ok_iff.mp h with
  | truth | falsehood | number => exact .literal _
  | name => exact .cell _

/-- Every token leaves trees on the stack that fit. By induction on the tokens. -/
theorem fits_buildFrom (fits : ∀ t ∈ stack, t.Fits) {tokens : List Token}
    (h : buildFrom resolve stack tokens = .ok stack') : ∀ t ∈ stack', t.Fits := by
  fun_induction buildFrom resolve stack tokens with
  | case1 stack =>
    cases h
    exact fits
  | case2 stack name count rest ih =>
    obtain ⟨stack₁, hp, h⟩ := Except.of_bind_eq_ok h
    exact ih stack₁ (fits_pushCall fits hp) h
  | case3 => cases h
  | case4 stack s rest ih =>
    obtain ⟨e, he, h⟩ := Except.of_bind_eq_ok h
    exact ih e (List.forall_mem_cons.mpr ⟨fits_classifyAtom he, fits⟩) h
  | case5 stack s rest ih => exact ih (List.forall_mem_cons.mpr ⟨.literal _, fits⟩) h
  | case6 stack symbol rest ih =>
    obtain ⟨stack₁, hp, h⟩ := Except.of_bind_eq_ok h
    exact ih stack₁ (fits_pushOperator fits hp) h
  | case7 stack rest ih =>
    obtain ⟨stack₁, hp, h⟩ := Except.of_bind_eq_ok h
    exact ih stack₁ (fits_pushAccess fits hp) h
  | case8 => cases h

theorem fits_buildTree {tokens : List Token} {t : Loose} (h : buildTree resolve tokens = .ok t) :
    t.Fits := by
  unfold buildTree at h
  split at h <;> cases h
  next hfrom => exact fits_buildFrom (by simp) hfrom t (by simp)

end Fitting

end Loose

/-- A tree that is built never lacks an operand. Taken off the stack as the tables say, its parts
fit them; and where it reads its operands by position, it comes to its value in any context. -/
theorem buildTree_never_stuck {resolve : Resolver} {tokens : List Token} {e : Expr}
    (h : buildTree resolve tokens = .ok e) :
    Loose.buildTree resolve tokens = .ok e.loose ∧ e.loose.Fits ∧
      ∀ ctx, (e.loose.eval ctx).run = some (e.eval ctx) := by
  have hloose : Loose.buildTree resolve tokens = .ok e.loose := by
    rw [Loose.buildTree_eq, h]
    rfl
  have hfits := Loose.fits_buildTree hloose
  refine ⟨hloose, hfits, fun ctx => ?_⟩
  obtain ⟨x, hx⟩ := Option.isSome_iff_exists.mp (hfits.isSome_eval ctx)
  rw [hx, e.settles_loose x hx]

theorem buildTree_never_stuck_nested :
    let resolve : Resolver := fun name => if name = "a" then some ⟨1⟩ else none
    let tokens := [.atom "a", .text "2", .operator "+", .operator "u-", .text "3", .function "max",
      .argCount 2]
    let e : Expr := .call .max
      [.unary .minus (.binary .add (.cell ⟨⟨1⟩, "a"⟩) (.literal (.string "2"))),
        .literal (.string "3")]
    buildTree resolve tokens = .ok e ∧ Loose.buildTree resolve tokens = .ok e.loose ∧
      e.loose.Fits ∧ ∀ ctx, (e.loose.eval ctx).run = some (e.eval ctx) :=
  ⟨by rfl, buildTree_never_stuck (by rfl)⟩

end LiveSheet
