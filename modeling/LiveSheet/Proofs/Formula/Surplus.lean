import Mathlib.Algebra.Ring.Int.Defs
import LiveSheet.Proofs.Formula.Assembly
import LiveSheet.Proofs.Formula.Placement
import LiveSheet.Proofs.Formula.Reading

namespace LiveSheet

/-- By how much an operator, a function or an operand lengthens the stack of the builder; the
argument count of a function is a token of its own. -/
def Token.gain : Token → Int
  | .atom _ | .text _ | .function _ => 1
  | .operator symbol =>
    match Operator.find? symbol with
    | some op => 1 - op.arity
    | none => 0
  | .argCount count => -count
  | .tableAccess => -2
  | _ => 0

def gains (ts : List Token) : Int :=
  (ts.map Token.gain).sum

@[simp]
theorem gains_nil : gains [] = 0 := rfl

@[simp]
theorem gains_cons (t : Token) (ts : List Token) : gains (t :: ts) = t.gain + gains ts := by
  simp [gains]

@[simp]
theorem gains_append (ts us : List Token) : gains (ts ++ us) = gains ts + gains us := by
  simp [gains]

theorem Token.gain_operator (op : Operator) : gain (.operator op.symbol) = 1 - op.arity := by
  simp only [gain, Operator.find?_symbol]

section Building

variable {resolve : Resolver} {stack stack' : List Expr}

theorem length_pushOperator {symbol : String} (h : pushOperator stack symbol = .ok stack') :
    (stack'.length : Int) = stack.length + Token.gain (.operator symbol) := by
  unfold pushOperator at h
  split at h <;> cases h
  next op r l rest hop =>
    simp only [Token.gain, hop, Operator.arity, List.length_cons]
    omega
  next op x rest hop =>
    simp only [Token.gain, hop, Operator.arity, List.length_cons]
    omega

theorem length_pushCall {name : String} {count : Nat}
    (h : pushCall stack name count = .ok stack') :
    (stack'.length : Int) = stack.length + 1 - count := by
  unfold pushCall popOperands? at h
  split at h
  next => cases h
  next =>
    split_ifs at h with ha hc
    cases h
    simp only [List.length_cons, List.length_drop]
    omega

theorem length_pushAccess (h : pushAccess stack = .ok stack') :
    (stack'.length : Int) = stack.length - 2 := by
  unfold pushAccess at h
  split at h <;> cases h
  simp only [List.length_cons]
  omega

/-- What the builder has on its stack in the end is settled by the tokens alone. -/
theorem length_buildFrom {tokens : List Token} (h : buildFrom resolve stack tokens = .ok stack') :
    (stack'.length : Int) = stack.length + gains tokens := by
  fun_induction buildFrom resolve stack tokens with
  | case1 stack =>
    cases h
    simp
  | case2 stack name count rest ih =>
    obtain ⟨stack₁, hp, h⟩ := Except.of_bind_eq_ok h
    rw [ih stack₁ h, length_pushCall hp]
    simp only [gains_cons, Token.gain]
    omega
  | case3 => cases h
  | case4 stack s rest ih =>
    obtain ⟨e, -, h⟩ := Except.of_bind_eq_ok h
    rw [ih e h]
    simp only [List.length_cons, gains_cons, Token.gain]
    omega
  | case5 stack s rest ih =>
    rw [ih h]
    simp only [List.length_cons, gains_cons, Token.gain]
    omega
  | case6 stack symbol rest ih =>
    obtain ⟨stack₁, hp, h⟩ := Except.of_bind_eq_ok h
    rw [ih stack₁ h, length_pushOperator hp, gains_cons]
    omega
  | case7 stack rest ih =>
    obtain ⟨stack₁, hp, h⟩ := Except.of_bind_eq_ok h
    rw [ih stack₁ h, length_pushAccess hp]
    simp only [gains_cons, Token.gain]
    omega
  | case8 => cases h

theorem gains_of_buildTree {tokens : List Token} {e : Expr}
    (h : buildTree resolve tokens = .ok e) : gains tokens = 1 := by
  have hl := length_buildFrom (buildFrom_of_buildTree h)
  simp only [List.length_cons, List.length_nil] at hl
  omega

end Building

theorem operatorTokens_cons (op : Operator) (ops : List Operator) :
    operatorTokens (op :: ops) = .operator op.symbol :: operatorTokens ops := rfl

/-- The operators that come out before another one and those that go on waiting. -/
theorem operatorTokens_split (ops : List Operator) (op : Operator) :
    operatorTokens (ops.takeWhile (·.popsBefore op)) ++
      operatorTokens (ops.dropWhile (·.popsBefore op)) = operatorTokens ops := by
  rw [operatorTokens, operatorTokens, ← List.map_append, List.takeWhile_append_dropWhile]
  rfl

/-- The gain of the operators that wait in a stretch. -/
def Scope.held (s : Scope) : Int :=
  gains (operatorTokens s.pending)

/-- Only the outermost stretch is the whole formula, only arguments are separated, and a stretch
around another is not empty. -/
def Nested (s : Scope) : List Scope → Prop
  | [] => s.enclosure = .whole ∧ s.separators = 0
  | around :: outer => s.enclosure ≠ .whole ∧ (s.enclosure = .group → s.separators = 0) ∧
    around.hasArgs = true ∧ Nested around outer

theorem Nested.outer_eq_nil {s : Scope} {outer : List Scope} (h : Nested s outer)
    (whole : s.enclosure = .whole) : outer = [] := by
  cases outer with
  | nil => rfl
  | cons around outer => exact absurd whole h.1

theorem Nested.exists_around {s : Scope} {outer : List Scope} (h : Nested s outer)
    (notWhole : s.enclosure ≠ .whole) : ∃ around rest, outer = around :: rest := by
  cases outer with
  | nil => exact absurd h.1 notWhole
  | cons around rest => exact ⟨around, rest, rfl⟩

/-- How many operands are complete in all stretches together, if none stands beside another. A
table is one of the stretch around its indices. -/
def operandsIn (complete : Bool) (s : Scope) : List Scope → Int
  | [] => s.separators + complete.toNat
  | around :: outer =>
    s.separators + complete.toNat + operandsIn (decide (s.enclosure = .access)) around outer

namespace InfixReader

structure Tidy (r : InfixReader) : Prop where
  nested : Nested r.scope r.outer
  bare : r.scope.hasArgs = false → r.scope.separators = 0 ∧ r.afterOperand = false

/-- By how much the builder's stack gets longer than by the operands there are to be. -/
def surplus (r : InfixReader) : Int :=
  gains r.output + r.scope.held + (r.outer.map Scope.held).sum -
    operandsIn r.afterOperand r.scope r.outer

/-- A token leaves the reader tidy, behind an operand or not, and adds to the surplus. -/
structure Moves (r r' : InfixReader) (behind : Bool) (extra : Nat) : Prop where
  tidy : r'.Tidy
  afterOperand : r'.afterOperand = behind
  surplus : r'.surplus = r.surplus + extra

theorem start_tidy : start.Tidy :=
  ⟨⟨rfl, rfl⟩, fun _ => ⟨rfl, rfl⟩⟩

theorem start_surplus : start.surplus = 0 := rfl

variable {r r' : InfixReader}

theorem nested_withArgs {s : Scope} {outer : List Scope} (h : Nested s outer) :
    Nested s.withArgs outer := by
  cases outer <;> exact h

theorem operandsIn_withArgs (complete : Bool) (s : Scope) (outer : List Scope) :
    operandsIn complete s.withArgs outer = operandsIn complete s outer := by
  cases outer <;> rfl

theorem operandsIn_eq (complete : Bool) (s : Scope) (outer : List Scope) :
    operandsIn complete s outer = operandsIn false s outer + complete.toNat := by
  cases outer <;> simp only [operandsIn, Bool.toNat_false] <;> omega

theorem Tidy.operand (h : r.Tidy) {t : Token} (ht : t.gain = 1) :
    r.Moves (r.operand t) true r.afterOperand.toNat := by
  refine ⟨⟨nested_withArgs h.nested, fun hf => nomatch hf⟩, rfl, ?_⟩
  have hbefore := operandsIn_eq r.afterOperand r.scope r.outer
  have hbehind := operandsIn_eq true r.scope r.outer
  simp only [surplus, InfixReader.operand, gains_append, gains_cons, gains_nil, ht,
    operandsIn_withArgs, hbefore, hbehind, Bool.toNat_true]
  change _ + _ + r.scope.held + _ - _ = _
  omega

theorem operator_ok {symbol : String} (h : r.operator symbol = .ok r') : ∃ op,
    Operator.find? (if r.afterOperand then symbol
      else (Operator.prefixForm? symbol).getD symbol) = some op ∧
    r' = { r with
      output := r.output ++ operatorTokens (r.scope.pending.takeWhile (·.popsBefore op))
      scope := { r.scope with
        pending := op :: r.scope.pending.dropWhile (·.popsBefore op), hasArgs := true }
      afterOperand := false } := by
  unfold InfixReader.operator at h
  dsimp only at h
  split at h
  next => cases h
  next op hop =>
    cases h
    exact ⟨op, hop, rfl⟩

/-- Operators that come out only move, and the new one takes the place of operands. -/
theorem Tidy.operator (h : r.Tidy) {symbol : String}
    (fit : (if r.afterOperand then standsBetween symbol else standsBefore symbol) = true)
    (hr : r.operator symbol = .ok r') : r.Moves r' false 0 := by
  obtain ⟨op, hop, rfl⟩ := operator_ok hr
  have harity : op.arity = 1 + r.afterOperand.toNat := by
    cases hb : r.afterOperand with
    | true =>
      rw [hb] at fit hop
      obtain ⟨op', rfl⟩ := standsBetween_iff.mp fit
      have hfind : Operator.find? op'.symbol = some (.binary op') :=
        Operator.find?_symbol (.binary op')
      obtain rfl := Option.some.inj (hfind.symm.trans hop)
      rfl
    | false =>
      rw [hb] at fit hop
      obtain ⟨op', rfl⟩ := standsBefore_iff.mp fit
      have hmeant : Operator.prefixForm? op'.written = some op'.symbol :=
        Operator.prefixForm?_eq_some_iff.mpr ⟨op', rfl, rfl⟩
      have hfind : Operator.find? op'.symbol = some (.unary op') :=
        Operator.find?_symbol (.unary op')
      simp only [Bool.false_eq_true, ↓reduceIte, hmeant, Option.getD_some, hfind] at hop
      obtain rfl := Option.some.inj hop
      rfl
  have hgains := congrArg gains (operatorTokens_split r.scope.pending op)
  rw [gains_append] at hgains
  refine ⟨⟨?_, fun hf => (by cases hf)⟩, rfl, ?_⟩
  · have hn := h.nested
    cases ho : r.outer <;> rw [ho] at hn <;> exact hn
  · have hbefore := operandsIn_eq r.afterOperand r.scope r.outer
    have hsame : operandsIn false { r.scope with
        pending := op :: r.scope.pending.dropWhile (·.popsBefore op), hasArgs := true } r.outer =
          operandsIn false r.scope r.outer := by
      cases r.outer <;> rfl
    simp only [surplus, gains_append, hsame, hbefore, Scope.held, operatorTokens_cons, gains_cons,
      Token.gain_operator, harity, ← hgains]
    omega

/-- A stretch opens where an operand is expected, or beside one. -/
theorem Tidy.opened (h : r.Tidy) {enclosure : Enclosure} (he : enclosure ≠ .whole)
    (he' : enclosure ≠ .access) :
    r.Moves { r with scope := .opened enclosure, outer := r.scope.withArgs :: r.outer,
                     afterOperand := false } false r.afterOperand.toNat := by
  refine ⟨⟨⟨he, fun _ => rfl, rfl, nested_withArgs h.nested⟩, fun _ => ⟨rfl, rfl⟩⟩, rfl, ?_⟩
  have hbefore := operandsIn_eq r.afterOperand r.scope r.outer
  have hheld : r.scope.withArgs.held = r.scope.held := rfl
  have hopened : (Scope.opened enclosure).held = 0 := rfl
  have hoperands : operandsIn false (.opened enclosure) (r.scope.withArgs :: r.outer) =
      operandsIn false r.scope r.outer := by
    simp [operandsIn, Scope.opened, operandsIn_withArgs, he']
  simp only [surplus, List.map_cons, List.sum_cons, hheld, hopened, hoperands, hbefore]
  omega

/-- Indices belong to the operand before them. -/
theorem Tidy.openBracket (h : r.Tidy) (hr : r.openBracket = .ok r') : r.Moves r' false 0 := by
  unfold InfixReader.openBracket at hr
  split at hr
  next hafter =>
    cases hr
    have hargs : r.scope.hasArgs = true := by
      by_contra hf
      rw [(h.bare (by simpa using hf)).2] at hafter
      cases hafter
    refine ⟨⟨⟨by simp [Scope.opened], fun _ => rfl, hargs, h.nested⟩, fun _ => ⟨rfl, rfl⟩⟩,
      rfl, ?_⟩
    have hopened : (Scope.opened .access).held = 0 := rfl
    have hoperands : operandsIn false (.opened .access) (r.scope :: r.outer) =
        operandsIn true r.scope r.outer := by
      simp [operandsIn, Scope.opened]
    simp only [surplus, List.map_cons, List.sum_cons, hopened, hoperands, hafter]
    omega
  next => cases hr

theorem Tidy.separator (h : r.Tidy) (hr : r.separator = .ok r') : r.Moves r' false 0 := by
  unfold InfixReader.separator at hr
  split at hr
  next => cases hr
  next hafter =>
    have hafter : r.afterOperand = true := by simpa using hafter
    have hmoves : r.scope.enclosure ≠ .whole → r.scope.enclosure ≠ .group →
        r.Moves { r.drain with
          scope := { r.drain.scope with separators := r.drain.scope.separators + 1 },
          afterOperand := false } false 0 := by
      intro hwhole hgroup
      have hn := h.nested
      obtain ⟨around, outer, ho⟩ := hn.exists_around hwhole
      rw [ho] at hn
      refine ⟨⟨?_, fun hf => ?_⟩, rfl, ?_⟩
      · simp only [drain, ho]
        exact ⟨hwhole, fun hg => absurd hg hgroup, hn.2.2⟩
      · have hcontra := (h.bare hf).2
        rw [hafter] at hcontra
        cases hcontra
      · simp only [surplus, drain, ho, operandsIn, gains_append, Scope.held, operatorTokens,
          List.map_nil, gains_nil, hafter, Bool.toNat_true, Bool.toNat_false]
        omega
    split at hr
    next henclosure =>
      cases hr
      exact hmoves (by simp [henclosure]) (by simp [henclosure])
    next henclosure =>
      cases hr
      exact hmoves (by simp [henclosure]) (by simp [henclosure])
    next => cases hr
    next => cases hr

/-- A stretch that is left has become one operand, or part of the one before it. -/
theorem Tidy.leave (h : r.Tidy) (hwhole : r.scope.enclosure ≠ .whole) {tokens : List Token}
    (balanced : gains tokens + r.scope.separators + r.afterOperand.toNat +
      (decide (r.scope.enclosure = .access)).toNat = 1) :
    r.Moves (r.leave tokens) true 0 := by
  have hn := h.nested
  obtain ⟨around, outer, ho⟩ := hn.exists_around hwhole
  rw [ho] at hn
  obtain ⟨-, -, hargs, hnested⟩ := hn
  simp only [InfixReader.leave, ho]
  refine ⟨⟨hnested, fun hf => ?_⟩, rfl, ?_⟩
  · rw [hargs] at hf
    cases hf
  · have hbehind := operandsIn_eq true around outer
    have hbefore := operandsIn_eq (decide (r.scope.enclosure = .access)) around outer
    simp only [surplus, drain, ho, operandsIn, gains_append, Scope.held, List.map_cons,
      List.sum_cons, hbehind, hbefore, Bool.toNat_true]
    omega

theorem Tidy.closeParen (h : r.Tidy) (hr : r.closeParen = .ok r') : r.Moves r' true 0 := by
  unfold InfixReader.closeParen at hr
  dsimp only at hr
  split at hr
  next => cases hr
  next => cases hr
  next henclosure =>
    split_ifs at hr with hunfinished hargs
    cases hr
    have hafter : r.afterOperand = true := by simpa [hargs] using hunfinished
    have hseparators : r.scope.separators = 0 := by
      have hn := h.nested
      cases ho : r.outer with
      | nil =>
        rw [ho] at hn
        exact hn.2
      | cons around outer =>
        rw [ho] at hn
        exact hn.2.1 henclosure
    apply h.leave (by simp [henclosure])
    simp [hafter, hseparators, henclosure]
  next name henclosure =>
    split_ifs at hr with hunfinished
    cases hr
    apply h.leave (by simp [henclosure])
    have hgain : gains [.function name, .argCount r.scope.argCount] = 1 - r.scope.argCount := by
      simp [Token.gain, Int.sub_eq_add_neg]
    rw [hgain]
    cases hargs : r.scope.hasArgs with
    | true =>
      have hafter : r.afterOperand = true := by simpa [hargs] using hunfinished
      simp only [Scope.argCount, hargs, hafter, henclosure, Bool.toNat_true, ↓reduceIte,
        reduceCtorEq, decide_false, Bool.toNat_false]
      omega
    | false =>
      obtain ⟨hseparators, hafter⟩ := h.bare hargs
      simp [Scope.argCount, hargs, hafter, hseparators, henclosure]

theorem Tidy.closeBracket (h : r.Tidy) (hr : r.closeBracket = .ok r') : r.Moves r' true 0 := by
  unfold InfixReader.closeBracket at hr
  split at hr
  next henclosure =>
    split_ifs at hr with hclosed
    cases hr
    simp only [Bool.and_eq_true, decide_eq_true_eq] at hclosed
    obtain ⟨hcount, hafter⟩ := hclosed
    have hseparators : r.scope.separators = 1 := by
      unfold Scope.argCount at hcount
      split at hcount <;> omega
    apply h.leave (by simp [henclosure])
    simp [Token.gain, hafter, hseparators, henclosure]
  next => cases hr

/-- A token that does not begin an operand beside another adds nothing. -/
theorem Tidy.step (h : r.Tidy) {t : Token}
    (fit : ∀ symbol, t = .operator symbol →
      (if r.afterOperand then standsBetween symbol else standsBefore symbol) = true)
    (hr : r.step t = .ok r') :
    r.Moves r' t.endsOperand (r.afterOperand && t.startsOperand).toNat := by
  cases t with
  | atom s =>
    cases hr
    simpa [Token.startsOperand, Token.endsOperand] using h.operand (t := .atom s) rfl
  | text s =>
    cases hr
    simpa [Token.startsOperand, Token.endsOperand] using h.operand (t := .text s) rfl
  | operator symbol =>
    simpa [Token.startsOperand, Token.endsOperand] using h.operator (fit symbol rfl) hr
  | openParen =>
    cases hr
    have hopened : r.Moves r.openGroup false r.afterOperand.toNat := h.opened (by simp) (by simp)
    simpa [Token.startsOperand, Token.endsOperand] using hopened
  | closeParen => simpa [Token.startsOperand, Token.endsOperand] using h.closeParen hr
  | separator => simpa [Token.startsOperand, Token.endsOperand] using h.separator hr
  | openBracket => simpa [Token.startsOperand, Token.endsOperand] using h.openBracket hr
  | closeBracket => simpa [Token.startsOperand, Token.endsOperand] using h.closeBracket hr
  | function name => cases hr
  | argCount count => cases hr
  | tableAccess => cases hr

/-- In the stretch of the whole formula, the last token has completed an operand. -/
def Complete (r : InfixReader) : Prop :=
  r.scope.enclosure = .whole → r.afterOperand = true

theorem Moves.complete {behind : Bool} {extra : Nat} {t : Token} (h : r.Moves r' behind extra)
    (hr : r.step t = .ok r') (operand : ∀ symbol, t ≠ .operator symbol)
    (hb : behind = t.endsOperand) : r'.Complete := by
  intro hwhole
  rw [h.afterOperand, hb]
  cases t with
  | atom | text | closeParen | closeBracket => rfl
  | operator symbol => exact absurd rfl (operand symbol)
  | openParen =>
    cases hr
    cases hwhole
  | openBracket =>
    simp only [step, InfixReader.openBracket] at hr
    split at hr <;> cases hr
    cases hwhole
  | separator =>
    simp only [step, InfixReader.separator] at hr
    split at hr
    next => cases hr
    next =>
      split at hr <;> cases hr
      all_goals
        next henclosure =>
          change r.scope.enclosure = .whole at hwhole
          rw [henclosure] at hwhole
          cases hwhole
  | function | argCount | tableAccess => cases hr

theorem Tidy.run (h : r.Tidy) {ts : List Token} (fit : operatorsFit r.afterOperand ts = true)
    (hr : r.run ts = .ok r') : r'.Tidy ∧
      r'.surplus = r.surplus + sideBySide r.afterOperand ts ∧ (ts ≠ [] → r'.Complete) := by
  fun_induction InfixReader.run r ts with
  | case1 r =>
    cases hr
    exact ⟨h, by simp [sideBySide], fun hne => absurd rfl hne⟩
  | case2 r name rest ih =>
    have hopened : r.Moves (r.openCall name) false r.afterOperand.toNat :=
      h.opened (by simp) (by simp)
    obtain ⟨htidy, hsurplus, hcomplete⟩ := ih hopened.tidy fit hr
    refine ⟨htidy, ?_, fun _ => ?_⟩
    · have hmore : sideBySide (r.openCall name).afterOperand rest = sideBySide false rest := rfl
      rw [hsurplus, hopened.surplus, hmore, sideBySide]
      push_cast
      omega
    · by_cases hne : rest = []
      · subst hne
        cases hr
        intro hwhole
        cases hwhole
      · exact hcomplete hne
  | case3 r t rest hcall r₁ hstep ih =>
    have hfit := operatorsFit_cons_iff.mp fit
    have hmoves := h.step (fun symbol ht => (hfit.1 symbol ht).1) hstep
    rw [← hmoves.afterOperand] at hfit
    obtain ⟨htidy, hsurplus, hcomplete⟩ := ih hmoves.tidy hfit.2 hr
    refine ⟨htidy, ?_, fun _ => ?_⟩
    · rw [hsurplus, hmoves.surplus, hmoves.afterOperand,
        sideBySide_cons fun s rest' ht hrest => hcall s rest' ht hrest]
      push_cast
      omega
    · by_cases hne : rest = []
      · subst hne
        cases hr
        exact hmoves.complete hstep (fun symbol ht => (hfit.1 symbol ht).2 rfl) rfl
      · exact hcomplete hne
  | case4 => cases hr

end InfixReader

/-- Tokens whose operators fit and that build a tree have no operands side by side. -/
theorem sideBySide_eq_zero {resolve : Resolver} {ts output : List Token} {e : Expr}
    (fit : operatorsFit false ts = true) (hp : toPostfix ts = .ok output)
    (hb : buildTree resolve output = .ok e) : sideBySide false ts = 0 := by
  rw [toPostfix_eq] at hp
  split at hp
  next r hr =>
    unfold InfixReader.finish at hp
    split at hp <;> cases hp
    next hwhole =>
    obtain ⟨htidy, hsurplus, hcomplete⟩ := InfixReader.start_tidy.run fit hr
    have hgains := gains_of_buildTree hb
    have houter : r.outer = [] := htidy.nested.outer_eq_nil hwhole
    have hseparators : r.scope.separators = 0 := by
      have hn := htidy.nested
      rw [houter] at hn
      exact hn.2
    have hne : ts ≠ [] := by
      rintro rfl
      cases hr
      cases hgains
    have hafter := hcomplete hne hwhole
    rw [InfixReader.start_surplus, Int.zero_add, InfixReader.surplus, houter] at hsurplus
    simp only [operandsIn, hseparators, hafter, Scope.held, List.map_nil, List.sum_nil,
      Bool.toNat_true] at hsurplus
    simp only [InfixReader.drain, gains_append] at hgains
    have hstart : InfixReader.start.afterOperand = false := rfl
    rw [hstart] at hsurplus
    omega
  next => cases hp

end LiveSheet
