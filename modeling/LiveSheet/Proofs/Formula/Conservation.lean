import Mathlib.Data.List.Forall2
import LiveSheet.Proofs.Formula.Surplus

namespace LiveSheet

/-- Tokens in postfix order: operands, known operators, functions with their argument count right
behind them, and table accesses. -/
inductive InPostfix : List Token → Prop
  | nil : InPostfix []
  | atom (s : String) {rest : List Token} (more : InPostfix rest) : InPostfix (.atom s :: rest)
  | text (s : String) {rest : List Token} (more : InPostfix rest) : InPostfix (.text s :: rest)
  | operator {symbol : String} {op : Operator} {rest : List Token}
    (known : Operator.find? symbol = some op) (more : InPostfix rest) :
    InPostfix (.operator symbol :: rest)
  | call (name : String) (count : Nat) {rest : List Token} (more : InPostfix rest) :
    InPostfix (.function name :: .argCount count :: rest)
  | access {rest : List Token} (more : InPostfix rest) : InPostfix (.tableAccess :: rest)

theorem InPostfix.append {ts us : List Token} (h : InPostfix ts) (h' : InPostfix us) :
    InPostfix (ts ++ us) := by
  induction h with
  | nil => exact h'
  | atom s _ ih => exact .atom s ih
  | text s _ ih => exact .text s ih
  | operator known _ ih => exact .operator known ih
  | call name count _ ih => exact .call name count ih
  | access _ ih => exact .access ih

theorem InPostfix.operators (ops : List Operator) : InPostfix (operatorTokens ops) := by
  induction ops with
  | nil => exact .nil
  | cons op ops ih => exact .operator (Operator.find?_symbol op) ih

def Token.isOperand : Token → Bool
  | .atom _ | .text _ => true
  | _ => false

def Token.isArgCount : Token → Bool
  | .argCount _ => true
  | _ => false

def Token.symbol? : Token → Option String
  | .operator symbol => some symbol
  | _ => none

def Token.function? : Token → Option String
  | .function name => some name
  | _ => none

/-- The texts of infix tokens, and their atoms that are no names of calls. -/
def operandsOf : List Token → List Token
  | [] => []
  | .atom _ :: .openParen :: rest => operandsOf rest
  | t :: rest => if t.isOperand then t :: operandsOf rest else operandsOf rest

/-- The atoms of infix tokens right before an opening parenthesis. -/
def callNames : List Token → List String
  | [] => []
  | .atom name :: .openParen :: rest => name :: callNames rest
  | _ :: rest => callNames rest

/-- An operator may be meant as it is written, or stand before its operand. -/
def MayMean (symbol meant : String) : Prop :=
  meant = symbol ∨ Operator.prefixForm? symbol = some meant

/-- What one infix token comes to in postfix order. -/
inductive Token.Yields : Token → List Token → Prop
  | atom (s : String) : Yields (.atom s) [.atom s]
  | text (s : String) : Yields (.text s) [.text s]
  | operator {symbol meant : String} (h : MayMean symbol meant) :
    Yields (.operator symbol) [.operator meant]
  | openParen : Yields .openParen []
  | closeParen : Yields .closeParen []
  | separator : Yields .separator []
  | openBracket : Yields .openBracket []
  | closeBracket : Yields .closeBracket [.tableAccess]

/-- What infix tokens come to in postfix order, as they are read, without the argument counts. -/
inductive Yield : List Token → List Token → Prop
  | nil : Yield [] []
  | call (name : String) {ts us : List Token} (rest : Yield ts us) :
    Yield (.atom name :: .openParen :: ts) (.function name :: us)
  | cons {t : Token} {ts us vs : List Token} (token : t.Yields vs)
    (single : ∀ s more, t = .atom s → ts ≠ .openParen :: more) (rest : Yield ts us) :
    Yield (t :: ts) (vs ++ us)

namespace Yield

variable {t : Token} {ts us : List Token}

theorem operandsOf_cons (single : ∀ s more, t = .atom s → ts ≠ .openParen :: more) :
    operandsOf (t :: ts) = [t].filter Token.isOperand ++ operandsOf ts := by
  rw [operandsOf]
  · cases h : t.isOperand <;> simp [h]
  · exact single

theorem callNames_cons (single : ∀ s more, t = .atom s → ts ≠ .openParen :: more) :
    callNames (t :: ts) = callNames ts := by
  rw [callNames]
  exact single

theorem operands (h : Yield ts us) : us.filter Token.isOperand = operandsOf ts := by
  induction h with
  | nil => rfl
  | call name _ ih => exact ih
  | cons token single _ ih =>
    rw [operandsOf_cons single, List.filter_append, ih]
    cases token <;> rfl

theorem functions (h : Yield ts us) : us.filterMap Token.function? = callNames ts := by
  induction h with
  | nil => rfl
  | call name _ ih =>
    rw [callNames, ← ih]
    rfl
  | cons token single _ ih =>
    rw [callNames_cons single, List.filterMap_append, ih]
    cases token <;> rfl

theorem symbols (h : Yield ts us) :
    List.Forall₂ MayMean (ts.filterMap Token.symbol?) (us.filterMap Token.symbol?) := by
  induction h with
  | nil => exact .nil
  | call name _ ih => exact ih
  | cons token _ _ ih =>
    cases token with
    | operator meant => exact .cons meant ih
    | _ => exact ih

theorem accesses (h : Yield ts us) : us.count .tableAccess = ts.count .closeBracket := by
  induction h with
  | nil => rfl
  | call name _ ih => simpa using ih
  | cons token _ _ ih => cases token <;> simpa using ih

theorem no_argCount (h : Yield ts us) : ∀ u ∈ us, u.isArgCount = false := by
  induction h with
  | nil => simp
  | call name _ ih => simpa [Token.isArgCount] using ih
  | cons token _ _ ih =>
    intro u hu
    rcases List.mem_append.mp hu with hu | hu
    · cases token <;> simp_all [Token.isArgCount]
    · exact ih u hu

end Yield

/-- The token behind the arguments of a stretch, which its opening token has promised. -/
def Enclosure.due : Enclosure → List Token
  | .call name => [.function name]
  | _ => []

def Scope.due (s : Scope) : List Token :=
  operatorTokens s.pending ++ s.enclosure.due

namespace InfixReader

/-- What a reader has put out and what it still owes. -/
def ledger (r : InfixReader) : List Token :=
  r.output ++ (r.scope :: r.outer).flatMap Scope.due

/-- A reader has come to put out or owe these tokens besides, its operands in order and out. -/
structure Adds (r r' : InfixReader) (us : List Token) : Prop where
  ledger : ∀ u : Token, u.isArgCount = false →
    r'.ledger.count u = r.ledger.count u + us.count u
  operands : r'.output.filter Token.isOperand =
    r.output.filter Token.isOperand ++ us.filter Token.isOperand
  ordered : InPostfix r.output → InPostfix r'.output

variable {r r' r'' : InfixReader} {us vs : List Token}

theorem Adds.refl (r : InfixReader) : r.Adds r [] :=
  ⟨fun _ _ => rfl, by simp, id⟩

/-- Only what is owed and what is out counts. -/
theorem Adds.of_ledger (h : r.Adds r' us) (ledger : r''.ledger = r'.ledger)
    (output : r''.output = r'.output) : r.Adds r'' us :=
  ⟨by rw [ledger]; exact h.ledger, by rw [output]; exact h.operands,
    by rw [output]; exact h.ordered⟩

theorem Adds.trans (h : r.Adds r' us) (h' : r'.Adds r'' vs) : r.Adds r'' (us ++ vs) where
  ledger u hu := by rw [h'.ledger u hu, h.ledger u hu, List.count_append, Nat.add_assoc]
  operands := by rw [h'.operands, h.operands, List.filter_append, List.append_assoc]
  ordered := h'.ordered ∘ h.ordered

theorem filter_isOperand_operatorTokens (ops : List Operator) :
    (operatorTokens ops).filter Token.isOperand = [] := by
  apply List.filter_eq_nil_iff.mpr
  intro t ht
  obtain ⟨op, -, rfl⟩ := List.mem_map.mp ht
  simp [Token.isOperand]

theorem adds_operand (r : InfixReader) {t : Token} (operand : t.isOperand = true) :
    r.Adds (r.operand t) [t] where
  ledger u _ := by
    have hdue : r.scope.withArgs.due = r.scope.due := rfl
    simp only [ledger, InfixReader.operand, List.flatMap_cons, hdue, List.count_append]
    omega
  operands := by simp [InfixReader.operand]
  ordered h := by
    apply h.append
    cases t with
    | atom s => exact .atom s .nil
    | text s => exact .text s .nil
    | _ => cases operand

/-- The operators that come out were owed, and the new one is. -/
theorem adds_operator {symbol : String} (h : r.operator symbol = .ok r') :
    ∃ meant, MayMean symbol meant ∧ r.Adds r' [.operator meant] := by
  obtain ⟨op, hop, rfl⟩ := operator_ok h
  refine ⟨op.symbol, ?_, ?_, ?_, ?_⟩
  · rw [Operator.symbol_of_find? hop]
    split
    next => exact .inl rfl
    next =>
      cases hm : Operator.prefixForm? symbol with
      | none => exact .inl rfl
      | some meant => exact .inr hm
  · intro u _
    have hpending := congrArg (List.count u) (operatorTokens_split r.scope.pending op)
    rw [List.count_append] at hpending
    simp only [ledger, List.flatMap_cons, Scope.due, operatorTokens_cons, List.count_append,
      List.count_cons, List.count_nil]
    omega
  · simp [filter_isOperand_operatorTokens, Token.isOperand]
  · exact fun hr => hr.append (.operators _)

theorem adds_drain (r : InfixReader) : r.Adds r.drain [] where
  ledger u _ := by
    simp only [ledger, drain, List.flatMap_cons, Scope.due, List.count_append, List.count_nil,
      operatorTokens, List.map_nil]
    omega
  operands := by simp [drain, filter_isOperand_operatorTokens]
  ordered h := h.append (.operators _)

/-- A new stretch owes what its opening token promises. -/
theorem adds_opened (r : InfixReader) (enclosure : Enclosure) {around : Scope}
    (same : around.due = r.scope.due) :
    r.Adds { r with scope := .opened enclosure, outer := around :: r.outer, afterOperand := false }
      enclosure.due where
  ledger u _ := by
    have hopened : (Scope.opened enclosure).due = enclosure.due := rfl
    simp only [ledger, List.flatMap_cons, hopened, same, List.count_append]
    omega
  operands := by cases enclosure <;> simp [Enclosure.due, Token.isOperand]
  ordered := id

/-- A stretch that is left has put out what it owed. -/
theorem adds_leave (tidy : r.Tidy) (hwhole : r.scope.enclosure ≠ .whole) {tokens : List Token}
    (ordered : InPostfix tokens)
    (operands : tokens.filter Token.isOperand = us.filter Token.isOperand)
    (paid : ∀ u : Token, u.isArgCount = false →
      tokens.count u = r.scope.enclosure.due.count u + us.count u) :
    r.Adds (r.leave tokens) us := by
  obtain ⟨around, outer, ho⟩ := tidy.nested.exists_around hwhole
  simp only [leave, ho]
  refine ⟨fun u hu => ?_, ?_, fun hr => ?_⟩
  · have hpaid := paid u hu
    simp only [ledger, drain, ho, List.flatMap_cons, Scope.due, List.count_append]
    omega
  · simp [drain, filter_isOperand_operatorTokens, operands]
  · exact (hr.append (.operators _)).append ordered

theorem adds_closeParen (tidy : r.Tidy) (h : r.closeParen = .ok r') : r.Adds r' [] := by
  unfold closeParen at h
  dsimp only at h
  split at h
  next => cases h
  next => cases h
  next henclosure =>
    split_ifs at h
    cases h
    apply adds_leave tidy (by simp [henclosure]) .nil rfl
    simp [henclosure, Enclosure.due]
  next name henclosure =>
    split_ifs at h
    cases h
    have hpaid : ∀ u : Token, u.isArgCount = false →
        [Token.function name, .argCount r.scope.argCount].count u =
          r.scope.enclosure.due.count u + [].count u := by
      intro u hu
      have hcount : Token.argCount r.scope.argCount ≠ u := by
        rintro rfl
        cases hu
      simp [henclosure, Enclosure.due, List.count_cons, hcount]
    exact adds_leave tidy (by simp [henclosure]) (.call name _ .nil) rfl hpaid

theorem adds_closeBracket (tidy : r.Tidy) (h : r.closeBracket = .ok r') :
    r.Adds r' [.tableAccess] := by
  unfold closeBracket at h
  split at h
  next henclosure =>
    split_ifs at h
    cases h
    apply adds_leave tidy (by simp [henclosure]) (.access .nil) rfl
    simp [henclosure, Enclosure.due]
  next => cases h

theorem adds_separator (h : r.separator = .ok r') : r.Adds r' [] := by
  unfold separator at h
  split_ifs at h
  split at h <;> cases h
  · exact (adds_drain r).of_ledger rfl rfl
  · exact (adds_drain r).of_ledger rfl rfl

theorem adds_openBracket (h : r.openBracket = .ok r') : r.Adds r' [] := by
  unfold openBracket at h
  split_ifs at h
  cases h
  exact adds_opened r .access rfl

/-- Any token leaves the reader tidy, wherever it stands. -/
theorem Tidy.stays (tidy : r.Tidy) {t : Token} (h : r.step t = .ok r') : r'.Tidy := by
  cases t with
  | atom s => cases h; exact (tidy.operand (t := .atom s) rfl).tidy
  | text s => cases h; exact (tidy.operand (t := .text s) rfl).tidy
  | operator symbol =>
    obtain ⟨op, -, rfl⟩ := operator_ok h
    refine ⟨?_, fun hf => by cases hf⟩
    have hn := tidy.nested
    cases ho : r.outer <;> rw [ho] at hn <;> exact hn
  | openParen => cases h; exact (tidy.opened (by simp) (by simp)).tidy
  | closeParen => exact (tidy.closeParen h).tidy
  | separator => exact (tidy.separator h).tidy
  | openBracket => exact (tidy.openBracket h).tidy
  | closeBracket => exact (tidy.closeBracket h).tidy
  | function | argCount | tableAccess => cases h

theorem adds_step (tidy : r.Tidy) {t : Token} (h : r.step t = .ok r') :
    ∃ us, t.Yields us ∧ r.Adds r' us := by
  cases t with
  | atom s => cases h; exact ⟨_, .atom s, adds_operand r rfl⟩
  | text s => cases h; exact ⟨_, .text s, adds_operand r rfl⟩
  | operator symbol =>
    obtain ⟨meant, hmeant, hadds⟩ := adds_operator h
    exact ⟨_, .operator hmeant, hadds⟩
  | openParen => cases h; exact ⟨_, .openParen, adds_opened r .group rfl⟩
  | closeParen => exact ⟨_, .closeParen, adds_closeParen tidy h⟩
  | separator => exact ⟨_, .separator, adds_separator h⟩
  | openBracket => exact ⟨_, .openBracket, adds_openBracket h⟩
  | closeBracket => exact ⟨_, .closeBracket, adds_closeBracket tidy h⟩
  | function | argCount | tableAccess => cases h

/-- By induction on the tokens that are read, in whatever stretch the reader is. -/
theorem adds_run (tidy : r.Tidy) {ts : List Token} (h : r.run ts = .ok r') :
    r'.Tidy ∧ ∃ us, Yield ts us ∧ r.Adds r' us := by
  fun_induction InfixReader.run r ts with
  | case1 r =>
    cases h
    exact ⟨tidy, [], .nil, .refl _⟩
  | case2 r name rest ih =>
    obtain ⟨htidy, us, hyield, hadds⟩ := ih (tidy.opened (by simp) (by simp)).tidy h
    have hopened : r.Adds (r.openCall name) [.function name] := adds_opened r (.call name) rfl
    exact ⟨htidy, _, .call name hyield, hopened.trans hadds⟩
  | case3 r t rest hcall r₁ hstep ih =>
    obtain ⟨htidy, us, hyield, hadds⟩ := ih (tidy.stays hstep) h
    obtain ⟨vs, htoken, hfirst⟩ := adds_step tidy hstep
    exact ⟨htidy, _, .cons htoken (fun s more ht hrest => hcall s more ht hrest) hyield,
      hfirst.trans hadds⟩
  | case4 => cases h

end InfixReader

/-- What is put out in the end is, up to its order and the argument counts, what the tokens come
to, and its operands are in their order. -/
theorem exists_yield_of_toPostfix {ts out : List Token} (h : toPostfix ts = .ok out) :
    ∃ us, Yield ts us ∧ InPostfix out ∧ out.filter Token.isOperand = us.filter Token.isOperand ∧
      (out.filter fun u => !u.isArgCount).Perm us := by
  rw [toPostfix_eq] at h
  split at h
  next r hr =>
    obtain ⟨htidy, us, hyield, hadds⟩ := InfixReader.adds_run InfixReader.start_tidy hr
    unfold InfixReader.finish at h
    split at h <;> cases h
    next hwhole =>
    have hdrained := hadds.trans (InfixReader.adds_drain r)
    rw [List.append_nil] at hdrained
    have houter : r.outer = [] := htidy.nested.outer_eq_nil hwhole
    have hledger : r.drain.ledger = r.drain.output := by
      simp [InfixReader.ledger, InfixReader.drain, houter, Scope.due, hwhole, Enclosure.due,
        operatorTokens]
    refine ⟨us, hyield, hdrained.ordered .nil, hdrained.operands, ?_⟩
    apply List.perm_iff_count.mpr
    intro u
    cases hu : u.isArgCount with
    | true =>
      have hnone : u ∉ us := fun hmem => by
        rw [hyield.no_argCount u hmem] at hu
        cases hu
      rw [List.count_eq_zero.mpr hnone, List.count_eq_zero]
      simp [hu]
    | false =>
      have hcount := hdrained.ledger u hu
      rw [hledger] at hcount
      rw [List.count_filter (by simp [hu]), hcount]
      simp [InfixReader.ledger, InfixReader.start, Scope.due, Scope.opened, Enclosure.due,
        operatorTokens]
  next => cases h

/-- Nothing is lost or invented on the way to postfix order, whatever is accepted. -/
theorem toPostfix_conserves {ts out : List Token} (h : toPostfix ts = .ok out) :
    InPostfix out ∧ out.filter Token.isOperand = operandsOf ts ∧
      (∃ meant, List.Forall₂ MayMean (ts.filterMap Token.symbol?) meant ∧
        (out.filterMap Token.symbol?).Perm meant) ∧
      (out.filterMap Token.function?).Perm (callNames ts) ∧
      out.count .tableAccess = ts.count .closeBracket := by
  obtain ⟨us, hyield, hordered, hoperands, hperm⟩ := exists_yield_of_toPostfix h
  have hkept {α : Type} (f : Token → Option α)
      (hf : ∀ u : Token, u.isArgCount = true → f u = none) :
      (out.filterMap f).Perm (us.filterMap f) := by
    have hfiltered := hperm.filterMap f
    have hsame : (fun u : Token => if (!u.isArgCount) = true then f u else none) = f := by
      funext u
      cases hu : u.isArgCount with
      | true => exact (hf u hu).symm
      | false => rfl
    rwa [List.filterMap_filter, hsame] at hfiltered
  refine ⟨hordered, hoperands.trans hyield.operands, ⟨_, hyield.symbols, hkept _ ?_⟩, ?_, ?_⟩
  · intro u hu
    cases u <;> first | rfl | cases hu
  · rw [← hyield.functions]
    exact hkept _ fun u hu => by cases u <;> first | rfl | cases hu
  · rw [← hyield.accesses, ← hperm.count_eq, List.count_filter rfl]

/-- Operands side by side stay so: `-f(a; b[1; 2]) x` is put in postfix order all the same. -/
theorem toPostfix_conserves_sideBySide :
    let ts := [.operator "-", .atom "f", .openParen, .atom "a", .separator, .atom "b", .openBracket,
      .atom "1", .separator, .atom "2", .closeBracket, .closeParen, .atom "x"]
    let out := [.atom "a", .atom "b", .atom "1", .atom "2", .tableAccess, .function "f",
      .argCount 2,
      .atom "x", .operator "u-"]
    toPostfix ts = .ok out ∧ InPostfix out ∧ out.filter Token.isOperand = operandsOf ts ∧
      (∃ meant, List.Forall₂ MayMean (ts.filterMap Token.symbol?) meant ∧
        (out.filterMap Token.symbol?).Perm meant) ∧
      (out.filterMap Token.function?).Perm (callNames ts) ∧
      out.count .tableAccess = ts.count .closeBracket :=
  ⟨by rfl, toPostfix_conserves (by rfl)⟩

end LiveSheet
