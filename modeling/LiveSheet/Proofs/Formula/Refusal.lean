import LiveSheet.Proofs.Formula.Resolving

namespace LiveSheet

/-- A token of the kinds that formulas are read as. -/
def Token.Written : Token → Prop
  | .function _ | .argCount _ | .tableAccess => False
  | _ => True

/-- A token that is neither an operand nor applied to operands. -/
def Token.Idle : Token → Prop
  | .openParen | .closeParen | .separator | .openBracket | .closeBracket | .argCount _ => True
  | _ => False

/-- A fault that a formula can have. -/
def SyntaxFault.Occurs : SyntaxFault → Prop
  | .notInfix _ => False
  | .notPostfix t => t.Idle
  | _ => True

/-- What a formula is refused for. -/
inductive Refused (resolve : Resolver) : FormulaError → Prop
  | malformed {fault : SyntaxFault} (occurs : fault.Occurs) : Refused resolve (.malformed fault)
  | unknownOperator (symbol : String) : Refused resolve (.unknownOperator symbol)
  | unknownFunction (name : String) : Refused resolve (.unknownFunction name)
  | argumentCount (f : Function) (count : Nat) :
    Refused resolve (.argumentCount f.signature count)
  | missingOperand (symbol : String) : Refused resolve (.missingOperand symbol)
  | malformedAccess (fault : AccessFault) : Refused resolve (.malformedAccess fault)
  | unknownCell {name : String} (unknown : resolve name = none) :
    Refused resolve (.unknownCell name)
  | unterminatedString (text : String) : Refused resolve (.unterminatedString text)

section Reading

variable {resolve : Resolver} {cause : FormulaError} {c : Char} {rest : List Char} {t : Token}

theorem leadOf_written (c : Char) (rest : List Char) : (leadOf c rest).token.Written := by
  unfold leadOf
  split
  case h_6 =>
    unfold leadText
    split <;> trivial
  case h_7 => split <;> trivial
  all_goals trivial

theorem scan_written (cs : List Char) : ∀ l ∈ (scan cs).1, l.token.Written := by
  induction cs using scan_induction with
  | blank cs blank => simp [scan_of_blank blank]
  | lead gap c rest blank hc ih =>
    rw [scan_gap blank hc]
    intro l hl
    rcases List.mem_cons.mp hl with rfl | hl
    · exact leadOf_written c rest
    · exact ih l hl

theorem tokenize_written (formula : String) : ∀ t ∈ tokenize formula, t.Written := by
  intro t ht
  obtain ⟨l, hl, rfl⟩ := List.mem_map.mp ht
  exact scan_written formula.toList l hl

namespace InfixReader

variable {r : InfixReader}

theorem operator_refused {symbol : String} (h : r.operator symbol = .error cause) :
    Refused resolve cause := by
  simp only [operator] at h
  split at h <;> cases h
  exact .unknownOperator _

theorem closeParen_refused (h : r.closeParen = .error cause) : Refused resolve cause := by
  unfold closeParen at h
  dsimp only at h
  split at h
  next => cases h; exact .malformed trivial
  next => cases h; exact .malformed trivial
  next =>
    split_ifs at h <;> cases h
    · exact .malformed trivial
    · exact .malformed trivial
  next =>
    split_ifs at h
    cases h
    exact .malformed trivial

theorem separator_refused (h : r.separator = .error cause) : Refused resolve cause := by
  unfold separator at h
  split_ifs at h
  · cases h
    exact .malformed trivial
  · split at h <;> cases h
    · exact .malformed trivial
    · exact .malformed trivial

theorem openBracket_refused (h : r.openBracket = .error cause) : Refused resolve cause := by
  unfold openBracket at h
  split_ifs at h
  cases h
  exact .malformedAccess _

theorem closeBracket_refused (h : r.closeBracket = .error cause) : Refused resolve cause := by
  unfold closeBracket at h
  split at h
  next =>
    split_ifs at h
    cases h
    exact .malformedAccess _
  next =>
    cases h
    exact .malformedAccess _

theorem step_refused (written : t.Written) (h : r.step t = .error cause) :
    Refused resolve cause := by
  cases t with
  | atom | text | openParen => cases h
  | operator => exact operator_refused h
  | closeParen => exact closeParen_refused h
  | separator => exact separator_refused h
  | openBracket => exact openBracket_refused h
  | closeBracket => exact closeBracket_refused h
  | function | argCount | tableAccess => exact written.elim

/-- Reading fails at some token. -/
theorem run_eq_error {tokens : List Token} (h : r.run tokens = .error cause) :
    ∃ t ∈ tokens, ∃ r' : InfixReader, r'.step t = .error cause := by
  fun_induction InfixReader.run r tokens with
  | case1 => cases h
  | case2 r name rest ih =>
    obtain ⟨t, ht, hstep⟩ := ih h
    exact ⟨t, List.mem_cons_of_mem _ (List.mem_cons_of_mem _ ht), hstep⟩
  | case3 r t rest _ r₁ _ ih =>
    obtain ⟨t', ht, hstep⟩ := ih h
    exact ⟨t', List.mem_cons_of_mem _ ht, hstep⟩
  | case4 r t rest _ cause' hstep =>
    cases h
    exact ⟨t, List.mem_cons_self, r, hstep⟩

theorem run_refused {tokens : List Token} (written : ∀ t ∈ tokens, t.Written)
    (h : r.run tokens = .error cause) : Refused resolve cause := by
  obtain ⟨t, ht, r', hstep⟩ := run_eq_error h
  exact step_refused (written t ht) hstep

theorem finish_refused (h : r.finish = .error cause) : Refused resolve cause := by
  unfold finish at h
  split at h <;> cases h
  · exact .malformed trivial
  · exact .malformed trivial
  · exact .malformedAccess _

end InfixReader

theorem parsePostfix_refused {formula : String} (h : parsePostfix formula = .error cause) :
    Refused resolve cause := by
  rw [parsePostfix, toPostfix_eq] at h
  split at h
  next => exact InfixReader.finish_refused h
  next cause' hrun =>
    cases h
    exact InfixReader.run_refused (tokenize_written formula) hrun

end Reading

section Building

variable {resolve : Resolver} {cause : FormulaError} {stack : List Expr}

theorem classifyAtom_refused {s : String} (h : classifyAtom resolve s = .error cause) :
    Refused resolve cause := by
  unfold classifyAtom at h
  dsimp only at h
  split_ifs at h
  · cases h
    exact .unterminatedString s
  · split at h <;> cases h
    exact .malformed trivial
  · cases h
    exact .malformed trivial
  · split at h
    next => cases h
    next hunknown =>
      cases h
      exact .unknownCell hunknown

theorem pushCall_refused {function : String} {count : Nat}
    (h : pushCall stack function count = .error cause) : Refused resolve cause := by
  unfold pushCall at h
  split at h
  next =>
    cases h
    exact .unknownFunction function
  next f _ =>
    split_ifs at h
    · split at h <;> cases h
      exact .missingOperand function
    · cases h
      exact .argumentCount f count

theorem pushOperator_refused {symbol : String} (h : pushOperator stack symbol = .error cause) :
    Refused resolve cause := by
  unfold pushOperator at h
  split at h <;> cases h
  · exact .unknownOperator symbol
  · exact .missingOperand symbol

theorem pushAccess_refused (h : pushAccess stack = .error cause) : Refused resolve cause := by
  unfold pushAccess at h
  split at h <;> cases h
  · exact .malformedAccess _
  · exact .malformedAccess _

theorem buildFrom_refused {tokens : List Token}
    (h : buildFrom resolve stack tokens = .error cause) :
    Refused resolve cause := by
  fun_induction buildFrom resolve stack tokens with
  | case1 => cases h
  | case2 stack function count rest ih =>
    rcases Except.of_bind_eq_error h with h | ⟨stack₁, -, h⟩
    · exact pushCall_refused h
    · exact ih stack₁ h
  | case3 => cases h; exact .malformed trivial
  | case4 stack s rest ih =>
    rcases Except.of_bind_eq_error h with h | ⟨e, -, h⟩
    · exact classifyAtom_refused h
    · exact ih e h
  | case5 stack s rest ih => exact ih h
  | case6 stack symbol rest ih =>
    rcases Except.of_bind_eq_error h with h | ⟨stack₁, -, h⟩
    · exact pushOperator_refused h
    · exact ih stack₁ h
  | case7 stack rest ih =>
    rcases Except.of_bind_eq_error h with h | ⟨stack₁, -, h⟩
    · exact pushAccess_refused h
    · exact ih stack₁ h
  | case8 stack t rest _ hfunction hatom htext hoperator haccess =>
    cases h
    refine .malformed ?_
    cases t with
    | atom s => exact absurd rfl (hatom s)
    | text s => exact absurd rfl (htext s)
    | operator symbol => exact absurd rfl (hoperator symbol)
    | function name => exact absurd rfl (hfunction name)
    | tableAccess => exact absurd rfl haccess
    | _ => trivial

theorem buildTree_refused {tokens : List Token} (h : buildTree resolve tokens = .error cause) :
    Refused resolve cause := by
  unfold buildTree at h
  split at h
  next cause' hb =>
    cases h
    exact buildFrom_refused hb
  next => cases h; exact .malformed trivial
  next => cases h
  next => cases h; exact .malformed trivial

theorem compile_refused {formula : String} (h : compile resolve formula = .error cause) :
    Refused resolve cause := by
  rcases Except.of_bind_eq_error h with h | ⟨tokens, -, h⟩
  · exact parsePostfix_refused h
  · exact buildTree_refused h

/-- A formula fails for a name only if that stands for no cell. -/
theorem resolve_of_compile_error {formula name : String}
    (h : compile resolve formula = .error (.unknownCell name)) : resolve name = none := by
  cases compile_refused h with
  | unknownCell unknown => exact unknown

end Building

end LiveSheet
