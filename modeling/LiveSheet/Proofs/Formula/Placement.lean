import LiveSheet.Formula.Grammar

namespace LiveSheet

/-- A token that may be the last one of an operand. -/
def Token.endsOperand : Token → Bool
  | .atom _ | .text _ | .closeParen | .closeBracket => true
  | _ => false

/-- A token that may be the first one of an operand, not counting operators. -/
def Token.startsOperand : Token → Bool
  | .atom _ | .text _ | .openParen => true
  | _ => false

/-- Whether the symbol is one of an operator between operands. -/
def standsBetween (symbol : String) : Bool :=
  match Operator.find? symbol with
  | some (.binary _) => true
  | _ => false

/-- Whether the symbol may be written before an operand. -/
def standsBefore (symbol : String) : Bool :=
  (Operator.prefixForm? symbol).isSome

/-- The flag says whether the tokens follow an operand. Operators between operands stand right
behind one, operators before an operand do not, and no operator comes last. -/
def operatorsFit (behind : Bool) : List Token → Bool
  | [] => true
  | .operator symbol :: rest =>
    (if behind then standsBetween symbol else standsBefore symbol) && !rest.isEmpty &&
      operatorsFit false rest
  | t :: rest => operatorsFit t.endsOperand rest

/-- How often an operand begins right behind another. -/
def sideBySide (behind : Bool) : List Token → Nat
  | [] => 0
  | .atom _ :: .openParen :: rest => behind.toNat + sideBySide false rest
  | t :: rest => (behind && t.startsOperand).toNat + sideBySide t.endsOperand rest

theorem standsBetween_iff {symbol : String} :
    standsBetween symbol = true ↔ ∃ op : BinaryOp, symbol = op.symbol := by
  unfold standsBetween
  constructor
  · intro h
    split at h
    next op hfind => exact ⟨op, (Operator.symbol_of_find? hfind).symm⟩
    next => cases h
  · rintro ⟨op, rfl⟩
    have hfind : Operator.find? op.symbol = some (.binary op) := Operator.find?_symbol (.binary op)
    rw [hfind]

theorem standsBefore_iff {symbol : String} :
    standsBefore symbol = true ↔ ∃ op : UnaryOp, symbol = op.written := by
  rw [standsBefore, Option.isSome_iff_exists]
  simp only [Operator.prefixForm?_eq_some_iff]
  exact ⟨fun ⟨_, op, h, _⟩ => ⟨op, h⟩, fun ⟨op, h⟩ => ⟨_, op, h, rfl⟩⟩

theorem operatorsFit_cons_iff {behind : Bool} {t : Token} {rest : List Token} :
    operatorsFit behind (t :: rest) = true ↔
      (∀ symbol, t = .operator symbol →
        (if behind then standsBetween symbol else standsBefore symbol) = true ∧ rest ≠ []) ∧
        operatorsFit t.endsOperand rest = true := by
  cases t with
  | operator symbol => simp [operatorsFit, Token.endsOperand, and_assoc]
  | _ => simp [operatorsFit]

theorem sideBySide_cons {behind : Bool} {t : Token} {rest : List Token}
    (h : ∀ s rest', t = .atom s → rest ≠ .openParen :: rest') :
    sideBySide behind (t :: rest) =
      (behind && t.startsOperand).toNat + sideBySide t.endsOperand rest := by
  rw [sideBySide.eq_def]
  split
  next h' => cases h'
  next h' =>
    cases h'
    exact absurd rfl (h _ _ rfl)
  next h' =>
    cases h'
    rfl

/-- Behind the tokens of a phrase, the operators fit if they fit behind an operand. -/
def Phrase.Fits (ts : List Token) : Phrase → Prop
  | .term _ _ => ts ≠ [] ∧ ∀ rest, operatorsFit false (ts ++ rest) = operatorsFit true rest
  | .args _ => ∀ rest, operatorsFit false (ts ++ .closeParen :: rest) = operatorsFit true rest

theorem Reads.fits {ts : List Token} {p : Phrase} (h : Reads ts p) : p.Fits ts := by
  induction h with
  | atom s => exact ⟨by simp, fun _ => rfl⟩
  | text s => exact ⟨by simp, fun _ => rfl⟩
  | group _ inner =>
    refine ⟨by simp, fun rest => ?_⟩
    have h := inner.2 (.closeParen :: rest)
    simpa [operatorsFit, Token.endsOperand] using h
  | call name _ inner =>
    refine ⟨by simp, fun rest => ?_⟩
    simpa [operatorsFit, Token.endsOperand] using inner rest
  | @access ts rs cs _ _ _ _ _ _ table first second =>
    refine ⟨by simp, fun rest => ?_⟩
    have hsplit : ts ++ .openBracket :: rs ++ .separator :: cs ++ [.closeBracket] ++ rest =
        ts ++ .openBracket :: (rs ++ .separator :: (cs ++ .closeBracket :: rest)) := by
      simp
    calc operatorsFit false _
        = operatorsFit false (rs ++ .separator :: (cs ++ .closeBracket :: rest)) := by
          rw [hsplit, table.2]
          rfl
      _ = operatorsFit false (cs ++ .closeBracket :: rest) := by
          rw [first.2]
          rfl
      _ = operatorsFit true rest := by
          rw [second.2]
          rfl
  | @unary ts _ op _ operand =>
    refine ⟨by simp, fun rest => ?_⟩
    have hop : standsBefore op.written = true := standsBefore_iff.mpr ⟨op, rfl⟩
    simp [operatorsFit, hop, operand.1, operand.2 rest]
  | @binary ls rs _ _ op _ _ left right =>
    refine ⟨by simp, fun rest => ?_⟩
    have hop : standsBetween op.symbol = true := standsBetween_iff.mpr ⟨op, rfl⟩
    rw [List.append_assoc, List.cons_append, left.2]
    simp [operatorsFit, hop, right.1, right.2 rest]
  | loosen _ tighter => exact tighter
  | noArgs => exact fun _ => rfl
  | lastArg _ arg =>
    intro rest
    rw [arg.2]
    rfl
  | moreArgs _ _ arg others =>
    intro rest
    rw [List.append_assoc, List.cons_append, arg.2]
    exact others rest

/-- In a formula of the grammar every operator fits. -/
theorem operatorsFit_of_isFormula {ts : List Token} {t : Term} (h : IsFormula ts t) :
    operatorsFit false ts = true := by
  have hfit := (Reads.fits h).2 []
  rw [List.append_nil] at hfit
  exact hfit

end LiveSheet
