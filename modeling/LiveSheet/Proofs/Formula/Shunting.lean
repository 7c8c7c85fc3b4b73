import LiveSheet.Formula.Grammar
import LiveSheet.Formula.Postfix
import LiveSheet.Proofs.Formula.Renaming

namespace LiveSheet

namespace Operator

theorem precedence_le (op : Operator) : op.precedence ≤ unaryLevel := by
  rcases op with op | op <;> cases op <;> decide

theorem popsBefore_binary {waiting : Operator} {op : BinaryOp} :
    waiting.popsBefore (.binary op) = true ↔ op.precedence ≤ waiting.precedence := by
  have hlevel : precedence (.binary op) = op.precedence := rfl
  simp only [popsBefore, hlevel, isRightAssociative, Bool.not_false, Bool.and_true,
    Bool.or_eq_true, decide_eq_true_eq, beq_iff_eq]
  omega

theorem popsBefore_unary (waiting : Operator) (op : UnaryOp) :
    waiting.popsBefore (.unary op) = false := by
  have hle := waiting.precedence_le
  have hlevel : precedence (.unary op) = unaryLevel := rfl
  simp only [popsBefore, hlevel, isRightAssociative, Bool.not_true, Bool.and_false,
    Bool.or_false, decide_eq_false_iff_not]
  omega

end Operator

theorem operatorTokens_append (ops ops' : List Operator) :
    operatorTokens (ops ++ ops') = operatorTokens ops ++ operatorTokens ops' :=
  List.map_append

theorem BinaryOp.precedence_lt (op : BinaryOp) : op.precedence < unaryLevel := by
  cases op <;> decide

/-- No waiting operator is complete when an operator between operands of this level or a tighter
one follows. -/
def Waits (level : Nat) (pending : List Operator) : Prop :=
  ∀ waiting ∈ pending.head?, ∀ op : BinaryOp, level ≤ op.precedence →
    waiting.precedence < op.precedence

theorem Waits.nil (level : Nat) : Waits level [] := by
  intro waiting hw
  cases hw

theorem Waits.mono {level level' : Nat} {pending : List Operator}
    (h : Waits level pending) (hle : level ≤ level') : Waits level' pending :=
  fun waiting hw op hop => h waiting hw op (Nat.le_trans hle hop)

theorem Waits.behind_binary (op : BinaryOp) (pending : List Operator) :
    Waits (op.precedence + 1) (.binary op :: pending) := by
  intro waiting hw op' hop
  obtain rfl := Option.some.inj hw
  exact hop

theorem Waits.behind_unary (op : UnaryOp) (pending : List Operator) :
    Waits unaryLevel (.unary op :: pending) := by
  intro waiting hw op' hop
  exact absurd op'.precedence_lt (Nat.not_lt.mpr hop)

theorem Waits.takeWhile_append {op : BinaryOp} {ops pending : List Operator}
    (hops : ∀ w ∈ ops, op.precedence ≤ w.precedence) (h : Waits op.precedence pending) :
    (ops ++ pending).takeWhile (·.popsBefore (.binary op)) = ops := by
  have htop : pending.takeWhile (·.popsBefore (.binary op)) = [] := by
    cases pending with
    | nil => rfl
    | cons w rest =>
      have hlt := h w rfl op (Nat.le_refl _)
      have hno : ¬w.popsBefore (.binary op) = true := by
        rw [Operator.popsBefore_binary]
        omega
      exact List.takeWhile_cons_of_neg hno
  rw [List.takeWhile_append_of_pos fun w hw => Operator.popsBefore_binary.mpr (hops w hw), htop,
    List.append_nil]

theorem Waits.dropWhile_append {op : BinaryOp} {ops pending : List Operator}
    (hops : ∀ w ∈ ops, op.precedence ≤ w.precedence) (h : Waits op.precedence pending) :
    (ops ++ pending).dropWhile (·.popsBefore (.binary op)) = pending := by
  have hparts := List.takeWhile_append_dropWhile (p := (·.popsBefore (.binary op)))
    (l := ops ++ pending)
  rw [h.takeWhile_append hops] at hparts
  exact List.append_cancel_left hparts

namespace InfixReader

/-- The reader behind a term: what is complete of it is out, its last operators wait. -/
def behind (r : InfixReader) (out : List Token) (ops : List Operator) : InfixReader :=
  ⟨r.output ++ out, { r.scope with pending := ops ++ r.scope.pending, hasArgs := true }, r.outer,
    true⟩

/-- The reader right behind an operator, before the operand that it waits for. -/
def expecting (r : InfixReader) (out : List Token) (op : Operator) : InfixReader :=
  ⟨r.output ++ out, { r.scope with pending := op :: r.scope.pending, hasArgs := true }, r.outer,
    false⟩

/-- The reader in a stretch of its own, behind some of its arguments. -/
def inside (r : InfixReader) (enclosure : Enclosure) (out : List Token) (args : Nat) :
    InfixReader :=
  ⟨r.output ++ out, ⟨enclosure, [], args, 0 < args⟩, r.scope.withArgs :: r.outer, false⟩

variable {r : InfixReader} {out out' : List Token} {ops ops' : List Operator} {args : Nat}

theorem expecting_behind (r : InfixReader) (out out' : List Token) (op : Operator)
    (ops : List Operator) :
    (r.expecting out op).behind out' ops = r.behind (out ++ out') (ops ++ [op]) := by
  simp only [behind, expecting, List.append_assoc, List.singleton_append]

theorem operator_behind {op : BinaryOp}
    (hops : ∀ w ∈ ops, op.precedence ≤ w.precedence) (hw : Waits op.precedence r.scope.pending) :
    (r.behind out ops).operator op.symbol =
      .ok (r.expecting (out ++ operatorTokens ops) (.binary op)) := by
  have hfind : Operator.find? op.symbol = some (.binary op) := Operator.find?_symbol (.binary op)
  simp only [operator, behind, if_true, hfind, hw.takeWhile_append hops,
    hw.dropWhile_append hops, expecting, List.append_assoc]

theorem operator_prefix (op : UnaryOp) (h : r.afterOperand = false) :
    r.operator op.written = .ok (r.expecting [] (.unary op)) := by
  have hmeant : Operator.prefixForm? op.written = some op.symbol :=
    Operator.prefixForm?_eq_some_iff.mpr ⟨op, rfl, rfl⟩
  have hfind : Operator.find? op.symbol = some (.unary op) := Operator.find?_symbol (.unary op)
  obtain ⟨output, ⟨enclosure, pending, separators, hasArgs⟩, outer, afterOperand⟩ := r
  cases pending with
  | nil => simp_all [operator, expecting, operatorTokens]
  | cons w rest => simp_all [operator, expecting, operatorTokens, Operator.popsBefore_unary]

theorem openGroup_eq (r : InfixReader) : r.openGroup = r.inside .group [] 0 := by
  simp [openGroup, inside, Scope.opened]

theorem openCall_eq (r : InfixReader) (name : String) :
    r.openCall name = r.inside (.call name) [] 0 := by
  simp [openCall, inside, Scope.opened]

theorem openBracket_behind (r : InfixReader) (out : List Token) :
    (r.behind out []).openBracket = .ok (r.inside .access out 0) := by
  simp [openBracket, behind, inside, Scope.opened, Scope.withArgs]

theorem separator_behind {enclosure : Enclosure} (h : enclosure ≠ .whole)
    (h' : enclosure ≠ .group) :
    ((r.inside enclosure out args).behind out' ops).separator =
      .ok (r.inside enclosure (out ++ (out' ++ operatorTokens ops)) (args + 1)) := by
  cases enclosure with
  | whole => exact absurd rfl h
  | group => exact absurd rfl h'
  | call name => simp [separator, behind, inside, drain]
  | access => simp [separator, behind, inside, drain]

theorem closeGroup_behind :
    ((r.inside .group [] 0).behind out ops).closeParen =
      .ok (r.behind (out ++ operatorTokens ops) []) := by
  simp [closeParen, behind, inside, leave, drain, Scope.withArgs]

theorem closeCall_empty (name : String) :
    (r.inside (.call name) [] 0).closeParen =
      .ok (r.behind [.function name, .argCount 0] []) := by
  simp [closeParen, behind, inside, leave, drain, Scope.withArgs, Scope.argCount, operatorTokens]

theorem closeCall_behind (name : String) :
    ((r.inside (.call name) out args).behind out' ops).closeParen =
      .ok (r.behind (out ++ (out' ++ operatorTokens ops) ++
        [.function name, .argCount (args + 1)]) []) := by
  simp [closeParen, behind, inside, leave, drain, Scope.withArgs, Scope.argCount]

theorem closeBracket_behind :
    ((r.inside .access out 1).behind out' ops).closeBracket =
      .ok (r.behind (out ++ (out' ++ operatorTokens ops) ++ [.tableAccess]) []) := by
  simp [closeBracket, behind, inside, leave, drain, Scope.withArgs, Scope.argCount]

theorem run_atom {s : String} {rest : List Token} (h : rest.head? ≠ some .openParen) :
    r.run (.atom s :: rest) = (r.behind [.atom s] []).run rest := by
  have hnot : ∀ s' more, Token.atom s = .atom s' → rest ≠ .openParen :: more := by
    rintro s' more - rfl
    exact h rfl
  rw [run_cons_of_not_call hnot]
  rfl

theorem run_step {t : Token} {rest : List Token} {r' : InfixReader} (hatom : ∀ s, t ≠ .atom s)
    (h : r.step t = .ok r') : r.run (t :: rest) = r'.run rest := by
  rw [run_cons_of_not_call fun s _ ht => absurd ht (hatom s), h]
  rfl

theorem run_call (r : InfixReader) (name : String) (rest : List Token) :
    r.run (.atom name :: .openParen :: rest) = (r.inside (.call name) [] 0).run rest := by
  rw [← openCall_eq]
  rfl

end InfixReader

/-- How a reader gets through the tokens of a phrase: it puts out the postfix form, except for
operators that bind at least as tight as the phrase and still wait. -/
def Phrase.Passes (ts : List Token) : Phrase → Prop
  | .term level t => ∀ (r : InfixReader) (rest : List Token), r.afterOperand = false →
    Waits level r.scope.pending → rest.head? ≠ some .openParen →
    ∃ out ops, r.run (ts ++ rest) = (r.behind out ops).run rest ∧
      out ++ operatorTokens ops = t.postfixTokens ∧ ∀ op ∈ ops, level ≤ op.precedence
  | .args as => ∀ (r : InfixReader) (name : String) (out : List Token) (args : Nat)
    (rest : List Token), (as = [] → out = [] ∧ args = 0) →
    (r.inside (.call name) out args).run (ts ++ .closeParen :: rest) =
      (r.behind (out ++ Term.postfixAll as ++ [.function name, .argCount (args + as.length)])
        []).run rest

namespace Phrase

variable {ts us : List Token} {t u : Term} {as : List Term} {level : Nat}

theorem Passes.waitless (h : (term closedLevel t).Passes ts) (r : InfixReader)
    (rest : List Token) (hr : r.afterOperand = false) (hrest : rest.head? ≠ some .openParen) :
    r.run (ts ++ rest) = (r.behind t.postfixTokens []).run rest := by
  have hw : Waits closedLevel r.scope.pending := fun _ _ op hop =>
    absurd op.precedence_lt (by unfold closedLevel at hop; unfold unaryLevel; omega)
  obtain ⟨out, ops, hrun, hout, hops⟩ := h r rest hr hw hrest
  cases ops with
  | nil => rw [hrun, ← hout, operatorTokens, List.map_nil, List.append_nil]
  | cons op ops =>
    have hle := hops op (.head _)
    have hle' := op.precedence_le
    simp only [closedLevel, unaryLevel] at hle hle'
    omega

theorem Passes.of_run
    (h : ∀ (r : InfixReader) (rest : List Token), r.afterOperand = false →
      rest.head? ≠ some .openParen → r.run (ts ++ rest) = (r.behind t.postfixTokens []).run rest) :
    (term level t).Passes ts := by
  intro r rest hr _ hrest
  refine ⟨t.postfixTokens, [], h r rest hr hrest, ?_, ?_⟩
  · exact List.append_nil _
  · intro op hop
    cases hop

theorem passes_atom (s : String) : (term level (.atom s)).Passes [.atom s] :=
  .of_run fun _ _ _ hrest => InfixReader.run_atom hrest

theorem passes_text (s : String) : (term level (.text s)).Passes [.text s] :=
  .of_run fun _ _ _ _ => InfixReader.run_step (fun _ h => by cases h) rfl

theorem Passes.group (h : (term 0 t).Passes ts) :
    (term level t).Passes (.openParen :: ts ++ [.closeParen]) := by
  apply of_run
  intro r rest _ _
  have hopen : r.step .openParen = .ok (r.inside .group [] 0) := by
    rw [← InfixReader.openGroup_eq]
    rfl
  obtain ⟨out, ops, hrun, hout, -⟩ := h (r.inside .group [] 0) (.closeParen :: rest) rfl
    (.nil 0) (by simp)
  have hclose : ((r.inside .group [] 0).behind out ops).step .closeParen =
      .ok (r.behind t.postfixTokens []) := by
    rw [InfixReader.step, InfixReader.closeGroup_behind, hout]
  have hsplit : .openParen :: ts ++ [.closeParen] ++ rest =
      .openParen :: (ts ++ .closeParen :: rest) := by
    simp
  rw [hsplit, InfixReader.run_step (by simp) hopen, hrun, InfixReader.run_step (by simp) hclose]

theorem Passes.call (name : String) (h : (args as).Passes ts) :
    (term level (.call name as)).Passes (.atom name :: .openParen :: ts ++ [.closeParen]) := by
  apply of_run
  intro r rest _ _
  have hrun := h r name [] 0 rest fun _ => ⟨rfl, rfl⟩
  rw [Nat.zero_add, List.nil_append] at hrun
  have hsplit : .atom name :: .openParen :: ts ++ [.closeParen] ++ rest =
      .atom name :: .openParen :: (ts ++ .closeParen :: rest) := by
    simp
  rw [hsplit, InfixReader.run_call, hrun, Term.postfixTokens]

theorem Passes.access {rs cs : List Token} {row col : Term}
    (table : (term closedLevel t).Passes ts) (first : (term 0 row).Passes rs)
    (second : (term 0 col).Passes cs) :
    (term level (.access t row col)).Passes
      (ts ++ .openBracket :: rs ++ .separator :: cs ++ [.closeBracket]) := by
  apply of_run
  intro r rest hr _
  let inRow := r.inside .access t.postfixTokens 0
  let inCol := r.inside .access (t.postfixTokens ++ row.postfixTokens) 1
  have htable := table.waitless r
    (.openBracket :: (rs ++ .separator :: (cs ++ .closeBracket :: rest))) hr (by simp)
  have hopen : (r.behind t.postfixTokens []).step .openBracket = .ok inRow :=
    InfixReader.openBracket_behind r _
  obtain ⟨out, ops, hrow, hout, -⟩ := first inRow
    (.separator :: (cs ++ .closeBracket :: rest)) rfl (.nil 0) (by simp)
  have hnext : (inRow.behind out ops).step .separator = .ok inCol := by
    rw [InfixReader.step, InfixReader.separator_behind (by simp) (by simp), hout]
  obtain ⟨out', ops', hcol, hout', -⟩ := second inCol (.closeBracket :: rest) rfl (.nil 0)
    (by simp)
  have hclose : (inCol.behind out' ops').step .closeBracket =
      .ok (r.behind (Term.access t row col).postfixTokens []) := by
    rw [InfixReader.step, InfixReader.closeBracket_behind, hout', Term.postfixTokens]
  have hsplit : ts ++ .openBracket :: rs ++ .separator :: cs ++ [.closeBracket] ++ rest =
      ts ++ .openBracket :: (rs ++ .separator :: (cs ++ .closeBracket :: rest)) := by
    simp
  rw [hsplit, htable, InfixReader.run_step (by simp) hopen, hrow,
    InfixReader.run_step (by simp) hnext, hcol, InfixReader.run_step (by simp) hclose]

theorem Passes.unary (op : UnaryOp) (h : (term unaryLevel t).Passes ts) :
    (term unaryLevel (.unary op t)).Passes (.operator op.written :: ts) := by
  intro r rest hr _ hrest
  have hop : r.step (.operator op.written) = .ok (r.expecting [] (.unary op)) :=
    InfixReader.operator_prefix op hr
  obtain ⟨out, ops, hrun, hout, hops⟩ := h (r.expecting [] (.unary op)) rest rfl
    (.behind_unary op _) hrest
  refine ⟨out, ops ++ [.unary op], ?_, ?_, ?_⟩
  · rw [List.cons_append, InfixReader.run_step (by simp) hop, hrun,
      InfixReader.expecting_behind, List.nil_append]
  · rw [operatorTokens_append, ← List.append_assoc, hout]
    rfl
  · intro w hw
    rcases List.mem_append.mp hw with hw | hw
    · exact hops w hw
    · obtain rfl := List.mem_singleton.mp hw
      exact Nat.le_refl _

theorem Passes.binary (op : BinaryOp) (left : (term op.precedence t).Passes ts)
    (right : (term (op.precedence + 1) u).Passes us) :
    (term op.precedence (.binary op t u)).Passes (ts ++ .operator op.symbol :: us) := by
  intro r rest hr hw hrest
  obtain ⟨out, ops, hrun, hout, hops⟩ := left r (.operator op.symbol :: (us ++ rest)) hr hw
    (by simp)
  let r' := r.expecting t.postfixTokens (.binary op)
  have hop : (r.behind out ops).step (.operator op.symbol) = .ok r' := by
    rw [InfixReader.step, InfixReader.operator_behind hops hw, hout]
  obtain ⟨out', ops', hrun', hout', hops'⟩ := right r' rest rfl (.behind_binary op _) hrest
  refine ⟨t.postfixTokens ++ out', ops' ++ [.binary op], ?_, ?_, ?_⟩
  · rw [List.append_assoc, List.cons_append, hrun, InfixReader.run_step (by simp) hop, hrun',
      InfixReader.expecting_behind]
  · rw [operatorTokens_append, List.append_assoc, ← List.append_assoc out', hout',
      Term.postfixTokens, List.append_assoc]
    rfl
  · intro w hw
    rcases List.mem_append.mp hw with hw | hw
    · exact Nat.le_of_succ_le (hops' w hw)
    · obtain rfl := List.mem_singleton.mp hw
      exact Nat.le_refl _

theorem Passes.loosen (h : (term (level + 1) t).Passes ts) : (term level t).Passes ts := by
  intro r rest hr hw hrest
  obtain ⟨out, ops, hrun, hout, hops⟩ := h r rest hr (hw.mono (Nat.le_succ level)) hrest
  exact ⟨out, ops, hrun, hout, fun op hop => Nat.le_of_succ_le (hops op hop)⟩

theorem passes_noArgs : (args []).Passes [] := by
  intro r name out k rest hnone
  obtain ⟨rfl, rfl⟩ := hnone rfl
  exact InfixReader.run_step (by simp) (InfixReader.closeCall_empty name)

theorem Passes.lastArg (h : (term 0 t).Passes ts) : (args [t]).Passes ts := by
  intro r name out k rest _
  obtain ⟨out', ops, hrun, hout, -⟩ := h (r.inside (.call name) out k) (.closeParen :: rest) rfl
    (.nil 0) (by simp)
  have hclose : ((r.inside (.call name) out k).behind out' ops).step .closeParen =
      .ok (r.behind (out ++ Term.postfixAll [t] ++ [.function name, .argCount (k + 1)]) []) := by
    rw [InfixReader.step, InfixReader.closeCall_behind, hout, Term.postfixAll, Term.postfixAll,
      List.append_nil]
  rw [hrun, InfixReader.run_step (by simp) hclose]
  rfl

theorem Passes.moreArgs (arg : (term 0 t).Passes ts) (others : (args (u :: as)).Passes us) :
    (args (t :: u :: as)).Passes (ts ++ .separator :: us) := by
  intro r name out k rest _
  obtain ⟨out', ops, hrun, hout, -⟩ := arg (r.inside (.call name) out k)
    (.separator :: (us ++ .closeParen :: rest)) rfl (.nil 0) (by simp)
  have hnext : ((r.inside (.call name) out k).behind out' ops).step .separator =
      .ok (r.inside (.call name) (out ++ t.postfixTokens) (k + 1)) := by
    rw [InfixReader.step, InfixReader.separator_behind (by simp) (by simp), hout]
  have hothers := others r name (out ++ t.postfixTokens) (k + 1) rest (by simp)
  have hcount : k + 1 + (u :: as).length = k + (t :: u :: as).length := by
    simp only [List.length_cons]
    omega
  have hall : Term.postfixAll (t :: u :: as) = t.postfixTokens ++ Term.postfixAll (u :: as) := by
    rw [Term.postfixAll]
  have hsplit : ts ++ .separator :: us ++ .closeParen :: rest =
      ts ++ .separator :: (us ++ .closeParen :: rest) := by
    simp
  rw [hsplit, hrun, InfixReader.run_step (by simp) hnext, hothers, hcount, hall,
    List.append_assoc out]

end Phrase

/-- By induction on how the tokens are read, for every reader that they may meet. -/
theorem Reads.passes {ts : List Token} {p : Phrase} (h : Reads ts p) : p.Passes ts := by
  induction h with
  | atom s => exact Phrase.passes_atom s
  | text s => exact Phrase.passes_text s
  | group _ inner => exact inner.group
  | call name _ inner => exact inner.call name
  | access _ _ _ table first second => exact table.access first second
  | unary op _ operand => exact operand.unary op
  | binary op _ _ left right => exact left.binary op right
  | loosen _ tighter => exact tighter.loosen
  | noArgs => exact Phrase.passes_noArgs
  | lastArg _ arg => exact arg.lastArg
  | moreArgs _ _ arg others => exact arg.moreArgs others

theorem toPostfix_eq_of_reads {ts : List Token} {t : Term} (h : Reads ts (.term 0 t)) :
    toPostfix ts = .ok t.postfixTokens := by
  obtain ⟨out, ops, hrun, hout, -⟩ := h.passes .start [] rfl (.nil 0) (by simp)
  rw [List.append_nil] at hrun
  have hend : InfixReader.start.run ts = .ok (InfixReader.start.behind out ops) := by
    rw [hrun]
    rfl
  rw [toPostfix_eq, hend, ← hout]
  simp [InfixReader.finish, InfixReader.behind, InfixReader.start, InfixReader.drain,
    Scope.opened]

end LiveSheet
