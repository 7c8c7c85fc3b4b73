import LiveSheet.Proofs.Formula.Parsing
import LiveSheet.Proofs.Formula.Surplus

namespace LiveSheet

theorem Reads.lower {ts : List Token} {level level' : Nat} {t : Term}
    (h : Reads ts (.term level' t)) (hle : level ≤ level') : Reads ts (.term level t) := by
  induction level' generalizing level with
  | zero =>
    obtain rfl := Nat.le_zero.mp hle
    exact h
  | succ n ih =>
    rcases Nat.lt_or_ge n level with hlt | hge
    · obtain rfl : level = n + 1 := by omega
      exact h
    · exact ih (.loosen h) hge

/-- An operator behind a term takes the last part of the term that binds tighter as its left
operand. By induction on how the term is read. -/
theorem Reads.extend {ls rs : List Token} {level : Nat} {l r : Term} (op : BinaryOp)
    (left : Reads ls (.term level l)) (right : Reads rs (.term unaryLevel r))
    (hle : level ≤ op.precedence) :
    ∃ t, Reads (ls ++ .operator op.symbol :: rs) (.term level t) := by
  have hlt := op.precedence_lt
  have hright := right.lower (Nat.succ_le_of_lt hlt)
  generalize hp : Phrase.term level l = p at left
  induction left generalizing level l with
  | atom | text | group | call | access =>
    cases hp
    unfold closedLevel at hle
    unfold unaryLevel at hlt
    omega
  | unary =>
    cases hp
    omega
  | @binary ls' rs' l' r' op' first second _ ih =>
    cases hp
    rcases Nat.eq_or_lt_of_le hle with he | hl
    · have hwhole := Reads.binary op' first second
      rw [he] at hwhole ⊢
      exact ⟨_, .binary op hwhole hright⟩
    · obtain ⟨t, ht⟩ := ih hl rfl
      rw [List.append_assoc, List.cons_append]
      exact ⟨_, .binary op' first ht⟩
  | loosen tighter ih =>
    cases hp
    rcases Nat.eq_or_lt_of_le hle with he | hl
    · have hwhole := Reads.loosen tighter
      rw [he] at hwhole ⊢
      exact ⟨_, .binary op hwhole hright⟩
    · obtain ⟨t, ht⟩ := ih hl rfl
      exact ⟨t, .loosen ht⟩
  | noArgs | lastArg | moreArgs => cases hp

/-- Tokens of an expression behind which an operand has to stand. -/
inductive Awaits : List Token → Prop
  | start : Awaits []
  | unary {ts : List Token} (op : UnaryOp) (before : Awaits ts) :
    Awaits (ts ++ [.operator op.written])
  | binary {ts : List Token} {t : Term} (op : BinaryOp) (left : Reads ts (.term 0 t)) :
    Awaits (ts ++ [.operator op.symbol])

theorem Awaits.complete {ts us : List Token} {u : Term} (h : Awaits ts)
    (operand : Reads us (.term unaryLevel u)) : ∃ t, Reads (ts ++ us) (.term 0 t) := by
  induction h generalizing us u with
  | start => exact ⟨u, operand.lower (Nat.zero_le _)⟩
  | unary op _ ih =>
    rw [List.append_assoc, List.singleton_append]
    exact ih (.unary op operand)
  | binary op left =>
    rw [List.append_assoc, List.singleton_append]
    exact left.extend op operand (Nat.zero_le _)

/-- Complete arguments of this number, a separator behind each. -/
inductive Separated : List Token → Nat → Prop
  | none : Separated [] 0
  | more {ts us : List Token} {count : Nat} {u : Term} (before : Separated ts count)
    (arg : Reads us (.term 0 u)) : Separated (ts ++ us ++ [.separator]) (count + 1)

theorem Separated.reads {ts us : List Token} {count : Nat} {v : Term} {vs : List Term}
    (h : Separated ts count) (others : Reads us (.args (v :: vs))) :
    ∃ as, Reads (ts ++ us) (.args as) := by
  induction h generalizing us v vs with
  | none => exact ⟨_, others⟩
  | more _ arg ih =>
    rw [List.append_assoc, List.append_assoc, List.singleton_append]
    exact ih (.moreArgs arg others)

theorem Separated.eq_nil {ts : List Token} (h : Separated ts 0) : ts = [] := by
  cases h
  rfl

theorem Separated.single {ts : List Token} (h : Separated ts 1) :
    ∃ us u, ts = us ++ [.separator] ∧ Reads us (.term 0 u) := by
  cases h with
  | more before arg =>
    rw [before.eq_nil, List.nil_append]
    exact ⟨_, _, rfl, arg⟩

/-- The tokens up to where an expression begins in the innermost of these stretches, of which each
has so many complete arguments. -/
inductive Opens : List (Enclosure × Nat) → List Token → Prop
  | whole : Opens [(.whole, 0)] []
  | group {outer : List (Enclosure × Nat)} {ts us : List Token} (around : Opens outer ts)
    (before : Awaits us) : Opens ((.group, 0) :: outer) (ts ++ us ++ [.openParen])
  | call {outer : List (Enclosure × Nat)} {ts us as : List Token} {count : Nat} (name : String)
    (around : Opens outer ts) (before : Awaits us) (args : Separated as count) :
    Opens ((.call name, count) :: outer) (ts ++ us ++ .atom name :: .openParen :: as)
  | access {outer : List (Enclosure × Nat)} {ts us vs as : List Token} {count : Nat} {v : Term}
    (around : Opens outer ts) (before : Awaits us) (table : Reads vs (.term closedLevel v))
    (indices : Separated as count) :
    Opens ((.access, count) :: outer) (ts ++ us ++ vs ++ .openBracket :: as)

/-- The tokens up to the end of an operand in the innermost of these stretches. -/
inductive Behind (stretches : List (Enclosure × Nat)) : List Token → Prop
  | operand {ts us vs : List Token} {v : Term} (opens : Opens stretches ts) (before : Awaits us)
    (operand : Reads vs (.term closedLevel v)) : Behind stretches (ts ++ us ++ vs)

section Stretches

variable {outer : List (Enclosure × Nat)} {ts us : List Token} {count : Nat} {u : Term}

/-- The expression that ends with an operand is a term. -/
theorem Behind.reads {stretches : List (Enclosure × Nat)} (h : Behind stretches ts) :
    ∃ before us u, Opens stretches before ∧ Reads us (.term 0 u) ∧ ts = before ++ us := by
  obtain ⟨opens, before, operand⟩ := h
  obtain ⟨u, hu⟩ := before.complete (.loosen operand)
  exact ⟨_, _, u, opens, hu, List.append_assoc ..⟩

theorem Opens.whole_eq_nil (h : Opens ((.whole, count) :: outer) ts) : ts = [] := by
  cases h
  rfl

theorem Opens.separated {enclosure : Enclosure} (h : Opens ((enclosure, count) :: outer) ts)
    (arg : Reads us (.term 0 u)) (hwhole : enclosure ≠ .whole) (hgroup : enclosure ≠ .group) :
    Opens ((enclosure, count + 1) :: outer) (ts ++ us ++ [.separator]) := by
  cases h with
  | whole => exact absurd rfl hwhole
  | group => exact absurd rfl hgroup
  | call name around before args =>
    simpa using Opens.call name around before (args.more arg)
  | access around before table indices =>
    simpa using Opens.access around before table (indices.more arg)

theorem Opens.closeGroup (h : Opens ((.group, count) :: outer) ts)
    (inner : Reads us (.term 0 u)) : Behind outer (ts ++ us ++ [.closeParen]) := by
  cases h with
  | group around before => simpa using Behind.operand around before (.group inner)

theorem Opens.closeCall {name : String} (h : Opens ((.call name, count) :: outer) ts)
    (inner : Reads us (.term 0 u)) : Behind outer (ts ++ us ++ [.closeParen]) := by
  cases h with
  | call _ around before args =>
    obtain ⟨as, hargs⟩ := args.reads (.lastArg inner)
    simpa using Behind.operand around before (.call name hargs)

theorem Opens.closeEmptyCall {name : String} (h : Opens ((.call name, 0) :: outer) ts) :
    Behind outer (ts ++ [.closeParen]) := by
  cases h with
  | call _ around before args =>
    rw [args.eq_nil]
    simpa using Behind.operand around before (.call name .noArgs)

theorem Opens.closeAccess (h : Opens ((.access, 1) :: outer) ts) (second : Reads us (.term 0 u)) :
    Behind outer (ts ++ us ++ [.closeBracket]) := by
  cases h with
  | access around before table indices =>
    obtain ⟨rs, row, rfl, first⟩ := indices.single
    simpa using Behind.operand around before (.access table first second)

end Stretches

namespace InfixReader

/-- The stretches that are open, innermost first, with the number of their separators. -/
def shape (r : InfixReader) : List (Enclosure × Nat) :=
  (r.scope :: r.outer).map fun s => (s.enclosure, s.separators)

/-- The tokens that a reader has read are the front part of a formula. -/
inductive HasRead (r : InfixReader) : List Token → Prop
  | awaiting {ts us : List Token} (after : r.afterOperand = false) (opens : Opens r.shape ts)
    (awaits : Awaits us) (empty : r.scope.hasArgs = false → us = []) : HasRead r (ts ++ us)
  | complete {ts : List Token} (after : r.afterOperand = true) (behind : Behind r.shape ts) :
    HasRead r ts

theorem start_hasRead : start.HasRead [] :=
  .awaiting (r := start) rfl .whole .start fun _ => rfl

variable {r r' : InfixReader} {ts : List Token}

theorem HasRead.awaits (h : r.HasRead ts) (after : r.afterOperand = false) :
    ∃ before us, Opens r.shape before ∧ Awaits us ∧ (r.scope.hasArgs = false → us = []) ∧
      ts = before ++ us := by
  cases h with
  | awaiting _ opens awaits empty => exact ⟨_, _, opens, awaits, empty, rfl⟩
  | complete hafter _ =>
    rw [after] at hafter
    cases hafter

theorem HasRead.behind (h : r.HasRead ts) (after : r.afterOperand = true) :
    Behind r.shape ts := by
  cases h with
  | awaiting hafter _ _ _ =>
    rw [after] at hafter
    cases hafter
  | complete _ behind => exact behind

/-- A stretch has just been opened. -/
theorem HasRead.opened (after : r.afterOperand = false) (opens : Opens r.shape ts) :
    r.HasRead ts := by
  rw [← List.append_nil ts]
  exact .awaiting after opens .start fun _ => rfl

theorem HasRead.operand (h : r.HasRead ts) (after : r.afterOperand = false) {t : Token}
    {v : Term} (ht : Reads [t] (.term closedLevel v)) : (r.operand t).HasRead (ts ++ [t]) := by
  obtain ⟨before, us, opens, awaits, -, rfl⟩ := h.awaits after
  exact .complete (r := r.operand t) rfl (.operand opens awaits ht)

theorem HasRead.operator (h : r.HasRead ts) {symbol : String}
    (fit : (if r.afterOperand then standsBetween symbol else standsBefore symbol) = true)
    (hr : r.operator symbol = .ok r') : r'.HasRead (ts ++ [.operator symbol]) := by
  obtain ⟨op, -, rfl⟩ := operator_ok hr
  cases hafter : r.afterOperand with
  | false =>
    rw [hafter] at fit
    obtain ⟨op, rfl⟩ := standsBefore_iff.mp fit
    obtain ⟨before, us, opens, awaits, -, rfl⟩ := h.awaits hafter
    rw [List.append_assoc]
    exact .awaiting rfl opens (.unary op awaits) fun hf => nomatch hf
  | true =>
    rw [hafter] at fit
    obtain ⟨op, rfl⟩ := standsBetween_iff.mp fit
    obtain ⟨before, us, u, opens, hu, rfl⟩ := (h.behind hafter).reads
    rw [List.append_assoc]
    exact .awaiting rfl opens (.binary op hu) fun hf => nomatch hf

theorem HasRead.openGroup (h : r.HasRead ts) (after : r.afterOperand = false) :
    r.openGroup.HasRead (ts ++ [.openParen]) := by
  obtain ⟨before, us, opens, awaits, -, rfl⟩ := h.awaits after
  exact .opened (r := r.openGroup) rfl (.group opens awaits)

theorem HasRead.openCall (h : r.HasRead ts) (after : r.afterOperand = false) (name : String) :
    (r.openCall name).HasRead (ts ++ [.atom name, .openParen]) := by
  obtain ⟨before, us, opens, awaits, -, rfl⟩ := h.awaits after
  exact .opened (r := r.openCall name) rfl (.call name opens awaits .none)

theorem HasRead.openBracket (h : r.HasRead ts) (hr : r.openBracket = .ok r') :
    r'.HasRead (ts ++ [.openBracket]) := by
  unfold InfixReader.openBracket at hr
  split at hr
  next hafter =>
    cases hr
    obtain ⟨opens, awaits, operand⟩ := h.behind hafter
    exact .opened rfl (.access opens awaits operand .none)
  next => cases hr

theorem HasRead.separator (h : r.HasRead ts) (hr : r.separator = .ok r') :
    r'.HasRead (ts ++ [.separator]) := by
  unfold InfixReader.separator at hr
  split at hr
  next => cases hr
  next hafter =>
    obtain ⟨before, us, u, opens, hu, rfl⟩ := (h.behind (by simpa using hafter)).reads
    have hnext (hwhole : r.scope.enclosure ≠ .whole) (hgroup : r.scope.enclosure ≠ .group) :
        HasRead { r.drain with
          scope := { r.drain.scope with separators := r.drain.scope.separators + 1 },
          afterOperand := false } (before ++ us ++ [.separator]) :=
      .opened rfl (opens.separated hu hwhole hgroup)
    split at hr
    next henclosure =>
      cases hr
      exact hnext (by simp [henclosure]) (by simp [henclosure])
    next henclosure =>
      cases hr
      exact hnext (by simp [henclosure]) (by simp [henclosure])
    next => cases hr
    next => cases hr

theorem HasRead.leave {tokens : List Token} (nonempty : r.outer ≠ [])
    (behind : Behind r.shape.tail ts) : (r.leave tokens).HasRead ts := by
  cases ho : r.outer with
  | nil => exact absurd ho nonempty
  | cons around outer =>
    simp only [InfixReader.leave, ho]
    refine .complete rfl ?_
    simpa [shape, ho] using behind

theorem HasRead.closeParen (h : r.HasRead ts) (tidy : r.Tidy) (hr : r.closeParen = .ok r') :
    r'.HasRead (ts ++ [.closeParen]) := by
  have houter (hwhole : r.scope.enclosure ≠ .whole) : r.outer ≠ [] := by
    intro ho
    have hn := tidy.nested
    rw [ho] at hn
    exact hwhole hn.1
  have hshape : r.shape = (r.scope.enclosure, r.scope.separators) :: r.shape.tail := rfl
  unfold InfixReader.closeParen at hr
  dsimp only at hr
  split at hr
  next => cases hr
  next => cases hr
  next henclosure =>
    split_ifs at hr with hunfinished hargs
    cases hr
    obtain ⟨before, us, u, opens, hu, rfl⟩ :=
      (h.behind (by simpa [hargs] using hunfinished)).reads
    rw [hshape, henclosure] at opens
    exact .leave (houter (by simp [henclosure])) (opens.closeGroup hu)
  next name henclosure =>
    split_ifs at hr with hunfinished
    cases hr
    apply HasRead.leave (houter (by simp [henclosure]))
    cases hafter : r.afterOperand with
    | true =>
      obtain ⟨before, us, u, opens, hu, rfl⟩ := (h.behind hafter).reads
      rw [hshape, henclosure] at opens
      exact opens.closeCall hu
    | false =>
      have hargs : r.scope.hasArgs = false := by simpa [hafter] using hunfinished
      obtain ⟨before, us, opens, -, empty, rfl⟩ := h.awaits hafter
      rw [hshape, henclosure, (tidy.bare hargs).1] at opens
      rw [empty hargs, List.append_nil]
      exact opens.closeEmptyCall

theorem HasRead.closeBracket (h : r.HasRead ts) (tidy : r.Tidy) (hr : r.closeBracket = .ok r') :
    r'.HasRead (ts ++ [.closeBracket]) := by
  unfold InfixReader.closeBracket at hr
  split at hr
  next henclosure =>
    split_ifs at hr with hclosed
    cases hr
    simp only [Bool.and_eq_true, decide_eq_true_eq] at hclosed
    obtain ⟨hcount, hafter⟩ := hclosed
    have hseparators : r.scope.separators = 1 := by
      unfold Scope.argCount at hcount
      split at hcount <;> omega
    have houter : r.outer ≠ [] := by
      intro ho
      have hn := tidy.nested
      rw [ho, Nested, henclosure] at hn
      cases hn.1
    have hshape : r.shape = (r.scope.enclosure, r.scope.separators) :: r.shape.tail := rfl
    obtain ⟨before, us, u, opens, hu, rfl⟩ := (h.behind hafter).reads
    rw [hshape, henclosure, hseparators] at opens
    exact .leave houter (opens.closeAccess hu)
  next => cases hr

/-- Another token that fits, not beside an operand where it begins one, leads on into a formula. -/
theorem HasRead.step (h : r.HasRead ts) (tidy : r.Tidy) {t : Token}
    (fit : ∀ symbol, t = .operator symbol →
      (if r.afterOperand then standsBetween symbol else standsBefore symbol) = true)
    (apart : (r.afterOperand && t.startsOperand) = false) (hr : r.step t = .ok r') :
    r'.HasRead (ts ++ [t]) := by
  cases t with
  | atom s =>
    cases hr
    exact h.operand (by simpa [Token.startsOperand] using apart) (.atom s)
  | text s =>
    cases hr
    exact h.operand (by simpa [Token.startsOperand] using apart) (.text s)
  | operator symbol => exact h.operator (fit symbol rfl) hr
  | openParen =>
    cases hr
    exact h.openGroup (by simpa [Token.startsOperand] using apart)
  | closeParen => exact h.closeParen tidy hr
  | separator => exact h.separator hr
  | openBracket => exact h.openBracket hr
  | closeBracket => exact h.closeBracket tidy hr
  | function name => cases hr
  | argCount count => cases hr
  | tableAccess => cases hr

theorem HasRead.run (h : r.HasRead ts) (tidy : r.Tidy) {us : List Token}
    (fit : operatorsFit r.afterOperand us = true) (apart : sideBySide r.afterOperand us = 0)
    (hr : r.run us = .ok r') : r'.HasRead (ts ++ us) := by
  fun_induction InfixReader.run r us generalizing ts with
  | case1 r =>
    cases hr
    rwa [List.append_nil]
  | case2 r name rest ih =>
    obtain ⟨hbehind, hrest⟩ := Nat.add_eq_zero_iff.mp apart
    have hafter : r.afterOperand = false := by simpa using hbehind
    have hopened : r.Moves (r.openCall name) false r.afterOperand.toNat :=
      tidy.opened (by simp) (by simp)
    have hmore := ih (h.openCall hafter name) hopened.tidy fit hrest hr
    rwa [List.append_assoc] at hmore
  | case3 r t rest hcall r₁ hstep ih =>
    obtain ⟨hop, hfit⟩ := operatorsFit_cons_iff.mp fit
    rw [sideBySide_cons fun s rest' ht hrest => hcall s rest' ht hrest] at apart
    obtain ⟨hbehind, hrest⟩ := Nat.add_eq_zero_iff.mp apart
    have hmoves := tidy.step (fun symbol ht => (hop symbol ht).1) hstep
    rw [← hmoves.afterOperand] at hfit hrest
    have hmore := ih (h.step tidy (fun symbol ht => (hop symbol ht).1)
      (Bool.toNat_eq_zero.mp hbehind) hstep) hmoves.tidy hfit hrest hr
    rwa [List.append_assoc] at hmore
  | case4 => cases hr

end InfixReader

/-- What is accepted is a formula, if its operators fit and no operands stand side by side. -/
theorem isFormula_of_toPostfix {ts output : List Token} (fit : operatorsFit false ts = true)
    (apart : sideBySide false ts = 0) (hne : ts ≠ []) (h : toPostfix ts = .ok output) :
    ∃ t, IsFormula ts t := by
  rw [toPostfix_eq] at h
  split at h
  next r hr =>
    unfold InfixReader.finish at h
    split at h <;> cases h
    next hwhole =>
    have hread := InfixReader.start_hasRead.run InfixReader.start_tidy fit apart hr
    obtain ⟨-, -, hcomplete⟩ := InfixReader.start_tidy.run fit hr
    obtain ⟨before, us, u, opens, hu, hts⟩ := (hread.behind (hcomplete hne hwhole)).reads
    have hshape : r.shape = (r.scope.enclosure, r.scope.separators) :: r.shape.tail := rfl
    rw [hshape, hwhole] at opens
    rw [opens.whole_eq_nil, List.nil_append, List.nil_append] at hts
    exact ⟨u, hts ▸ hu⟩
  next => cases h

section Compiling

variable {resolve : Resolver} {formula : String} {e : Expr}

/-- A formula of the grammar compiles to the tree of its term. -/
theorem compile_of_isFormula {t : Term} (h : IsFormula (tokenize formula) t) :
    compile resolve formula = .ok e ↔ t.tree? resolve = some e := by
  have hp : parsePostfix formula = .ok t.postfixTokens := (toPostfix_of_isFormula h).2
  rw [compile, hp, ← buildTree_postfixTokens]
  rfl

/-- Where every operator fits, just the formulas of the grammar compile, to their trees, and none
with two operands side by side. -/
theorem compile_and_fit_iff :
    compile resolve formula = .ok e ∧ operatorsFit false (tokenize formula) = true ↔
      ∃ t, IsFormula (tokenize formula) t ∧ t.tree? resolve = some e ∧
        sideBySide false (tokenize formula) = 0 := by
  constructor
  · rintro ⟨hcompile, hfit⟩
    obtain ⟨output, hp, hb⟩ := compile_eq_ok hcompile
    have hapart := sideBySide_eq_zero hfit hp hb
    have hne : tokenize formula ≠ [] := by
      intro hnil
      rw [parsePostfix, hnil] at hp
      cases hp
      cases hb
    obtain ⟨t, ht⟩ := isFormula_of_toPostfix hfit hapart hne hp
    exact ⟨t, ht, (compile_of_isFormula ht).mp hcompile, hapart⟩
  · rintro ⟨t, ht, htree, -⟩
    exact ⟨(compile_of_isFormula ht).mpr htree, operatorsFit_of_isFormula ht⟩

/-- The formula `1 2 +` compiles to a sum, although it is none of the grammar. -/
theorem compile_operator_behind_operands :
    compile (fun _ => none) "1 2 +" =
        .ok (.binary .add (.literal (.float 1)) (.literal (.float 2))) ∧
      ¬∃ t, IsFormula (tokenize "1 2 +") t := by
  constructor
  · have hp : parsePostfix "1 2 +" = .ok [.atom "1", .atom "2", .operator "+"] := by decide +kernel
    rw [compile, hp]
    rfl
  · rintro ⟨t, ht⟩
    have hfit : operatorsFit false (tokenize "1 2 +") = false := by decide +kernel
    rw [operatorsFit_of_isFormula ht] at hfit
    cases hfit

end Compiling

end LiveSheet
