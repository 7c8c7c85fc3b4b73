import LiveSheet.Formula.Grammar
import LiveSheet.Proofs.Formula.Building

namespace LiveSheet

theorem Term.length_treeAll? {resolve : Resolver} {ts : List Term} {es : List Expr}
    (h : treeAll? resolve ts = some es) : es.length = ts.length := by
  induction ts generalizing es with
  | nil =>
    cases h
    rfl
  | cons t ts ih =>
    simp only [treeAll?, Option.bind_eq_bind, Option.bind_eq_some_iff, Option.pure_def,
      Option.some.injEq] at h
    obtain ⟨e, -, es', hes, rfl⟩ := h
    simp [ih hes]

section Assembly

variable {resolve : Resolver} {stack result : List Expr} {rest : List Token}

theorem buildFrom_atom (s : String) : buildFrom resolve stack (.atom s :: rest) = .ok result ↔
    ∃ e, (classifyAtom resolve s).toOption = some e ∧
      buildFrom resolve (e :: stack) rest = .ok result := by
  rw [buildFrom]
  cases classifyAtom resolve s with
  | ok e => simp [bind, Except.bind, Except.toOption]
  | error cause => simp [bind, Except.bind, Except.toOption]

theorem buildFrom_unary (op : UnaryOp) (e : Expr) :
    buildFrom resolve (e :: stack) (.operator op.symbol :: rest) =
      buildFrom resolve (.unary op e :: stack) rest := by
  have hfind : Operator.find? op.symbol = some (.unary op) := Operator.find?_symbol (.unary op)
  simp only [buildFrom, pushOperator, hfind, bind, Except.bind]

theorem buildFrom_binary (op : BinaryOp) (l r : Expr) :
    buildFrom resolve (r :: l :: stack) (.operator op.symbol :: rest) =
      buildFrom resolve (.binary op l r :: stack) rest := by
  have hfind : Operator.find? op.symbol = some (.binary op) := Operator.find?_symbol (.binary op)
  simp only [buildFrom, pushOperator, hfind, bind, Except.bind]

theorem buildFrom_call (name : String) (args : List Expr) :
    buildFrom resolve (args.reverse ++ stack)
        (.function name :: .argCount args.length :: rest) = .ok result ↔
      ∃ e, Term.applied? name args = some e ∧ buildFrom resolve (e :: stack) rest = .ok result := by
  have hpop : popOperands? (args.reverse ++ stack) args.length = some (args, stack) := by
    simp [popOperands?]
  rw [buildFrom, pushCall, Term.applied?]
  cases Function.find? name with
  | none => simp [bind, Except.bind]
  | some f =>
    dsimp only
    rw [hpop]
    split_ifs <;> simp [bind, Except.bind]

theorem buildFrom_access (table row col : Expr) :
    buildFrom resolve (col :: row :: table :: stack) (.tableAccess :: rest) = .ok result ↔
      ∃ e, Term.element? table row col = some e ∧
        buildFrom resolve (e :: stack) rest = .ok result := by
  rw [buildFrom]
  cases table <;> simp [pushAccess, Term.element?, bind, Except.bind]

mutual

/-- The builder gets through the postfix form of a term exactly if the term has a tree, which is
then on top of the stack. -/
theorem buildFrom_postfixTokens (t : Term) (stack : List Expr) (rest : List Token) :
    buildFrom resolve stack (t.postfixTokens ++ rest) = .ok result ↔
      ∃ e, t.tree? resolve = some e ∧ buildFrom resolve (e :: stack) rest = .ok result := by
  cases t with
  | atom s => exact buildFrom_atom s
  | text s => simp [Term.postfixTokens, Term.tree?, buildFrom]
  | unary op t =>
    rw [Term.postfixTokens, List.append_assoc, List.singleton_append,
      buildFrom_postfixTokens t stack]
    simp only [buildFrom_unary, Term.tree?, Option.map_eq_some_iff]
    constructor
    · rintro ⟨e, he, h⟩
      exact ⟨_, ⟨e, he, rfl⟩, h⟩
    · rintro ⟨_, ⟨e, he, rfl⟩, h⟩
      exact ⟨e, he, h⟩
  | binary op l r =>
    rw [Term.postfixTokens, List.append_assoc, List.append_assoc, List.singleton_append,
      buildFrom_postfixTokens l stack]
    simp only [buildFrom_postfixTokens r, buildFrom_binary, Term.tree?, Option.bind_eq_bind,
      Option.bind_eq_some_iff, Option.pure_def, Option.some.injEq]
    constructor
    · rintro ⟨el, hl, er, hr, h⟩
      exact ⟨_, ⟨el, hl, er, hr, rfl⟩, h⟩
    · rintro ⟨_, ⟨el, hl, er, hr, rfl⟩, h⟩
      exact ⟨el, hl, er, hr, h⟩
  | call name args =>
    rw [Term.postfixTokens, List.append_assoc, buildFrom_postfixAll args stack]
    simp only [Term.tree?, Option.bind_eq_bind, Option.bind_eq_some_iff]
    constructor
    · rintro ⟨es, hes, h⟩
      rw [← Term.length_treeAll? hes] at h
      obtain ⟨e, he, h⟩ := (buildFrom_call name es).mp h
      exact ⟨e, ⟨es, hes, he⟩, h⟩
    · rintro ⟨e, ⟨es, hes, he⟩, h⟩
      refine ⟨es, hes, ?_⟩
      rw [← Term.length_treeAll? hes]
      exact (buildFrom_call name es).mpr ⟨e, he, h⟩
  | access t row col =>
    rw [Term.postfixTokens, List.append_assoc, List.append_assoc, List.append_assoc,
      List.singleton_append, buildFrom_postfixTokens t stack]
    simp only [buildFrom_postfixTokens row, buildFrom_postfixTokens col, buildFrom_access,
      Term.tree?, Option.bind_eq_bind, Option.bind_eq_some_iff]
    constructor
    · rintro ⟨et, ht, er, hr, ec, hc, e, he, h⟩
      exact ⟨e, ⟨et, ht, er, hr, ec, hc, he⟩, h⟩
    · rintro ⟨e, ⟨et, ht, er, hr, ec, hc, he⟩, h⟩
      exact ⟨et, ht, er, hr, ec, hc, e, he, h⟩

theorem buildFrom_postfixAll (ts : List Term) (stack : List Expr) (rest : List Token) :
    buildFrom resolve stack (Term.postfixAll ts ++ rest) = .ok result ↔
      ∃ es, Term.treeAll? resolve ts = some es ∧
        buildFrom resolve (es.reverse ++ stack) rest = .ok result := by
  cases ts with
  | nil => simp [Term.postfixAll, Term.treeAll?]
  | cons t ts =>
    rw [Term.postfixAll, List.append_assoc, buildFrom_postfixTokens t stack]
    simp only [buildFrom_postfixAll ts, Term.treeAll?, Option.bind_eq_bind,
      Option.bind_eq_some_iff, Option.pure_def, Option.some.injEq]
    constructor
    · rintro ⟨e, he, es, hes, h⟩
      exact ⟨_, ⟨e, he, es, hes, rfl⟩, by simpa using h⟩
    · rintro ⟨_, ⟨e, he, es, hes, rfl⟩, h⟩
      exact ⟨e, he, es, hes, by simpa using h⟩

end

/-- The builder makes the tree of a term of its postfix form. -/
theorem buildTree_postfixTokens (t : Term) (e : Expr) :
    buildTree resolve t.postfixTokens = .ok e ↔ t.tree? resolve = some e := by
  constructor
  · intro h
    have hb := buildFrom_of_buildTree h
    rw [← List.append_nil t.postfixTokens, buildFrom_postfixTokens] at hb
    obtain ⟨e', he, hb⟩ := hb
    cases hb
    exact he
  · intro h
    have hb : buildFrom resolve [] (t.postfixTokens ++ []) = .ok [e] :=
      (buildFrom_postfixTokens t [] []).mpr ⟨e, h, rfl⟩
    rw [List.append_nil] at hb
    simp [buildTree, hb]

end Assembly

end LiveSheet
