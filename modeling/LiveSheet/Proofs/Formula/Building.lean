import Mathlib.Tactic.SplitIfs
import Mathlib.Tactic.Tauto
import LiveSheet.Formula.Compile

namespace LiveSheet

theorem Except.of_bind_eq_ok {ε α β : Type} {x : Except ε α} {f : α → Except ε β} {b : β}
    (h : x >>= f = .ok b) : ∃ a, x = .ok a ∧ f a = .ok b := by
  cases x with
  | ok a => exact ⟨a, rfl, h⟩
  | error e => cases h

namespace Expr

mutual

/-- The references of a tree in the order in which they are written. -/
def refs : Expr → List CellRef
  | .literal _ => []
  | .cell ref => [ref]
  | .element table row col => table :: (row.refs ++ col.refs)
  | .unary _ x => x.refs
  | .binary _ l r => l.refs ++ r.refs
  | .call _ args => refsAll args

def refsAll : List Expr → List CellRef
  | [] => []
  | x :: xs => x.refs ++ refsAll xs

/-- The tree with other references in place of its own. -/
def mapRefs (f : CellRef → CellRef) : Expr → Expr
  | .literal v => .literal v
  | .cell ref => .cell (f ref)
  | .element table row col => .element (f table) (row.mapRefs f) (col.mapRefs f)
  | .unary op x => .unary op (x.mapRefs f)
  | .binary op l r => .binary op (l.mapRefs f) (r.mapRefs f)
  | .call g args => .call g (mapRefsAll f args)

def mapRefsAll (f : CellRef → CellRef) : List Expr → List Expr
  | [] => []
  | x :: xs => x.mapRefs f :: mapRefsAll f xs

end

mutual

theorem cells_eq (e : Expr) : e.cells = e.refs.map CellRef.id := by
  cases e <;> simp [cells, refs, cells_eq, cellsAll_eq_refsAll]

theorem cellsAll_eq_refsAll (es : List Expr) : cellsAll es = (refsAll es).map CellRef.id := by
  cases es <;> simp [cellsAll, refsAll, cells_eq, cellsAll_eq_refsAll]

theorem mapRefs_mapRefs (f g : CellRef → CellRef) (e : Expr) :
    (e.mapRefs f).mapRefs g = e.mapRefs (g ∘ f) := by
  cases e <;> simp [mapRefs, mapRefs_mapRefs, mapRefsAll_mapRefsAll]

theorem mapRefsAll_mapRefsAll (f g : CellRef → CellRef) (es : List Expr) :
    mapRefsAll g (mapRefsAll f es) = mapRefsAll (g ∘ f) es := by
  cases es <;> simp [mapRefsAll, mapRefs_mapRefs, mapRefsAll_mapRefsAll]

theorem mapRefs_id (e : Expr) : e.mapRefs id = e := by
  cases e <;> simp [mapRefs, mapRefs_id, mapRefsAll_id]

theorem mapRefsAll_id (es : List Expr) : mapRefsAll id es = es := by
  cases es <;> simp [mapRefsAll, mapRefs_id, mapRefsAll_id]

end

theorem mem_cells_of_mem_refs {e : Expr} {ref : CellRef} (h : ref ∈ e.refs) : ref.id ∈ e.cells := by
  rw [cells_eq]
  exact List.mem_map_of_mem h

theorem mapRefsAll_eq (f : CellRef → CellRef) (es : List Expr) :
    mapRefsAll f es = es.map (mapRefs f) := by
  induction es with
  | nil => rfl
  | cons e es ih => simp [mapRefsAll, ih]

theorem mem_refsAll {es : List Expr} {ref : CellRef} :
    ref ∈ refsAll es ↔ ∃ e ∈ es, ref ∈ e.refs := by
  induction es with
  | nil => simp [refsAll]
  | cons e es ih => simp [refsAll, ih]

end Expr

section Building

variable {resolve : Resolver} {stack stack' : List Expr} {ref : CellRef}

/-- An atom is a reference to what it names, or has the same meaning wherever it stands. -/
theorem classifyAtom_cases {s : String} {e : Expr} (h : classifyAtom resolve s = .ok e) :
    (∃ id, resolve s = some id ∧ isValidName s = true ∧ e = .cell ⟨id, s⟩) ∨
      e.refs = [] ∧ (∀ f, e.mapRefs f = e) ∧ ∀ other, classifyAtom other s = .ok e := by
  unfold classifyAtom at h ⊢
  dsimp only at h ⊢
  split_ifs at h ⊢ with hq ht hf hn hv
  · cases h
    exact .inr ⟨rfl, fun _ => rfl, fun _ => rfl⟩
  · cases h
    exact .inr ⟨rfl, fun _ => rfl, fun _ => rfl⟩
  · cases hr : readFloat? s.toList with
    | none => rw [hr] at h; cases h
    | some x =>
      rw [hr] at h
      cases h
      exact .inr ⟨rfl, fun _ => rfl, fun _ => rfl⟩
  · cases hr : resolve s with
    | none => rw [hr] at h; cases h
    | some id =>
      rw [hr] at h
      cases h
      exact .inl ⟨id, rfl, by simpa using hv, rfl⟩

theorem mem_refsAll_pushOperator {symbol : String}
    (h : pushOperator stack symbol = .ok stack') :
    ref ∈ Expr.refsAll stack' ↔ ref ∈ Expr.refsAll stack := by
  unfold pushOperator at h
  split at h <;> cases h
  next op r l rest _ => simp only [Expr.refsAll, Expr.refs, List.mem_append]; tauto
  next => rfl

theorem mem_refsAll_pushCall {name : String} {count : Nat}
    (h : pushCall stack name count = .ok stack') :
    ref ∈ Expr.refsAll stack' ↔ ref ∈ Expr.refsAll stack := by
  unfold pushCall popOperands? at h
  split at h
  next => cases h
  next f _ =>
    split_ifs at h with ha hc
    cases h
    have hs : ref ∈ Expr.refsAll stack ↔
        ref ∈ Expr.refsAll (stack.take count) ∨ ref ∈ Expr.refsAll (stack.drop count) := by
      conv => lhs; rw [← List.take_append_drop count stack]
      simp only [Expr.mem_refsAll, List.mem_append, or_and_right, exists_or]
    rw [hs]
    simp only [Expr.refsAll, Expr.refs, List.mem_append, Expr.mem_refsAll, List.mem_reverse]

theorem mem_refsAll_pushAccess (h : pushAccess stack = .ok stack') :
    ref ∈ Expr.refsAll stack' ↔ ref ∈ Expr.refsAll stack := by
  unfold pushAccess at h
  split at h <;> cases h
  simp only [Expr.refsAll, Expr.refs, List.mem_cons, List.mem_append, List.not_mem_nil, or_false]
  tauto

theorem mem_refs_of_classifyAtom {s : String} {e : Expr} {ref : CellRef}
    (h : classifyAtom resolve s = .ok e) :
    ref ∈ e.refs ↔ ref.name = s ∧ classifyAtom resolve ref.name = .ok (.cell ref) := by
  rcases classifyAtom_cases h with ⟨id, -, -, rfl⟩ | ⟨hnil, -, -⟩
  · constructor
    · intro hm
      obtain rfl : ref = ⟨id, s⟩ := by simpa [Expr.refs] using hm
      exact ⟨rfl, h⟩
    · rintro ⟨rfl, hc⟩
      have heq := Except.ok.inj (h.symm.trans hc)
      rw [heq]
      simp [Expr.refs]
  · rw [hnil]
    constructor
    · intro hm
      cases hm
    · rintro ⟨rfl, hc⟩
      have heq := Except.ok.inj (h.symm.trans hc)
      rw [heq] at hnil
      cases hnil

/-- The trees that are built have the references of those on the stack, and of the atoms. -/
theorem mem_refsAll_buildFrom {tokens : List Token}
    (h : buildFrom resolve stack tokens = .ok stack') :
    (∀ ref, ref ∈ Expr.refsAll stack' ↔ ref ∈ Expr.refsAll stack ∨
      .atom ref.name ∈ tokens ∧ classifyAtom resolve ref.name = .ok (.cell ref)) ∧
      ∀ s, .atom s ∈ tokens → ∃ e, classifyAtom resolve s = .ok e := by
  fun_induction buildFrom resolve stack tokens with
  | case1 stack =>
    cases h
    simp
  | case2 stack name count rest ih =>
    obtain ⟨stack₁, hp, h⟩ := Except.of_bind_eq_ok h
    simpa [mem_refsAll_pushCall hp] using ih stack₁ h
  | case3 => cases h
  | case4 stack s rest ih =>
    obtain ⟨e, he, h⟩ := Except.of_bind_eq_ok h
    obtain ⟨hrefs, hatoms⟩ := ih e h
    refine ⟨fun ref => ?_, fun t ht => ?_⟩
    · rw [hrefs]
      simp only [Expr.refsAll, List.mem_append, mem_refs_of_classifyAtom he, List.mem_cons,
        Token.atom.injEq]
      tauto
    · rcases List.mem_cons.mp ht with ht | ht
      · cases ht
        exact ⟨e, he⟩
      · exact hatoms t ht
  | case5 stack s rest ih => simpa [Expr.refsAll, Expr.refs] using ih h
  | case6 stack symbol rest ih =>
    obtain ⟨stack₁, hp, h⟩ := Except.of_bind_eq_ok h
    simpa [mem_refsAll_pushOperator hp] using ih stack₁ h
  | case7 stack rest ih =>
    obtain ⟨stack₁, hp, h⟩ := Except.of_bind_eq_ok h
    simpa [mem_refsAll_pushAccess hp] using ih stack₁ h
  | case8 => cases h

variable {f : CellRef → CellRef}

/-- Which operands an operator finds on the stack does not depend on what they refer to. -/
theorem pushOperator_mapRefs (stack : List Expr) (symbol : String) :
    pushOperator (stack.map (Expr.mapRefs f)) symbol =
      (pushOperator stack symbol).map (List.map (Expr.mapRefs f)) := by
  unfold pushOperator
  rcases Operator.find? symbol with _ | ⟨op | op⟩
  · rfl
  · rcases stack with _ | ⟨r, _ | ⟨l, rest⟩⟩ <;> rfl
  · rcases stack with _ | ⟨x, rest⟩ <;> rfl

theorem popOperands?_map (f : Expr → Expr) (stack : List Expr) (count : Nat) :
    popOperands? (stack.map f) count =
      (popOperands? stack count).map fun taken => (taken.1.map f, taken.2.map f) := by
  unfold popOperands?
  split_ifs with hm hs
  · simp
  · simp at hm
    omega
  · simp at hm
    omega
  · rfl

theorem pushCall_mapRefs (stack : List Expr) (name : String) (count : Nat) :
    pushCall (stack.map (Expr.mapRefs f)) name count =
      (pushCall stack name count).map (List.map (Expr.mapRefs f)) := by
  unfold pushCall
  cases Function.find? name with
  | none => rfl
  | some fn =>
    dsimp only
    rw [popOperands?_map]
    split_ifs
    · cases popOperands? stack count with
      | none => rfl
      | some taken => simp [Except.map, Expr.mapRefs, Expr.mapRefsAll_eq]
    · rfl

theorem pushAccess_mapRefs (stack : List Expr) :
    pushAccess (stack.map (Expr.mapRefs f)) =
      (pushAccess stack).map (List.map (Expr.mapRefs f)) := by
  rcases stack with _ | ⟨col, _ | ⟨row, _ | ⟨table, rest⟩⟩⟩
  · rfl
  · rfl
  · rfl
  · cases table <;> rfl

/-- The token with another text if it is an atom. -/
def Token.mapAtom (g : String → String) : Token → Token
  | .atom s => .atom (g s)
  | t => t

/-- Atoms that come to mean the same, up to what they refer to, build the same tree. -/
theorem buildFrom_mapRefs {other : Resolver} {g : String → String} {tokens : List Token}
    (h : buildFrom resolve stack tokens = .ok stack')
    (atoms : ∀ s e, .atom s ∈ tokens → classifyAtom resolve s = .ok e →
      classifyAtom other (g s) = .ok (e.mapRefs f)) :
    buildFrom other (stack.map (Expr.mapRefs f)) (tokens.map (Token.mapAtom g)) =
      .ok (stack'.map (Expr.mapRefs f)) := by
  fun_induction buildFrom resolve stack tokens with
  | case1 stack =>
    cases h
    rfl
  | case2 stack name count rest ih =>
    obtain ⟨stack₁, hp, h⟩ := Except.of_bind_eq_ok h
    simp only [List.map_cons, Token.mapAtom, buildFrom, pushCall_mapRefs, hp]
    exact ih stack₁ h fun s e hs => atoms s e (by simp [hs])
  | case3 => cases h
  | case4 stack s rest ih =>
    obtain ⟨e, he, h⟩ := Except.of_bind_eq_ok h
    simp only [List.map_cons, Token.mapAtom, buildFrom, atoms s e (by simp) he]
    exact ih e h fun t e' ht => atoms t e' (by simp [ht])
  | case5 stack s rest ih =>
    exact ih h fun t e' ht => atoms t e' (by simp [ht])
  | case6 stack symbol rest ih =>
    obtain ⟨stack₁, hp, h⟩ := Except.of_bind_eq_ok h
    simp only [List.map_cons, Token.mapAtom, buildFrom, pushOperator_mapRefs, hp]
    exact ih stack₁ h fun s e hs => atoms s e (by simp [hs])
  | case7 stack rest ih =>
    obtain ⟨stack₁, hp, h⟩ := Except.of_bind_eq_ok h
    simp only [List.map_cons, Token.mapAtom, buildFrom, pushAccess_mapRefs, hp]
    exact ih stack₁ h fun s e hs => atoms s e (by simp [hs])
  | case8 => cases h

theorem buildFrom_of_buildTree {tokens : List Token} {e : Expr}
    (h : buildTree resolve tokens = .ok e) : buildFrom resolve [] tokens = .ok [e] := by
  unfold buildTree at h
  split at h <;> cases h
  assumption

theorem buildTree_mapRefs (other : Resolver) {g : String → String} {tokens : List Token}
    {e : Expr} (h : buildTree resolve tokens = .ok e)
    (atoms : ∀ s e', .atom s ∈ tokens → classifyAtom resolve s = .ok e' →
      classifyAtom other (g s) = .ok (e'.mapRefs f)) :
    buildTree other (tokens.map (Token.mapAtom g)) = .ok (e.mapRefs f) := by
  have hb := buildFrom_mapRefs (buildFrom_of_buildTree h) atoms
  simp only [List.map_nil, List.map_cons] at hb
  simp [buildTree, hb]

/-- The references of a tree are the atoms that stand for a cell. -/
theorem mem_refs_buildTree {tokens : List Token} {e : Expr}
    (h : buildTree resolve tokens = .ok e) {ref : CellRef} : ref ∈ e.refs ↔
      .atom ref.name ∈ tokens ∧ classifyAtom resolve ref.name = .ok (.cell ref) := by
  have hm := (mem_refsAll_buildFrom (buildFrom_of_buildTree h)).1 ref
  simpa [Expr.refsAll] using hm

theorem resolve_of_classifyAtom {s : String} (h : classifyAtom resolve s = .ok (.cell ref)) :
    isValidName s = true ∧ ref.name = s ∧ resolve s = some ref.id := by
  rcases classifyAtom_cases h with ⟨id, hr, hv, he⟩ | ⟨hn, -, -⟩
  · cases he
    exact ⟨hv, rfl, hr⟩
  · cases hn

theorem compile_eq_ok {formula : String} {e : Expr} (h : compile resolve formula = .ok e) :
    ∃ tokens, parsePostfix formula = .ok tokens ∧ buildTree resolve tokens = .ok e :=
  Except.of_bind_eq_ok h

theorem resolve_of_mem_refs {formula : String} {e : Expr} (h : compile resolve formula = .ok e)
    (hr : ref ∈ e.refs) : isValidName ref.name = true ∧ resolve ref.name = some ref.id := by
  obtain ⟨tokens, -, hb⟩ := compile_eq_ok h
  obtain ⟨hv, -, hi⟩ := resolve_of_classifyAtom ((mem_refs_buildTree hb).mp hr).2
  exact ⟨hv, hi⟩

/-- A formula that compiles refers to cells that have a name. -/
theorem resolve_of_mem_cells {formula : String} {e : Expr} (h : compile resolve formula = .ok e)
    {id : CellId} (hc : id ∈ e.cells) : ∃ name, resolve name = some id := by
  rw [Expr.cells_eq] at hc
  obtain ⟨ref, hr, rfl⟩ := List.mem_map.mp hc
  exact ⟨ref.name, (resolve_of_mem_refs h hr).2⟩

end Building

end LiveSheet
