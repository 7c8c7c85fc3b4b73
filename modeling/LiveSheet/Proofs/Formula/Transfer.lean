import Mathlib.Data.List.Forall2
import LiveSheet.Proofs.Formula.Resolving
import LiveSheet.Proofs.Formula.Strictness

namespace LiveSheet

/-- The reference to what another resolver knows by its name. -/
def CellRef.under (resolve : Resolver) (ref : CellRef) : CellRef :=
  ⟨(resolve ref.name).getD ref.id, ref.name⟩

section Compiling

variable {resolve other : Resolver} {formula : String} {e e' : Expr}

/-- A formula compiles to the same tree where its names stand for other cells, up to which. -/
theorem compile_under (h : compile resolve formula = .ok e)
    (known : ∀ ref ∈ e.refs, other ref.name ≠ none) :
    compile other formula = .ok (e.mapRefs (CellRef.under other)) := by
  refine compile_mapRefs h fun ref hr => ⟨rfl, ?_⟩
  obtain ⟨y, hy⟩ := Option.ne_none_iff_exists'.mp (known ref hr)
  rw [CellRef.under, hy]
  rfl

theorem compile_under_of_known (h : compile resolve formula = .ok e)
    (known : ∀ name, resolve name ≠ none → other name ≠ none) :
    compile other formula = .ok (e.mapRefs (CellRef.under other)) := by
  refine compile_under h fun ref hr => known ref.name ?_
  rw [(resolve_of_mem_refs h hr).2]
  exact Option.some_ne_none _

theorem eq_mapRefs_of_compile (h : compile resolve formula = .ok e)
    (h' : compile other formula = .ok e') : e' = e.mapRefs (CellRef.under other) := by
  have hunder : compile other formula = .ok (e.mapRefs (CellRef.under other)) :=
    compile_under h fun ref hr => (uses_of_mem_refs h hr).resolve_ne_none
      (resolve_of_mem_refs h hr).1 h'
  exact Except.ok.inj (h'.symm.trans hunder)

end Compiling

/-- The context in which each reference leads where another one leads in this context. -/
def Context.comap (f : CellRef → CellRef) (ctx : Context) : Context :=
  ⟨fun ref => ctx.value (f ref), fun ref => ctx.element (f ref)⟩

namespace Expr

mutual

theorem refs_mapRefs (f : CellRef → CellRef) (e : Expr) : (e.mapRefs f).refs = e.refs.map f := by
  cases e <;> simp [mapRefs, refs, refs_mapRefs, refsAll_mapRefsAll]

theorem refsAll_mapRefsAll (f : CellRef → CellRef) (es : List Expr) :
    refsAll (mapRefsAll f es) = (refsAll es).map f := by
  cases es <;> simp [mapRefsAll, refsAll, refs_mapRefs, refsAll_mapRefsAll]

theorem eval_mapRefs (f : CellRef → CellRef) (ctx : Context) (e : Expr) :
    (e.mapRefs f).eval ctx = e.eval (ctx.comap f) := by
  cases e <;> simp [mapRefs, eval, Context.comap, eval_mapRefs, evalAll_mapRefsAll]

theorem evalAll_mapRefsAll (f : CellRef → CellRef) (ctx : Context) (es : List Expr) :
    evalAll ctx (mapRefsAll f es) = evalAll (ctx.comap f) es := by
  cases es <;> simp [mapRefsAll, evalAll, eval_mapRefs, evalAll_mapRefsAll]

end

end Expr

/-- Operators and functions that take operands take related ones, and give related values. -/
structure Respected (Rel : Value → Value → Prop) : Prop where
  refl : ∀ v, Rel v v
  unary : ∀ {op : UnaryOp} {x x' v : Value}, Rel x x' → op.apply x = .ok v →
    ∃ v', op.apply x' = .ok v' ∧ Rel v v'
  binary : ∀ {op : BinaryOp} {l l' r r' v : Value}, Rel l l' → Rel r r' → op.apply l r = .ok v →
    ∃ v', op.apply l' r' = .ok v' ∧ Rel v v'
  call : ∀ {f : Function} {args args' : List Value} {v : Value}, List.Forall₂ Rel args args' →
    f.apply args = .ok v → ∃ v', f.apply args' = .ok v' ∧ Rel v v'

theorem respected_eq : Respected (· = ·) where
  refl _ := rfl
  unary hx h := ⟨_, hx ▸ h, rfl⟩
  binary hl hr h := ⟨_, hl ▸ hr ▸ h, rfl⟩
  call hargs h := by
    rw [List.forall₂_eq_eq_eq] at hargs
    exact ⟨_, hargs ▸ h, rfl⟩

section Relating

variable {Rel : Value → Value → Prop} {ctx ctx' : Context}

theorem converted_eq_ok {α : Type} {x : Except ConversionError α} {a : α}
    (h : converted x = .ok a) : x = .ok a := by
  cases x with
  | ok b => cases h; rfl
  | error e => cases h

namespace Expr

mutual

/-- A tree without table elements has related values where its references have. -/
theorem eval_related (hrel : Respected Rel)
    (flat : ∀ ref row col v, ctx.element ref row col ≠ .ok v)
    (e : Expr) (refs : ∀ ref ∈ e.refs, ∀ v, ctx.value ref = .ok v →
      ∃ v', ctx'.value ref = .ok v' ∧ Rel v v')
    {v : Value} (h : e.eval ctx = .ok v) : ∃ v', e.eval ctx' = .ok v' ∧ Rel v v' := by
  cases e with
  | literal w => exact ⟨w, rfl, Except.ok.inj h ▸ hrel.refl w⟩
  | cell ref => exact refs ref (by simp [Expr.refs]) v h
  | element table row col =>
    simp only [eval] at h
    obtain ⟨x, -, h⟩ := Except.of_bind_eq_ok h
    obtain ⟨i, -, h⟩ := Except.of_bind_eq_ok h
    obtain ⟨y, -, h⟩ := Except.of_bind_eq_ok h
    obtain ⟨j, -, h⟩ := Except.of_bind_eq_ok h
    exact absurd h (flat table i j v)
  | unary op x =>
    simp only [eval] at h ⊢
    obtain ⟨w, hw, h⟩ := Except.of_bind_eq_ok h
    obtain ⟨w', hw', hr⟩ := eval_related hrel flat x refs hw
    obtain ⟨v', hv', hr'⟩ := hrel.unary hr (converted_eq_ok h)
    exact ⟨v', by rw [hw']; simp [bind, Except.bind, hv', converted], hr'⟩
  | binary op l r =>
    simp only [eval] at h ⊢
    simp only [Expr.refs, List.mem_append] at refs
    obtain ⟨w, hw, h⟩ := Except.of_bind_eq_ok h
    obtain ⟨u, hu, h⟩ := Except.of_bind_eq_ok h
    obtain ⟨w', hw', hrw⟩ := eval_related hrel flat l (fun ref hr => refs ref (.inl hr)) hw
    obtain ⟨u', hu', hru⟩ := eval_related hrel flat r (fun ref hr => refs ref (.inr hr)) hu
    obtain ⟨v', hv', hr'⟩ := hrel.binary hrw hru (converted_eq_ok h)
    exact ⟨v', by rw [hw', hu']; simp [bind, Except.bind, hv', converted], hr'⟩
  | call f args =>
    simp only [eval] at h ⊢
    obtain ⟨vs, hvs, h⟩ := Except.of_bind_eq_ok h
    obtain ⟨vs', hvs', hr⟩ := evalAll_related hrel flat args refs hvs
    obtain ⟨v', hv', hr'⟩ := hrel.call hr (converted_eq_ok h)
    exact ⟨v', by rw [hvs']; simp [bind, Except.bind, hv', converted], hr'⟩

theorem evalAll_related (hrel : Respected Rel)
    (flat : ∀ ref row col v, ctx.element ref row col ≠ .ok v) (es : List Expr)
    (refs : ∀ ref ∈ refsAll es, ∀ v, ctx.value ref = .ok v →
      ∃ v', ctx'.value ref = .ok v' ∧ Rel v v')
    {vs : List Value} (h : evalAll ctx es = .ok vs) :
    ∃ vs', evalAll ctx' es = .ok vs' ∧ List.Forall₂ Rel vs vs' := by
  cases es with
  | nil => exact ⟨[], rfl, Except.ok.inj h ▸ .nil⟩
  | cons e es =>
    simp only [evalAll] at h ⊢
    simp only [refsAll, List.mem_append] at refs
    obtain ⟨v, hv, h⟩ := Except.of_bind_eq_ok h
    obtain ⟨ws, hws, h⟩ := Except.of_bind_eq_ok h
    obtain ⟨v', hv', hr⟩ := eval_related hrel flat e (fun ref hr => refs ref (.inl hr)) hv
    obtain ⟨ws', hws', hrs⟩ := evalAll_related hrel flat es (fun ref hr => refs ref (.inr hr)) hws
    exact ⟨v' :: ws', by rw [hv', hws']; rfl, Except.ok.inj h ▸ .cons hr hrs⟩

end

end Expr

end Relating

/-- The text that a value is, if it is one. -/
def Value.text? : Value → Option String
  | .string s => some s
  | _ => none

section Texts

variable {v w l l' r r' : Value}

/-- Of all values only texts may fail to be numbers. -/
theorem Value.asFloat_of_text? (same : v.text? = w.text?) {x : Float} (h : v.asFloat = .ok x) :
    ∃ y, w.asFloat = .ok y := by
  cases w with
  | string s =>
    cases v with
    | string t =>
      obtain rfl : t = s := Option.some.inj same
      exact ⟨x, h⟩
    | _ => cases same
  | _ => exact ⟨_, rfl⟩

theorem onNumbers_of_text? {α : Type} {f : Float → Float → α} (hl : l.text? = l'.text?)
    (hr : r.text? = r'.text?) {a : α} (h : onNumbers f l r = .ok a) :
    ∃ b, onNumbers f l' r' = .ok b := by
  unfold onNumbers at h ⊢
  obtain ⟨x, hx, h⟩ := Except.of_bind_eq_ok h
  obtain ⟨y, hy, -⟩ := Except.of_bind_eq_ok h
  obtain ⟨x', hx'⟩ := Value.asFloat_of_text? hl hx
  obtain ⟨y', hy'⟩ := Value.asFloat_of_text? hr hy
  exact ⟨f x' y', by rw [hx', hy']; rfl⟩

theorem BinaryOp.apply_of_text? {op : BinaryOp} (hl : l.text? = l'.text?) (hr : r.text? = r'.text?)
    (h : op.apply l r = .ok v) : ∃ v', op.apply l' r' = .ok v' ∧ v.text? = v'.text? := by
  have hnumbers : ∀ {α : Type} {g : α → Value} {f : Float → Float → α}, (∀ a, (g a).text? = none) →
      g <$> onNumbers f l r = .ok v →
      ∃ v', g <$> onNumbers f l' r' = .ok v' ∧ v.text? = v'.text? := by
    intro α g f hg h
    obtain ⟨a, ha, rfl⟩ := Except.map_eq_ok h
    obtain ⟨b, hb⟩ := onNumbers_of_text? hl hr ha
    exact ⟨g b, by rw [hb]; rfl, (hg a).trans (hg b).symm⟩
  cases op with
  | and => exact ⟨_, rfl, Except.ok.inj h ▸ rfl⟩
  | or => exact ⟨_, rfl, Except.ok.inj h ▸ rfl⟩
  | _ => exact hnumbers (fun _ => rfl) h

theorem UnaryOp.apply_of_text? {op : UnaryOp} (hl : l.text? = l'.text?) (h : op.apply l = .ok v) :
    ∃ v', op.apply l' = .ok v' ∧ v.text? = v'.text? := by
  have hnumber : ∀ {g : Float → Value}, (∀ a, (g a).text? = none) → g <$> l.asFloat = .ok v →
      ∃ v', g <$> l'.asFloat = .ok v' ∧ v.text? = v'.text? := by
    intro g hg h
    obtain ⟨a, ha, rfl⟩ := Except.map_eq_ok h
    obtain ⟨b, hb⟩ := Value.asFloat_of_text? hl ha
    exact ⟨g b, by rw [hb]; rfl, (hg a).trans (hg b).symm⟩
  cases op with
  | not => exact ⟨_, rfl, Except.ok.inj h ▸ rfl⟩
  | _ => exact hnumber (fun _ => rfl) h

theorem mapM_asFloat_of_text? {args args' : List Value}
    (same : List.Forall₂ (fun v w => v.text? = w.text?) args args') {xs : List Float}
    (h : args.mapM Value.asFloat = .ok xs) : ∃ ys, args'.mapM Value.asFloat = .ok ys := by
  induction same generalizing xs with
  | nil => exact ⟨[], rfl⟩
  | cons hv _ ih =>
    rw [List.mapM_cons] at h ⊢
    obtain ⟨x, hx, h⟩ := Except.of_bind_eq_ok h
    obtain ⟨xs', hxs, -⟩ := Except.of_bind_eq_ok h
    obtain ⟨y, hy⟩ := Value.asFloat_of_text? hv hx
    obtain ⟨ys, hys⟩ := ih hxs
    exact ⟨y :: ys, by rw [hy, hys]; rfl⟩

/-- Other values that are the same texts, or that are no texts either, are taken just as well. -/
theorem respected_text : Respected fun v w => v.text? = w.text? where
  refl _ := rfl
  unary := UnaryOp.apply_of_text?
  binary := BinaryOp.apply_of_text?
  call {f _ _ _} hargs h := by
    obtain ⟨xs, hxs, rfl⟩ := Except.map_eq_ok h
    obtain ⟨ys, hys⟩ := mapM_asFloat_of_text? hargs hxs
    exact ⟨.float (f.reduce ys), by rw [Function.apply, hys]; rfl, rfl⟩

end Texts

end LiveSheet
