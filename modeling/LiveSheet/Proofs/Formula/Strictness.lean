import LiveSheet.Proofs.Formula.Building
import LiveSheet.Proofs.Formula.Evaluation

namespace LiveSheet

/-- The reference leads to something that has a value. -/
def Context.Defined (ctx : Context) (ref : CellRef) : Prop :=
  (∃ v, ctx.value ref = .ok v) ∨ ∃ row col v, ctx.element ref row col = .ok v

namespace Expr

variable {ctx : Context} {ref : CellRef}

mutual

/-- A tree has a value only if all its references lead to one. -/
theorem eval_defined (e : Expr) {v : Value} (h : e.eval ctx = .ok v) (hr : ref ∈ e.refs) :
    ctx.Defined ref := by
  cases e with
  | literal w => cases hr
  | cell r =>
    obtain rfl : ref = r := by simpa [refs] using hr
    exact .inl ⟨v, h⟩
  | element table row col =>
    simp only [eval] at h
    obtain ⟨i, hi, h⟩ := Except.of_bind_eq_ok h
    obtain ⟨m, -, h⟩ := Except.of_bind_eq_ok h
    obtain ⟨j, hj, h⟩ := Except.of_bind_eq_ok h
    obtain ⟨n, -, h⟩ := Except.of_bind_eq_ok h
    simp only [refs, List.mem_cons, List.mem_append] at hr
    rcases hr with rfl | hr | hr
    · exact .inr ⟨m, n, v, h⟩
    · exact eval_defined row hi hr
    · exact eval_defined col hj hr
  | unary op x =>
    simp only [eval] at h
    obtain ⟨w, hw, -⟩ := Except.of_bind_eq_ok h
    exact eval_defined x hw hr
  | binary op l r =>
    simp only [eval] at h
    obtain ⟨w, hw, h⟩ := Except.of_bind_eq_ok h
    obtain ⟨w', hw', -⟩ := Except.of_bind_eq_ok h
    rcases List.mem_append.mp hr with hr | hr
    · exact eval_defined l hw hr
    · exact eval_defined r hw' hr
  | call f args =>
    simp only [eval] at h
    obtain ⟨vs, hvs, -⟩ := Except.of_bind_eq_ok h
    exact evalAll_defined args hvs hr

theorem evalAll_defined (es : List Expr) {vs : List Value} (h : evalAll ctx es = .ok vs)
    (hr : ref ∈ refsAll es) : ctx.Defined ref := by
  cases es with
  | nil => cases hr
  | cons e es =>
    simp only [evalAll] at h
    obtain ⟨v, hv, h⟩ := Except.of_bind_eq_ok h
    obtain ⟨ws, hws, -⟩ := Except.of_bind_eq_ok h
    rcases List.mem_append.mp hr with hr | hr
    · exact eval_defined e hv hr
    · exact evalAll_defined es hws hr

end

end Expr

end LiveSheet
