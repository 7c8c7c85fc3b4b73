import LiveSheet.Proofs.Sheet.Links
import LiveSheet.Proofs.Sheet.Settled

namespace LiveSheet

open Relation

/-- The edits differ at most in the value, the error and the transitive references of one cell. -/
structure Edit.Within (id : CellId) (e e' : Edit) : Prop where
  outline : e'.sheet.outline = e.sheet.outline
  others : ∀ x, x ≠ id → e'.sheet.cell? x = e.sheet.cell? x

namespace Edit

theorem Within.refl (id : CellId) (e : Edit) : Within id e e :=
  ⟨rfl, fun _ _ => rfl⟩

theorem Within.trans {id : CellId} {e₁ e₂ e₃ : Edit} (h : Within id e₁ e₂)
    (h' : Within id e₂ e₃) : Within id e₁ e₃ :=
  ⟨h'.outline.trans h.outline, fun x hx => (h'.others x hx).trans (h.others x hx)⟩

theorem Within.announce {id : CellId} {e e' : Edit} (h : Within id e e') (x : CellId)
    (event : CellEvent) : Within id e (e'.announce x event) :=
  ⟨h.outline, h.others⟩

theorem within_modify {f : Cell → Cell} (hf : ∀ c, (f c).outline = c.outline)
    (hid : ∀ c, (f c).id = c.id) (e : Edit) (id : CellId) : Within id e (e.modify id f) :=
  ⟨Sheet.through_modify hf _ _, fun _ hx => Sheet.cell?_modify_ne hid _ hx⟩

theorem within_setDeep (e : Edit) (id : CellId) (deep : IdSet) : Within id e (e.setDeep id deep) :=
  within_modify (f := fun c => { c with deep := deep }) (fun _ => rfl) (fun _ => rfl) e id

theorem within_setError (e : Edit) (id : CellId) (error : Option CellError) :
    Within id e (e.setError id error) := by
  unfold setError
  split
  next => exact .refl id e
  next =>
    split
    next => exact .refl id e
    next =>
      have hm := within_modify (f := fun c => { c with error := error }) (fun _ => rfl)
        (fun _ => rfl) e id
      exact hm.announce id _

theorem within_setValue (e : Edit) (id : CellId) (v : Value) : Within id e (e.setValue id v) := by
  unfold setValue
  split
  next => exact .refl id e
  next =>
    split
    next => exact .refl id e
    next =>
      have hm := within_modify (f := fun c => { c with value := v }) (fun _ => rfl)
        (fun _ => rfl) e id
      exact hm.announce id _

theorem within_clearStructural (e : Edit) (id : CellId) : Within id e (e.clearStructural id) := by
  unfold clearStructural
  split
  next => exact within_setError e id none
  next => exact .refl id e

theorem within_recompute (e : Edit) (id : CellId) : Within id e (e.recompute id) := by
  unfold recompute
  split
  next => exact .refl id e
  next c hc =>
    split
    next => exact .refl id e
    next =>
      split
      next => exact .refl id e
      next tree ht =>
        split
        next => exact within_setError e id _
        next =>
          split
          next => exact (within_setError e id none).trans (within_setValue _ id _)
          next => exact within_setError e id _

theorem within_refresh (e : Edit) (id : CellId) : Within id e (e.refresh id) :=
  (within_setDeep e id _).trans (within_recompute _ id)

theorem setDeep_cell? {e : Edit} {id : CellId} {c : Cell} (hc : e.sheet.cell? id = some c)
    (deep : IdSet) : (e.setDeep id deep).sheet.cell? id = some { c with deep := deep } := by
  have hm := Sheet.cell?_modify_self (f := fun c => { c with deep := deep }) (fun _ => rfl)
    e.sheet id
  rw [hc] at hm
  exact hm

theorem setError_cell? {e : Edit} {id : CellId} {c : Cell} (hc : e.sheet.cell? id = some c)
    (error : Option CellError) :
    (e.setError id error).sheet.cell? id = some { c with error := error } := by
  simp only [setError, hc]
  split
  next h => rw [hc, ← h]
  next =>
    have hm := Sheet.cell?_modify_self (f := fun c => { c with error := error }) (fun _ => rfl)
      e.sheet id
    rw [hc] at hm
    exact hm

/-- A value that is equal to the one of the cell leaves it in place. -/
theorem setValue_cell? {e : Edit} {id : CellId} {c : Cell} (hc : e.sheet.cell? id = some c)
    (v : Value) : (e.setValue id v).sheet.cell? id =
      some { c with value := if c.value == v then c.value else v } := by
  simp only [setValue, hc]
  split
  next => exact hc
  next =>
    have hm := Sheet.cell?_modify_self (f := fun c => { c with value := v }) (fun _ => rfl)
      e.sheet id
    rw [hc] at hm
    exact hm

theorem same_of_replaced (v w : Value) : (if v == w then v else w).Same w := by
  split
  next h => exact .inl h
  next => exact w.same_refl

theorem Within.sameFace {id x : CellId} {e e' : Edit} (h : Within id e e') (hx : x ≠ id) :
    e.sheet.SameFace e'.sheet x :=
  .of_cell?_eq (h.others x hx).symm

end Edit

namespace Sheet

theorem settled_of_structural {s : Sheet} {c : Cell} (h : c.isStructural = true) :
    s.Settled c := by
  refine ⟨fun hk => ?_, fun hn => ?_⟩
  · rcases Cell.isStructural_iff.mp h with h | h <;> rw [h] at hk <;> cases hk
  · rw [h] at hn
    cases hn

theorem settled_of_belowError {s : Sheet} {c : Cell} (hk : c.errorKind? = some .carried)
    (hb : s.BelowError c) : s.Settled c :=
  ⟨fun _ => hb, fun _ _ => ⟨⟨fun _ => hb, fun _ => hk⟩, fun h => absurd hb h⟩⟩

theorem settled_of_yields {s : Sheet} {c : Cell} {tree : Expr} (hb : ¬s.BelowError c)
    (hk : c.errorKind? ≠ some .carried) (ht : c.tree? = some tree) (hy : s.Yields c tree) :
    s.Settled c :=
  ⟨fun h => absurd h hk, fun _ _ => ⟨⟨fun h => absurd h hk, fun h => absurd h hb⟩,
    fun _ => ⟨tree, ht, hy⟩⟩⟩

end Sheet

namespace Edit

theorem recompute_of_treeless {e : Edit} {id : CellId} {c : Cell}
    (hc : e.sheet.cell? id = some c) (ht : c.tree? = none) : e.recompute id = e := by
  simp only [recompute, hc, ht]
  split <;> rfl

/-- How a cell `c` may come out as `d` when it is recomputed: as it was if it has a structural error
or no tree, with an error, or with the value of its tree. -/
inductive Recomputed (e : Edit) (c d : Cell) : Prop
  | structural (h : c.isStructural = true) (eq : d = c)
  | treeless (h : c.tree? = none) (eq : d = c)
  | below (sane : c.isStructural = false) (tree : Expr) (ht : c.tree? = some tree)
    (below : e.sheet.BelowError c) (name : String)
    (eq : d = { c with error := some (.carried name) })
  | failed (sane : c.isStructural = false) (tree : Expr) (ht : c.tree? = some tree)
    (clear : ¬e.sheet.BelowError c) (cause : FormulaError)
    (h : tree.eval e.sheet.context = .error cause)
    (eq : d = { c with error := some (.evaluation cause) })
  | shown (sane : c.isStructural = false) (tree : Expr) (ht : c.tree? = some tree)
    (clear : ¬e.sheet.BelowError c) (v : Value) (h : tree.eval e.sheet.context = .ok v)
    (eq : d = { c with error := none, value := if c.value == v then c.value else v })

theorem recompute_outcome {e : Edit} {id : CellId} {c : Cell} (hc : e.sheet.cell? id = some c) :
    ∃ d, (e.recompute id).sheet.cell? id = some d ∧ e.Recomputed c d := by
  simp only [recompute, hc]
  by_cases hs : c.isStructural = true
  · rw [if_pos hs]
    exact ⟨c, hc, .structural hs rfl⟩
  · have hsane : c.isStructural = false := by simpa using hs
    rw [if_neg hs]
    cases ht : c.tree? with
    | none => exact ⟨c, hc, .treeless ht rfl⟩
    | some tree =>
      dsimp only
      split
      next broken hb =>
        have hbelow : e.sheet.BelowError c :=
          ⟨broken, List.mem_of_find?_eq_some hb, List.find?_some hb⟩
        exact ⟨_, setError_cell? hc _, .below hsane tree ht hbelow _ rfl⟩
      next hb =>
        have hclear : ¬e.sheet.BelowError c := by
          rintro ⟨x, hx, he⟩
          exact List.find?_eq_none.mp hb x hx he
        split
        next v hv =>
          exact ⟨_, setValue_cell? (setError_cell? hc none) v,
            .shown hsane tree ht hclear v hv rfl⟩
        next cause hv =>
          exact ⟨_, setError_cell? hc _, .failed hsane tree ht hclear cause hv rfl⟩

/-- Recomputing leaves the cell as the sheet before would have it settled. -/
theorem recompute_cell? {e : Edit} {id : CellId} {c : Cell} (hc : e.sheet.cell? id = some c)
    (treeless : c.tree? = none ↔ c.isStructural = true) :
    ∃ d, (e.recompute id).sheet.cell? id = some d ∧ d.deep = c.deep ∧ d.content = c.content ∧
      d.isStructural = c.isStructural ∧ e.sheet.Settled d := by
  obtain ⟨d, hd, houtcome⟩ := recompute_outcome hc
  refine ⟨d, hd, ?_⟩
  cases houtcome with
  | structural hs h =>
    subst h
    exact ⟨rfl, rfl, rfl, Sheet.settled_of_structural hs⟩
  | treeless ht h =>
    subst h
    exact ⟨rfl, rfl, rfl, Sheet.settled_of_structural (treeless.mp ht)⟩
  | below hsane _ _ hbelow _ h =>
    subst h
    exact ⟨rfl, rfl, hsane.symm, Sheet.settled_of_belowError rfl hbelow⟩
  | failed hsane tree ht hclear _ he h =>
    subst h
    refine ⟨rfl, rfl, hsane.symm,
      Sheet.settled_of_yields hclear (fun h => nomatch h) ht ?_⟩
    unfold Sheet.Yields
    rw [he]
    rfl
  | shown hsane tree ht hclear v hv h =>
    subst h
    refine ⟨rfl, rfl, hsane.symm,
      Sheet.settled_of_yields hclear (fun h => nomatch h) ht ?_⟩
    unfold Sheet.Yields
    rw [hv]
    exact ⟨rfl, same_of_replaced c.value v⟩

/-- Recomputing settles a cell that neither depends on itself nor names itself. -/
theorem recompute_settled {e : Edit} {id : CellId} {c : Cell} (hc : e.sheet.cell? id = some c)
    (treeless : c.tree? = none ↔ c.isStructural = true) (hdeep : id ∉ c.deep)
    (hnamed : ∀ tree, c.tree? = some tree → id ∉ tree.cells) :
    ∃ d, (e.recompute id).sheet.cell? id = some d ∧ d.deep = c.deep ∧ d.content = c.content ∧
      d.isStructural = c.isStructural ∧ (e.recompute id).sheet.Settled d := by
  obtain ⟨d, hd, hdd, hdc, hds, hset⟩ := recompute_cell? hc treeless
  have hw := within_recompute e id
  refine ⟨d, hd, hdd, hdc, hds, hset.congr (.refl d) ?_ ?_⟩
  · intro x hx
    rw [hdd] at hx
    exact hw.sameFace fun he => hdeep (he ▸ hx)
  · intro tree ht x hx
    rw [Cell.tree?, hdc] at ht
    exact hw.sameFace fun he => hnamed tree ht (he ▸ hx)

end Edit

end LiveSheet
