import LiveSheet.Proofs.Sheet.Runs

namespace LiveSheet

/-- The walk depends only on which of the cells that it can come to are unvisited. -/
theorem postOrder_congr {next : CellId → List CellId} {unvisited others todo : List CellId}
    (Reachable : CellId → Prop) (closed : ∀ x, Reachable x → ∀ y ∈ next x, Reachable y)
    (start : ∀ y ∈ todo, Reachable y) (distinct : unvisited.Nodup) (distinct' : others.Nodup)
    (alike : ∀ x, Reachable x → (x ∈ others ↔ x ∈ unvisited)) :
    postOrder next others todo = postOrder next unvisited todo := by
  revert others
  fun_induction postOrder next unvisited todo with
  | case1 =>
    intro others _ _
    rw [postOrder]
  | case2 unvisited id rest hid below ih₁ ih₂ =>
    intro others distinct' alike
    have hstart := start id (by simp)
    have herase : ∀ x, Reachable x → (x ∈ others.erase id ↔ x ∈ unvisited.erase id) := by
      intro x hx
      rw [distinct'.mem_erase_iff, distinct.mem_erase_iff, alike x hx]
    have hbelow := ih₁ (closed id hstart) (distinct.erase id) (distinct'.erase id) herase
    have hrest := ih₂ (fun y hy => start y (List.mem_cons_of_mem _ hy))
      ((distinct.erase id).filter _) ((distinct'.erase id).filter _) fun x hx => by
        rw [List.mem_filter, List.mem_filter, herase x hx]
    rw [postOrder, dif_pos ((alike id hstart).mpr hid)]
    dsimp only
    rw [hbelow, hrest]
  | case3 unvisited id rest hid ih =>
    intro others distinct' alike
    rw [postOrder, dif_neg (mt (alike id (start id (by simp))).mp hid)]
    exact ih (fun y hy => start y (List.mem_cons_of_mem _ hy)) distinct distinct' alike

/-- What leads to another cell of a list, and not the other way round, stands behind it. -/
theorem idxOf_lt_of_sorted {next : CellId → List CellId} (acyclic : Acyclic next)
    {order : List CellId} (sorted : order.Pairwise fun a b => b ∉ next a) {x y : CellId}
    (hx : x ∈ order) (hy : y ∈ order) (leads : y ∈ next x) : order.idxOf y < order.idxOf x := by
  have hix := List.idxOf_lt_length_of_mem hx
  have hiy := List.idxOf_lt_length_of_mem hy
  apply Nat.lt_of_not_le
  intro hle
  rcases Nat.lt_or_eq_of_le hle with hlt | heq
  · have hnot := List.pairwise_iff_getElem.mp sorted _ _ hix hiy hlt
    rw [List.getElem_idxOf, List.getElem_idxOf] at hnot
    exact hnot leads
  · obtain rfl : x = y := by
      rw [← List.getElem_idxOf hix, ← List.getElem_idxOf hiy]
      simp only [heq]
    exact acyclic.not_mem_self x leads

namespace Sheet

variable {s : Sheet}

theorem mem_evaluationOrder {x : CellId} : x ∈ s.evaluationOrder ↔ x ∈ s.ids :=
  ⟨postOrder_subset, fun h => mem_postOrder_of_todo h h⟩

/-- References lead to cells that exist, so that it does not matter what else the walk may visit. -/
theorem Sound.evaluationOrder_eq (hs : s.Sound) {others : List CellId} (distinct : others.Nodup)
    (all : ∀ x ∈ s.ids, x ∈ others) :
    postOrder s.referencesOf others s.ids = s.evaluationOrder := by
  apply postOrder_congr (· ∈ s.ids) _ (fun _ hy => hy) hs.indexed.nodup distinct
  · exact fun x hx => ⟨fun _ => hx, all x⟩
  · exact fun _ _ _ hy => hs.linked.mem_ids hy

end Sheet

/-- After any operations, the evaluation order has every cell once and nothing else, each cell
behind those that it references; and the walk that makes it would meet no more if it might visit
others. -/
theorem Session.run_evaluationOrder (settings : Settings) (operations : List Operation) :
    let s := ((Session.new settings).run operations).sheet
    s.evaluationOrder.Nodup ∧ (∀ x, x ∈ s.evaluationOrder ↔ ∃ c ∈ s.cells, c.id = x) ∧
      (∀ c ∈ s.cells, ∀ r ∈ c.references,
        s.evaluationOrder.idxOf r < s.evaluationOrder.idxOf c.id) ∧
      ∀ others : List CellId, others.Nodup → (∀ c ∈ s.cells, c.id ∈ others) →
        postOrder s.referencesOf others s.ids = s.evaluationOrder := by
  intro s
  have hs : s.Sound := run_sound settings operations
  refine ⟨postOrder_nodup hs.indexed.nodup, fun x => ?_, fun c hc r hr => ?_,
    fun others distinct hall => ?_⟩
  · rw [Sheet.mem_evaluationOrder]
    exact List.mem_map
  · have hcell := Sheet.cell?_of_mem hs.indexed.nodup hc
    have hrefers : r ∈ s.referencesOf c.id := by
      rw [Sheet.referencesOf_of_cell? hcell]
      exact hr
    apply idxOf_lt_of_sorted hs.linked.acyclic (postOrder_pairwise hs.linked.acyclic)
    · exact Sheet.mem_evaluationOrder.mpr (Sheet.mem_ids_iff.mpr ⟨c, hcell⟩)
    · exact Sheet.mem_evaluationOrder.mpr (hs.linked.mem_ids hrefers)
    · exact hrefers
  · apply hs.evaluationOrder_eq distinct
    intro x hx
    obtain ⟨c, hc, rfl⟩ := List.mem_map.mp hx
    exact hall c hc

end LiveSheet
