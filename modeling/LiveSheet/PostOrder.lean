import LiveSheet.IdSet

namespace LiveSheet

/-- The cells of `unvisited` that a depth-first walk from `todo` along `next` meets, each listed
after all that it led to. -/
def postOrder (next : CellId → List CellId) (unvisited todo : List CellId) : List CellId :=
  match todo with
  | [] => []
  | id :: rest =>
    if _h : id ∈ unvisited then
      let below := postOrder next (unvisited.erase id) (next id)
      below ++ id :: postOrder next ((unvisited.erase id).filter (· ∉ below)) rest
    else postOrder next unvisited rest
termination_by (unvisited.length, todo.length)
decreasing_by
  · apply Prod.Lex.left
    have hp := List.length_pos_of_mem _h
    have hl := List.length_erase_of_mem _h
    omega
  · apply Prod.Lex.left
    have hp := List.length_pos_of_mem _h
    have hl := List.length_erase_of_mem _h
    exact Nat.lt_of_le_of_lt (List.length_filter_le _ _) (by omega)
  · apply Prod.Lex.right
    simp

theorem postOrder_subset {next : CellId → List CellId} {unvisited todo : List CellId} {x : CellId}
    (h : x ∈ postOrder next unvisited todo) : x ∈ unvisited := by
  fun_induction postOrder next unvisited todo with
  | case1 => simp at h
  | case2 unvisited id rest hid below ih₁ ih₂ =>
    rcases List.mem_append.mp h with h | h
    · exact List.mem_of_mem_erase (ih₁ h)
    · rcases List.mem_cons.mp h with rfl | h
      · exact hid
      · exact List.mem_of_mem_erase (List.mem_filter.mp (ih₂ h)).1
  | case3 _ _ _ _ ih => exact ih h

theorem postOrder_nodup {next : CellId → List CellId} {unvisited todo : List CellId}
    (h : unvisited.Nodup) : (postOrder next unvisited todo).Nodup := by
  fun_induction postOrder next unvisited todo with
  | case1 => exact List.nodup_nil
  | case2 unvisited id rest hid below ih₁ ih₂ =>
    have he := h.erase id
    have hne : id ∉ unvisited.erase id := fun hm => (h.mem_erase_iff.mp hm).1 rfl
    apply List.nodup_append.mpr
    refine ⟨ih₁ he, ?_, ?_⟩
    · apply List.nodup_cons.mpr
      refine ⟨?_, ih₂ (he.filter _)⟩
      intro hm
      exact hne (List.mem_filter.mp (postOrder_subset hm)).1
    · intro a ha b hb hab
      subst hab
      rcases List.mem_cons.mp hb with rfl | hb
      · exact hne (postOrder_subset ha)
      · simpa [below, ha] using (List.mem_filter.mp (postOrder_subset hb)).2
  | case3 _ _ _ _ ih => exact ih h

end LiveSheet
