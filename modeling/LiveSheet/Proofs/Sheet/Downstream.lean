import Mathlib
import LiveSheet.Proofs.Sheet.Apart
import LiveSheet.Proofs.Sheet.Ordering

-- The equations by which `cbv` evaluates a run, of `List.lookup`, `Char.toLower` and others, are in
-- the whole library only. Without it they would be derived here anew.

namespace LiveSheet

open Relation

namespace Sheet

/-- A list of some cells and of all that reach one of them, each once and each behind those of them
that it reaches. -/
structure Downstream (s : Sheet) (roots order : List CellId) : Prop where
  mem_iff : ∀ x, x ∈ order ↔ ∃ r ∈ roots, ReflTransGen s.Refers x r
  nodup : order.Nodup
  behind : ∀ x ∈ order, ∀ y ∈ order, TransGen s.Refers x y → order.idxOf y < order.idxOf x

variable {s : Sheet} {roots : List CellId} {x y : CellId}

theorem Linked.reflTransGen_dependents (h : s.Linked) :
    ReflTransGen (Leads s.dependentsOf) x y ↔ ReflTransGen s.Refers y x := by
  rw [reflTransGen_iff_eq_or_transGen, reflTransGen_iff_eq_or_transGen, h.transGen_dependents,
    eq_comm]

/-- What is reached on the way to a root is listed too, so that the order of direct references
carries over to the cells behind them. -/
theorem Linked.downstream (h : s.Linked) (distinct : s.ids.Nodup)
    (live : ∀ r ∈ roots, r ∈ s.ids) : s.Downstream roots (s.affectedOrder roots) := by
  have hmem : ∀ x, x ∈ s.affectedOrder roots ↔ ∃ r ∈ roots, ReflTransGen s.Refers x r := by
    intro x
    rw [h.mem_affectedOrder]
    simp only [h.reflTransGen_dependents]
    exact ⟨fun ⟨r, hr, _, hp⟩ => ⟨r, hr, hp⟩, fun ⟨r, hr, hp⟩ => ⟨r, hr, live r hr, hp⟩⟩
  have hsorted : (s.affectedOrder roots).Pairwise fun a b => b ∉ s.referencesOf a :=
    (h.affectedOrder_sorted roots).imp fun hnot hr => hnot ((h.inverse _ _).mp hr)
  refine ⟨hmem, List.nodup_reverse.mpr (postOrder_nodup distinct), fun x hx y hy hxy => ?_⟩
  obtain ⟨r, hr, hyr⟩ := (hmem y).mp hy
  induction hxy using TransGen.head_induction_on with
  | single hs => exact idxOf_lt_of_sorted h.acyclic hsorted hx hy hs
  | @head a z haz hzy ih =>
    have hz : z ∈ s.affectedOrder roots :=
      (hmem z).mpr ⟨r, hr, hzy.to_reflTransGen.trans hyr⟩
    exact (ih hz).trans (idxOf_lt_of_sorted h.acyclic hsorted hx hz haz)

/-- Back references lead to cells that exist, so that it does not matter what else the walk may
visit. -/
theorem Linked.affectedOrder_eq (h : s.Linked) (distinct : s.ids.Nodup)
    (live : ∀ r ∈ roots, r ∈ s.ids) {others : List CellId} (distinct' : others.Nodup)
    (all : ∀ x ∈ s.ids, x ∈ others) :
    (postOrder s.dependentsOf others roots).reverse = s.affectedOrder roots := by
  rw [affectedOrder, postOrder_congr (· ∈ s.ids) _ live distinct distinct']
  · exact fun x hx => ⟨fun _ => hx, all x⟩
  · exact fun x _ y hy => mem_ids_of_mem_referencesOf ((h.inverse y x).mpr hy)

end Sheet

/-- After any operations, what is affected by some cells is they themselves and all that reach one
of them, each once and each behind what it depends on; the walk that lists it would meet no more if
it might visit others. What is affected by one cell is listed behind it. Where a cell goes, this
holds of what referenced it and of the cells that are left. -/
theorem Session.run_downstream (settings : Settings) (operations : List Operation) :
    let s := ((Session.new settings).run operations).sheet
    (∀ roots : List CellId, (∀ r ∈ roots, r ∈ s.ids) →
      s.Downstream roots (s.affectedOrder roots) ∧
        ∀ others : List CellId, others.Nodup → (∀ x ∈ s.ids, x ∈ others) →
          (postOrder s.dependentsOf others roots).reverse = s.affectedOrder roots) ∧
      (∀ r ∈ s.ids, s.affectedOrder [r] = r :: (s.affectedOrder [r]).drop 1 ∧
        ∀ x, x ∈ (s.affectedOrder [r]).drop 1 ↔ TransGen s.Refers x r) ∧
      ∀ c ∈ s.cells, let t := s.removeCell c
        t.Downstream c.referencedBy.ids (t.affectedOrder c.referencedBy.ids) := by
  intro s
  have hs : s.Sound := run_sound settings operations
  have hdistinct := hs.indexed.nodup
  refine ⟨fun roots live => ⟨hs.linked.downstream hdistinct live, fun others distinct all => ?_⟩,
    fun r live => ⟨Sheet.affectedOrder_singleton live, fun x => ?_⟩, fun c hc => ?_⟩
  · exact hs.linked.affectedOrder_eq hdistinct live distinct all
  · exact hs.linked.mem_below_iff hdistinct
  · have hcell := Sheet.cell?_of_mem hdistinct hc
    refine (Sheet.removeCell_linked hs hcell).downstream (hs.indexed.removeCell hcell).nodup ?_
    intro y hy
    have hrefers : s.Refers y c.id := (hs.linked.inverse.mem_referencedBy hcell).mp hy
    refine Sheet.mem_ids_removeCell.mpr ⟨Sheet.mem_ids_of_mem_referencesOf hrefers, ?_⟩
    rintro rfl
    exact hs.linked.acyclic.not_mem_self _ hrefers

set_option maxRecDepth 20000 in
/-- Of two roots the first is downstream of the second. -/
theorem Session.run_downstream_nested :
    let s := ((Session.new .default).run
      [.createCell (some "a") (some "true"), .createCell (some "b") (some "a")]).sheet
    (∀ r ∈ [⟨2⟩, ⟨1⟩], r ∈ s.ids) ∧ s.affectedOrder [⟨2⟩, ⟨1⟩] = [⟨1⟩, ⟨2⟩] ∧
      s.Downstream [⟨2⟩, ⟨1⟩] (s.affectedOrder [⟨2⟩, ⟨1⟩]) := by
  have hstate :
      let s := ((Session.new .default).run
        [.createCell (some "a") (some "true"), .createCell (some "b") (some "a")]).sheet
      s.ids = [⟨1⟩, ⟨2⟩] ∧ s.dependentsOf ⟨1⟩ = [⟨2⟩] ∧ s.dependentsOf ⟨2⟩ = [] := by
    cbv
  have hwalk : ∀ s : Sheet, s.ids = [⟨1⟩, ⟨2⟩] → s.dependentsOf ⟨1⟩ = [⟨2⟩] →
      s.dependentsOf ⟨2⟩ = [] → s.affectedOrder [⟨2⟩, ⟨1⟩] = [⟨1⟩, ⟨2⟩] := by
    intro s hids hfirst hsecond
    simp [Sheet.affectedOrder, postOrder, hids, hfirst, hsecond]
  obtain ⟨hids, hfirst, hsecond⟩ := hstate
  intro s
  have live : ∀ r ∈ [⟨2⟩, ⟨1⟩], r ∈ s.ids := by
    intro r hr
    rw [hids]
    exact List.mem_reverse.mp hr
  exact ⟨live, hwalk s hids hfirst hsecond, ((run_downstream _ _).1 _ live).1⟩

end LiveSheet
