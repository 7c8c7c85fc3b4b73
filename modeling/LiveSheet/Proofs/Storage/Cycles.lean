import Mathlib.Data.List.Cycle
import LiveSheet.Proofs.Storage.Restored

namespace LiveSheet

open Relation

section Cycles

variable {α : Type} {r : α → α → Prop} {a : α} {cycle : Cycle α}

theorem chain_mem (h : cycle.Chain r) : cycle.Chain fun a b => a ∈ cycle ∧ r a b := by
  induction cycle using Cycle.induction_on with
  | nil => exact .nil _
  | cons a l _ =>
    rw [Cycle.chain_coe_cons] at h ⊢
    exact h.imp_of_mem_imp fun x y hx _ hxy => ⟨by simpa [or_comm] using hx, hxy⟩

theorem transGen_of_chain (h : cycle.Chain r) (ha : a ∈ cycle) : TransGen r a a :=
  Cycle.chain_iff_pairwise.mp (h.imp fun _ _ => TransGen.single) a ha a ha

/-- What leads somewhere leads there without passing anything twice. -/
theorem exists_path_of_reflTransGen {b : α} (h : ReflTransGen r a b) : ∃ l : List α,
    List.IsChain r (a :: l) ∧ (a :: l).getLast? = some b ∧ (a :: l).Nodup := by
  induction h using ReflTransGen.head_induction_on with
  | refl => exact ⟨[], .singleton b, rfl, List.nodup_singleton b⟩
  | @head a c hac _ ih =>
    obtain ⟨l, hl, hlast, hnodup⟩ := ih
    by_cases hm : a ∈ c :: l
    · obtain ⟨front, rest, heq⟩ := List.append_of_mem hm
      rw [heq] at hl hlast hnodup
      refine ⟨rest, hl.right_of_append, ?_, (List.nodup_append.mp hnodup).2.1⟩
      simpa [List.getLast?_append] using hlast
    · exact ⟨c :: l, hl.cons_cons hac, by simpa using hlast, List.nodup_cons.mpr ⟨hm, hnodup⟩⟩

/-- What leads back to itself lies in a cycle. -/
theorem exists_cycle_of_transGen (h : TransGen r a a) :
    ∃ cycle : Cycle α, a ∈ cycle ∧ cycle.Nodup ∧ cycle.Chain r := by
  obtain ⟨b, hab, hba⟩ := TransGen.head'_iff.mp h
  obtain ⟨l, hl, hlast, hnodup⟩ := exists_path_of_reflTransGen hba
  refine ⟨(b :: l : List α), List.mem_of_getLast? hlast, hnodup, ?_⟩
  refine (Cycle.chain_ne_nil r (List.cons_ne_nil b l)).mpr ?_
  rw [List.getLast_of_getLast?_eq_some hlast]
  exact hl.cons_cons hab

end Cycles

namespace Sheet.Made

variable {t : Sheet} {settings : Settings} {d : Document} {x y : CellId} {a b : String} {c : Cell}

section Cells

variable (h : Made settings d.cells t)
include h

theorem exists_of_mentions (hm : d.Mentions a b) : ∃ c c', t.cell? c.id = some c ∧ c.name = a ∧
    t.cell? c'.id = some c' ∧ c'.name = b ∧ t.Mentions c.id c'.id := by
  obtain ⟨r, hr, hname, tree, he, ref, href, hrname⟩ := id hm
  obtain ⟨c, hc, rfl⟩ := h.exists_cell hr
  have hknown : b ∈ d.cells.map Record.name := by
    rw [← hrname, ← d.resolver_ne_none_iff, (resolve_of_mem_refs he href).2]
    exact Option.some_ne_none _
  obtain ⟨r', hr', hname'⟩ := List.mem_map.mp hknown
  obtain ⟨c', hc', rfl⟩ := h.exists_cell hr'
  change c.name = a at hname
  change c'.name = b at hname'
  exact ⟨c, c', hc, hname, hc', hname', (h.mentions_iff hc hc').mpr (hname ▸ hname' ▸ hm)⟩

/-- A cycle in which no cell is circular would be one of the references. -/
theorem exists_circular {cycle : Cycle String} (nonempty : cycle ≠ Cycle.nil)
    (chain : cycle.Chain d.Mentions) :
    ∃ name ∈ cycle, ∃ c, t.get name = .ok c ∧ c.errorKind? = some .circularReference := by
  by_contra hstraight
  push Not at hstraight
  -- Each cell on the cycle has the tree of its formula, which refers to the next one.
  have hrefers : ∀ a b, a ∈ cycle ∧ d.Mentions a b →
      t.Refers ((t.idOf? a).getD ⟨0⟩) ((t.idOf? b).getD ⟨0⟩) := by
    rintro a b ⟨ha, hm⟩
    obtain ⟨c, c', hc, rfl, hc', rfl, hrefers⟩ := h.exists_of_mentions hm
    rw [h.kept.sound.indexed.idOf?_name hc, h.kept.sound.indexed.idOf?_name hc']
    refine h.refers_of_mentions hrefers ?_
    rintro ⟨c₁, hc₁, hk⟩
    obtain rfl := Option.some.inj (hc.symm.trans hc₁)
    exact hstraight c.name ha c (h.get_name hc) hk
  obtain ⟨a, ha⟩ : ∃ a, a ∈ cycle := by
    induction cycle using Cycle.induction_on with
    | nil => exact absurd rfl nonempty
    | cons a l _ => exact ⟨a, by simp⟩
  have hloop := transGen_of_chain (chain_mem chain) ha
  exact h.kept.sound.linked.acyclic _
    (TransGen.lift (fun name => (t.idOf? name).getD ⟨0⟩) hrefers _ _ hloop)

/-- A circular cell closed a cycle, and its formula and those of the others in it are still the
same. -/
theorem exists_cycle (hc : t.cell? x = some c) (circular : c.errorKind? = some .circularReference) :
    ∃ cycle : Cycle String, c.name ∈ cycle ∧ cycle.Nodup ∧ cycle.Chain d.Mentions := by
  have hnames := TransGen.lift t.displayName (fun _ _ => h.displayName_mentions) _ _
    ((h.pristine x c hc).cycle circular)
  have hname : t.displayName c.id = c.name := by simp [displayName, cell?_id hc ▸ hc]
  rw [← hname]
  exact exists_cycle_of_transGen hnames

/-- Errors spread along the names that formulas use. -/
theorem hasError_of_reaches (hr : ReflTransGen d.Mentions a b) (hb : t.get b = .ok c)
    (error : c.hasError = true) : ∃ c', t.get a = .ok c' ∧ c'.hasError = true := by
  induction hr using ReflTransGen.head_induction_on with
  | refl => exact ⟨c, hb, error⟩
  | head hm _ ih =>
    obtain ⟨c₂, hget, herror⟩ := ih
    obtain ⟨c₁, c₂', hc₁, rfl, hc₂, rfl, hrefers⟩ := h.exists_of_mentions hm
    obtain rfl := Except.ok.inj ((h.get_name hc₂).symm.trans hget)
    have hspread := h.hasError_of_mentions hrefers (by rwa [hasError, hc₂])
    rw [hasError, hc₁] at hspread
    exact ⟨c₁, h.get_name hc₁, hspread⟩

end Cells

end Sheet.Made

/-- A document with distinct valid names is restored so that every cycle of names has a circular
cell, every circular cell lies in a cycle of names, and every cell whose formula leads to a circular
one is in error. -/
theorem Document.restoreWith_cycles {settings : Settings} {d : Document}
    (tag : d.evaluator = settings.evaluator) (distinct : (d.cells.map Record.name).Nodup)
    (valid : ∀ r ∈ d.cells, isValidName r.name = true) : ∃ t, d.restoreWith settings = .ok t ∧
      (∀ cycle : Cycle String, cycle ≠ Cycle.nil → cycle.Chain d.Mentions →
        ∃ name ∈ cycle, ∃ c, t.get name = .ok c ∧ c.errorKind? = some .circularReference) ∧
      (∀ c ∈ t.cells, c.errorKind? = some .circularReference →
        ∃ cycle : Cycle String, c.name ∈ cycle ∧ cycle.Nodup ∧ cycle.Chain d.Mentions) ∧
      ∀ a b c, ReflTransGen d.Mentions a b → t.get b = .ok c →
        c.errorKind? = some .circularReference → ∃ c', t.get a = .ok c' ∧ c'.hasError = true := by
  obtain ⟨t, ht, hmade⟩ := restoreWith_made tag distinct valid
  refine ⟨t, ht, fun cycle => hmade.exists_circular, fun c hc => ?_, fun a b c hr hb hk => ?_⟩
  · exact hmade.exists_cycle (Sheet.cell?_of_mem hmade.kept.sound.indexed.nodup hc)
  · exact hmade.hasError_of_reaches hr hb (Cell.hasError_of_errorKind? hk)

set_option maxRecDepth 20000 in
/-- Two cells whose formulas are the names of each other. -/
theorem Document.restoreWith_mutual :
    let d : Document := ⟨"tree", [⟨"a", "b"⟩, ⟨"b", "a"⟩]⟩
    d.evaluator = Settings.default.evaluator ∧ (d.cells.map Record.name).Nodup ∧
      (∀ r ∈ d.cells, isValidName r.name = true) ∧ d.Mentions "a" "b" ∧ d.Mentions "b" "a" ∧
      ∃ t, d.restoreWith .default = .ok t ∧
        (∀ cycle : Cycle String, cycle ≠ Cycle.nil → cycle.Chain d.Mentions →
          ∃ name ∈ cycle, ∃ c, t.get name = .ok c ∧ c.errorKind? = some .circularReference) ∧
        (∀ c ∈ t.cells, c.errorKind? = some .circularReference →
          ∃ cycle : Cycle String, c.name ∈ cycle ∧ cycle.Nodup ∧ cycle.Chain d.Mentions) ∧
        ∀ a b c, ReflTransGen d.Mentions a b → t.get b = .ok c →
          c.errorKind? = some .circularReference → ∃ c', t.get a = .ok c' ∧ c'.hasError = true := by
  intro d
  have hdistinct : (d.cells.map Record.name).Nodup := by decide
  have hvalid : ∀ r ∈ d.cells, isValidName r.name = true := by decide
  have hmentions : ∀ a b id, parsePostfix b = .ok [.atom b] → isValidName b = true →
      d.resolver b = some id → ⟨a, b⟩ ∈ d.cells → d.Mentions a b := fun a b id hp hv hid hr =>
    ⟨⟨a, b⟩, hr, rfl, _, compile_name hp hv hid, ⟨id, b⟩, by simp [Expr.refs], rfl⟩
  exact ⟨rfl, hdistinct, hvalid, hmentions "a" "b" ⟨2⟩ (by cbv) (by decide) (by decide) (by decide),
    hmentions "b" "a" ⟨1⟩ (by cbv) (by decide) (by decide) (by decide),
    restoreWith_cycles rfl hdistinct hvalid⟩

end LiveSheet
