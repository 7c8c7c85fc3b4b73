import LiveSheet.Proofs.Formula.Refusal
import LiveSheet.Proofs.Sheet.Stance

namespace LiveSheet

/-- Generated names are names that formulas can use. -/
def Settings.Proper (settings : Settings) : Prop :=
  ∀ n : Nat, isValidName (settings.namePrefix ++ toString n) = true

/-- The formula uses a name that the cell waits for. -/
def Cell.Misses (c : Cell) : Prop :=
  Terminated c.formula ∧
    ∃ name ∈ c.unresolved, isValidName name = true ∧ Uses c.formula name

/-- The formula compiles nowhere unless a name that the cell waits for belongs to a cell. -/
def Cell.Hopeless (c : Cell) : Prop :=
  ∀ resolve : Resolver, (∀ name ∈ c.unresolved, resolve name = none) →
    ∀ tree, compile resolve c.formula ≠ .ok tree

/-- A cell waits only for names that belong to no cell, apart from some that are exempt. It waits
for none if it closes a cycle, and does if its tree names a cell that is gone or its formula fails
for want of a name. -/
structure Cell.AlertIn (s : Sheet) (exempt : List String) (c : Cell) : Prop where
  dead : ∀ name ∈ c.unresolved, name ∉ exempt → s.idOf? name = none
  cut : c.errorKind? = some .circularReference → c.references = ∅ ∧ c.unresolved = []
  whole : ∀ tree, c.tree? = some tree → (∀ y ∈ tree.cells, y ∈ s.ids) ∨ c.Misses
  hopeless : s.settings.Proper → c.errorKind? = some .definition → c.Hopeless

namespace Sheet

variable {s t : Sheet} {id x : CellId} {c d gone : Cell} {exempt : List String}

def AlertAt (s : Sheet) (exempt : List String) (x : CellId) : Prop :=
  ∀ c, s.cell? x = some c → c.isTable = false → c.AlertIn s exempt

/-- The names of all cells are ones that formulas can use, if the generated ones are. -/
def Named (s : Sheet) : Prop :=
  s.settings.Proper → ∀ x c, s.cell? x = some c → isValidName c.name = true

structure Alert (s : Sheet) : Prop where
  named : s.Named
  cells : ∀ x, s.AlertAt [] x

theorem idOf?_eq_of_roster (h : t.roster = s.roster) (name : String) :
    t.idOf? name = s.idOf? name := by
  rw [idOf?, idOf?, names_eq_of_roster h]

theorem resolver_eq_of_roster (h : t.roster = s.roster) : t.resolver = s.resolver :=
  funext (idOf?_eq_of_roster h)

theorem settings_eq_of_roster (h : t.roster = s.roster) : t.settings = s.settings :=
  (congrArg Sheet.settings h :)

theorem Named.of_roster (hs : s.Named) (h : t.roster = s.roster) : t.Named := by
  intro proper x d hd
  rw [settings_eq_of_roster h] at proper
  obtain ⟨c, hc, hlabel⟩ := cell?_of_through_eq Cell.label (fun _ => rfl) h hd
  have hname : c.name = d.name := (congrArg Cell.name hlabel :)
  rw [← hname]
  exact hs proper x c hc

end Sheet

section AlertIn

variable {s t : Sheet} {c d gone : Cell} {exempt : List String}

theorem Cell.Misses.of_eq (h : c.Misses) (formula : d.formula = c.formula)
    (unresolved : ∀ name ∈ c.unresolved, name ∈ d.unresolved) : d.Misses := by
  obtain ⟨hterminated, name, hn, hv, hu⟩ := h
  exact ⟨formula ▸ hterminated, name, unresolved name hn, hv, formula ▸ hu⟩

theorem Cell.Hopeless.of_eq (h : c.Hopeless) (formula : d.formula = c.formula)
    (unresolved : ∀ name ∈ c.unresolved, name ∈ d.unresolved) : d.Hopeless := by
  intro resolve hr tree
  rw [formula]
  exact h resolve (fun name hn => hr name (unresolved name hn)) tree

theorem Cell.AlertIn.weaken (h : c.AlertIn s []) (exempt : List String) : c.AlertIn s exempt :=
  ⟨fun name hn _ => h.dead name hn (by simp), h.cut, h.whole, h.hopeless⟩

/-- A name that belongs to no cell keeps a formula that uses it from being compiled. -/
theorem Cell.Misses.compile_ne_ok (h : c.Misses) {resolve : Resolver}
    (dead : ∀ name ∈ c.unresolved, resolve name = none) (tree : Expr) :
    compile resolve c.formula ≠ .ok tree := by
  obtain ⟨-, name, hn, hv, hu⟩ := h
  exact fun he => hu.resolve_ne_none hv he (dead name hn)

theorem Cell.AlertIn.of_stance (h : c.AlertIn s exempt) (stance : d.stance = c.stance)
    (roster : t.roster = s.roster) : d.AlertIn t exempt := by
  have hformula := Cell.formula_eq_of_stance stance
  have hunresolved := Cell.unresolved_eq_of_stance stance
  refine ⟨?_, ?_, ?_, ?_⟩
  · intro name hn hx
    rw [Sheet.idOf?_eq_of_roster roster]
    exact h.dead name (hunresolved ▸ hn) hx
  · intro hk
    rw [Cell.references_eq_of_stance stance, hunresolved]
    exact h.cut ((Cell.errorKind?_iff_of_stance stance (.inr rfl)).mp hk)
  · intro tree ht
    rw [Cell.tree?_eq_of_stance stance] at ht
    rw [Sheet.ids_eq_of_roster roster]
    exact (h.whole tree ht).imp_right fun hm => hm.of_eq hformula fun name hn => hunresolved ▸ hn
  · intro proper hk
    rw [Sheet.settings_eq_of_roster roster] at proper
    have hdef := (Cell.errorKind?_iff_of_stance stance (.inl rfl)).mp hk
    exact (h.hopeless proper hdef).of_eq hformula fun name hn => hunresolved ▸ hn

/-- A cell that has just been settled is alert. -/
theorem Edit.Outcome.alertIn {e : Edit} (h : e.Outcome c d) (indexed : e.sheet.Indexed)
    (roster : t.roster = e.sheet.roster) : d.AlertIn t [] := by
  cases h with
  | failed cause hcompile stance =>
    refine .of_stance ?_ stance roster
    refine ⟨fun name hn _ => ?_, fun hk => (by cases hk), fun tree ht => (by cases ht),
      fun _ _ resolve hr tree he => ?_⟩
    · cases cause with
      | unknownCell missing =>
        obtain rfl : name = missing := by simpa [FormulaError.missing] using hn
        exact resolve_of_compile_error hcompile
      | _ => cases hn
    · obtain ⟨name, rfl, -, hsome⟩ := compile_error_cases hcompile he
      rw [hr name (by simp [FormulaError.missing])] at hsome
      cases hsome
  | circular tree name _ stance =>
    refine .of_stance ?_ stance roster
    exact ⟨fun name hn => (by cases hn), fun _ => ⟨rfl, rfl⟩, fun tree ht => (by cases ht),
      fun _ hk => (by cases hk)⟩
  | built tree hcompile stance =>
    refine .of_stance ?_ stance roster
    refine ⟨fun name hn => (by cases hn), fun hk => (by cases hk), fun tree' ht => .inl ?_,
      fun _ hk => (by cases hk)⟩
    obtain rfl : tree = tree' := Option.some.inj ht
    intro y hy
    obtain ⟨name, hname⟩ := resolve_of_mem_cells hcompile hy
    exact indexed.mem_ids hname

end AlertIn

namespace Sheet

variable {s t : Sheet} {id x : CellId} {c d gone : Cell} {exempt : List String}

theorem AlertAt.weaken (h : s.AlertAt [] x) (exempt : List String) : s.AlertAt exempt x :=
  fun c hc ht => (h c hc ht).weaken exempt

theorem AlertAt.of_sameStance (h : s.AlertAt exempt x) (same : s.SameStance t x)
    (roster : t.roster = s.roster) : t.AlertAt exempt x := by
  intro d hd ht
  obtain ⟨c, hc, hstance⟩ := same.cell? hd
  exact (h c hc ((Cell.isTable_eq_of_stance hstance).symm.trans ht)).of_stance hstance roster

end Sheet

namespace Edit

open Sheet

variable {e : Edit} {id x : CellId} {c : Cell} {exempt : List String}

/-- Settling a cell makes it alert and leaves the others as they are. -/
theorem applyFormula_alertAt (hc : e.sheet.cell? id = some c) (formula : c.isTable = false)
    (indexed : e.sheet.Indexed) :
    (e.applyFormula id).sheet.AlertAt [] id ∧ ∀ x exempt, x ≠ id →
      e.sheet.AlertAt exempt x → (e.applyFormula id).sheet.AlertAt exempt x := by
  have hroster := applyFormula_roster e id
  refine ⟨fun d hd _ => ?_, fun x exempt hx h => ?_⟩
  · obtain ⟨d', hd', houtcome⟩ := applyFormula_outcome hc formula
    obtain rfl := Option.some.inj (hd'.symm.trans hd)
    exact houtcome.alertIn indexed hroster
  · exact h.of_sameStance (applyFormula_others e hx) hroster

/-- Settling the cells that wait for a name leaves none that does. -/
theorem rebind_alert {name : String} (indexed : e.sheet.Indexed) (named : e.sheet.Named)
    (cells : ∀ x, e.sheet.AlertAt [name] x) : (e.rebind name).sheet.Alert := by
  have hwaiting : ∀ x, x ∉ e.waitingFor name → e.sheet.AlertAt [] x := by
    intro x hx c hc ht
    obtain ⟨hdead, hcut, hwhole, hhopeless⟩ := cells x c hc ht
    refine ⟨fun n hn _ => hdead n hn ?_, hcut, hwhole, hhopeless⟩
    rw [List.mem_singleton]
    rintro rfl
    apply hx
    obtain ⟨hm, rfl⟩ := mem_of_cell? hc
    exact List.mem_map_of_mem (List.mem_filter.mpr ⟨hm, by simpa using hn⟩)
  unfold rebind
  generalize e.waitingFor name = waiting at hwaiting
  induction waiting generalizing e with
  | nil => exact ⟨named, fun x => hwaiting x (by simp)⟩
  | cons id rest ih =>
    have hroster := applyFormula_roster e id
    rcases applyFormula_cases e id with ⟨c, hc, ht⟩ | ⟨hstay, htable⟩
    · obtain ⟨hhere, hothers⟩ := applyFormula_alertAt hc ht indexed
      refine ih (indexed.of_roster hroster.symm) (named.of_roster hroster) (fun x => ?_)
        fun x hx => ?_
      · by_cases he : x = id
        · exact he ▸ hhere.weaken [name]
        · exact hothers x _ he (cells x)
      · by_cases he : x = id
        · exact he ▸ hhere
        · exact hothers x _ he (hwaiting x (by simp [he, hx]))
    · rw [List.foldl_cons, hstay]
      refine ih indexed named cells fun x hx => ?_
      by_cases he : x = id
      · subst x
        intro d hd hdt
        rw [htable d hd] at hdt
        cases hdt
      · exact hwaiting x (by simp [he, hx])

end Edit

end LiveSheet
