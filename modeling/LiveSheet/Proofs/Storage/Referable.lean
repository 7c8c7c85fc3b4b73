import LiveSheet.Proofs.Storage.Replay

namespace LiveSheet

namespace Sheet

variable {s t u : Sheet} {x id : CellId} {c d : Cell} {e : Edit} {name : String}

/-- A cell has its name from whoever wanted it, who may only have a valid one, or has a generated
one. -/
def Titled (s : Sheet) : Prop :=
  ∀ x c, s.cell? x = some c → isValidName c.name = true ∨ ∃ n, c.name = s.generatedName n

theorem Titled.of_names (h : s.Titled) (settings : t.settings = s.settings)
    (names : ∀ x d, t.cell? x = some d → ∃ c, s.cell? x = some c ∧ c.name = d.name) :
    t.Titled := by
  intro x d hd
  obtain ⟨c, hc, hname⟩ := names x d hd
  have hgenerated : t.generatedName = s.generatedName := by
    unfold generatedName
    rw [settings]
  rw [hgenerated, ← hname]
  exact h x c hc

theorem Titled.of_roster (h : s.Titled) (roster : t.roster = s.roster) : t.Titled := by
  apply h.of_names (settings_eq_of_roster roster)
  intro x d hd
  obtain ⟨c, hc, hlabel⟩ := cell?_of_through_eq Cell.label (fun _ => rfl) roster hd
  exact ⟨c, hc, (congrArg Cell.name hlabel :)⟩

theorem claimName_cases {wanted : Option String} (h : s.claimName wanted = .ok (name, t)) :
    isValidName name = true ∨ ∃ n, name = t.generatedName n := by
  unfold claimName at h
  cases wanted with
  | some w =>
    dsimp only at h
    split_ifs at h with hv hu
    obtain ⟨rfl, -⟩ : w = name ∧ s = t := by simpa using h
    exact .inl (by simpa using hv)
  | none =>
    obtain ⟨rfl, rfl⟩ : s.generatedName s.freshNumber = name ∧
        { s with lastName := s.freshNumber } = t := by simpa using h
    exact .inr ⟨s.freshNumber, rfl⟩

theorem Titled.insertCell {wanted : Option String} (h : s.Titled) (indexed : s.Indexed)
    (claim : s.claimName wanted = .ok (name, t)) (formula : String) (content : Content) :
    (t.insertCell name formula content).Titled := by
  intro x d hd
  rw [(indexed.claim claim).cell?_insertCell] at hd
  split at hd
  next =>
    obtain rfl := Option.some.inj hd
    exact (claimName_cases claim :)
  next =>
    obtain ⟨-, n, rfl⟩ := claimName_ok claim
    exact h x d hd

theorem Titled.removeCell (h : s.Titled) (gone : Cell) : (s.removeCell gone).Titled := by
  refine h.of_names (t := s.removeCell gone) rfl fun x d hd => ?_
  obtain ⟨-, c, hc, rfl⟩ := cell?_of_removeCell hd
  exact ⟨c, hc, (Cell.detach_name gone c).symm⟩

theorem Titled.relabel (h : s.Titled) (hc : s.cell? c.id = some c) {new : String}
    (valid : isValidName new = true) : (s.relabel c.id c.name new).Titled := by
  intro x d hd
  by_cases hx : x = c.id
  · rw [hx, cell?_relabel_self hc] at hd
    exact .inl (Option.some.inj hd ▸ valid)
  · rw [cell?_relabel_ne s hx] at hd
    exact h x d hd

theorem Makes.titled (h : s.Makes e) (indexed : s.Indexed) (hs : s.Titled) : e.sheet.Titled := by
  obtain ⟨given, henrols⟩ := h.enrols
  cases henrols with
  | same roster => exact hs.of_roster roster
  | insert claim roster => exact (hs.insertCell indexed claim _ _).of_roster roster
  | @remove gone _ roster => exact (hs.removeCell gone).of_roster roster
  | relabel hc valid _ roster => exact (hs.relabel hc valid).of_roster roster

/-- A new cell has the name that was claimed for it. -/
theorem cell?_createCell {wanted formula : Option String} (indexed : s.Indexed)
    (h : s.createCell wanted formula = .ok (id, e)) : ∃ c, e.sheet.cell? id = some c ∧
      (s.claimName wanted).map Prod.fst = .ok c.name := by
  obtain ⟨name, t, hclaim, rfl, rfl⟩ := createCell_eq_ok h
  let text := formula.getD t.settings.defaultFormula
  let inserted := t.insertCell name text (.formula none)
  have hcell : inserted.cell? t.nextId = some (Cell.new t.nextId name text (.formula none)) :=
    (indexed.claim hclaim).cell?_insertCell_self name text (.formula none)
  have hroster := (Edit.rebind_roster (inserted.unchanged.applyFormula t.nextId) name).trans
    (Edit.applyFormula_roster inserted.unchanged t.nextId)
  obtain ⟨c, hc, hlabel⟩ := cell?_of_through_eq Cell.label (fun _ => rfl) hroster.symm hcell
  have hname : c.name = name := (congrArg Cell.name hlabel :)
  refine ⟨c, hc, ?_⟩
  rw [hclaim, hname]
  rfl

/-- A formula that is the name of the cell refers to it, and a record of it can be restored. -/
structure Referable (s : Sheet) (c : Cell) : Prop where
  refers : compile s.resolver c.name = .ok (.cell ⟨c.id, c.name⟩)
  restored : ∀ formula, ∃ t,
    (Document.mk s.settings.evaluator [⟨c.name, formula⟩]).restoreWith s.settings = .ok t

/-- No formula refers to the cell, and no record of it can be restored. -/
structure Unreferable (s : Sheet) (c : Cell) : Prop where
  apart : ∀ formula tree, compile s.resolver formula = .ok tree → c.id ∉ tree.cells
  refused : ∀ formula,
    (Document.mk s.settings.evaluator [⟨c.name, formula⟩]).restoreWith s.settings =
      .error (.cell (.invalidName c.name))

theorem Indexed.referable (indexed : s.Indexed) (hc : s.cell? x = some c)
    (valid : isValidName c.name = true) : s.Referable c := by
  have hid : s.resolver c.name = some c.id := by
    rw [cell?_id hc]
    exact indexed.idOf?_name hc
  refine ⟨compile_name (parsePostfix_of_isValidName valid) valid hid, fun formula => ?_⟩
  have hrestorable : Restorable [⟨c.name, formula⟩] := ⟨by simpa using valid, by simp⟩
  obtain ⟨t, ht, -⟩ := Document.restoreWith_of_restorable
    (d := ⟨s.settings.evaluator, [⟨c.name, formula⟩]⟩) rfl hrestorable
  exact ⟨t, ht⟩

theorem Indexed.unreferable (indexed : s.Indexed) (hc : s.cell? x = some c)
    (invalid : isValidName c.name = false) : s.Unreferable c := by
  refine ⟨fun formula tree he hm => ?_, fun formula => ?_⟩
  · rw [Expr.cells_eq] at hm
    obtain ⟨ref, hr, hid⟩ := List.mem_map.mp hm
    have hname := name_eq_of_mem_refs indexed hc he hr (hid.trans (cell?_id hc))
    have hvalid := (resolve_of_mem_refs he hr).1
    rw [hname, invalid] at hvalid
    cases hvalid
  · have hnone : Restorable [] := ⟨by simp, by simp⟩
    exact Document.restoreWith_of_refused rfl (List.nil_append _).symm hnone (.invalid invalid)

end Sheet

theorem Session.run_titled (settings : Settings) (operations : List Operation) :
    ((Session.new settings).run operations).sheet.Titled := by
  have hboth := run_invariant (fun s => s.Kept settings ∧ s.Titled)
    (fun _ _ h hm => ⟨hm.kept h.1, hm.titled h.1.sound.indexed h.2⟩)
    (s := Session.new settings) ⟨.new settings, fun _ _ hc => (by cases hc)⟩ operations
  exact hboth.2

/-- The first cell that is made without a name has the number one. -/
theorem Session.run_createCell_name (settings : Settings) :
    ∃ c ∈ ((Session.new settings).run [.createCell none none]).sheet.cells,
      c.name = settings.namePrefix ++ "1" := by
  have hfresh : (Sheet.new settings).freshNumber = 1 := rfl
  have hclaim : ((Sheet.new settings).claimName none).map Prod.fst =
      .ok (settings.namePrefix ++ "1") := by
    rw [Sheet.claimName, hfresh]
    rfl
  cases hcreate : (Sheet.new settings).createCell none none with
  | error cause => cases hcreate
  | ok made =>
    have hrun : ((Session.new settings).run [.createCell none none]).sheet = made.2.sheet := by
      simp only [run, List.foldl, perform_createCell_eq, Session.new, hcreate]
      rfl
    obtain ⟨c, hc, hname⟩ := Sheet.cell?_createCell (Sheet.Kept.new settings).sound.indexed hcreate
    rw [hclaim] at hname
    rw [hrun]
    exact ⟨c, (Sheet.mem_of_cell? hc).1, (Except.ok.inj hname).symm⟩

/-- After any operations, a formula can refer to a cell and a record of it can be restored, or it
has a generated name that is not valid, and neither is possible. All cells ever made have valid
names exactly if the first generated name is one. -/
theorem Session.run_referable (settings : Settings) :
    (∀ operations, let s := ((Session.new settings).run operations).sheet
      ∀ c ∈ s.cells, isValidName c.name = true ∧ s.Referable c ∨
        isValidName c.name = false ∧ s.Unreferable c ∧
          ∃ n : Nat, c.name = settings.namePrefix ++ toString n) ∧
      ((∀ operations, ∀ c ∈ ((Session.new settings).run operations).sheet.cells,
        isValidName c.name = true) ↔ isValidName (settings.namePrefix ++ "1") = true) := by
  have hfirst : isValidName (settings.namePrefix ++ "1") = true ↔ settings.Proper := by
    rw [Settings.proper_iff, ← isValidName_generated settings.namePrefix 1]
    rfl
  constructor
  · intro operations s c hc
    have hs : s.Kept settings := run_kept settings operations
    have hcell := Sheet.cell?_of_mem hs.sound.indexed.nodup hc
    cases hvalid : isValidName c.name with
    | true => exact .inl ⟨rfl, hs.sound.indexed.referable hcell hvalid⟩
    | false =>
      refine .inr ⟨rfl, hs.sound.indexed.unreferable hcell hvalid, ?_⟩
      obtain ⟨n, hn⟩ := (run_titled settings operations c.id c hcell).resolve_left
        (by simp [hvalid])
      rw [Sheet.generatedName, hs.settings_eq] at hn
      exact ⟨n, hn⟩
  · rw [hfirst]
    constructor
    · intro hall
      obtain ⟨c, hc, hname⟩ := run_createCell_name settings
      rw [← hfirst, ← hname]
      exact hall _ c hc
    · intro proper operations c hc
      have hs := run_kept settings operations
      have hcell := Sheet.cell?_of_mem hs.sound.indexed.nodup hc
      exact hs.alert.named (by rwa [hs.settings_eq]) c.id c hcell

/-- With a prefix that begins no name, a cell that is made without a name has one that no formula
can use, and a record of it cannot be restored. -/
theorem Session.run_unreferable :
    let s := ((Session.new ⟨"my ", "0", "tree"⟩).run [.createCell none none]).sheet
    ∃ c ∈ s.cells, c.name = "my 1" ∧ isValidName c.name = false ∧
      (∀ formula tree, compile s.resolver formula = .ok tree → c.id ∉ tree.cells) ∧
      (Document.mk "tree" [c.record]).restoreWith ⟨"my ", "0", "tree"⟩ =
        .error (.cell (.invalidName "my 1")) := by
  intro s
  obtain ⟨c, hc, hname⟩ := run_createCell_name ⟨"my ", "0", "tree"⟩
  replace hname : c.name = "my 1" := hname
  have hs : s.Kept ⟨"my ", "0", "tree"⟩ := run_kept _ _
  have hinvalid : isValidName c.name = false := by
    rw [hname]
    decide +kernel
  have hcell := Sheet.cell?_of_mem hs.sound.indexed.nodup hc
  obtain ⟨hapart, hrefused⟩ := hs.sound.indexed.unreferable hcell hinvalid
  rw [hs.settings_eq] at hrefused
  refine ⟨c, hc, hname, hinvalid, hapart, ?_⟩
  rw [← hname]
  exact hrefused c.formula

end LiveSheet
