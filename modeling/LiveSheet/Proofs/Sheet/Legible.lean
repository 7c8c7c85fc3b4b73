import LiveSheet.Proofs.Formula.Legible
import LiveSheet.Proofs.Sheet.Touches

namespace LiveSheet

/-- Errors of the cells can be told by kind and message, and cells that trees mention by what the
messages call them. -/
structure Sheet.Legible (s : Sheet) : Prop where
  errors : ∀ x c error, s.cell? x = some c → c.error = some error → error.Legible
  names : ∀ x c tree, s.cell? x = some c → c.tree? = some tree → ∀ ref ∈ tree.refs,
    ∀ d, s.cell? ref.id = some d → Unquoted d.name

namespace Sheet

variable {s : Sheet} {gone : Option CellId} {e : Edit}

theorem Legible.new (settings : Settings) : (Sheet.new settings).Legible :=
  ⟨fun _ _ _ hc => (by cases hc), fun _ _ _ hc => (by cases hc)⟩

theorem referenced_eq_ok {ref : CellRef} {d : Cell} (h : s.referenced ref = .ok d) :
    s.cell? ref.id = some d := by
  unfold referenced at h
  split at h <;> cases h
  assumption

theorem referenced_eq_error {ref : CellRef} {cause : FormulaError}
    (h : s.referenced ref = .error cause) : cause = .dangling ref.name := by
  unfold referenced at h
  split at h <;> cases h
  rfl

theorem context_legibleAt {ref : CellRef} (h : ∀ d, s.cell? ref.id = some d → Unquoted d.name) :
    s.context.LegibleAt ref := by
  refine ⟨fun cause hv => ?_, fun row col cause hv => ?_⟩
  · rcases Except.of_bind_eq_error hv with hv | ⟨d, hd, hv⟩
    · rw [referenced_eq_error hv]
      trivial
    · split at hv <;> cases hv
      exact h d (referenced_eq_ok hd)
  · rcases Except.of_bind_eq_error hv with hv | ⟨d, hd, hv⟩
    · rw [referenced_eq_error hv]
      trivial
    · split at hv
      next =>
        cases hv
        exact h d (referenced_eq_ok hd)
      next grid _ =>
        unfold Grid.get at hv
        split_ifs at hv <;> cases hv
        trivial

theorem Raises.legible {error : Option CellError} (raises : s.Raises error) (h : s.Legible) :
    ∀ e, error = some e → e.Legible := by
  rintro e rfl
  cases raises with
  | definition failed => exact (compile_refused failed).legible
  | @evaluation id c tree cause hc ht failed =>
    exact Expr.eval_legible tree
      (fun ref hr => context_legibleAt (h.names id c tree hc ht ref hr)) failed
  | circular | carried => trivial

theorem roster_modify {f : Cell → Cell} (hf : ∀ c, (f c).label = c.label) (s : Sheet)
    (id : CellId) : (s.modify id f).roster = s.roster :=
  through_modify hf s id

/-- What becomes of a cell has no other name, error or tree than it had, but for names that are
valid, errors that can be told and trees of formulas. -/
structure Descends (s : Sheet) (c d : Cell) : Prop where
  name : d.name = c.name ∨ isValidName d.name = true
  error : ∀ error, d.error = some error → c.error = some error ∨ error.Legible
  tree : ∀ tree, d.tree? = some tree →
    c.tree? = some tree ∨ ∃ formula, compile s.resolver formula = .ok tree

theorem Descends.refl (s : Sheet) (c : Cell) : s.Descends c c :=
  ⟨.inl rfl, fun _ => .inl, fun _ => .inl⟩

theorem Legible.of_descends {t : Sheet} (h : s.Legible) (indexed : s.Indexed)
    (cells : ∀ x d, t.cell? x = some d → ∃ c, s.cell? x = some c ∧ s.Descends c d) :
    t.Legible := by
  refine ⟨fun x d error hd he => ?_, fun x d tree hd ht ref hr d' hd' => ?_⟩
  · obtain ⟨c, hc, hdescends⟩ := cells x d hd
    rcases hdescends.error error he with hold | hlegible
    · exact h.errors x c error hc hold
    · exact hlegible
  · obtain ⟨c, hc, hdescends⟩ := cells x d hd
    obtain ⟨c', hc', hdescends'⟩ := cells ref.id d' hd'
    rcases hdescends'.name with hname | hvalid
    · rw [hname]
      rcases hdescends.tree tree ht with hold | ⟨formula, hcompiles⟩
      · exact h.names x c tree hc hold ref hr c' hc'
      · obtain ⟨hvalid, hresolve⟩ := resolve_of_mem_refs hcompiles hr
        obtain ⟨b, hb, hbname⟩ := (indexed.names ref.name ref.id).mp hresolve
        obtain rfl := Option.some.inj (hb.symm.trans hc')
        exact hbname ▸ unquoted_of_isValidName hvalid
    · exact unquoted_of_isValidName hvalid

theorem Legible.modify {id : CellId} {f : Cell → Cell} (h : s.Legible) (indexed : s.Indexed)
    (hid : ∀ c, (f c).id = c.id) (descends : ∀ c, s.Descends c (f c)) :
    (s.modify id f).Legible := by
  refine h.of_descends indexed fun x d hd => ?_
  by_cases hx : x = id
  · subst x
    rw [cell?_modify_self hid, Option.map_eq_some_iff] at hd
    obtain ⟨c, hc, rfl⟩ := hd
    exact ⟨c, hc, descends c⟩
  · rw [cell?_modify_ne hid s hx] at hd
    exact ⟨d, hd, .refl s d⟩

end Sheet

namespace Edit

open Sheet

variable {e e' : Edit}

theorem Touches.roster_eq (h : Touches e e') : e'.sheet.roster = e.sheet.roster := by
  cases h with
  | @quiet f quiet =>
    have hlabel : Cell.label ∘ f = Cell.label := by
      funext c
      have hname : (f c).name = c.name := congrArg Profile.name (quiet.profile c)
      simp only [Function.comp_apply, Cell.label, quiet.id, hname]
    exact (through_through f Cell.label e.sheet).trans (congrArg e.sheet.through hlabel)
  | value | error | formula => exact roster_modify (by exact fun _ => rfl) _ _

theorem Touches.legible (h : Touches e e') (indexed : e.sheet.Indexed) (legible : e.sheet.Legible) :
    e'.sheet.Legible := by
  cases h with
  | @quiet f quiet =>
    refine legible.of_descends indexed fun x d hd => ?_
    change (e.sheet.through f).cell? x = some d at hd
    rw [cell?_through quiet.id, Option.map_eq_some_iff] at hd
    obtain ⟨c, hc, rfl⟩ := hd
    have hname : (f c).name = c.name := congrArg Profile.name (quiet.profile c)
    have herror : (f c).error = c.error := congrArg Profile.error (quiet.profile c)
    exact ⟨c, hc, .inl hname, fun error he => .inl (herror ▸ he), quiet.trees c⟩
  | value | formula =>
    exact legible.modify indexed (fun _ => rfl) fun c => ⟨.inl rfl, fun _ => .inl, fun _ => .inl⟩
  | error hc news raised =>
    exact legible.modify indexed (fun _ => rfl)
      fun c => ⟨.inl rfl, fun e he => .inr (raised.legible legible e he), fun _ => .inl⟩

theorem Becomes.roster_eq (h : Becomes e e') : e'.sheet.roster = e.sheet.roster := by
  induction h with
  | refl => rfl
  | tail _ touches ih => exact touches.roster_eq.trans ih

theorem Becomes.legible (h : Becomes e e') (indexed : e.sheet.Indexed) (legible : e.sheet.Legible) :
    e'.sheet.Legible := by
  induction h with
  | refl => exact legible
  | tail before touches ih =>
    have hroster : _ = e.sheet.roster := Becomes.roster_eq before
    exact touches.legible (indexed.of_roster hroster.symm) ih

end Edit

namespace Sheet

open Edit

variable {s : Sheet} {gone : Option CellId} {e : Edit}

theorem Legible.insertCell (h : s.Legible) (sound : s.Sound) (name formula : String)
    {content : Content} (treeless : ∀ tree, content ≠ .formula (some tree)) :
    (s.insertCell name formula content).Legible := by
  have hold : ∀ {x : CellId} {d : Cell}, x ≠ s.nextId →
      (s.insertCell name formula content).cell? x = some d → s.cell? x = some d := by
    intro x d hx hd
    rwa [sound.indexed.cell?_insertCell_other name formula content hx] at hd
  refine ⟨fun x d error hd he => ?_, fun x d tree hd ht ref hr d' hd' => ?_⟩
  · by_cases hx : x = s.nextId
    · subst x
      obtain rfl := Option.some.inj ((sound.indexed.cell?_insertCell_self ..).symm.trans hd)
      cases he
    · exact h.errors x d error (hold hx hd) he
  · have hc := sound.indexed.cell?_of_insertCell treeless hd ht
    have hne : ref.id ≠ s.nextId := by
      intro hnext
      have hmem := Expr.mem_cells_of_mem_refs hr
      rw [hnext] at hmem
      exact sound.bound.nextId_not_mem hc ht hmem
    exact h.names x d tree hc ht ref hr d' (hold hne hd')

theorem Opens.legible (h : s.Opens gone e) (sound : s.Sound) (legible : s.Legible) :
    e.sheet.Legible := by
  cases h with
  | same => exact legible
  | @insert wanted name t content claim formula treeless =>
    have hsound := sound.claim claim
    have hlegible : t.Legible := by
      obtain ⟨-, n, rfl⟩ := claimName_ok claim
      exact ⟨legible.errors, legible.names⟩
    exact hlegible.insertCell hsound name formula treeless
  | @remove c hc =>
    refine legible.of_descends sound.indexed fun x d hd => ?_
    change (s.removeCell c).cell? x = some d at hd
    obtain ⟨-, b, hb, rfl⟩ := cell?_of_removeCell hd
    have hprofile := Cell.detach_profile c b
    exact ⟨b, hb, .inl (congrArg Profile.name hprofile),
      fun error he => .inl ((congrArg Profile.error hprofile).symm.trans he),
      fun tree ht => .inl (Cell.detach_tree? c b ▸ ht)⟩
  | @relabel c new hc valid free =>
    have hrenamed : (s.modify c.id fun c => { c with name := new }).Legible :=
      legible.modify sound.indexed (fun _ => rfl)
        fun _ => ⟨.inr valid, fun _ => .inl, fun _ => .inl⟩
    exact ⟨hrenamed.errors, hrenamed.names⟩
  | regrid hc grid =>
    exact legible.modify sound.indexed (fun _ => rfl)
      fun c => ⟨.inl rfl, fun _ => .inl, fun _ ht => (by cases ht)⟩

theorem Opens.indexed (h : s.Opens gone e) (indexed : s.Indexed) : e.sheet.Indexed := by
  cases h with
  | same => exact indexed
  | insert claim formula treeless =>
    exact (indexed.claim claim).insertCell (claimName_free claim) formula _
  | remove hc => exact indexed.removeCell hc
  | relabel hc valid free => exact indexed.relabel hc free
  | regrid hc grid => exact indexed.of_roster (roster_modify (by exact fun _ => rfl) _ _).symm

theorem Runs.legible (h : s.Runs gone e) (sound : s.Sound) (legible : s.Legible) :
    e.sheet.Legible := by
  obtain ⟨start, hopens, hbecomes⟩ := h
  exact hbecomes.legible (hopens.indexed sound.indexed) (hopens.legible sound legible)

end Sheet

end LiveSheet
