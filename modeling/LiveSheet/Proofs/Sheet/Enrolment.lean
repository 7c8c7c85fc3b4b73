import LiveSheet.Proofs.Sheet.LateBinding

namespace LiveSheet

namespace Sheet

variable {s t u : Sheet} {id x : CellId} {name : String} {given later : List CellId}

/-- No name stands in the index twice. -/
def Listed (s : Sheet) : Prop :=
  (s.names.map Prod.fst).Nodup

theorem not_mem_of_idOf?_eq_none (h : s.idOf? name = none) : name ∉ s.names.map Prod.fst := by
  intro hm
  obtain ⟨entry, he, rfl⟩ := List.mem_map.mp hm
  simpa using List.lookup_eq_none_iff.mp h entry he

/-- Every entry of an index without duplicates is found. -/
theorem Listed.mem_names_iff (h : s.Listed) : (name, id) ∈ s.names ↔ s.idOf? name = some id := by
  constructor
  · intro hm
    obtain ⟨front, rest, hsplit⟩ := List.append_of_mem hm
    refine List.lookup_eq_some_iff.mpr ⟨front, rest, hsplit, fun entry he => ?_⟩
    have hapart : name ∉ front.map Prod.fst := by
      rw [Listed, hsplit, List.map_append] at h
      intro hin
      exact (List.nodup_append.mp h).2.2 name hin name (by simp) rfl
    simpa using fun hname : name = entry.1 => hapart (hname ▸ List.mem_map_of_mem he)
  · intro hl
    obtain ⟨front, rest, hsplit, -⟩ := List.lookup_eq_some_iff.mp hl
    simp [hsplit]

theorem Enrols.listed (h : s.Enrols given t) (hs : s.Listed) : t.Listed := by
  have herased : ∀ old, ((s.names.erase old).map Prod.fst).Sublist (s.names.map Prod.fst) :=
    fun old => List.filter_sublist.map Prod.fst
  cases h with
  | same roster =>
    rw [Listed, names_eq_of_roster roster]
    exact hs
  | insert claim roster =>
    obtain ⟨hfree, n, rfl⟩ := claimName_ok claim
    rw [Listed, names_eq_of_roster roster]
    exact List.nodup_cons.mpr ⟨not_mem_of_idOf?_eq_none hfree, hs⟩
  | @remove gone _ roster =>
    rw [Listed, names_eq_of_roster roster]
    exact hs.sublist (herased gone.name)
  | @relabel c _ _ _ _ free roster =>
    rw [Listed, names_eq_of_roster roster]
    have hfree := fun hm => not_mem_of_idOf?_eq_none free ((herased c.name).subset hm)
    exact List.nodup_cons.mpr ⟨hfree, hs.sublist (herased c.name)⟩

/-- The index has the name of every cell, with its identity, and nothing else. -/
theorem Indexed.names_perm (indexed : s.Indexed) (listed : s.Listed) :
    s.names.Perm (s.cells.map fun c => (c.name, c.id)) := by
  have hids : (s.cells.map fun c => (c.name, c.id)).map Prod.snd = s.ids := by
    simp [ids]
  have hcells : (s.cells.map fun c => (c.name, c.id)).Nodup :=
    .of_map Prod.snd (hids ▸ indexed.nodup)
  apply (List.perm_ext_iff_of_nodup (.of_map Prod.fst listed) hcells).mpr
  rintro ⟨name, id⟩
  rw [listed.mem_names_iff, indexed.names, List.mem_map]
  constructor
  · rintro ⟨c, hc, rfl⟩
    obtain ⟨hm, rfl⟩ := mem_of_cell? hc
    exact ⟨c, hm, rfl⟩
  · rintro ⟨c, hm, he⟩
    obtain ⟨rfl, rfl⟩ := Prod.mk.injEq .. ▸ he
    exact ⟨c, cell?_of_mem indexed.nodup hm, rfl⟩

/-- The identities given on the way from one sheet to another are the next ones, and the cells that
are left stand in the order in which they were given. -/
structure Numbers (s : Sheet) (given : List CellId) (t : Sheet) : Prop where
  fresh : given = (List.range' (s.lastId + 1) given.length).map CellId.mk
  lastId : t.lastId = s.lastId + given.length
  kept : t.ids.Sublist (s.ids ++ given)

theorem Numbers.refl (s : Sheet) : s.Numbers [] s :=
  ⟨rfl, rfl, by simp⟩

theorem Numbers.trans (h : s.Numbers given t) (h' : t.Numbers later u) :
    s.Numbers (given ++ later) u := by
  refine ⟨?_, ?_, ?_⟩
  · have hsplit : List.range' (s.lastId + 1) (given.length + later.length) =
        List.range' (s.lastId + 1) given.length ++ List.range' (t.lastId + 1) later.length := by
      rw [List.range'_append_1.symm, h.lastId]
      congr 2
      omega
    rw [List.length_append, hsplit, List.map_append, ← h.fresh, ← h'.fresh]
  · rw [h'.lastId, h.lastId, List.length_append, Nat.add_assoc]
  · rw [← List.append_assoc]
    exact h'.kept.trans (h.kept.append_right later)

/-- An identity that was given before and is gone is neither given again nor that of a cell. -/
theorem Numbers.not_mem (h : s.Numbers given t) (past : x.number ≤ s.lastId) (gone : x ∉ s.ids) :
    x ∉ t.ids ∧ x ∉ given := by
  have hgiven : x ∉ given := by
    intro hm
    rw [h.fresh] at hm
    obtain ⟨n, hn, rfl⟩ := List.mem_map.mp hm
    have hle := (List.mem_range'_1.mp hn).1
    exact Nat.not_succ_le_self _ (hle.trans past)
  refine ⟨fun hm => ?_, hgiven⟩
  rcases List.mem_append.mp (h.kept.subset hm) with hm | hm
  · exact gone hm
  · exact hgiven hm

theorem Enrols.numbers (h : s.Enrols given t) : s.Numbers given t := by
  cases h with
  | same roster =>
    refine ⟨rfl, (congrArg Sheet.lastId roster :), ?_⟩
    rw [ids_eq_of_roster roster, List.append_nil]
  | insert claim roster =>
    obtain ⟨-, n, rfl⟩ := claimName_ok claim
    refine ⟨rfl, (congrArg Sheet.lastId roster :), ?_⟩
    rw [ids_eq_of_roster roster, ids_insertCell]
    exact .refl _
  | @remove gone _ roster =>
    refine ⟨rfl, (congrArg Sheet.lastId roster :), ?_⟩
    have hids : (s.removeCell gone).ids =
        (s.cells.filter fun c => c.id != gone.id).map Cell.id := by
      simp [ids, removeCell, Function.comp_def, Cell.detach_id]
    rw [ids_eq_of_roster roster, hids, List.append_nil]
    exact List.filter_sublist.map _
  | @relabel c new _ _ _ _ roster =>
    refine ⟨rfl, (congrArg Sheet.lastId roster :), ?_⟩
    have hids : (s.relabel c.id c.name new).ids = s.ids :=
      ids_modify (f := fun c => { c with name := new }) (fun _ => rfl) s c.id
    rw [ids_eq_of_roster roster, hids, List.append_nil]

end Sheet

/-- The identity of a new cell, of which the reply tells. -/
def Reply.given : Reply → List CellId
  | .created id => [id]
  | _ => []

theorem Reply.given_eq_nil {reply : Reply} (h : ∀ id, reply ≠ .created id) : reply.given = [] := by
  cases reply with
  | created id => exact absurd rfl (h id)
  | _ => rfl

/-- Whoever makes a cell is told its identity. -/
theorem Sheet.Accepts.enrols {s : Sheet} {op : Operation} {reply : Reply} {e : Edit}
    (h : s.Accepts op reply e) : s.Enrols reply.given e.sheet := by
  cases h with
  | createCell h => exact createCell_enrols h
  | createTable h => exact createTable_enrols h
  | deleteCell h => exact deleteCell_enrols h
  | setFormula h => exact .same (setFormula_roster h)
  | rename h => exact rename_enrols h
  | setTableValue h => exact setTableValue_enrols h
  | resizeTable h => exact resizeTable_enrols h

namespace Session

open Sheet

/-- The identities given to new cells in the course of some operations. -/
def given (s : Session) : List Operation → List CellId
  | [] => []
  | op :: rest => (s.perform op).reply.given ++ (s.perform op).session.given rest

/-- Every operation enrols cells so, and tells who makes a cell its identity. -/
theorem perform_enrols (s : Session) (op : Operation) :
    s.sheet.Enrols (s.perform op).reply.given (s.perform op).session.sheet := by
  rcases s.perform_accepts op with ⟨hsheet, -, hreply⟩ | ⟨e, haccepts, hsheet, -⟩
  · rw [Reply.given_eq_nil hreply]
    exact .same (by rw [hsheet])
  · rw [hsheet]
    exact haccepts.enrols

theorem run_listed (settings : Settings) (operations : List Operation) :
    ((new settings).run operations).sheet.Listed := by
  have hrun : ∀ s : Session, s.sheet.Listed → (s.run operations).sheet.Listed := by
    induction operations with
    | nil => exact fun _ h => h
    | cons op rest ih => exact fun s h => ih _ ((s.perform_enrols op).listed h)
  exact hrun _ List.nodup_nil

theorem run_numbers (s : Session) (operations : List Operation) :
    s.sheet.Numbers (s.given operations) (s.run operations).sheet := by
  induction operations generalizing s with
  | nil => exact .refl s.sheet
  | cons op rest ih => exact (s.perform_enrols op).numbers.trans (ih _)

/-- After any operations, the index has the name and the identity of every cell and nothing else, so
that names are unique. The identities are given from one on, each once, and the cells stand in the
order in which they got theirs. One that belongs to no cell any more, although a tree may mention
it, is never given again. -/
theorem run_enrolled (settings : Settings) (operations : List Operation) :
    let session := (new settings).run operations
    let s := session.sheet
    let given := (new settings).given operations
    (s.names.Perm (s.cells.map fun c => (c.name, c.id)) ∧ (s.cells.map Cell.name).Nodup ∧
      ∀ name id, s.idOf? name = some id ↔ ∃ c ∈ s.cells, c.name = name ∧ c.id = id) ∧
      (given = (List.range' 1 s.lastId).map CellId.mk ∧ s.ids.Sublist given ∧
        s.ids.Pairwise CellId.Before ∧ ∀ id ∈ s.ids, id.number ≤ s.lastId) ∧
      ∀ x, (x ∈ given ∨ ∃ c ∈ s.cells, ∃ tree, c.tree? = some tree ∧ x ∈ tree.cells) → x ∉ s.ids →
        ∀ later, x ∉ (session.run later).sheet.ids ∧ x ∉ session.given later := by
  intro session s given
  have hs : s.Sound := run_sound settings operations
  have hlisted : s.Listed := run_listed settings operations
  obtain ⟨hfresh, hlast, hkept⟩ := (new settings).run_numbers operations
  replace hlast : s.lastId = given.length := hlast.trans (Nat.zero_add _)
  replace hfresh : given = (List.range' 1 s.lastId).map CellId.mk := by
    rw [hlast]
    exact hfresh
  have hperm := hs.indexed.names_perm hlisted
  refine ⟨⟨hperm, ?_, fun name id => ?_⟩,
    ⟨hfresh, hkept, hs.indexed.ascending, hs.indexed.bounded⟩, fun x hx hgone later => ?_⟩
  · have hnames := hperm.map Prod.fst
    rw [List.map_map] at hnames
    exact hnames.nodup hlisted
  · rw [← hlisted.mem_names_iff, hperm.mem_iff, List.mem_map]
    simp only [Prod.mk.injEq]
  · refine (session.run_numbers later).not_mem ?_ hgone
    rcases hx with hx | ⟨c, hc, tree, ht, hx⟩
    · rw [hfresh] at hx
      obtain ⟨n, hn, rfl⟩ := List.mem_map.mp hx
      have hlt := (List.mem_range'_1.mp hn).2
      change n ≤ s.lastId
      omega
    · exact hs.bound.past c.id c tree (cell?_of_mem hs.indexed.nodup hc) ht x hx

end Session

end LiveSheet
