import Mathlib.Data.List.Perm.Subperm
import Mathlib.Data.String.Basic
import LiveSheet.Proofs.Sheet.Lookup
import LiveSheet.Proofs.Sheet.Outcome

namespace LiveSheet

theorem lookup_cons {α : Type} (entries : List (String × α)) (name n : String) (a : α) :
    List.lookup n ((name, a) :: entries) = if n = name then some a else entries.lookup n := by
  rw [List.lookup_cons]
  by_cases h : n = name
  · simp [h]
  · simp [h, beq_eq_false_iff_ne.mpr h]

namespace NameIndex

theorem lookup_insert (index : NameIndex) (name n : String) (id : CellId) :
    (index.insert name id).lookup n = if n = name then some id else index.lookup n :=
  lookup_cons index name n id

theorem lookup_erase (index : NameIndex) (name n : String) :
    (index.erase name).lookup n = if n = name then none else index.lookup n := by
  induction index with
  | nil => simp [erase]
  | cons entry index ih =>
    obtain ⟨m, id⟩ := entry
    rw [lookup_cons]
    by_cases hm : m = name
    · have he : NameIndex.erase ((m, id) :: index) name = NameIndex.erase index name := by
        simp [erase, hm]
      rw [he, ih, hm]
      by_cases hn : n = name <;> simp [hn]
    · have he : NameIndex.erase ((m, id) :: index) name =
          (m, id) :: NameIndex.erase index name := by
        simp [erase, hm]
      rw [he, lookup_cons, ih]
      by_cases hn : n = m
      · simp [hn, hm]
      · simp [hn]

end NameIndex

namespace Sheet

/-- Identities are given in ascending order, and the index has the names of the cells. -/
structure Indexed (s : Sheet) : Prop where
  ascending : s.ids.Pairwise CellId.Before
  bounded : ∀ id ∈ s.ids, id.number ≤ s.lastId
  names : ∀ name id, s.idOf? name = some id ↔ ∃ c, s.cell? id = some c ∧ c.name = name

theorem Indexed.nodup {s : Sheet} (h : s.Indexed) : s.ids.Nodup :=
  h.ascending.imp fun hlt he => Nat.ne_of_lt hlt (congrArg CellId.number he)

theorem Indexed.mem_ids {s : Sheet} (h : s.Indexed) {name : String} {id : CellId}
    (hn : s.idOf? name = some id) : id ∈ s.ids := by
  obtain ⟨c, hc, -⟩ := (h.names name id).mp hn
  exact mem_ids_iff.mpr ⟨c, hc⟩

theorem Indexed.idOf?_name {s : Sheet} (h : s.Indexed) {id : CellId} {c : Cell}
    (hc : s.cell? id = some c) : s.idOf? c.name = some id :=
  (h.names c.name id).mpr ⟨c, hc, rfl⟩

theorem Indexed.of_roster {s t : Sheet} (hs : s.Indexed) (h : s.roster = t.roster) :
    t.Indexed := by
  have hids := ids_eq_of_roster h
  have hlast : s.roster.lastId = t.roster.lastId := by rw [h]
  have hnames := names_eq_of_roster h
  refine ⟨hids ▸ hs.ascending, fun id hid => ?_, fun name id => ?_⟩
  · exact (hs.bounded id (hids ▸ hid)).trans (Nat.le_of_eq hlast)
  · have hc : ∀ u : Sheet, (∃ c, u.cell? id = some c ∧ c.name = name) ↔
        ∃ c, u.roster.cell? id = some c ∧ c.name = name := by
      intro u
      rw [roster, cell?_through (f := Cell.label) (fun _ => rfl)]
      simp only [Option.map_eq_some_iff]
      constructor
      · rintro ⟨c, hc, hn⟩
        exact ⟨c.label, ⟨c, hc, rfl⟩, hn⟩
      · rintro ⟨_, ⟨c, hc, rfl⟩, hn⟩
        exact ⟨c, hc, hn⟩
    rw [idOf?, ← hnames, hc t, ← h, ← hc s]
    exact hs.names name id

theorem Indexed.nextId_not_mem {s : Sheet} (h : s.Indexed) : s.nextId ∉ s.ids := by
  intro hm
  have hb := h.bounded s.nextId hm
  simp [nextId] at hb

theorem generatedName_injective (s : Sheet) {m n : Nat}
    (h : s.generatedName m = s.generatedName n) : m = n := by
  have hd : toString m = toString n := by
    apply String.toList_injective
    have hl := congrArg String.toList h
    simpa [generatedName] using hl
  have hv : ∀ k : Nat, Nat.ofDigitChars 10 (toString k).toList 0 = k := by
    intro k
    simp
  rw [← hv m, hd, hv n]

/-- Among one more numbers than there are names, one makes a name that is free. -/
theorem exists_free_number (s : Sheet) (last : Nat) :
    ∃ n ∈ List.range' (last + 1) (s.names.length + 1), s.idOf? (s.generatedName n) = none := by
  by_contra hnone
  let taken := (List.range' (last + 1) (s.names.length + 1)).map s.generatedName
  have hnodup : taken.Nodup :=
    (List.nodup_range' ..).map fun _ _ h => s.generatedName_injective h
  have hsub : taken ⊆ s.names.map Prod.fst := by
    intro name hm
    obtain ⟨n, hn, rfl⟩ := List.mem_map.mp hm
    obtain ⟨id, hid⟩ := Option.ne_none_iff_exists'.mp fun hfree => hnone ⟨n, hn, hfree⟩
    obtain ⟨l₁, l₂, he, -⟩ := List.lookup_eq_some_iff.mp hid
    rw [he]
    simp
  have hle := (List.subperm_of_subset hnodup hsub).length_le
  simp [taken] at hle

/-- The number of a generated name is the first one above the last one that makes a free name. -/
theorem freshNumber_spec (s : Sheet) :
    s.freshNumber ∈ List.range' (s.lastName + 1) (s.names.length + 1) ∧
      s.idOf? (s.generatedName s.freshNumber) = none ∧
      ∀ n, s.lastName < n → n < s.freshNumber →
        (s.idOf? (s.generatedName n)).isSome = true := by
  obtain ⟨m, hm, hfree⟩ := s.exists_free_number s.lastName
  unfold freshNumber
  dsimp only
  cases hf : (List.range' (s.lastName + 1) (s.names.length + 1)).find?
      fun n => (s.idOf? (s.generatedName n)).isNone with
  | none => exact absurd hfree (by simpa using List.find?_eq_none.mp hf m hm)
  | some n =>
    rw [List.find?_range'_eq_some] at hf
    obtain ⟨hn, hmem, hbefore⟩ := hf
    refine ⟨hmem, by simpa using hn, fun k hk hlt => ?_⟩
    simpa using hbefore k hk hlt

theorem idOf?_freshNumber (s : Sheet) : s.idOf? (s.generatedName s.freshNumber) = none :=
  s.freshNumber_spec.2.1

theorem claimName_ok {s t : Sheet} {wanted : Option String} {name : String}
    (h : s.claimName wanted = .ok (name, t)) :
    s.idOf? name = none ∧ ∃ n, t = { s with lastName := n } := by
  unfold claimName at h
  cases wanted with
  | some w =>
    dsimp only at h
    split_ifs at h with hv hu
    obtain ⟨rfl, rfl⟩ : w = name ∧ s = t := by simpa using h
    exact ⟨by simpa using hu, s.lastName, rfl⟩
  | none =>
    obtain ⟨rfl, rfl⟩ : s.generatedName s.freshNumber = name ∧
        { s with lastName := s.freshNumber } = t := by simpa using h
    exact ⟨s.idOf?_freshNumber, s.freshNumber, rfl⟩

theorem claimName_free {s t : Sheet} {wanted : Option String} {name : String}
    (h : s.claimName wanted = .ok (name, t)) : t.idOf? name = none := by
  obtain ⟨hfree, n, rfl⟩ := claimName_ok h
  exact hfree

theorem Indexed.cell?_insertCell {s : Sheet} (h : s.Indexed) (name formula : String)
    (content : Content) (id : CellId) : (s.insertCell name formula content).cell? id =
      if id = s.nextId then some (Cell.new s.nextId name formula content) else s.cell? id := by
  simp only [cell?, insertCell, List.find?_append]
  by_cases hid : id = s.nextId
  · subst id
    have hn := not_mem_ids_iff.mp h.nextId_not_mem
    rw [cell?] at hn
    simp [hn, Cell.new]
  · have hne : ¬s.nextId = id := fun he => hid he.symm
    simp [hid, hne, Cell.new]

theorem idOf?_insertCell (s : Sheet) (name formula : String) (content : Content) (n : String) :
    (s.insertCell name formula content).idOf? n = if n = name then some s.nextId else s.idOf? n :=
  NameIndex.lookup_insert ..

/-- A new cell takes no name from another one. -/
theorem idOf?_insertCell_of_some {s : Sheet} {name n : String} {id : CellId}
    (free : s.idOf? name = none) (formula : String) (content : Content) (hn : s.idOf? n = some id) :
    (s.insertCell name formula content).idOf? n = some id := by
  rw [idOf?_insertCell, if_neg, hn]
  rintro rfl
  rw [free] at hn
  cases hn

theorem ids_insertCell (s : Sheet) (name formula : String) (content : Content) :
    (s.insertCell name formula content).ids = s.ids ++ [s.nextId] := by
  simp [ids, insertCell, Cell.new]

theorem Indexed.cell?_insertCell_self {s : Sheet} (h : s.Indexed) (name formula : String)
    (content : Content) : (s.insertCell name formula content).cell? s.nextId =
      some (Cell.new s.nextId name formula content) := by
  rw [h.cell?_insertCell, if_pos rfl]

theorem Indexed.insertCell {s : Sheet} (h : s.Indexed) {name : String}
    (free : s.idOf? name = none) (formula : String) (content : Content) :
    (s.insertCell name formula content).Indexed := by
  refine ⟨?_, ?_, ?_⟩
  · rw [ids_insertCell]
    apply List.pairwise_append.mpr
    refine ⟨h.ascending, List.pairwise_singleton _ _, fun a ha b hb => ?_⟩
    obtain rfl : b = s.nextId := by simpa using hb
    exact Nat.lt_succ_of_le (h.bounded a ha)
  · intro id hid
    rw [ids_insertCell] at hid
    rcases List.mem_append.mp hid with hid | hid
    · exact Nat.le_succ_of_le (h.bounded id hid)
    · obtain rfl : id = s.nextId := by simpa using hid
      exact Nat.le_refl _
  · intro n id
    rw [idOf?_insertCell, h.cell?_insertCell]
    by_cases hid : id = s.nextId
    · subst id
      have hold : s.idOf? n ≠ some s.nextId := fun hn => h.nextId_not_mem (h.mem_ids hn)
      by_cases hn : n = name
      · simp [hn, Cell.new]
      · simp [hn, hold, Cell.new, Ne.symm hn]
    · rw [if_neg hid, ← h.names]
      by_cases hn : n = name
      · simp [hn, free, Ne.symm hid]
      · simp [hn]

theorem Indexed.claim {s t : Sheet} (h : s.Indexed) {wanted : Option String} {name : String}
    (hc : s.claimName wanted = .ok (name, t)) : t.Indexed := by
  obtain ⟨-, n, rfl⟩ := claimName_ok hc
  exact ⟨h.ascending, h.bounded, h.names⟩

end Sheet

theorem Cell.detach_id (gone c : Cell) : (Cell.detach gone c).id = c.id := by
  unfold detach
  dsimp only
  split_ifs <;> rfl

theorem Cell.detach_label (gone c : Cell) : (Cell.detach gone c).label = c.label := by
  unfold detach
  dsimp only
  split_ifs <;> rfl

theorem Cell.detach_name (gone c : Cell) : (Cell.detach gone c).name = c.name :=
  (congrArg Cell.name (Cell.detach_label gone c) :)

namespace Sheet

theorem cell?_removeCell (s : Sheet) (gone : Cell) (id : CellId) : (s.removeCell gone).cell? id =
    if id = gone.id then none else (s.cell? id).map (Cell.detach gone) := by
  simp only [cell?, removeCell, List.find?_map, Function.comp_def, Cell.detach_id,
    List.find?_filter]
  by_cases hid : id = gone.id
  · simp only [hid, ↓reduceIte, Option.map_eq_none_iff, List.find?_eq_none]
    intro c _
    simp
  · rw [if_neg hid]
    congr 2
    funext c
    by_cases hc : c.id = id
    · simp [hc, hid]
    · simp [hc]

/-- The cells that are left are those of before, detached from the one that goes. -/
theorem cell?_of_removeCell {s : Sheet} {gone d : Cell} {id : CellId}
    (hd : (s.removeCell gone).cell? id = some d) :
    id ≠ gone.id ∧ ∃ c, s.cell? id = some c ∧ d = Cell.detach gone c := by
  rw [cell?_removeCell] at hd
  split at hd
  next => cases hd
  next hid =>
    obtain ⟨c, hc, rfl⟩ := Option.map_eq_some_iff.mp hd
    exact ⟨hid, c, hc, rfl⟩

theorem idOf?_removeCell (s : Sheet) (gone : Cell) (n : String) :
    (s.removeCell gone).idOf? n = if n = gone.name then none else s.idOf? n :=
  NameIndex.lookup_erase ..

theorem ids_removeCell (s : Sheet) (gone : Cell) :
    (s.removeCell gone).ids = s.ids.filter (· != gone.id) := by
  simp [ids, removeCell, List.filter_map, Function.comp_def, Cell.detach_id]

theorem Indexed.removeCell {s : Sheet} (h : s.Indexed) {gone : Cell}
    (hg : s.cell? gone.id = some gone) : (s.removeCell gone).Indexed := by
  have hids : (s.removeCell gone).ids.Sublist s.ids := by
    rw [ids_removeCell]
    exact List.filter_sublist
  refine ⟨h.ascending.sublist hids, fun id hid => h.bounded id (hids.subset hid), ?_⟩
  intro n id
  rw [idOf?_removeCell, cell?_removeCell]
  by_cases hid : id = gone.id
  · subst id
    by_cases hn : n = gone.name
    · simp [hn]
    · have hold : s.idOf? n ≠ some gone.id := by
        intro hs
        obtain ⟨c, hc, hcn⟩ := (h.names n gone.id).mp hs
        rw [hg] at hc
        exact hn (Option.some.inj hc ▸ hcn.symm)
      simp [hn, hold]
  · have hcells : (∃ d, (s.cell? id).map (Cell.detach gone) = some d ∧ d.name = n) ↔
        ∃ c, s.cell? id = some c ∧ c.name = n := by
      simp only [Option.map_eq_some_iff]
      constructor
      · rintro ⟨_, ⟨c, hc, rfl⟩, hn⟩
        exact ⟨c, hc, (Cell.detach_name gone c).symm.trans hn⟩
      · rintro ⟨c, hc, hn⟩
        exact ⟨_, ⟨c, hc, rfl⟩, (Cell.detach_name gone c).trans hn⟩
    rw [if_neg hid, hcells, ← h.names]
    by_cases hn : n = gone.name
    · subst n
      rw [h.idOf?_name hg]
      simp [Ne.symm hid]
    · simp [hn]

theorem cell?_relabel_self {s : Sheet} {id : CellId} {c : Cell} (hc : s.cell? id = some c)
    (old new : String) : (s.relabel id old new).cell? id = some { c with name := new } := by
  have hm := cell?_modify_self (f := fun c => { c with name := new }) (fun _ => rfl) s id
  rw [hc] at hm
  exact hm

theorem cell?_relabel_ne (s : Sheet) {id x : CellId} (hx : x ≠ id) (old new : String) :
    (s.relabel id old new).cell? x = s.cell? x :=
  cell?_modify_ne (f := fun c => { c with name := new }) (fun _ => rfl) s hx

theorem idOf?_relabel (s : Sheet) (id : CellId) (old new name : String) :
    (s.relabel id old new).idOf? name =
      if name = new then some id else if name = old then none else s.idOf? name := by
  have hlookup : (s.relabel id old new).idOf? name =
      ((s.names.erase old).insert new id).lookup name := rfl
  rw [hlookup, NameIndex.lookup_insert, NameIndex.lookup_erase]
  rfl

theorem Indexed.relabel {s : Sheet} (h : s.Indexed) {id : CellId} {c : Cell}
    (hc : s.cell? id = some c) {new : String} (free : s.idOf? new = none) :
    (s.relabel id c.name new).Indexed := by
  have hids : (s.relabel id c.name new).ids = s.ids :=
    ids_modify (f := fun c => { c with name := new }) (fun _ => rfl) s id
  refine ⟨hids ▸ h.ascending, fun x hx => h.bounded x (hids ▸ hx), fun name x => ?_⟩
  rw [idOf?_relabel]
  by_cases hx : x = id
  · subst x
    rw [cell?_relabel_self hc]
    by_cases hn : name = new
    · simp [hn]
    · by_cases ho : name = c.name
      · simp [ho, eq_comm]
      · have hold : s.idOf? name ≠ some id := by
          intro hs
          obtain ⟨d, hd, hdn⟩ := (h.names name id).mp hs
          exact ho (hdn ▸ congrArg Cell.name (Option.some.inj (hd.symm.trans hc)))
        simp [hn, ho, hold, Ne.symm hn]
  · rw [cell?_relabel_ne s hx, ← h.names]
    by_cases hn : name = new
    · simp [hn, free, Ne.symm hx]
    · by_cases ho : name = c.name
      · rw [ho, h.idOf?_name hc]
        simp [Ne.symm hx, ← ho, hn]
      · simp [hn, ho]

end Sheet

end LiveSheet
