namespace LiveSheet

/-- The identity of a cell: given once, in order of creation, and never used again. -/
structure CellId where
  number : Nat
  deriving DecidableEq, Repr

theorem CellId.number_injective {a b : CellId} (h : a.number = b.number) : a = b := by
  cases a; cases b; simpa using h

def CellId.text (id : CellId) : String :=
  s!"#{id.number}"

abbrev CellId.Before (a b : CellId) : Prop :=
  a.number < b.number

def insertAscending (x : CellId) : List CellId → List CellId
  | [] => [x]
  | y :: ys =>
    if x.number < y.number then x :: y :: ys
    else if x = y then y :: ys
    else y :: insertAscending x ys

theorem mem_insertAscending {x y : CellId} {xs : List CellId} :
    y ∈ insertAscending x xs ↔ y = x ∨ y ∈ xs := by
  induction xs with
  | nil => simp [insertAscending]
  | cons z zs ih =>
    simp only [insertAscending]
    split
    next => simp
    next =>
      split
      next h => subst h; simp
      next =>
        simp only [List.mem_cons, ih]
        constructor
        · rintro (h | h | h)
          · exact .inr (.inl h)
          · exact .inl h
          · exact .inr (.inr h)
        · rintro (h | h | h)
          · exact .inr (.inl h)
          · exact .inl h
          · exact .inr (.inr h)

theorem insertAscending_pairwise {x : CellId} {xs : List CellId} (h : xs.Pairwise CellId.Before) :
    (insertAscending x xs).Pairwise CellId.Before := by
  induction xs with
  | nil => simp [insertAscending]
  | cons z zs ih =>
    obtain ⟨hz, ht⟩ := List.pairwise_cons.mp h
    simp only [insertAscending]
    split
    next hlt =>
      apply List.pairwise_cons.mpr
      refine ⟨?_, h⟩
      intro w hw
      rcases List.mem_cons.mp hw with rfl | hw
      · exact hlt
      · exact Nat.lt_trans hlt (hz w hw)
    next hge =>
      split
      next => exact h
      next hne =>
        apply List.pairwise_cons.mpr
        refine ⟨?_, ih ht⟩
        intro w hw
        rcases mem_insertAscending.mp hw with he | hw
        · have hnum : x.number ≠ z.number := fun h => hne (CellId.number_injective h)
          rw [he]
          exact Nat.lt_of_le_of_ne (Nat.le_of_not_lt hge) hnum.symm
        · exact hz w hw

/-- A finite set of cells, listed in ascending order. -/
structure IdSet where
  ids : List CellId
  ascending : ids.Pairwise CellId.Before
  deriving DecidableEq

namespace IdSet

instance : Membership CellId IdSet := ⟨fun s x => x ∈ s.ids⟩

instance (x : CellId) (s : IdSet) : Decidable (x ∈ s) :=
  inferInstanceAs (Decidable (x ∈ s.ids))

theorem mem_iff {x : CellId} {s : IdSet} : x ∈ s ↔ x ∈ s.ids := Iff.rfl

theorem ext {s t : IdSet} (h : ∀ x, x ∈ s ↔ x ∈ t) : s = t := by
  obtain ⟨xs, hx⟩ := s
  obtain ⟨ys, hy⟩ := t
  have hperm : xs.Perm ys := by
    apply (List.perm_ext_iff_of_nodup ?_ ?_).mpr h
    · exact hx.imp fun hlt he => Nat.ne_of_lt hlt (congrArg CellId.number he)
    · exact hy.imp fun hlt he => Nat.ne_of_lt hlt (congrArg CellId.number he)
  have : xs = ys := hperm.eq_of_pairwise
    (fun a b _ _ hab hba => absurd hab (Nat.lt_asymm hba)) hx hy
  subst this
  rfl

def empty : IdSet :=
  ⟨[], .nil⟩

instance : EmptyCollection IdSet := ⟨empty⟩

def insert (s : IdSet) (x : CellId) : IdSet :=
  ⟨insertAscending x s.ids, insertAscending_pairwise s.ascending⟩

def erase (s : IdSet) (x : CellId) : IdSet :=
  ⟨s.ids.filter (· != x), s.ascending.filter _⟩

/-- The members of both sets, the smaller one inserted into the larger one. -/
def union (s t : IdSet) : IdSet :=
  if t.ids.length ≤ s.ids.length then t.ids.foldl insert s else s.ids.foldl insert t

def ofList (xs : List CellId) : IdSet :=
  xs.foldl insert empty

def diff (s t : IdSet) : IdSet :=
  ⟨s.ids.filter (· ∉ t), s.ascending.filter _⟩

@[simp]
theorem not_mem_empty {x : CellId} : ¬x ∈ (∅ : IdSet) := by
  intro h
  cases h

@[simp]
theorem mem_insert {s : IdSet} {x y : CellId} : y ∈ s.insert x ↔ y = x ∨ y ∈ s :=
  mem_insertAscending

@[simp]
theorem mem_erase {s : IdSet} {x y : CellId} : y ∈ s.erase x ↔ y ∈ s ∧ y ≠ x := by
  simp [erase, mem_iff, List.mem_filter]

theorem erase_of_not_mem {s : IdSet} {x : CellId} (h : x ∉ s) : s.erase x = s := by
  apply ext
  intro y
  rw [mem_erase]
  exact ⟨And.left, fun hy => ⟨hy, fun he => h (he ▸ hy)⟩⟩

@[simp]
theorem mem_diff {s t : IdSet} {x : CellId} : x ∈ s.diff t ↔ x ∈ s ∧ ¬x ∈ t := by
  simp [diff, mem_iff, List.mem_filter]

theorem mem_foldl_insert {xs : List CellId} {s : IdSet} {x : CellId} :
    x ∈ xs.foldl insert s ↔ x ∈ s ∨ x ∈ xs := by
  induction xs generalizing s with
  | nil => simp
  | cons y ys ih =>
    rw [List.foldl_cons, ih, mem_insert, List.mem_cons]
    constructor
    · rintro ((h | h) | h)
      · exact .inr (.inl h)
      · exact .inl h
      · exact .inr (.inr h)
    · rintro (h | h | h)
      · exact .inl (.inr h)
      · exact .inl (.inl h)
      · exact .inr h

@[simp]
theorem mem_union {s t : IdSet} {x : CellId} : x ∈ s.union t ↔ x ∈ s ∨ x ∈ t := by
  unfold union
  split
  next => exact mem_foldl_insert
  next => exact mem_foldl_insert.trans or_comm

@[simp]
theorem mem_ofList {xs : List CellId} {x : CellId} : x ∈ ofList xs ↔ x ∈ xs := by
  have h : x ∈ xs.foldl insert empty ↔ x ∈ empty ∨ x ∈ xs := mem_foldl_insert
  simpa [ofList, show ¬x ∈ empty from not_mem_empty] using h

end IdSet

end LiveSheet
