import Mathlib.Logic.Relation
import LiveSheet.PostOrder

namespace LiveSheet

open Relation

/-- One step from a cell along a list of next cells for each. -/
def Leads (next : CellId → List CellId) (x y : CellId) : Prop :=
  y ∈ next x

/-- No cell leads back to itself. -/
def Acyclic (next : CellId → List CellId) : Prop :=
  ∀ x, ¬TransGen (Leads next) x x

theorem Acyclic.not_mem_self {next : CellId → List CellId} (h : Acyclic next) (x : CellId) :
    x ∉ next x :=
  fun hx => h x (.single hx)

theorem mem_postOrder_of_todo {next : CellId → List CellId} {unvisited todo : List CellId}
    {x : CellId} (ht : x ∈ todo) (hu : x ∈ unvisited) : x ∈ postOrder next unvisited todo := by
  fun_induction postOrder next unvisited todo with
  | case1 => simp at ht
  | case2 unvisited id rest hid below _ ih =>
    rcases List.mem_cons.mp ht with rfl | ht
    · simp
    · by_cases hx : x = id
      · simp [hx]
      · by_cases hb : x ∈ below
        · exact List.mem_append_left _ hb
        · have he : x ∈ unvisited.erase id := (List.mem_erase_of_ne hx).mpr hu
          have hm := ih ht (List.mem_filter.mpr ⟨he, by simpa using hb⟩)
          exact List.mem_append_right _ (List.mem_cons_of_mem _ hm)
  | case3 unvisited id rest hid ih =>
    rcases List.mem_cons.mp ht with rfl | ht
    · exact absurd hu hid
    · exact ih ht hu

/-- What a listed cell leads to is listed, unless the walk began with it visited. -/
theorem mem_postOrder_of_leads {next : CellId → List CellId} {unvisited todo : List CellId}
    {x y : CellId} (hx : x ∈ postOrder next unvisited todo) (hy : y ∈ next x)
    (hu : y ∈ unvisited) : y ∈ postOrder next unvisited todo := by
  fun_induction postOrder next unvisited todo with
  | case1 => simp at hx
  | case2 unvisited id rest hid below ih₁ ih₂ =>
    by_cases he : y = id
    · simp [he]
    have hye : y ∈ unvisited.erase id := (List.mem_erase_of_ne he).mpr hu
    by_cases hb : y ∈ below
    · exact List.mem_append_left _ hb
    rcases List.mem_append.mp hx with hx | hx
    · exact absurd (ih₁ hx hye) hb
    · rcases List.mem_cons.mp hx with rfl | hx
      · exact absurd (mem_postOrder_of_todo hy hye) hb
      · have hm := ih₂ hx (List.mem_filter.mpr ⟨hye, by simpa using hb⟩)
        exact List.mem_append_right _ (List.mem_cons_of_mem _ hm)
  | case3 unvisited id rest hid ih => exact ih hx hu

theorem reached_of_mem_postOrder {next : CellId → List CellId} {unvisited todo : List CellId}
    {x : CellId} (h : x ∈ postOrder next unvisited todo) :
    ∃ t ∈ todo, t ∈ unvisited ∧ ReflTransGen (Leads next) t x := by
  fun_induction postOrder next unvisited todo with
  | case1 => simp at h
  | case2 unvisited id rest hid below ih₁ ih₂ =>
    rcases List.mem_append.mp h with h | h
    · obtain ⟨t, ht, _, hr⟩ := ih₁ h
      exact ⟨id, by simp, hid, .head ht hr⟩
    · rcases List.mem_cons.mp h with rfl | h
      · exact ⟨x, by simp, hid, .refl⟩
      · obtain ⟨t, ht, hu, hr⟩ := ih₂ h
        have he := (List.mem_filter.mp hu).1
        exact ⟨t, List.mem_cons_of_mem _ ht, List.mem_of_mem_erase he, hr⟩
  | case3 unvisited id rest hid ih =>
    obtain ⟨t, ht, hu, hr⟩ := ih h
    exact ⟨t, List.mem_cons_of_mem _ ht, hu, hr⟩

/-- Without cycles, no cell is listed before one that it leads to. -/
theorem postOrder_pairwise {next : CellId → List CellId} (acyclic : Acyclic next)
    {unvisited todo : List CellId} :
    (postOrder next unvisited todo).Pairwise fun a b => b ∉ next a := by
  fun_induction postOrder next unvisited todo with
  | case1 => exact .nil
  | case2 unvisited id rest hid below ih₁ ih₂ =>
    -- What the walk lists after `id` was unvisited and is not below it.
    have hafter : ∀ b ∈ postOrder next ((unvisited.erase id).filter (· ∉ below)) rest,
        b ∈ unvisited.erase id ∧ b ∉ below := by
      intro b hb
      simpa using List.mem_filter.mp (postOrder_subset hb)
    apply List.pairwise_append.mpr
    refine ⟨ih₁, List.pairwise_cons.mpr ⟨?_, ih₂⟩, ?_⟩
    · intro b hb hn
      obtain ⟨hu, hnb⟩ := hafter b hb
      exact hnb (mem_postOrder_of_todo hn hu)
    · intro a ha b hb hn
      rcases List.mem_cons.mp hb with rfl | hb
      · obtain ⟨t, ht, _, hr⟩ := reached_of_mem_postOrder ha
        exact acyclic b (.head' ht (hr.tail hn))
      · obtain ⟨hu, hnb⟩ := hafter b hb
        exact hnb (mem_postOrder_of_leads ha hn hu)
  | case3 unvisited id rest hid ih => exact ih

/-- The walk lists exactly what can be reached, if it may visit all of that. -/
theorem mem_postOrder_iff {next : CellId → List CellId} {unvisited todo : List CellId}
    (closed : ∀ x ∈ unvisited, ∀ y ∈ next x, y ∈ unvisited) {x : CellId} :
    x ∈ postOrder next unvisited todo ↔
      ∃ t ∈ todo, t ∈ unvisited ∧ ReflTransGen (Leads next) t x := by
  constructor
  · exact reached_of_mem_postOrder
  · rintro ⟨t, ht, hu, hr⟩
    have hm : x ∈ postOrder next unvisited todo ∧ x ∈ unvisited := by
      induction hr with
      | refl => exact ⟨mem_postOrder_of_todo ht hu, hu⟩
      | tail _ hs ih =>
        have hc := closed _ ih.2 _ hs
        exact ⟨mem_postOrder_of_leads ih.1 hs hc, hc⟩
    exact hm.1

section Redirect

variable {α : Type} {r r' : α → α → Prop} {id x z : α}

/-- What does not reach `id` reaches the same if only the steps from `id` change. -/
theorem transGen_iff_of_apart (agree : ∀ x, x ≠ id → ∀ y, r x y ↔ r' x y) (hx : x ≠ id)
    (apart : ¬TransGen r x id) : TransGen r x z ↔ TransGen r' x z := by
  constructor
  · intro h
    induction h with
    | single hs => exact .single ((agree x hx _).mp hs)
    | tail hp hs ih => exact ih.tail ((agree _ (fun he => apart (he ▸ hp)) _).mp hs)
  · intro h
    induction h with
    | single hs => exact .single ((agree x hx _).mpr hs)
    | tail _ hs ih => exact ih.tail ((agree _ (fun he => apart (he ▸ ih)) _).mpr hs)

theorem transGen_target_iff (agree : ∀ x, x ≠ id → ∀ y, r x y ↔ r' x y) (hx : x ≠ id) :
    TransGen r x id ↔ TransGen r' x id := by
  constructor
  · intro h
    apply Classical.byContradiction
    intro hn
    exact hn ((transGen_iff_of_apart (fun a ha b => (agree a ha b).symm) hx hn).mpr h)
  · intro h
    apply Classical.byContradiction
    intro hn
    exact hn ((transGen_iff_of_apart agree hx hn).mpr h)

/-- A path that is not there without the steps from `id` goes through `id`. -/
theorem transGen_or_through (agree : ∀ x, x ≠ id → ∀ y, r x y ↔ r' x y)
    (h : TransGen r' x z) : TransGen r x z ∨ ReflTransGen r' x id ∧ TransGen r' id z := by
  induction h with
  | single hs =>
    by_cases hx : x = id
    · exact .inr ⟨hx ▸ .refl, .single (hx ▸ hs)⟩
    · exact .inl (.single ((agree x hx _).mpr hs))
  | @tail b c hp hs ih =>
    by_cases hb : b = id
    · exact .inr ⟨(hb ▸ hp).to_reflTransGen, .single (hb ▸ hs)⟩
    · rcases ih with ih | ⟨hto, hfrom⟩
      · exact .inl (ih.tail ((agree b hb c).mpr hs))
      · exact .inr ⟨hto, hfrom.tail hs⟩

end Redirect

/-- New steps from `id` that do not lead back to it close no cycle. -/
theorem Acyclic.redirect {next next' : CellId → List CellId} (h : Acyclic next) {id : CellId}
    (agree : ∀ x, x ≠ id → ∀ y, Leads next x y ↔ Leads next' x y)
    (apart : ¬TransGen (Leads next') id id) : Acyclic next' := by
  intro x hx
  rcases transGen_or_through agree hx with hx | ⟨hto, hfrom⟩
  · exact h x hx
  · exact apart (hfrom.trans_left hto)

/-- All that the head of a closed order leads to stands behind it. -/
theorem Acyclic.mem_tail_of_reaches {next : CellId → List CellId} (acyclic : Acyclic next)
    {x y : CellId} {rest : List CellId} (sorted : ∀ z ∈ rest, x ∉ next z)
    (closed : ∀ z ∈ x :: rest, ∀ y ∈ next z, y ∈ x :: rest) (hy : TransGen (Leads next) x y) :
    y ∈ rest := by
  induction hy with
  | single h =>
    rcases List.mem_cons.mp (closed x (by simp) _ h) with rfl | hm
    · exact absurd h (acyclic.not_mem_self _)
    · exact hm
  | @tail z y _ h ih =>
    rcases List.mem_cons.mp (closed z (List.mem_cons_of_mem _ ih) y h) with rfl | hm
    · exact absurd h (sorted z ih)
    · exact hm

/-- Steps along a list on which no cell comes behind one that leads to it: what every step settles,
and no step upsets for the cells it does not lead to, holds of all cells in the end. -/
theorem foldl_settles {σ : Type} {next : CellId → List CellId} (acyclic : Acyclic next)
    (step : σ → CellId → σ) (Keeps : σ → Prop) (Good : σ → CellId → Prop)
    (keeps : ∀ e x, Keeps e → Keeps (step e x))
    (settles : ∀ e x, Keeps e → (∀ y, x ∈ next y → Good e y) → Good (step e x) x)
    (frame : ∀ e x y, Keeps e → y ≠ x → ¬TransGen (Leads next) x y → Good e y →
      Good (step e x) y)
    {order : List CellId} (sorted : order.Pairwise fun a b => a ∉ next b)
    (closed : ∀ x ∈ order, ∀ y ∈ next x, y ∈ order) {e : σ} (start : Keeps e)
    (others : ∀ y, y ∉ order → Good e y) :
    Keeps (order.foldl step e) ∧ ∀ y, Good (order.foldl step e) y := by
  induction order generalizing e with
  | nil => exact ⟨start, fun y => others y (by simp)⟩
  | cons x rest ih =>
    obtain ⟨hx, hs⟩ := List.pairwise_cons.mp sorted
    have hclosed : ∀ z ∈ rest, ∀ y ∈ next z, y ∈ rest := by
      intro z hz y hy
      rcases List.mem_cons.mp (closed z (List.mem_cons_of_mem _ hz) y hy) with rfl | h
      · exact absurd hy (hx z hz)
      · exact h
    have hsettled : Good (step e x) x := by
      apply settles e x start
      intro y hy
      apply others
      intro hm
      rcases List.mem_cons.mp hm with rfl | hm
      · exact acyclic.not_mem_self _ hy
      · exact hx y hm hy
    apply ih hs hclosed (keeps e x start)
    intro y hy
    by_cases he : y = x
    · exact he ▸ hsettled
    · exact frame e x y start he (fun h => hy (acyclic.mem_tail_of_reaches hx closed h))
        (others y (by simp [he, hy]))

end LiveSheet
