import LiveSheet.Value

namespace LiveSheet

inductive DataError
  | range (row col rows cols : Nat)
  | conversion (cause : ConversionError)
  deriving DecidableEq, Repr

def DataError.message : DataError → String
  | .range row col rows cols => s!"Index ({row}, {col}) out of range for {rows}x{cols} table"
  | .conversion cause => cause.message

/-- A table of floats. The bounds say what is visible; the store holds at least that and only grows,
so what a smaller bound hides comes back when the bound grows again. -/
structure Grid where
  rows : Nat
  cols : Nat
  store : List (List Float)
  tall : rows ≤ store.length
  wide : ∀ line ∈ store, cols ≤ line.length
  deriving DecidableEq, Repr

def Grid.zeros (rows cols : Nat) : Grid where
  rows := rows
  cols := cols
  store := List.replicate rows (List.replicate cols 0)
  tall := Nat.le_of_eq List.length_replicate.symm
  wide line mem := by
    have full : line.length = cols := by
      rw [List.eq_of_mem_replicate mem, List.length_replicate]
    exact Nat.le_of_eq full.symm

def Grid.empty : Grid :=
  ⟨0, 0, [], Nat.le_refl 0, nofun⟩

instance : BEq Grid :=
  ⟨fun a b => a.rows == b.rows && a.cols == b.cols && a.store == b.store⟩

/-- New lines are as wide as the first one, unless the new bound is wider. -/
def Grid.resize (g : Grid) (rows cols : Nat) : Grid where
  rows := rows
  cols := cols
  store :=
    let width := max ((g.store.head?.map List.length).getD 0) cols
    (g.store.rightpad rows []).map (List.rightpad width 0)
  tall := by
    rw [List.length_map, List.length_rightpad]
    exact Nat.le_max_left ..
  wide line mem := by
    obtain ⟨old, -, rfl⟩ := List.mem_map.mp mem
    rw [List.length_rightpad]
    exact Nat.le_trans (Nat.le_max_right ..) (Nat.le_max_left ..)

def Grid.InBounds (g : Grid) (row col : Nat) : Prop :=
  row < g.rows ∧ col < g.cols

instance (g : Grid) (row col : Nat) : Decidable (g.InBounds row col) :=
  inferInstanceAs (Decidable (row < g.rows ∧ col < g.cols))

variable {g : Grid} {row col : Nat}

/-- The line of the store in which a place within the bounds lies. -/
def Grid.InBounds.line (inside : g.InBounds row col) : List Float :=
  g.store.get ⟨row, Nat.lt_of_lt_of_le inside.left g.tall⟩

theorem Grid.InBounds.line_mem (inside : g.InBounds row col) : inside.line ∈ g.store :=
  List.get_mem ..

theorem Grid.InBounds.lt_length (inside : g.InBounds row col) : col < inside.line.length :=
  Nat.lt_of_lt_of_le inside.right (g.wide _ inside.line_mem)

def Grid.get (g : Grid) (row col : Nat) : Except DataError Float :=
  if inside : g.InBounds row col then .ok (inside.line.get ⟨col, inside.lt_length⟩)
  else .error (.range row col g.rows g.cols)

/-- The table with another value at a place within its bounds. -/
def Grid.InBounds.put (inside : g.InBounds row col) (x : Float) : Grid where
  rows := g.rows
  cols := g.cols
  store := g.store.set row (inside.line.set col x)
  tall := by rw [List.length_set]; exact g.tall
  wide line mem := by
    rcases List.mem_or_eq_of_mem_set mem with old | rfl
    · exact g.wide line old
    · rw [List.length_set]
      exact g.wide _ inside.line_mem

def Grid.set (g : Grid) (row col : Nat) (x : Float) : Except DataError Grid :=
  if inside : g.InBounds row col then .ok (inside.put x)
  else .error (.range row col g.rows g.cols)

/-- The rows within the bounds, each cut to them. -/
def Grid.visible (g : Grid) : List (List Float) :=
  (g.store.take g.rows).map (List.take g.cols)

end LiveSheet
