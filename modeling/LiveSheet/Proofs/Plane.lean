import Mathlib.Data.List.Basic
import LiveSheet.Grid

namespace LiveSheet

namespace Grid

/-- What can be asked of a table. -/
inductive Request
  | get (row col : Nat)
  | set (row col : Nat) (x : Float)
  | resize (rows cols : Nat)

/-- What a request is answered: a value if one was asked for, or that it cannot be met. -/
abbrev Answer := Except DataError (Option Float)

/-- The table after a request, and the answer. One that cannot be met changes nothing. -/
def serve (g : Grid) : Request → Grid × Answer
  | .get row col => (g, (g.get row col).map some)
  | .set row col x =>
    match g.set row col x with
    | .ok changed => (changed, .ok none)
    | .error e => (g, .error e)
  | .resize rows cols => (g.resize rows cols, .ok none)

def after (g : Grid) (history : List Request) : Grid :=
  history.foldl (fun g request => (g.serve request).1) g

end Grid

/-- A value at every place, of which the bounds show some. -/
structure Plane where
  rows : Nat
  cols : Nat
  value : Nat → Nat → Float

namespace Plane

open Grid (Request Answer)

def shows (p : Plane) (row col : Nat) : Prop :=
  row < p.rows ∧ col < p.cols

instance (p : Plane) (row col : Nat) : Decidable (p.shows row col) :=
  inferInstanceAs (Decidable (row < p.rows ∧ col < p.cols))

/-- The plane after a request, and the answer. Only what it shows can be read or changed, and other
bounds change no value. -/
def serve (p : Plane) : Request → Plane × Answer
  | .get row col =>
    (p, if p.shows row col then .ok (some (p.value row col))
      else .error (.range row col p.rows p.cols))
  | .set row col x =>
    if p.shows row col then
      ({ p with value := fun r c => if r = row ∧ c = col then x else p.value r c }, .ok none)
    else (p, .error (.range row col p.rows p.cols))
  | .resize rows cols => ({ p with rows := rows, cols := cols }, .ok none)

def after (p : Plane) (history : List Request) : Plane :=
  history.foldl (fun p request => (p.serve request).1) p

end Plane

namespace Grid

variable {g : Grid} {row col r c : Nat} {x : Float}

/-- What the store holds at a place, shown or not. -/
def stored? (g : Grid) (row col : Nat) : Option Float :=
  g.store[row]?.bind (·[col]?)

/-- The table as a plane: what its store does not hold is zero. -/
def plane (g : Grid) : Plane :=
  ⟨g.rows, g.cols, fun row col => (g.stored? row col).getD 0⟩

theorem shows_iff : g.plane.shows row col ↔ g.InBounds row col :=
  Iff.rfl

theorem InBounds.getElem?_store (inside : g.InBounds row col) : g.store[row]? = some inside.line :=
  List.getElem?_eq_getElem _

theorem InBounds.stored?_eq (inside : g.InBounds row col) :
    g.stored? row col = some (inside.line.get ⟨col, inside.lt_length⟩) := by
  rw [stored?, inside.getElem?_store, Option.bind_some, List.getElem?_eq_getElem inside.lt_length]
  rfl

theorem zeros_value (rows cols row col : Nat) : (zeros rows cols).plane.value row col = 0 := by
  simp only [plane, stored?, zeros, List.getElem?_replicate]
  split
  next =>
    rw [Option.bind_some, List.getElem?_replicate]
    split <;> rfl
  next => rfl

theorem getElem?_rightpad {α : Type} {n i : Nat} {fill : α} {xs : List α} (h : i < xs.length) :
    (xs.rightpad n fill)[i]? = xs[i]? :=
  List.getElem?_append_left h

theorem getD_getElem?_rightpad (n i : Nat) (xs : List Float) :
    ((xs.rightpad n 0)[i]?).getD 0 = (xs[i]?).getD 0 := by
  by_cases h : i < xs.length
  · rw [getElem?_rightpad h]
  · have hout := Nat.le_of_not_lt h
    rw [List.rightpad, List.getElem?_append_right hout, List.getElem?_replicate,
      List.getElem?_eq_none hout]
    split <;> rfl

/-- Other bounds leave all values in place, shown or not. -/
theorem resize_plane (g : Grid) (rows cols : Nat) :
    (g.resize rows cols).plane = { g.plane with rows := rows, cols := cols } := by
  simp only [plane, Plane.mk.injEq]
  refine ⟨rfl, rfl, ?_⟩
  funext row col
  simp only [stored?, Grid.resize, List.getElem?_map]
  by_cases h : row < g.store.length
  · rw [getElem?_rightpad h, List.getElem?_eq_getElem h]
    exact getD_getElem?_rightpad ..
  · have hout := Nat.le_of_not_lt h
    rw [List.rightpad, List.getElem?_append_right hout, List.getElem?_replicate,
      List.getElem?_eq_none hout]
    split
    next => exact getD_getElem?_rightpad _ col []
    next => rfl

theorem get_eq (g : Grid) (row col : Nat) : g.get row col =
    if g.plane.shows row col then .ok (g.plane.value row col)
    else .error (.range row col g.rows g.cols) := by
  rw [Grid.get]
  by_cases inside : g.InBounds row col
  · have hvalue : g.plane.value row col = inside.line.get ⟨col, inside.lt_length⟩ :=
      congrArg (·.getD 0) inside.stored?_eq
    rw [dif_pos inside, if_pos (shows_iff.mpr inside), hvalue]
  · rw [dif_neg inside, if_neg (mt shows_iff.mp inside)]

theorem InBounds.stored?_put (inside : g.InBounds row col) (x : Float) (r c : Nat) :
    (inside.put x).stored? r c =
      (g.stored? r c).map fun old => if r = row ∧ c = col then x else old := by
  have hlength := inside.lt_length
  have hstored : row < g.store.length := Nat.lt_of_lt_of_le inside.left g.tall
  have hline : g.store[row] = inside.line := rfl
  simp only [stored?, put, List.getElem?_set]
  by_cases hrow : row = r
  · subst hrow
    by_cases hcol : col = c
    · subst hcol
      simp [hline, hstored, hlength]
    · simp [hline, hstored, hcol, Ne.symm hcol]
  · simp [hrow, Ne.symm hrow]

theorem InBounds.put_plane (inside : g.InBounds row col) (x : Float) :
    (inside.put x).plane = { g.plane with
      value := fun r c => if r = row ∧ c = col then x else g.plane.value r c } := by
  simp only [plane, Plane.mk.injEq]
  refine ⟨rfl, rfl, ?_⟩
  funext r c
  rw [inside.stored?_put]
  by_cases hplace : r = row ∧ c = col
  · obtain ⟨rfl, rfl⟩ := hplace
    simp [inside.stored?_eq]
  · simp only [hplace, ↓reduceIte]
    cases g.stored? r c <;> rfl

/-- A table serves a request as the plane does. -/
theorem serve_plane (g : Grid) (request : Request) :
    (g.serve request).1.plane = (g.plane.serve request).1 ∧
      (g.serve request).2 = (g.plane.serve request).2 := by
  cases request with
  | get row col =>
    refine ⟨rfl, ?_⟩
    simp only [Grid.serve, Plane.serve, get_eq]
    split <;> rfl
  | set row col x =>
    simp only [Grid.serve, Plane.serve, Grid.set, shows_iff]
    by_cases inside : g.InBounds row col
    · simp only [inside, ↓reduceDIte, ↓reduceIte]
      exact ⟨inside.put_plane x, trivial⟩
    · simp only [inside, ↓reduceDIte, ↓reduceIte]
      exact ⟨trivial, rfl⟩
  | resize rows cols => exact ⟨resize_plane g rows cols, rfl⟩

theorem after_plane (g : Grid) (history : List Request) :
    (g.after history).plane = g.plane.after history := by
  induction history generalizing g with
  | nil => rfl
  | cons request rest ih =>
    have hrest := ih (g.serve request).1
    rw [(g.serve_plane request).1] at hrest
    exact hrest

theorem visible_eq (g : Grid) : g.visible =
    (List.range g.rows).map fun row => (List.range g.cols).map (g.plane.value row) := by
  apply List.ext_getElem?
  intro row
  simp only [visible, List.getElem?_map, List.getElem?_take]
  by_cases hrow : row < g.rows
  · have hlt : row < g.store.length := Nat.lt_of_lt_of_le hrow g.tall
    simp only [hrow, ↓reduceIte, List.getElem?_range, List.getElem?_eq_getElem hlt, Option.map_some,
      Option.some.injEq]
    apply List.ext_getElem?
    intro col
    simp only [List.getElem?_map, List.getElem?_take]
    by_cases hcol : col < g.cols
    · have inside : g.InBounds row col := ⟨hrow, hcol⟩
      have hline : g.store[row] = inside.line := rfl
      simp [hcol, hline, plane, inside.stored?_eq, inside.lt_length]
    · simp [hcol]
  · simp [hrow]

/-- The bounds last asked for. -/
def latestBounds (bounds : Nat × Nat) : List Request → Nat × Nat
  | [] => bounds
  | .resize rows cols :: rest => latestBounds (rows, cols) rest
  | _ :: rest => latestBounds bounds rest

/-- The value last set at a place that was within the bounds at the time. -/
def lastSet (bounds : Nat × Nat) (row col : Nat) : List Request → Option Float
  | [] => none
  | .get _ _ :: rest => lastSet bounds row col rest
  | .set r c x :: rest =>
    (lastSet bounds row col rest).or
      (if (r < bounds.1 ∧ c < bounds.2) ∧ row = r ∧ col = c then some x else none)
  | .resize rows cols :: rest => lastSet (rows, cols) row col rest

end Grid

namespace Plane

open Grid

/-- A plane has the bounds last asked for, and every value is the one last set, if any. -/
theorem after_eq (p : Plane) (history : List Request) :
    p.after history = ⟨(latestBounds (p.rows, p.cols) history).1,
      (latestBounds (p.rows, p.cols) history).2,
      fun row col => (lastSet (p.rows, p.cols) row col history).getD (p.value row col)⟩ := by
  induction history generalizing p with
  | nil => rfl
  | cons request rest ih =>
    have hstep : p.after (request :: rest) = (p.serve request).1.after rest := rfl
    rw [hstep, ih]
    cases request with
    | get row col => rfl
    | resize rows cols => rfl
    | set row col x =>
      have hinside : (row < p.rows ∧ col < p.cols) ↔ p.shows row col := Iff.rfl
      by_cases hshows : p.shows row col
      · simp only [serve, latestBounds, lastSet, hinside, hshows, ↓reduceIte, true_and]
        congr 1
        funext r c
        cases lastSet (p.rows, p.cols) r c rest with
        | some y => rfl
        | none => by_cases hplace : r = row ∧ c = col <;> simp [hplace]
      · simp [serve, latestBounds, lastSet, hinside, hshows]

end Plane

/-- A table that was made with any bounds, or with none, reads and changes exactly the places within
the bounds last asked for. Each has the value last set there, whatever the bounds were in between,
or zero. All that is within the bounds is in the store. -/
theorem Grid.after_history (rows cols : Nat) (history : List Request) :
    let g := (zeros rows cols).after history
    let bounds := latestBounds (rows, cols) history
    let value := fun row col => (lastSet (rows, cols) row col history).getD 0
    empty = zeros 0 0 ∧
      (∀ row col, g.serve (.get row col) =
        (g, if row < bounds.1 ∧ col < bounds.2 then .ok (some (value row col))
          else .error (.range row col bounds.1 bounds.2))) ∧
      (∀ row col x, (row < bounds.1 ∧ col < bounds.2 → (g.serve (.set row col x)).2 = .ok none) ∧
        (¬(row < bounds.1 ∧ col < bounds.2) →
          g.serve (.set row col x) = (g, .error (.range row col bounds.1 bounds.2)))) ∧
      (g.rows ≤ g.store.length ∧ ∀ xs ∈ g.store, g.cols ≤ xs.length) ∧
      g.visible = (List.range bounds.1).map fun row => (List.range bounds.2).map (value row) := by
  intro g bounds value
  have hplane : g.plane = ⟨bounds.1, bounds.2, value⟩ := by
    rw [after_plane, Plane.after_eq]
    simp only [zeros_value]
    rfl
  have hrows : g.rows = bounds.1 := congrArg Plane.rows hplane
  have hcols : g.cols = bounds.2 := congrArg Plane.cols hplane
  have hvalue : g.plane.value = value := congrArg Plane.value hplane
  have hshows : ∀ row col, g.plane.shows row col ↔ row < bounds.1 ∧ col < bounds.2 := by
    intro row col
    rw [hplane]
    rfl
  refine ⟨rfl, fun row col => ?_, fun row col x => ⟨fun inside => ?_, fun outside => ?_⟩,
    ⟨g.tall, g.wide⟩, ?_⟩
  · rw [serve, get_eq, hvalue, hrows, hcols]
    simp only [hshows]
    split <;> rfl
  · rw [(g.serve_plane _).2, Plane.serve, if_pos ((hshows row col).mpr inside)]
  · rw [serve, Grid.set, dif_neg fun h => outside ((hshows row col).mp (shows_iff.mpr h)),
      hrows, hcols]
  · rw [visible_eq, hrows, hcols, hvalue]

example (x : Float) : (((Grid.zeros 2 2).after
    [.set 1 1 x, .resize 1 1, .set 1 1 0, .resize 3 2]).serve (.get 1 1)).2 = .ok (some x) :=
  rfl

end LiveSheet
