import LiveSheet.Formula.Function
import LiveSheet.Proofs.Number.Order

namespace LiveSheet

/-- The values convert to the numbers, one to one. -/
def Value.Convert (args : List Value) (xs : List Float) : Prop :=
  List.Forall₂ (fun v x => v.asFloat = .ok x) args xs

/-- A function that keeps the foremost of its numbers, and what it starts from. -/
inductive Function.IsExtremum : Function → (Float → Float → Prop) → Float → Prop
  | min : IsExtremum .min (fun x y => x < y) .inf
  | max : IsExtremum .max (fun x y => y < x) (-.inf)

/-- The number is one of those seen, and none of them is ahead of it. -/
structure Foremost (ahead : Float → Float → Prop) (seen : List Float) (m : Float) : Prop where
  mem : m ∈ seen
  number : m ≠ .nan
  first : ∀ x ∈ seen, ¬ahead x m

namespace Value

variable {args args' earlier later : List Value} {v : Value} {xs : List Float} {e : ConversionError}

theorem Convert.mapM (h : Convert args xs) : args.mapM asFloat = .ok xs := by
  induction h with
  | nil => rfl
  | cons hv _ ih =>
    rw [List.mapM_cons, hv, ih]
    rfl

theorem Convert.mapM_append (h : Convert earlier xs) (hv : v.asFloat = .error e) :
    (earlier ++ v :: later).mapM asFloat = .error e := by
  rw [List.mapM_append, h.mapM, List.mapM_cons, hv]
  rfl

theorem Convert.perm (h : Convert args xs) (hperm : args'.Perm args) :
    ∃ ys, Convert args' ys ∧ ys.Perm xs :=
  List.perm_comp_forall₂ hperm h

theorem exists_convert (h : ∀ v ∈ args, ∃ x, v.asFloat = .ok x) : ∃ xs, Convert args xs := by
  induction args with
  | nil => exact ⟨[], .nil⟩
  | cons v args ih =>
    obtain ⟨x, hx⟩ := h v (by simp)
    obtain ⟨xs, hxs⟩ := ih fun w hw => h w (by simp [hw])
    exact ⟨x :: xs, .cons hx hxs⟩

end Value

namespace Function.IsExtremum

variable {f : Function} {ahead : Float → Float → Prop} {seed x y z m : Float}
  {xs ys seen : List Float}

theorem irrefl (hf : IsExtremum f ahead seed) : ¬ahead x x := by
  cases hf <;> exact float_lt_irrefl

theorem trans (hf : IsExtremum f ahead seed) (hxy : ahead x y) (hyz : ahead y z) : ahead x z := by
  cases hf with
  | min => exact float_lt_trans hxy hyz
  | max => exact float_lt_trans hyz hxy

theorem ne_nan (hf : IsExtremum f ahead seed) (h : ahead x y) : x ≠ .nan := by
  cases hf with
  | min => exact (float_lt_iff_place.mp h).1
  | max => exact (float_lt_iff_place.mp h).2.1

theorem beq (hf : IsExtremum f ahead seed) (hx : x ≠ .nan) (hy : y ≠ .nan) (hxy : ¬ahead x y)
    (hyx : ¬ahead y x) : (x == y) = true := by
  cases hf with
  | min => exact float_beq_of_not_lt hx hy hxy hyx
  | max => exact float_beq_of_not_lt hx hy hyx hxy

theorem seed_ne (hf : IsExtremum f ahead seed) : seed ≠ .nan ∧ seed ≠ 0 ∧ seed ≠ -0 := by
  cases hf <;> decide

theorem not_seed_ahead (hf : IsExtremum f ahead seed) : ¬ahead seed x := by
  cases hf with
  | min => exact not_inf_lt
  | max => exact not_lt_neg_inf

/-- Only the seed itself is not ahead of the seed. -/
theorem eq_seed (hf : IsExtremum f ahead seed) (hx : x ≠ .nan) (h : ¬ahead x seed) : x = seed := by
  obtain ⟨hnan, hzero, hneg⟩ := hf.seed_ne
  have hbeq := hf.beq hx hnan h hf.not_seed_ahead
  -- equal floats may differ only as zeros, and the seed is none
  rcases (Float.beq_iff_ne_nan_and_eq.mp hbeq).2.2 with h | ⟨-, h⟩ | ⟨-, h⟩
  · exact h
  · exact absurd h hneg
  · exact absurd h hzero

/-- A step keeps the foremost of what it has seen. -/
theorem foremost_step (hf : IsExtremum f ahead seed) [DecidableRel ahead]
    (h : Foremost ahead seen m) (y : Float) :
    Foremost ahead (seen ++ [y]) (if ahead y m then y else m) := by
  split
  next hy =>
    refine ⟨by simp, hf.ne_nan hy, fun x hx => ?_⟩
    rcases List.mem_append.mp hx with hx | hx
    · exact fun hxy => h.first x hx (hf.trans hxy hy)
    · rw [List.mem_singleton.mp hx]
      exact hf.irrefl
  next hy =>
    refine ⟨by simp [h.mem], h.number, fun x hx => ?_⟩
    rcases List.mem_append.mp hx with hx | hx
    · exact h.first x hx
    · rwa [List.mem_singleton.mp hx]

theorem foremost_foldl (hf : IsExtremum f ahead seed) [DecidableRel ahead]
    (h : Foremost ahead seen m) (xs : List Float) :
    Foremost ahead (seen ++ xs) (xs.foldl (fun m y => if ahead y m then y else m) m) := by
  induction xs generalizing seen m with
  | nil => rwa [List.append_nil]
  | cons y xs ih =>
    have hrest := ih (hf.foremost_step h y)
    rwa [List.append_assoc] at hrest

/-- What is kept is the foremost of the seed and the numbers. -/
theorem foremost_reduce (hf : IsExtremum f ahead seed) (xs : List Float) :
    Foremost ahead (seed :: xs) (f.reduce xs) := by
  have hstart : Foremost ahead [seed] seed :=
    ⟨by simp, hf.seed_ne.1, fun x hx => by rw [List.mem_singleton.mp hx]; exact hf.irrefl⟩
  cases hf with
  | min => exact IsExtremum.min.foremost_foldl hstart xs
  | max => exact IsExtremum.max.foremost_foldl hstart xs

/-- Among numbers the seed is kept only if it is one of them. -/
theorem reduce_foremost (hf : IsExtremum f ahead seed) (hx : x ∈ xs) (hnumber : x ≠ .nan) :
    Foremost ahead xs (f.reduce xs) := by
  obtain ⟨hmem, hnan, hfirst⟩ := hf.foremost_reduce xs
  refine ⟨?_, hnan, fun y hy => hfirst y (by simp [hy])⟩
  rcases List.mem_cons.mp hmem with hseed | hmem
  · -- no number is behind the seed, so the given one is as good as it
    rw [hseed] at hfirst ⊢
    rwa [← hf.eq_seed hnumber (hfirst x (by simp [hx]))]
  · exact hmem

theorem reduce_eq_seed (hf : IsExtremum f ahead seed) (h : ∀ x ∈ xs, x = .nan) :
    f.reduce xs = seed := by
  obtain ⟨hmem, hnan, -⟩ := hf.foremost_reduce xs
  exact (List.mem_cons.mp hmem).resolve_right fun hx => hnan (h _ hx)

/-- The order of the numbers can be seen only in the sign of a zero. -/
theorem reduce_perm (hf : IsExtremum f ahead seed) (hperm : ys.Perm xs)
    (zeros : ¬(0 ∈ xs ∧ -0 ∈ xs)) : f.reduce ys = f.reduce xs := by
  by_cases h : ∃ x ∈ xs, x ≠ .nan
  · obtain ⟨x, hx, hnumber⟩ := h
    have hxs := hf.reduce_foremost hx hnumber
    have hys := hf.reduce_foremost (hperm.mem_iff.mpr hx) hnumber
    have hmem := hperm.mem_iff.mp hys.mem
    have hbeq := hf.beq hys.number hxs.number (hxs.first _ hmem)
      (hys.first _ (hperm.mem_iff.mpr hxs.mem))
    rcases (Float.beq_iff_ne_nan_and_eq.mp hbeq).2.2 with h | ⟨hy, hx⟩ | ⟨hy, hx⟩
    · exact h
    · exact absurd ⟨hy ▸ hmem, hx ▸ hxs.mem⟩ zeros
    · exact absurd ⟨hx ▸ hxs.mem, hy ▸ hmem⟩ zeros
  · have hnan : ∀ x ∈ xs, x = .nan := fun x hx => not_not.mp fun hn => h ⟨x, hx, hn⟩
    rw [hf.reduce_eq_seed hnan, hf.reduce_eq_seed fun y hy => hnan y (hperm.mem_iff.mp hy)]

end Function.IsExtremum

namespace Function

/-- Of numbers that convert, the foremost is returned, wherever it stands, and what is not a number
is passed over; where nothing else is there, the seed shows. The first value that does not convert
is the error. -/
theorem apply_extremum {f : Function} {ahead : Float → Float → Prop} {seed : Float}
    (hf : f.IsExtremum ahead seed) (args : List Value) :
    (∀ xs, Value.Convert args xs →
      ((∃ x ∈ xs, x ≠ .nan) → ∃ m ∈ xs, f.apply args = .ok (.float m) ∧ m ≠ .nan ∧
        ∀ x ∈ xs, ¬ahead x m) ∧
      ((∀ x ∈ xs, x = .nan) → f.apply args = .ok (.float seed)) ∧
      (¬(0 ∈ xs ∧ -0 ∈ xs) → ∀ args', args'.Perm args → f.apply args' = f.apply args)) ∧
    ∀ earlier v later e, args = earlier ++ v :: later → (∀ w ∈ earlier, ∃ x, w.asFloat = .ok x) →
      v.asFloat = .error e → f.apply args = .error e := by
  have happly : ∀ {args xs}, Value.Convert args xs → f.apply args = .ok (.float (f.reduce xs)) :=
    fun h => by rw [apply, h.mapM]; rfl
  constructor
  · intro xs hxs
    refine ⟨?_, fun h => ?_, fun hzeros args' hperm => ?_⟩
    · rintro ⟨x, hx, hnumber⟩
      have hfirst := hf.reduce_foremost hx hnumber
      exact ⟨_, hfirst.mem, happly hxs, hfirst.number, hfirst.first⟩
    · rw [happly hxs, hf.reduce_eq_seed h]
    · obtain ⟨ys, hys, hyperm⟩ := hxs.perm hperm
      rw [happly hys, happly hxs, hf.reduce_perm hyperm hzeros]
  · rintro earlier v later e rfl hearlier hv
    obtain ⟨xs, hxs⟩ := Value.exists_convert hearlier
    rw [apply, hxs.mapM_append hv]
    rfl

theorem apply_extremum_mixed :
    IsExtremum .max (fun x y => y < x) (-.inf) ∧
    Value.Convert [.float .nan, .boolean true, .boolean false] [.nan, 1, 0] ∧ (1 : Float) ≠ .nan ∧
    (∃ m ∈ [.nan, 1, 0], Function.max.apply [.float .nan, .boolean true, .boolean false] =
      .ok (.float m) ∧ m ≠ .nan ∧ ∀ x ∈ [.nan, 1, 0], ¬m < x) ∧
    Function.max.apply [.boolean true, .string "four", .string "five"] =
      .error ⟨"four", .float⟩ := by
  have hxs : Value.Convert [.float .nan, .boolean true, .boolean false] [.nan, 1, 0] :=
    .cons rfl (.cons rfl (.cons rfl .nil))
  have hone : (1 : Float) ≠ .nan := by decide
  refine ⟨.max, hxs, hone, ((apply_extremum .max _).1 _ hxs).1 ⟨1, by simp, hone⟩, ?_⟩
  refine (apply_extremum .max _).2 [.boolean true] (.string "four") [.string "five"] _ rfl ?_ rfl
  exact fun w hw => ⟨1, by rw [List.mem_singleton.mp hw]; rfl⟩

/-- Of values that are all not a number, the smallest is infinite. -/
theorem apply_min_nan : ¬∀ args xs, args ≠ [] → Value.Convert args xs →
    ∃ m ∈ xs, Function.min.apply args = .ok (.float m) ∧ ∀ x ∈ xs, ¬x < m := by
  intro h
  obtain ⟨m, hm, happly, -⟩ := h [.float .nan] [.nan] (by simp) (.cons rfl .nil)
  rw [List.mem_singleton.mp hm] at happly
  have hseed : Function.min.apply [.float .nan] = .ok (.float .inf) := by decide
  rw [hseed] at happly
  exact absurd happly (by decide)

end Function

end LiveSheet
