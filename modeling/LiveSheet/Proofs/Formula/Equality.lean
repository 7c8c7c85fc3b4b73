import LiveSheet.Formula.Eval
import LiveSheet.Proofs.Formula.Flattening
import LiveSheet.Proofs.Number.Readback

namespace LiveSheet

/-- A value that a formula can contain: neither what is not a number nor the negative zero. -/
def Value.Written : Value → Prop
  | .float x => x ≠ .nan ∧ x ≠ -0
  | _ => True

/-- Such values are equal only if they are the same. -/
theorem Value.beq_iff_of_written {v w : Value} (hv : v.Written) (hw : w.Written) :
    v.beq w = true ↔ v = w := by
  cases v with
  | float x =>
    cases w with
    | float y =>
      obtain ⟨hx, hxzero⟩ := hv
      obtain ⟨hy, hyzero⟩ := hw
      refine Float.beq_iff_ne_nan_and_eq.trans ?_
      simp [hx, hy, hxzero, hyzero]
    | _ => simp [beq]
  | _ => cases w <;> simp [beq]

section Literals

variable {x : Float} {cs : List Char}

/-- What is read without a sign is positive, and is a number. -/
theorem nearestFloat_written (num den : ℕ) :
    (Value.float (nearestFloat false num den)).Written := by
  obtain ⟨n, hn, heq⟩ : ∃ n ≤ 2047 * 2 ^ 52, nearestFloat false num den = .ofBits (.ofNat n) := by
    refine ⟨if num = 0 then 0 else nearestBits num den, ?_, ?_⟩
    · split
      · exact Nat.zero_le _
      · exact Nat.min_le_right _ _
    · simp only [nearestFloat, Bool.false_eq_true, ↓reduceIte]
  have hbits := toBits_ofBits hn
  rw [← heq] at hbits
  constructor
  · intro hnan
    have hvalue : Float.nan.toBits.toNat = 2047 * 2 ^ 52 + 2 ^ 51 := by decide
    rw [hnan, hvalue] at hbits
    omega
  · intro hzero
    have hvalue : (-0 : Float).toBits.toNat = 2 ^ 63 := by decide
    rw [hzero, hvalue] at hbits
    omega

theorem Decimal.toFloat_written {d : Decimal} (h : d.negative = false) :
    (Value.float d.toFloat).Written := by
  unfold toFloat
  rw [h]
  dsimp only
  split_ifs
  · exact nearestFloat_written _ _
  · exact nearestFloat_written _ _
  · exact nearestFloat_written _ _

theorem splitSign_of_startsNumber (h : cs.head?.any startsNumber = true) :
    splitSign cs = (false, cs) := by
  cases cs with
  | nil => rfl
  | cons c rest =>
    have hminus : c ≠ '-' := by rintro rfl; cases h
    have hplus : c ≠ '+' := by rintro rfl; cases h
    simp [splitSign, hminus, hplus]

theorem readWord?_of_startsNumber (h : cs.head?.any startsNumber = true) :
    readWord? false cs = none := by
  have hword := sameLetters_of_startsNumber h
  have hinf := hword "inf".toList (by decide) (by decide)
  have hinfinity := hword "infinity".toList (by decide) (by decide)
  have hnan := hword "nan".toList (by decide) (by decide)
  simp only [readWord?, hinf, hinfinity, hnan, Bool.or_self, Bool.false_eq_true, ↓reduceIte]

/-- What begins as a number is read as a number without a sign. -/
theorem written_of_readFloat? (begins : cs.head?.any startsNumber = true)
    (reads : readFloat? cs = some x) : (Value.float x).Written := by
  rw [readFloat?, Decimal.read?, splitSign_of_startsNumber begins] at reads
  cases hd : readUnsigned? false cs with
  | none =>
    rw [hd, readWord?_of_startsNumber begins] at reads
    cases reads
  | some d =>
    rw [hd] at reads
    obtain rfl := Option.some.inj reads
    apply Decimal.toFloat_written
    unfold readUnsigned? at hd
    dsimp only at hd
    split at hd
    · cases hd
    · obtain ⟨exponent, -, rfl⟩ := Option.map_eq_some_iff.mp hd
      rfl

end Literals

namespace Expr

/-- All literals in the tree are such that a formula can contain. -/
inductive Written : Expr → Prop
  | literal {v : Value} (written : v.Written) : Written (.literal v)
  | cell (ref : CellRef) : Written (.cell ref)
  | element (table : CellRef) {row col : Expr} (first : Written row) (second : Written col) :
    Written (.element table row col)
  | unary (op : UnaryOp) {x : Expr} (operand : Written x) : Written (.unary op x)
  | binary (op : BinaryOp) {l r : Expr} (left : Written l) (right : Written r) :
    Written (.binary op l r)
  | call (f : Function) {es : List Expr} (args : ∀ e ∈ es, Written e) : Written (.call f es)

theorem unary_of_symbol {op op' : UnaryOp} (h : op.symbol = op'.symbol) : op = op' :=
  Operator.unary.inj (Operator.symbol_injective h)

theorem binary_of_symbol {op op' : BinaryOp} (h : op.symbol = op'.symbol) : op = op' :=
  Operator.binary.inj (Operator.symbol_injective h)

theorem function_of_name {f f' : Function} (h : f.name = f'.name) : f = f' := by
  revert h
  cases f <;> cases f' <;> decide

mutual

/-- Trees with such literals are equal only if they are the same. By structural recursion on both,
where operators and functions are known by what they are compared by. -/
theorem beq_iff_of_written (a b : Expr) (ha : a.Written) (hb : b.Written) :
    a.beq b = true ↔ a = b := by
  cases ha with
  | literal hv =>
    cases hb with
    | literal hw =>
      rw [literal.injEq]
      exact Value.beq_iff_of_written hv hw
    | _ => simp [beq]
  | cell ref => cases hb <;> simp [beq]
  | element table hrow hcol =>
    cases hb with
    | element table' hrow' hcol' =>
      simp only [beq, Bool.and_eq_true, decide_eq_true_eq, element.injEq, and_assoc,
        beq_iff_of_written _ _ hrow hrow', beq_iff_of_written _ _ hcol hcol']
    | _ => simp [beq]
  | unary op hx =>
    cases hb with
    | unary op' hx' =>
      have hop : op.symbol = op'.symbol ↔ op = op' := ⟨unary_of_symbol, congrArg _⟩
      simp only [beq, Bool.and_eq_true, decide_eq_true_eq, unary.injEq, hop,
        beq_iff_of_written _ _ hx hx']
    | _ => simp [beq]
  | binary op hl hr =>
    cases hb with
    | binary op' hl' hr' =>
      have hop : op.symbol = op'.symbol ↔ op = op' := ⟨binary_of_symbol, congrArg _⟩
      simp only [beq, Bool.and_eq_true, decide_eq_true_eq, binary.injEq, and_assoc, hop,
        beq_iff_of_written _ _ hl hl', beq_iff_of_written _ _ hr hr']
    | _ => simp [beq]
  | call f hargs =>
    cases hb with
    | call f' hargs' =>
      have hname : f.name = f'.name ↔ f = f' := ⟨function_of_name, congrArg _⟩
      simp only [beq, Bool.and_eq_true, decide_eq_true_eq, call.injEq, hname,
        beqAll_iff_of_written _ _ hargs hargs']
    | _ => simp [beq]

theorem beqAll_iff_of_written (es es' : List Expr) (h : ∀ e ∈ es, e.Written)
    (h' : ∀ e ∈ es', e.Written) : beqAll es es' = true ↔ es = es' := by
  match es, es' with
  | [], [] => simp [beqAll]
  | [], _ :: _ => simp [beqAll]
  | _ :: _, [] => simp [beqAll]
  | x :: xs, y :: ys =>
    obtain ⟨hx, hxs⟩ := List.forall_mem_cons.mp h
    obtain ⟨hy, hys⟩ := List.forall_mem_cons.mp h'
    simp only [beqAll, Bool.and_eq_true, List.cons.injEq, beq_iff_of_written x y hx hy,
      beqAll_iff_of_written xs ys hxs hys]

end

end Expr

section Compiling

variable {resolve : Resolver}

mutual

/-- A term stands for a tree with literals that it contains. -/
theorem Term.Denotes.written (t : Term) {e : Expr} (h : t.Denotes resolve e) : e.Written := by
  cases h with
  | truth _ => exact .literal trivial
  | falsehood _ => exact .literal trivial
  | number begins reads => exact .literal (written_of_readFloat? begins reads)
  | name _ _ => exact .cell _
  | text _ => exact .literal trivial
  | unary op operand => exact .unary op (written _ operand)
  | binary op left right => exact .binary op (written _ left) (written _ right)
  | call _ _ args => exact .call _ (writtenAll _ args)
  | access _ _ first second => exact .element _ (written _ first) (written _ second)

theorem Term.Denotes.writtenAll (ts : List Term) {es : List Expr}
    (h : List.Forall₂ (Term.Denotes resolve) ts es) : ∀ e ∈ es, e.Written := by
  cases h with
  | nil => exact fun e he => nomatch he
  | cons first rest =>
    exact List.forall_mem_cons.mpr ⟨written _ first, writtenAll _ rest⟩

end

theorem written_of_compile {formula : String} {e : Expr} (h : compile resolve formula = .ok e) :
    e.Written := by
  obtain ⟨tokens, -, htree⟩ := Except.of_bind_eq_ok h
  obtain ⟨terms, hterms, -⟩ := Lists.start.build (buildFrom_of_buildTree htree)
  obtain ⟨t, _, ht, -, -⟩ := List.forall₂_cons_right_iff.mp hterms
  exact ht.written

end Compiling

/-- A tree with the formula that it was made from, and what the names in it stood for. -/
structure Compiled where
  tree : Expr
  resolve : Resolver
  formula : String
  compiles : compile resolve formula = .ok tree

namespace Compiled

theorem beq_iff (a b : Compiled) : (a.tree == b.tree) = true ↔ a.tree = b.tree :=
  a.tree.beq_iff_of_written b.tree (written_of_compile a.compiles) (written_of_compile b.compiles)

/-- The equality of trees that were compiled is an equivalence, and equal trees refer to the same
cells and have the same value in every context. -/
theorem equality : Equivalence (fun a b : Compiled => (a.tree == b.tree) = true) ∧
    ∀ a b : Compiled, (a.tree == b.tree) = true →
      a.tree.references = b.tree.references ∧ ∀ ctx, a.tree.eval ctx = b.tree.eval ctx := by
  refine ⟨⟨fun a => ?_, fun {a b} h => ?_, fun {a b c} h h' => ?_⟩, fun a b h => ?_⟩
  · exact (beq_iff a a).mpr rfl
  · exact (beq_iff b a).mpr ((beq_iff a b).mp h).symm
  · exact (beq_iff a c).mpr (((beq_iff a b).mp h).trans ((beq_iff b c).mp h'))
  · rw [(beq_iff a b).mp h]
    exact ⟨rfl, fun _ => rfl⟩

theorem equality_spellings :
    ∃ a b : Compiled, a.formula = "-.5" ∧ b.formula = "- 0.50" ∧ (a.tree == b.tree) = true ∧
      a.tree.references = b.tree.references ∧ ∀ ctx, a.tree.eval ctx = b.tree.eval ctx := by
  let tree : Expr := .unary .minus (.literal (.float (.ofBits 0x3FE0000000000000)))
  have hcompile : ∀ {resolve : Resolver} {formula number : String},
      parsePostfix formula = .ok [.atom number, .operator "u-"] →
      number.toList.head?.any startsNumber = true →
      readFloat? number.toList = some (.ofBits 0x3FE0000000000000) →
      compile resolve formula = .ok tree := by
    intro resolve formula number hparse begins reads
    have hterm : (Term.unary .minus (.atom number)).Denotes resolve tree :=
      .unary .minus (.number begins reads)
    rw [compile, hparse]
    exact (buildTree_postfixTokens _ _).mpr ((Term.tree?_eq_some_iff _ _).mpr hterm)
  have hfirst : compile (fun _ => none) "-.5" = .ok tree :=
    hcompile (by cbv) (by decide) (by decide +kernel)
  have hsecond : compile (fun _ => some ⟨1⟩) "- 0.50" = .ok tree :=
    hcompile (by cbv) (by decide) (by decide +kernel)
  have hequal := (beq_iff ⟨_, _, _, hfirst⟩ ⟨_, _, _, hsecond⟩).mpr rfl
  exact ⟨⟨_, _, _, hfirst⟩, ⟨_, _, _, hsecond⟩, rfl, rfl, hequal, equality.2 _ _ hequal⟩

end Compiled

end LiveSheet
