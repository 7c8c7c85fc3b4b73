import Mathlib.Data.List.Forall2
import LiveSheet.Proofs.Formula.Assembly
import LiveSheet.Proofs.Formula.Naming

namespace LiveSheet

/-- A term stands for a tree: its atoms are booleans, numbers or names that are known, its functions
are registered and take as many arguments, and what it looks into is a name. -/
inductive Term.Denotes (resolve : Resolver) : Term → Expr → Prop
  | truth {s : String} (word : sameLetters s.toList "true".toList = true) :
    Denotes resolve (.atom s) (.literal (.boolean true))
  | falsehood {s : String} (word : sameLetters s.toList "false".toList = true) :
    Denotes resolve (.atom s) (.literal (.boolean false))
  | number {s : String} {x : Float} (begins : s.toList.head?.any startsNumber = true)
    (reads : readFloat? s.toList = some x) : Denotes resolve (.atom s) (.literal (.float x))
  | name {s : String} {id : CellId} (valid : isValidName s = true) (known : resolve s = some id) :
    Denotes resolve (.atom s) (.cell ⟨id, s⟩)
  | text (s : String) : Denotes resolve (.text s) (.literal (.string s))
  | unary {t : Term} {e : Expr} (op : UnaryOp) (operand : Denotes resolve t e) :
    Denotes resolve (.unary op t) (.unary op e)
  | binary {l r : Term} {el er : Expr} (op : BinaryOp) (left : Denotes resolve l el)
    (right : Denotes resolve r er) : Denotes resolve (.binary op l r) (.binary op el er)
  | call {name : String} {f : Function} {ts : List Term} {es : List Expr}
    (registered : Function.find? name = some f) (count : f.signature.accepts ts.length = true)
    (args : List.Forall₂ (Denotes resolve) ts es) : Denotes resolve (.call name ts) (.call f es)
  | access {name : String} {id : CellId} {row col : Term} {er ec : Expr}
    (valid : isValidName name = true) (known : resolve name = some id)
    (first : Denotes resolve row er) (second : Denotes resolve col ec) :
    Denotes resolve (.access (.atom name) row col) (.element ⟨id, name⟩ er ec)

section Atoms

variable {resolve : Resolver} {s : String} {e : Expr}

theorem head?_of_sameLetters {cs ds : List Char} (h : sameLetters cs ds = true) :
    cs.head?.map Char.toLower = ds.head?.map Char.toLower := by
  have hmap := congrArg List.head? (beq_iff_eq.mp h)
  rwa [List.head?_map, List.head?_map] at hmap

theorem toLower_of_startsNumber {c : Char} (h : startsNumber c = true) : c.toLower = c := by
  simp only [startsNumber, Bool.or_eq_true, decide_eq_true_eq] at h
  rcases h with h | rfl
  · exact toLower_of_isDigit h
  · decide

/-- What begins as a number is no word in whatever letters. -/
theorem sameLetters_of_startsNumber {cs : List Char} (h : cs.head?.any startsNumber = true)
    (word : List Char) (begins : word.head?.any startsNumber = false)
    (small : word.map Char.toLower = word) : sameLetters cs word = false := by
  obtain ⟨c, hc, hnumber⟩ := (Option.any_eq_true _ _).mp h
  apply Bool.eq_false_iff.mpr
  intro hsame
  have hhead := head?_of_sameLetters hsame
  rw [hc, Option.map_some, toLower_of_startsNumber hnumber, ← List.head?_map, small] at hhead
  rw [← hhead, Option.any_some, hnumber] at begins
  cases begins

/-- A boolean begins as one in small letters does, so not with a quote. -/
theorem quote_of_sameLetters {word : List Char} (hword : word.head?.map Char.toLower ≠ some '"')
    (h : sameLetters s.toList word = true) : s.toList.head?.any (· = '"') = false := by
  apply Bool.eq_false_iff.mpr
  intro hquote
  obtain ⟨c, hc, he⟩ := (Option.any_eq_true _ _).mp hquote
  obtain rfl : c = '"' := by simpa using he
  have hhead := head?_of_sameLetters h
  rw [hc] at hhead
  exact hword hhead.symm

/-- What begins as a number is no boolean, and no string literal without its closing quote. -/
theorem classifyAtom_number (h : s.toList.head?.any startsNumber = true) :
    classifyAtom resolve s = match readFloat? s.toList with
      | some x => .ok (.literal (.float x))
      | none => .error (.malformed (.invalidNumber s)) := by
  obtain ⟨c, hc, hnumber⟩ := (Option.any_eq_true _ _).mp h
  have hquote : c ≠ '"' := by
    rintro rfl
    cases hnumber
  have htrue := sameLetters_of_startsNumber h "true".toList (by decide) (by decide)
  have hfalse := sameLetters_of_startsNumber h "false".toList (by decide) (by decide)
  cases hread : readFloat? s.toList <;>
    simp only [classifyAtom, hc, Option.any_some, hquote, htrue, hfalse, hnumber, hread,
      decide_false, Bool.false_eq_true, ↓reduceIte]

theorem classifyAtom_eq_ok_iff :
    classifyAtom resolve s = .ok e ↔ (Term.atom s).Denotes resolve e := by
  constructor
  · intro h
    unfold classifyAtom at h
    dsimp only at h
    split_ifs at h with hquote htrue hfalse hnumber hname
    · cases h
      exact .truth htrue
    · cases h
      exact .falsehood hfalse
    · cases hr : readFloat? s.toList with
      | none => rw [hr] at h; cases h
      | some x =>
        rw [hr] at h
        cases h
        exact .number hnumber hr
    · cases hr : resolve s with
      | none => rw [hr] at h; cases h
      | some id =>
        rw [hr] at h
        cases h
        exact .name (by simpa using hname) hr
  · intro h
    cases h with
    | truth word =>
      have hquote := quote_of_sameLetters (by decide) word
      simp only [classifyAtom, hquote, word, Bool.false_eq_true, ↓reduceIte]
    | falsehood word =>
      have hquote := quote_of_sameLetters (by decide) word
      have htrue : sameLetters s.toList "true".toList = false := by
        rw [sameLetters, beq_iff_eq.mp word]
        decide
      simp only [classifyAtom, hquote, htrue, word, Bool.false_eq_true, ↓reduceIte]
    | number begins reads => rw [classifyAtom_number begins, reads]
    | name valid known => exact classifyAtom_of_isValidName valid known

end Atoms

namespace Term

variable {resolve : Resolver}

theorem denotes_cell_iff {t : Term} {ref : CellRef} :
    t.Denotes resolve (.cell ref) ↔
      t = .atom ref.name ∧ isValidName ref.name = true ∧ resolve ref.name = some ref.id := by
  constructor
  · intro h
    cases h with
    | name valid known => exact ⟨rfl, valid, known⟩
  · rintro ⟨rfl, valid, known⟩
    exact .name valid known

theorem applied?_eq_some_iff {name : String} {args : List Expr} {e : Expr} :
    applied? name args = some e ↔ ∃ f, Function.find? name = some f ∧
      f.signature.accepts args.length = true ∧ e = .call f args := by
  unfold applied?
  cases Function.find? name with
  | none => simp
  | some f =>
    simp only [Option.some.injEq, ↓existsAndEq, true_and]
    split_ifs with hcount
    · simp [hcount, eq_comm]
    · simp [hcount]

theorem element?_eq_some_iff {table row col e : Expr} :
    element? table row col = some e ↔ ∃ ref, table = .cell ref ∧ e = .element ref row col := by
  cases table <;> simp [element?, eq_comm]

mutual

/-- The tree of a term is what it stands for. -/
theorem tree?_eq_some_iff (t : Term) (e : Expr) :
    t.tree? resolve = some e ↔ t.Denotes resolve e := by
  cases t with
  | atom s =>
    rw [← classifyAtom_eq_ok_iff, tree?]
    cases classifyAtom resolve s <;> simp [Except.toOption]
  | text s =>
    rw [tree?, Option.some.injEq]
    constructor
    · rintro rfl
      exact .text s
    · intro h
      cases h
      rfl
  | unary op t =>
    simp only [tree?, Option.map_eq_some_iff, tree?_eq_some_iff t]
    constructor
    · rintro ⟨e, he, rfl⟩
      exact .unary op he
    · intro h
      cases h with
      | unary _ operand => exact ⟨_, operand, rfl⟩
  | binary op l r =>
    simp only [tree?, Option.bind_eq_bind, Option.bind_eq_some_iff, Option.pure_def,
      Option.some.injEq, tree?_eq_some_iff l, tree?_eq_some_iff r]
    constructor
    · rintro ⟨el, hl, er, hr, rfl⟩
      exact .binary op hl hr
    · intro h
      cases h with
      | binary _ left right => exact ⟨_, left, _, right, rfl⟩
  | call name args =>
    simp only [tree?, Option.bind_eq_bind, Option.bind_eq_some_iff, treeAll?_eq_some_iff args,
      applied?_eq_some_iff]
    constructor
    · rintro ⟨es, hes, f, hf, hcount, rfl⟩
      rw [← hes.length_eq] at hcount
      exact .call hf hcount hes
    · intro h
      cases h with
      | call registered count parts =>
        rw [parts.length_eq] at count
        exact ⟨_, parts, _, registered, count, rfl⟩
  | access t row col =>
    simp only [tree?, Option.bind_eq_bind, Option.bind_eq_some_iff, tree?_eq_some_iff t,
      tree?_eq_some_iff row, tree?_eq_some_iff col, element?_eq_some_iff]
    constructor
    · rintro ⟨_, ht, er, hr, ec, hc, ref, rfl, rfl⟩
      obtain ⟨rfl, valid, known⟩ := denotes_cell_iff.mp ht
      exact .access valid known hr hc
    · intro h
      cases h with
      | access valid known first second =>
        exact ⟨_, .name valid known, _, first, _, second, _, rfl, rfl⟩

theorem treeAll?_eq_some_iff (ts : List Term) (es : List Expr) :
    treeAll? resolve ts = some es ↔ List.Forall₂ (Denotes resolve) ts es := by
  cases ts with
  | nil =>
    rw [treeAll?, Option.some.injEq, List.forall₂_nil_left_iff, eq_comm]
  | cons t ts =>
    simp only [treeAll?, Option.bind_eq_bind, Option.bind_eq_some_iff, Option.pure_def,
      Option.some.injEq, tree?_eq_some_iff t, treeAll?_eq_some_iff ts, List.forall₂_cons_left_iff]
    constructor
    · rintro ⟨e, he, es, hes, rfl⟩
      exact ⟨e, es, he, hes, rfl⟩
    · rintro ⟨e, es, he, hes, rfl⟩
      exact ⟨e, he, es, hes, rfl⟩

end

end Term

theorem Operator.symbol_injective {op op' : Operator} (h : op.symbol = op'.symbol) : op = op' := by
  have hfind := Operator.find?_symbol op
  rw [h, Operator.find?_symbol] at hfind
  exact (Option.some.inj hfind).symm

namespace Term

/-- The last token of a term in postfix order. -/
def root : Term → Token
  | .atom s => .atom s
  | .text s => .text s
  | .unary op _ => .operator op.symbol
  | .binary op _ _ => .operator op.symbol
  | .call _ args => .argCount args.length
  | .access _ _ _ => .tableAccess

theorem getLast?_postfixTokens (t : Term) : t.postfixTokens.getLast? = some t.root := by
  cases t <;> simp [postfixTokens, root]

theorem root_of_append_eq {t u : Term} {xs ys : List Token}
    (h : xs ++ t.postfixTokens = ys ++ u.postfixTokens) : t.root = u.root := by
  have hlast := congrArg List.getLast? h
  simpa only [List.getLast?_append, getLast?_postfixTokens, Option.some_or, Option.some.injEq]
    using hlast

mutual

/-- Tokens that end with a term do so with one only. -/
theorem append_postfixTokens_inj (t u : Term) {xs ys : List Token}
    (h : xs ++ t.postfixTokens = ys ++ u.postfixTokens) : xs = ys ∧ t = u := by
  have hroot := root_of_append_eq h
  cases t with
  | atom s =>
    cases u with
    | atom s' =>
      cases hroot
      exact ⟨List.append_cancel_right h, rfl⟩
    | _ => cases hroot
  | text s =>
    cases u with
    | text s' =>
      cases hroot
      exact ⟨List.append_cancel_right h, rfl⟩
    | _ => cases hroot
  | unary op t =>
    cases u with
    | unary op' u =>
      have hop : Operator.unary op = .unary op' :=
        Operator.symbol_injective (Token.operator.inj hroot)
      cases hop
      simp only [postfixTokens, ← List.append_assoc, List.append_cancel_right_eq] at h
      obtain ⟨rfl, rfl⟩ := append_postfixTokens_inj t u h
      exact ⟨rfl, rfl⟩
    | binary op' l r =>
      have hop : Operator.unary op = .binary op' :=
        Operator.symbol_injective (Token.operator.inj hroot)
      cases hop
    | _ => cases hroot
  | binary op l r =>
    cases u with
    | binary op' l' r' =>
      have hop : Operator.binary op = .binary op' :=
        Operator.symbol_injective (Token.operator.inj hroot)
      cases hop
      simp only [postfixTokens, ← List.append_assoc, List.append_cancel_right_eq] at h
      obtain ⟨hleft, rfl⟩ := append_postfixTokens_inj r r' h
      obtain ⟨rfl, rfl⟩ := append_postfixTokens_inj l l' hleft
      exact ⟨rfl, rfl⟩
    | unary op' u =>
      have hop : Operator.binary op = .unary op' :=
        Operator.symbol_injective (Token.operator.inj hroot)
      cases hop
    | _ => cases hroot
  | call name args =>
    cases u with
    | call name' args' =>
      have hlength : args.length = args'.length := Token.argCount.inj hroot
      simp only [postfixTokens, ← List.append_assoc] at h
      obtain ⟨h, htail⟩ := List.append_inj' h rfl
      obtain ⟨rfl, rfl⟩ := append_postfixAll_inj args args' hlength h
      cases htail
      exact ⟨rfl, rfl⟩
    | _ => cases hroot
  | access t row col =>
    cases u with
    | access t' row' col' =>
      simp only [postfixTokens, ← List.append_assoc, List.append_cancel_right_eq] at h
      obtain ⟨hrow, rfl⟩ := append_postfixTokens_inj col col' h
      obtain ⟨htable, rfl⟩ := append_postfixTokens_inj row row' hrow
      obtain ⟨rfl, rfl⟩ := append_postfixTokens_inj t t' htable
      exact ⟨rfl, rfl⟩
    | _ => cases hroot

theorem append_postfixAll_inj (ts us : List Term) {xs ys : List Token}
    (hlength : ts.length = us.length) (h : xs ++ postfixAll ts = ys ++ postfixAll us) :
    xs = ys ∧ ts = us := by
  cases ts with
  | nil =>
    obtain rfl := List.eq_nil_of_length_eq_zero hlength.symm
    exact ⟨List.append_cancel_right h, rfl⟩
  | cons t ts =>
    cases us with
    | nil => cases hlength
    | cons u us =>
      simp only [postfixAll, ← List.append_assoc] at h
      obtain ⟨hfirst, rfl⟩ := append_postfixAll_inj ts us (Nat.succ.inj hlength) h
      obtain ⟨rfl, rfl⟩ := append_postfixTokens_inj t u hfirst
      exact ⟨rfl, rfl⟩

end

theorem postfixTokens_injective {t u : Term} (h : t.postfixTokens = u.postfixTokens) : t = u := by
  have happend : [] ++ t.postfixTokens = [] ++ u.postfixTokens := h
  exact (append_postfixTokens_inj t u happend).2

theorem postfixAll_append (ts us : List Term) :
    postfixAll (ts ++ us) = postfixAll ts ++ postfixAll us := by
  induction ts with
  | nil => rfl
  | cons t ts ih => simp only [List.cons_append, postfixAll, ih, List.append_assoc]

theorem postfixAll_reverse_cons (t : Term) (ts : List Term) :
    postfixAll (t :: ts).reverse = postfixAll ts.reverse ++ t.postfixTokens := by
  simp [postfixAll_append, postfixAll]

end Term

section Building

variable {resolve : Resolver} {stack stack' : List Expr} {read : List Token}

/-- The tokens list the terms that the trees on the stack are of, the top of the stack last. -/
def Lists (resolve : Resolver) (read : List Token) (stack : List Expr) : Prop :=
  ∃ terms, List.Forall₂ (Term.Denotes resolve) terms stack ∧ Term.postfixAll terms.reverse = read

theorem Lists.start : Lists resolve [] [] :=
  ⟨[], .nil, rfl⟩

theorem Lists.push (h : Lists resolve read stack) {t : Term} {e : Expr}
    (ht : t.Denotes resolve e) : Lists resolve (read ++ t.postfixTokens) (e :: stack) := by
  obtain ⟨terms, hterms, rfl⟩ := h
  exact ⟨t :: terms, .cons ht hterms, Term.postfixAll_reverse_cons t terms⟩

theorem Lists.operator (h : Lists resolve read stack) {symbol : String}
    (hp : pushOperator stack symbol = .ok stack') :
    Lists resolve (read ++ [.operator symbol]) stack' := by
  obtain ⟨terms, hterms, rfl⟩ := h
  unfold pushOperator at hp
  split at hp <;> cases hp
  next op r l rest hop =>
    obtain rfl := Operator.symbol_of_find? hop
    obtain ⟨tr, _, hr, hrest, rfl⟩ := List.forall₂_cons_right_iff.mp hterms
    obtain ⟨tl, below, hl, hbelow, rfl⟩ := List.forall₂_cons_right_iff.mp hrest
    refine ⟨.binary op tl tr :: below, .cons (.binary op hl hr) hbelow, ?_⟩
    simp only [Term.postfixAll_reverse_cons, Term.postfixTokens, List.append_assoc]
    rfl
  next op x rest hop =>
    obtain rfl := Operator.symbol_of_find? hop
    obtain ⟨t, below, hx, hbelow, rfl⟩ := List.forall₂_cons_right_iff.mp hterms
    refine ⟨.unary op t :: below, .cons (.unary op hx) hbelow, ?_⟩
    simp only [Term.postfixAll_reverse_cons, Term.postfixTokens, List.append_assoc]
    rfl

theorem Lists.call (h : Lists resolve read stack) {name : String} {count : Nat}
    (hp : pushCall stack name count = .ok stack') :
    Lists resolve (read ++ [.function name, .argCount count]) stack' := by
  obtain ⟨terms, hterms, rfl⟩ := h
  unfold pushCall popOperands? at hp
  split at hp
  next => cases hp
  next f hf =>
    split_ifs at hp with haccepts hcount
    cases hp
    have hlength : (terms.take count).length = count := by
      rw [List.length_take, hterms.length_eq, Nat.min_eq_left hcount]
    refine ⟨.call name (terms.take count).reverse :: terms.drop count,
      .cons (.call hf ?_ ?_) ?_, ?_⟩
    · rw [List.length_reverse, hlength]
      exact haccepts
    · exact List.forall₂_reverse_iff.mpr (List.forall₂_take count hterms)
    · exact List.forall₂_drop count hterms
    · have hsplit : terms.reverse = (terms.drop count).reverse ++ (terms.take count).reverse := by
        rw [← List.reverse_append, List.take_append_drop]
      rw [Term.postfixAll_reverse_cons, Term.postfixTokens, hsplit, Term.postfixAll_append,
        List.length_reverse, hlength, List.append_assoc]

theorem Lists.access (h : Lists resolve read stack) (hp : pushAccess stack = .ok stack') :
    Lists resolve (read ++ [.tableAccess]) stack' := by
  obtain ⟨terms, hterms, rfl⟩ := h
  unfold pushAccess at hp
  split at hp <;> cases hp
  next col row table rest =>
    obtain ⟨tc, _, hc, hrest, rfl⟩ := List.forall₂_cons_right_iff.mp hterms
    obtain ⟨tr, _, hr, hmore, rfl⟩ := List.forall₂_cons_right_iff.mp hrest
    obtain ⟨tt, below, ht, hbelow, rfl⟩ := List.forall₂_cons_right_iff.mp hmore
    obtain ⟨rfl, valid, known⟩ := Term.denotes_cell_iff.mp ht
    refine ⟨.access (.atom table.name) tr tc :: below, .cons (.access valid known hr hc) hbelow, ?_⟩
    simp only [Term.postfixAll_reverse_cons, Term.postfixTokens, List.append_assoc]

/-- The builder has read the terms of the trees that it has made. By induction on the tokens it
reads, whatever it has read before. -/
theorem Lists.build (h : Lists resolve read stack) {tokens : List Token}
    (hb : buildFrom resolve stack tokens = .ok stack') : Lists resolve (read ++ tokens) stack' := by
  fun_induction buildFrom resolve stack tokens generalizing read with
  | case1 stack =>
    cases hb
    rwa [List.append_nil]
  | case2 stack name count rest ih =>
    obtain ⟨stack₁, hp, hb⟩ := Except.of_bind_eq_ok hb
    have hmore := ih stack₁ (h.call hp) hb
    rwa [List.append_assoc] at hmore
  | case3 => cases hb
  | case4 stack s rest ih =>
    obtain ⟨e, he, hb⟩ := Except.of_bind_eq_ok hb
    have hmore := ih e (h.push (classifyAtom_eq_ok_iff.mp he)) hb
    rwa [List.append_assoc] at hmore
  | case5 stack s rest ih =>
    have hmore := ih (h.push (.text s)) hb
    rwa [List.append_assoc] at hmore
  | case6 stack symbol rest ih =>
    obtain ⟨stack₁, hp, hb⟩ := Except.of_bind_eq_ok hb
    have hmore := ih stack₁ (h.operator hp) hb
    rwa [List.append_assoc] at hmore
  | case7 stack rest ih =>
    obtain ⟨stack₁, hp, hb⟩ := Except.of_bind_eq_ok hb
    have hmore := ih stack₁ (h.access hp) hb
    rwa [List.append_assoc] at hmore
  | case8 => cases hb

end Building

/-- The builder undoes the listing in postfix order: it accepts just the tokens of a term that
stands for a tree, makes that tree, and no other term has these tokens. -/
theorem buildTree_eq_ok_iff (resolve : Resolver) (tokens : List Token) (e : Expr) :
    buildTree resolve tokens = .ok e ↔
      ∃ t : Term, t.Denotes resolve e ∧ ∀ u : Term, u.postfixTokens = tokens ↔ u = t := by
  constructor
  · intro h
    obtain ⟨terms, hterms, hlist⟩ := Lists.start.build (buildFrom_of_buildTree h)
    obtain ⟨t, _, ht, hnil, rfl⟩ := List.forall₂_cons_right_iff.mp hterms
    obtain rfl := List.forall₂_nil_right_iff.mp hnil
    have htokens : t.postfixTokens = tokens := by
      simpa [Term.postfixAll] using hlist
    refine ⟨t, ht, fun u => ⟨fun hu => ?_, fun hu => hu ▸ htokens⟩⟩
    exact Term.postfixTokens_injective (hu.trans htokens.symm)
  · rintro ⟨t, ht, hlist⟩
    have htokens : t.postfixTokens = tokens := (hlist t).mpr rfl
    rw [← htokens]
    exact (buildTree_postfixTokens t e).mpr ((Term.tree?_eq_some_iff t e).mpr ht)

end LiveSheet
