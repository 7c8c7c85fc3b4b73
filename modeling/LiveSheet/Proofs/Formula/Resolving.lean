import LiveSheet.Proofs.Formula.Reading

namespace LiveSheet

/-- The tree without what its references are to. -/
def Expr.skeleton (e : Expr) : Expr :=
  e.mapRefs fun _ => ⟨⟨0⟩, ""⟩

section Building

variable {resolve other : Resolver} {stack stack' others : List Expr}

/-- The atom `s` has the shape of `e` under a resolver, or is a name that this one does not know
although it stands for `known`. -/
def ShapedLike (resolve : Resolver) (s : String) (e : Expr) (known : Option CellId) : Prop :=
  (∃ e', classifyAtom resolve s = .ok e' ∧ e'.skeleton = e.skeleton) ∨
    classifyAtom resolve s = .error (.unknownCell s) ∧ resolve s = none ∧ known.isSome = true

theorem classifyAtom_skeleton {s : String} {e : Expr} (h : classifyAtom other s = .ok e) :
    ShapedLike resolve s e (other s) := by
  rcases classifyAtom_cases h with ⟨id, hid, hv, rfl⟩ | ⟨-, -, hall⟩
  · cases hr : resolve s with
    | some id' => exact .inl ⟨_, classifyAtom_of_isValidName hv hr, rfl⟩
    | none => exact .inr ⟨classifyAtom_of_unknown hv hr, hr, by rw [hid]; rfl⟩
  · exact .inl ⟨e, hall resolve, rfl⟩

theorem Except.map_eq_ok {ε α β : Type} {x : Except ε α} {f : α → β} {b : β}
    (h : x.map f = .ok b) : ∃ a, x = .ok a ∧ f a = b := by
  cases x with
  | ok a => exact ⟨a, rfl, Except.ok.inj h⟩
  | error e => cases h

/-- What succeeds on one of two stacks of the same shape succeeds on the other, if its shape is all
that matters. -/
theorem push_skeleton (push : List Expr → Except FormulaError (List Expr))
    (blind : ∀ stack, push (stack.map Expr.skeleton) = (push stack).map (List.map Expr.skeleton))
    (alike : stack.map Expr.skeleton = others.map Expr.skeleton) {others' : List Expr}
    (h : push others = .ok others') :
    ∃ stack', push stack = .ok stack' ∧
      stack'.map Expr.skeleton = others'.map Expr.skeleton := by
  apply Except.map_eq_ok
  rw [← blind, alike, blind, h]
  rfl

/-- Tokens that build under one resolver build under the other to the same shape, or fail at a name
that only the first one knows. -/
theorem buildFrom_skeleton {g : String → String} {tokens : List Token} {others' : List Expr}
    (alike : stack.map Expr.skeleton = others.map Expr.skeleton)
    (atoms : ∀ s e, classifyAtom other (g s) = .ok e → ShapedLike resolve s e (other (g s)))
    (h : buildFrom other others (tokens.map (Token.mapAtom g)) = .ok others') :
    (∃ stack', buildFrom resolve stack tokens = .ok stack' ∧
      stack'.map Expr.skeleton = others'.map Expr.skeleton) ∨
      ∃ name, buildFrom resolve stack tokens = .error (.unknownCell name) ∧
        resolve name = none ∧ (other (g name)).isSome = true := by
  fun_induction buildFrom resolve stack tokens generalizing others with
  | case1 stack =>
    cases h
    exact .inl ⟨stack, rfl, alike⟩
  | case2 stack name count rest ih =>
    simp only [List.map_cons, Token.mapAtom, buildFrom] at h
    obtain ⟨others₁, hp, h⟩ := Except.of_bind_eq_ok h
    obtain ⟨stack₁, hs, halike⟩ := push_skeleton (fun stack => pushCall stack name count)
      (fun stack => pushCall_mapRefs stack name count) alike hp
    rw [hs]
    exact ih stack₁ halike h
  | case3 stack name rest hrest =>
    cases rest with
    | nil => cases h
    | cons t ts =>
      cases t with
      | argCount count => exact absurd rfl (hrest count ts)
      | _ => cases h
  | case4 stack s rest ih =>
    simp only [List.map_cons, Token.mapAtom, buildFrom] at h
    obtain ⟨e, he, h⟩ := Except.of_bind_eq_ok h
    rcases atoms s e he with ⟨e', he', hskeleton⟩ | ⟨herror, hr, ho⟩
    · rw [he']
      exact ih e' (by simp [hskeleton, alike]) h
    · rw [herror]
      exact .inr ⟨s, rfl, hr, ho⟩
  | case5 stack s rest ih => exact ih (by simp [alike]) h
  | case6 stack symbol rest ih =>
    simp only [List.map_cons, Token.mapAtom, buildFrom] at h
    obtain ⟨others₁, hp, h⟩ := Except.of_bind_eq_ok h
    obtain ⟨stack₁, hs, halike⟩ := push_skeleton (fun stack => pushOperator stack symbol)
      (fun stack => pushOperator_mapRefs stack symbol) alike hp
    rw [hs]
    exact ih stack₁ halike h
  | case7 stack rest ih =>
    simp only [List.map_cons, Token.mapAtom, buildFrom] at h
    obtain ⟨others₁, hp, h⟩ := Except.of_bind_eq_ok h
    obtain ⟨stack₁, hs, halike⟩ := push_skeleton pushAccess pushAccess_mapRefs alike hp
    rw [hs]
    exact ih stack₁ halike h
  | case8 stack t rest hcall hfunction hatom htext hoperator haccess =>
    cases t with
    | function name => exact absurd rfl (hfunction name)
    | atom s => exact absurd rfl (hatom s)
    | text s => exact absurd rfl (htext s)
    | operator symbol => exact absurd rfl (hoperator symbol)
    | tableAccess => exact absurd rfl haccess
    | _ => cases h

theorem buildTree_skeleton {g : String → String} {tokens : List Token} {e : Expr}
    (atoms : ∀ s e, classifyAtom other (g s) = .ok e → ShapedLike resolve s e (other (g s)))
    (h : buildTree other (tokens.map (Token.mapAtom g)) = .ok e) :
    (∃ e', buildTree resolve tokens = .ok e' ∧ e'.skeleton = e.skeleton) ∨
      ∃ name, buildTree resolve tokens = .error (.unknownCell name) ∧
        resolve name = none ∧ (other (g name)).isSome = true := by
  unfold buildTree
  rcases buildFrom_skeleton rfl atoms (buildFrom_of_buildTree h) with
    ⟨stack', hb, halike⟩ | ⟨name, hb, hname⟩
  · rw [hb]
    obtain ⟨e', rest, rfl, he', hrest⟩ := List.map_eq_cons_iff.mp halike
    obtain rfl := List.map_eq_nil_iff.mp hrest
    exact .inl ⟨e', rfl, he'⟩
  · rw [hb]
    exact .inr ⟨name, rfl, hname⟩

end Building

section Compiling

variable {resolve other : Resolver} {formula : String} {e : Expr}

/-- A formula fails under one resolver and compiles under another only for a name that the first one
does not know. -/
theorem compile_error_cases {cause : FormulaError} (failed : compile resolve formula = .error cause)
    (h : compile other formula = .ok e) : ∃ name, cause = .unknownCell name ∧
      resolve name = none ∧ (other name).isSome = true := by
  obtain ⟨tokens, hp, hb⟩ := compile_eq_ok h
  rw [← Token.map_mapAtom_id tokens] at hb
  have hatoms : ∀ s e, classifyAtom other (id s) = .ok e →
      ShapedLike resolve s e (other (id s)) := fun s e he => classifyAtom_skeleton he
  rcases buildTree_skeleton hatoms hb with
    ⟨e', hb', -⟩ | ⟨name, hb', hname⟩
  · rw [compile, hp] at failed
    cases failed.symm.trans hb'
  · rw [compile, hp] at failed
    exact ⟨name, Except.error.inj (failed.symm.trans hb'), hname⟩

/-- A formula that is a name stands for the cell of that name. -/
theorem compile_name {name : String} {id : CellId}
    (h : parsePostfix formula = .ok [.atom name]) (valid : isValidName name = true)
    (hid : resolve name = some id) : compile resolve formula = .ok (.cell ⟨id, name⟩) := by
  rw [compile, h]
  change buildTree resolve [.atom name] = _
  rw [buildTree, buildFrom, classifyAtom_of_isValidName valid hid]
  rfl

theorem compile_unknown {name : String} (h : parsePostfix formula = .ok [.atom name])
    (valid : isValidName name = true) (unknown : resolve name = none) :
    compile resolve formula = .error (.unknownCell name) := by
  rw [compile, h]
  change buildTree resolve [.atom name] = _
  rw [buildTree, buildFrom, classifyAtom_of_unknown valid unknown]
  rfl

theorem parsePostfix_of_isValidName {name : String} (valid : isValidName name = true) :
    parsePostfix name = .ok [.atom name] := by
  rw [parsePostfix, tokenize_of_isValidName valid]
  rfl

theorem parsePostfix_renamed (formula : String) {old new : String} (hold : BeginsAtom old)
    (hnew : isValidName new = true) :
    parsePostfix ((renameReference? formula old new).getD formula) =
      (parsePostfix formula).map
        (List.map (Token.mapAtom fun s => if s = old then new else s)) := by
  rw [renameReference?_getD, parsePostfix, tokenize_renamed hold hnew, toPostfix_renameAtoms]
  rfl

/-- A formula whose renamed text compiles, compiles where the old name stands for what the new one
stands for. -/
theorem compile_of_renamed {old new : String} (hold : isValidName old = true)
    (hnew : isValidName new = true)
    (h : compile other ((renameReference? formula old new).getD formula) = .ok e) :
    ∃ e', compile (fun s => other (if s = old then new else s)) formula = .ok e' := by
  obtain ⟨tokens, hp, hb⟩ := compile_eq_ok h
  rw [parsePostfix_renamed _ (beginsAtom_of_isValidName hold) hnew] at hp
  obtain ⟨output, hpost, rfl⟩ := Except.map_eq_ok hp
  have hatoms : ∀ s e, classifyAtom other (if s = old then new else s) = .ok e →
      ShapedLike (fun s => other (if s = old then new else s)) s e
        (other (if s = old then new else s)) := by
    intro s e he
    by_cases hs : s = old
    · subst s
      rw [if_pos rfl, classifyAtom_name _ hnew] at he
      cases hr : other new with
      | some id =>
        rw [hr] at he
        cases he
        exact .inl ⟨_, classifyAtom_of_isValidName hold (by rw [if_pos rfl, hr]), rfl⟩
      | none =>
        rw [hr] at he
        cases he
    · rw [if_neg hs] at he ⊢
      exact classifyAtom_skeleton he
  rcases buildTree_skeleton hatoms hb with ⟨e', hb', -⟩ | ⟨name, -, hnone, hsome⟩
  · refine ⟨e', ?_⟩
    rw [compile, hpost]
    exact hb'
  · rw [hnone] at hsome
    cases hsome

/-- An atom of the formula other than the names of functions, in a formula that has a postfix
form. -/
def Uses (formula name : String) : Prop :=
  ∃ tokens, parsePostfix formula = .ok tokens ∧ .atom name ∈ tokens

theorem uses_of_mem_refs {ref : CellRef} (h : compile resolve formula = .ok e)
    (hr : ref ∈ e.refs) : Uses formula ref.name := by
  obtain ⟨tokens, hp, hb⟩ := compile_eq_ok h
  exact ⟨tokens, hp, ((mem_refs_buildTree hb).mp hr).1⟩

theorem Uses.classifyAtom {name : String} (h : Uses formula name)
    (he : compile resolve formula = .ok e) : ∃ e', classifyAtom resolve name = .ok e' := by
  obtain ⟨tokens, hp, hm⟩ := h
  obtain ⟨tokens', hp', hb⟩ := compile_eq_ok he
  obtain rfl := Except.ok.inj (hp.symm.trans hp')
  exact (mem_refsAll_buildFrom (buildFrom_of_buildTree hb)).2 name hm

/-- A formula does not compile where a name that it uses stands for nothing. -/
theorem Uses.resolve_ne_none {name : String} (h : Uses formula name)
    (valid : isValidName name = true) (he : compile resolve formula = .ok e) :
    resolve name ≠ none := by
  intro hr
  obtain ⟨e', he'⟩ := h.classifyAtom he
  rw [classifyAtom_of_unknown valid hr] at he'
  cases he'

end Compiling

section Atoms

variable {s : String}

theorem uses_of_mentions {formula : String} {tokens : List Token}
    (hp : parsePostfix formula = .ok tokens) (h : mentions s (scan formula.toList).1 = true) :
    Uses formula s := by
  refine ⟨tokens, hp, ?_⟩
  rw [parsePostfix, toPostfix_eq, tokenize] at hp
  split at hp
  next r hr =>
    have hm := InfixReader.atom_mem_run hr (.inr h)
    unfold InfixReader.finish at hp
    split at hp <;> cases hp
    exact List.mem_append_left _ hm
  next => cases hp

/-- An atom is a string literal without its closing quote, or begins as names and numbers do. -/
theorem beginsAtom_of_leadOf {c : Char} {rest : List Char} (blank : isBlank c = false)
    (h : (leadOf c rest).token = .atom s) : s.toList.head? = some '"' ∨ BeginsAtom s := by
  unfold leadOf at h
  split at h
  case h_6 =>
    unfold leadText at h
    split at h <;> cases h
    exact .inl (by simp)
  case h_7 h₁ h₂ h₃ h₄ h₅ h₆ =>
    split at h
    next => cases h
    next hop =>
      cases h
      have hbracket : isBracket c = false := by
        simp only [isBracket, List.contains_eq_mem, List.mem_cons, List.not_mem_nil, or_false,
          decide_eq_false_iff_not, not_or]
        exact ⟨h₁, h₂, h₃, h₄, h₆, h₅⟩
      exact .inr ⟨c, _, String.toList_ofList, by simp [isBoundary, blank, hop, hbracket]⟩
  all_goals cases h

theorem beginsAtom_of_mentions {cs : List Char} (h : mentions s (scan cs).1 = true) :
    s.toList.head? = some '"' ∨ BeginsAtom s := by
  induction cs using scan_induction with
  | blank cs blank =>
    rw [scan_of_blank blank] at h
    cases h
  | lead gap c rest blank hc ih =>
    rw [scan_gap blank hc, mentions, Bool.or_eq_true] at h
    rcases h with h | h
    · exact beginsAtom_of_leadOf hc (refersTo_eq_true h).1
    · exact ih h

end Atoms

/-- Every string literal in the formula has its closing quote. -/
def Terminated (formula : String) : Prop :=
  ∀ s, Uses formula s → s.toList.head? ≠ some '"'

theorem terminated_of_compile {resolve : Resolver} {formula : String} {e : Expr}
    (h : compile resolve formula = .ok e) : Terminated formula := by
  intro s hs hq
  obtain ⟨e', he'⟩ := hs.classifyAtom h
  simp [classifyAtom, hq] at he'

theorem Token.mapAtom_eq_atom {g : String → String} {t : Token} {s : String}
    (h : t.mapAtom g = .atom s) : ∃ s', t = .atom s' ∧ g s' = s := by
  cases t <;> cases h
  exact ⟨_, rfl, rfl⟩

/-- Renaming leaves all other names in a formula. -/
theorem Uses.renamed {formula name old new : String} (h : Uses formula name)
    (terminated : Terminated formula) (other : name ≠ old) (hnew : isValidName new = true) :
    Uses ((renameReference? formula old new).getD formula) name ∧
      Terminated ((renameReference? formula old new).getD formula) := by
  obtain ⟨tokens, hp, hm⟩ := h
  by_cases hold : mentions old (scan formula.toList).1 = true
  · have hquote := terminated old (uses_of_mentions hp hold)
    have hpost := parsePostfix_renamed formula
      ((beginsAtom_of_mentions hold).resolve_left hquote) hnew
    rw [hp] at hpost
    refine ⟨⟨_, hpost, List.mem_map.mpr ⟨_, hm, ?_⟩⟩, fun s hs => ?_⟩
    · simp [Token.mapAtom, other]
    · obtain ⟨tokens', hp', hm'⟩ := hs
      obtain rfl := Except.ok.inj (hp'.symm.trans hpost)
      obtain ⟨t, ht, hts⟩ := List.mem_map.mp hm'
      obtain ⟨s', rfl, rfl⟩ := Token.mapAtom_eq_atom hts
      split
      next =>
        obtain ⟨c, rest, hlist, hc⟩ := beginsAtom_of_isValidName hnew
        rw [hlist]
        rintro ⟨⟩
        cases hc
      next => exact terminated s' ⟨tokens, hp, ht⟩
  · have hnone : renameReference? formula old new = none := by simp [renameReference?, hold]
    rw [hnone]
    exact ⟨⟨tokens, hp, hm⟩, terminated⟩

theorem Except.of_bind_eq_error {ε α β : Type} {x : Except ε α} {f : α → Except ε β} {cause : ε}
    (h : x >>= f = .error cause) : x = .error cause ∨ ∃ a, x = .ok a ∧ f a = .error cause := by
  cases x with
  | ok a => exact .inr ⟨a, rfl, h⟩
  | error e => exact .inl (congrArg Except.error (Except.error.inj h))

end LiveSheet
