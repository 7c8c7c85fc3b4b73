import LiveSheet.Proofs.Formula.Building
import LiveSheet.Proofs.Formula.Relexing
import LiveSheet.Proofs.Formula.Scopes

namespace LiveSheet

/-- The tokens with another text in place of each atom, unless it is the name of a function. -/
def renameAtoms (g : String → String) : List Token → List Token
  | [] => []
  | .atom s :: .openParen :: rest => .atom s :: .openParen :: renameAtoms g rest
  | t :: rest => t.mapAtom g :: renameAtoms g rest

theorem renameAtoms_openParen {g : String → String} {tokens rest : List Token}
    (h : renameAtoms g tokens = .openParen :: rest) : ∃ rest', tokens = .openParen :: rest' := by
  rw [renameAtoms.eq_def] at h
  split at h
  next => cases h
  next => cases h
  next t rest' _ =>
    cases t with
    | openParen => exact ⟨rest', rfl⟩
    | _ => cases h

theorem renameAtoms_cons_of_not_call {g : String → String} {t : Token} {rest : List Token}
    (h : ∀ s rest', t = .atom s → rest ≠ .openParen :: rest') :
    renameAtoms g (t :: rest) = t.mapAtom g :: renameAtoms g rest := by
  rw [renameAtoms.eq_def]
  split
  next h' => cases h'
  next s rest' h' =>
    cases h'
    exact absurd rfl (h s rest' rfl)
  next t' rest' _ h' =>
    cases h'
    rfl

namespace InfixReader

variable (g : String → String)

/-- The reader with another text in place of each atom that it put out. -/
def mapAtoms (r : InfixReader) : InfixReader :=
  { r with output := r.output.map (Token.mapAtom g) }

variable {g} {r : InfixReader}

theorem mapAtom_operatorTokens (ops : List Operator) :
    (operatorTokens ops).map (Token.mapAtom g) = operatorTokens ops := by
  simp [operatorTokens, Token.mapAtom]

theorem operator_mapAtoms (symbol : String) :
    (r.mapAtoms g).operator symbol = (r.operator symbol).map (mapAtoms g) := by
  obtain ⟨output, scope, outer, afterOperand⟩ := r
  cases afterOperand with
  | false =>
    simp only [operator, mapAtoms, Bool.false_eq_true, ↓reduceIte]
    cases Operator.find? ((Operator.prefixForm? symbol).getD symbol) with
    | none => rfl
    | some op => simp [Except.map, mapAtoms, mapAtom_operatorTokens]
  | true =>
    simp only [operator, mapAtoms, ↓reduceIte]
    cases Operator.find? symbol with
    | none => rfl
    | some op => simp [Except.map, mapAtoms, mapAtom_operatorTokens]

theorem leave_mapAtoms (tokens : List Token) :
    (r.mapAtoms g).leave (tokens.map (Token.mapAtom g)) = (r.leave tokens).mapAtoms g := by
  unfold leave mapAtoms drain
  cases r.outer <;> simp [mapAtom_operatorTokens]

theorem closeParen_mapAtoms : (r.mapAtoms g).closeParen = r.closeParen.map (mapAtoms g) := by
  obtain ⟨output, ⟨enclosure, pending, separators, hasArgs⟩, outer, afterOperand⟩ := r
  cases enclosure with
  | whole => rfl
  | access => rfl
  | group =>
    have hleave := leave_mapAtoms (g := g)
      (r := ⟨output, ⟨.group, pending, separators, hasArgs⟩, outer, afterOperand⟩) []
    cases hasArgs <;> cases afterOperand <;> first | rfl | exact congrArg Except.ok hleave
  | call name =>
    have hleave := leave_mapAtoms (g := g)
      (r := ⟨output, ⟨.call name, pending, separators, hasArgs⟩, outer, afterOperand⟩)
      [.function name, .argCount (Scope.argCount ⟨.call name, pending, separators, hasArgs⟩)]
    cases hasArgs <;> cases afterOperand <;> first | rfl | exact congrArg Except.ok hleave

theorem separator_mapAtoms : (r.mapAtoms g).separator = r.separator.map (mapAtoms g) := by
  obtain ⟨output, ⟨enclosure, pending, separators, hasArgs⟩, outer, afterOperand⟩ := r
  cases afterOperand with
  | false => rfl
  | true =>
    cases enclosure <;>
      simp [separator, drain, Except.map, mapAtoms, mapAtom_operatorTokens]

theorem closeBracket_mapAtoms :
    (r.mapAtoms g).closeBracket = r.closeBracket.map (mapAtoms g) := by
  have hleave := leave_mapAtoms (g := g) (r := r) [.tableAccess]
  obtain ⟨output, ⟨enclosure, pending, separators, hasArgs⟩, outer, afterOperand⟩ := r
  cases enclosure with
  | access =>
    change closeBracket ⟨output.map (Token.mapAtom g), ⟨.access, pending, separators, hasArgs⟩,
      outer, afterOperand⟩ = _
    simp only [closeBracket]
    split
    next => exact congrArg Except.ok hleave
    next => rfl
  | _ => rfl

/-- Which text an atom has makes no difference to how a token is read. -/
theorem step_mapAtoms (t : Token) :
    (r.mapAtoms g).step (t.mapAtom g) = (r.step t).map (mapAtoms g) := by
  cases t with
  | atom s => simp [step, Token.mapAtom, operand, mapAtoms, Except.map]
  | text s => simp [step, Token.mapAtom, operand, mapAtoms, Except.map]
  | operator symbol => exact operator_mapAtoms symbol
  | openParen => rfl
  | closeParen => exact closeParen_mapAtoms
  | separator => exact separator_mapAtoms
  | openBracket =>
    obtain ⟨output, scope, outer, afterOperand⟩ := r
    cases afterOperand <;> rfl
  | closeBracket => exact closeBracket_mapAtoms
  | function name => rfl
  | argCount n => rfl
  | tableAccess => rfl

theorem run_cons_of_not_call {t : Token} {rest : List Token}
    (h : ∀ s rest', t = .atom s → rest ≠ .openParen :: rest') :
    r.run (t :: rest) = r.step t >>= fun r => r.run rest := by
  rw [run.eq_def]
  split
  next h' => cases h'
  next s rest' h' =>
    cases h'
    exact absurd rfl (h s rest' rfl)
  next t' rest' _ h' =>
    cases h'
    cases r.step t <;> rfl

theorem run_renameAtoms (tokens : List Token) :
    (r.mapAtoms g).run (renameAtoms g tokens) = (r.run tokens).map (mapAtoms g) := by
  fun_induction renameAtoms g tokens generalizing r with
  | case1 => rfl
  | case2 s rest ih => exact ih (r := r.openCall s)
  | case3 t rest hcall ih =>
    have hnot : ∀ s rest', t = .atom s → rest ≠ .openParen :: rest' :=
      fun s rest' ht hr => hcall s rest' ht hr
    have hnot' : ∀ s rest', t.mapAtom g = .atom s → renameAtoms g rest ≠ .openParen :: rest' := by
      intro s rest' ht hr
      cases t with
      | atom s' =>
        obtain ⟨rest'', hr'⟩ := renameAtoms_openParen hr
        exact hnot s' rest'' rfl hr'
      | _ => cases ht
    rw [run_cons_of_not_call hnot, run_cons_of_not_call hnot', step_mapAtoms]
    cases r.step t with
    | error e => rfl
    | ok r' => exact ih

theorem finish_mapAtoms :
    (r.mapAtoms g).finish = r.finish.map (List.map (Token.mapAtom g)) := by
  obtain ⟨output, ⟨enclosure, pending, separators, hasArgs⟩, outer, afterOperand⟩ := r
  cases enclosure with
  | whole => simp [finish, drain, mapAtoms, mapAtom_operatorTokens, Except.map]
  | _ => rfl

end InfixReader

/-- Which texts atoms have makes no difference to the order in which tokens are put. -/
theorem toPostfix_renameAtoms (g : String → String) (tokens : List Token) :
    toPostfix (renameAtoms g tokens) = (toPostfix tokens).map (List.map (Token.mapAtom g)) := by
  have hrun := InfixReader.run_renameAtoms (g := g) (r := .start) tokens
  change InfixReader.start.run (renameAtoms g tokens) = _ at hrun
  rw [toPostfix_eq, toPostfix_eq, hrun]
  cases InfixReader.start.run tokens with
  | error e => rfl
  | ok r => exact InfixReader.finish_mapAtoms

section Renaming

variable {old new : String}

theorem tokens_renamed (ls : List Lexeme) : (renamed old new ls).map Lexeme.token =
    renameAtoms (fun s => if s = old then new else s) (ls.map Lexeme.token) := by
  induction ls with
  | nil => rfl
  | cons l rest ih =>
    rw [renamed, List.map_cons, List.map_cons, ih]
    by_cases hcall : (∃ s, l.token = .atom s) ∧ opensParen rest = true
    · obtain ⟨⟨s, hs⟩, hparen⟩ := hcall
      cases rest with
      | nil => cases hparen
      | cons l' rest =>
        have hl' : l'.token = .openParen := by simpa [opensParen] using hparen
        simp [refersTo, hparen, hs, hl', renameAtoms, Token.mapAtom]
    · rw [renameAtoms_cons_of_not_call]
      · congr 1
        cases hl : l.token with
        | atom s =>
          have hparen : opensParen rest = false := by simpa [hl] using hcall
          by_cases hs : s = old <;> simp [refersTo, hl, hparen, hs, Token.mapAtom]
        | _ => simp [refersTo, hl, Token.mapAtom]
      · intro s rest' hs hrest
        apply hcall
        refine ⟨⟨s, hs⟩, ?_⟩
        cases rest with
        | nil => cases hrest
        | cons l' rest =>
          obtain ⟨hl', -⟩ := List.cons.inj hrest
          simp [opensParen, hl']

theorem substitute_of_not_mentions {ls : List Lexeme} (h : mentions old ls = false) :
    substitute old new ls = ls.flatMap Lexeme.text := by
  induction ls with
  | nil => rfl
  | cons l rest ih =>
    simp only [mentions, Bool.or_eq_false_iff] at h
    simp [substitute, Lexeme.text, h.1, ih h.2]

theorem renamedText_of_not_mentions {cs : List Char}
    (h : mentions old (scan cs).1 = false) : renamedText old new cs = cs := by
  rw [renamedText, substitute_of_not_mentions h, scan_append]

/-- The formula with all references renamed, whether there are any or not. -/
theorem renameReference?_getD (formula old new : String) :
    (renameReference? formula old new).getD formula =
      String.ofList (renamedText old new formula.toList) := by
  unfold renameReference?
  dsimp only
  split
  next => rfl
  next h =>
    rw [renamedText_of_not_mentions (by simpa using h)]
    simp

theorem tokenize_renamed (hold : BeginsAtom old) (hnew : isValidName new = true)
    (formula : String) : tokenize (String.ofList (renamedText old new formula.toList)) =
      renameAtoms (fun s => if s = old then new else s) (tokenize formula) := by
  rw [tokenize, tokenize, String.toList_ofList, scan_renamedText hold hnew, tokens_renamed]

/-- The reference under another name if it is to what was called `old`. -/
def CellRef.renamed (old new : String) (ref : CellRef) : CellRef :=
  if ref.name = old then ⟨ref.id, new⟩ else ref

/-- A renamed formula compiles to the same tree with renamed references, where the new name stands
for the same cell. -/
theorem compile_renamed {resolve other : Resolver} {formula : String} {e : Expr} {id : CellId}
    (h : compile resolve formula = .ok e) (hold : isValidName old = true)
    (hnew : isValidName new = true) (before : resolve old = some id) (after : other new = some id)
    (others : ∀ s x, s ≠ old → resolve s = some x → other s = some x) :
    compile other ((renameReference? formula old new).getD formula) =
      .ok (e.mapRefs (CellRef.renamed old new)) := by
  obtain ⟨tokens, hp, hb⟩ := compile_eq_ok h
  change toPostfix (tokenize formula) = .ok tokens at hp
  rw [renameReference?_getD, compile, parsePostfix,
    tokenize_renamed (beginsAtom_of_isValidName hold) hnew, toPostfix_renameAtoms, hp]
  apply buildTree_mapRefs other hb
  intro s e' _ he'
  by_cases hs : s = old
  · subst s
    rw [classifyAtom_of_isValidName hold before] at he'
    cases he'
    rw [if_pos rfl, classifyAtom_of_isValidName hnew after]
    simp [Expr.mapRefs, CellRef.renamed]
  · rw [if_neg hs]
    rcases classifyAtom_cases he' with ⟨x, hx, hv, rfl⟩ | ⟨-, hmap, hall⟩
    · rw [classifyAtom_of_isValidName hv (others s x hs hx)]
      simp [Expr.mapRefs, CellRef.renamed, hs]
    · rw [hmap, hall]

end Renaming

theorem Token.map_mapAtom_id (tokens : List Token) : tokens.map (Token.mapAtom id) = tokens := by
  rw [List.map_congr_left (g := id) fun t _ => by cases t <;> rfl, List.map_id]

/-- A formula compiles to the same tree with other references where each of its names stands for
the cell of the other reference. -/
theorem compile_mapRefs {resolve other : Resolver} {formula : String} {e : Expr}
    {g : CellRef → CellRef} (h : compile resolve formula = .ok e)
    (stands : ∀ ref ∈ e.refs, (g ref).name = ref.name ∧ other ref.name = some (g ref).id) :
    compile other formula = .ok (e.mapRefs g) := by
  obtain ⟨tokens, hp, hb⟩ := compile_eq_ok h
  have hbuild := buildTree_mapRefs other (g := id) (f := g) hb ?_
  · rw [Token.map_mapAtom_id] at hbuild
    rw [compile, hp]
    exact hbuild
  · intro s e' hs he'
    rcases classifyAtom_cases he' with ⟨x, -, hv, rfl⟩ | ⟨-, hmap, hall⟩
    · obtain ⟨hname, hother⟩ := stands ⟨x, s⟩ ((mem_refs_buildTree hb).mpr ⟨hs, he'⟩)
      have hg : g ⟨x, s⟩ = ⟨(g ⟨x, s⟩).id, s⟩ := congrArg (CellRef.mk _) hname
      rw [Expr.mapRefs, hg]
      exact classifyAtom_of_isValidName hv hother
    · rw [hmap]
      exact hall other

/-- A formula compiles to the same tree where its references stand for the same cells. -/
theorem compile_congr {resolve other : Resolver} {formula : String} {e : Expr}
    (h : compile resolve formula = .ok e)
    (same : ∀ ref ∈ e.refs, other ref.name = some ref.id) : compile other formula = .ok e := by
  have hmap := compile_mapRefs (g := id) h fun ref hr => ⟨rfl, same ref hr⟩
  rwa [Expr.mapRefs_id] at hmap

end LiveSheet
