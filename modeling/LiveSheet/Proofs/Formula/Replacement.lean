import LiveSheet.Proofs.Formula.Reading
import LiveSheet.Proofs.Formula.Spans

namespace LiveSheet

/-- The token at this place is a reference to the name: an atom that no parenthesis makes the name
of a function. -/
def RefersAt (name : String) (tokens : List Token) (i : Nat) : Prop :=
  tokens[i]? = some (.atom name) ∧ tokens[i + 1]? ≠ some .openParen

instance (name : String) (tokens : List Token) (i : Nat) : Decidable (RefersAt name tokens i) :=
  inferInstanceAs (Decidable (_ ∧ _))

/-- Where the references to a name stand. -/
def referenceSpans (name : String) (spans : List Spanned) : List Spanned :=
  (spans.zipIdx.filter fun (_, i) => RefersAt name (spans.map Spanned.token) i).map Prod.fst

/-- The text from an offset on, with `new` in place of each span. -/
def overwrite (new text : String) (start : Nat) : List Spanned → String
  | [] => String.Pos.Raw.extract text ⟨start⟩ text.rawEndPos
  | span :: rest =>
    String.Pos.Raw.extract text ⟨start⟩ ⟨span.start⟩ ++ new ++ overwrite new text span.stop rest

section Places

variable {name : String} {ls rest : List Lexeme} {l : Lexeme}

theorem refersAt_zero : RefersAt name ((l :: rest).map Lexeme.token) 0 ↔
    refersTo name l rest = true := by
  cases rest <;> simp [RefersAt, refersTo, opensParen]

theorem refersAt_succ {t : Token} {tokens : List Token} {i : Nat} :
    RefersAt name (t :: tokens) (i + 1) ↔ RefersAt name tokens i := by
  simp [RefersAt]

theorem mentions_iff : mentions name ls = true ↔ ∃ i, RefersAt name (ls.map Lexeme.token) i := by
  induction ls with
  | nil => simp [mentions, RefersAt]
  | cons l rest ih =>
    rw [mentions, Bool.or_eq_true, ih, ← refersAt_zero]
    constructor
    · rintro (h | ⟨i, h⟩)
      · exact ⟨0, h⟩
      · exact ⟨i + 1, refersAt_succ.mpr h⟩
    · rintro ⟨i, h⟩
      cases i with
      | zero => exact .inl h
      | succ i => exact .inr ⟨i, refersAt_succ.mp h⟩

theorem referenceSpans_cons (span : Spanned) (spans : List Spanned) :
    referenceSpans name (span :: spans) =
      (if RefersAt name ((span :: spans).map Spanned.token) 0 then [span] else []) ++
        referenceSpans name spans := by
  have hrest : ((spans.zipIdx 1).filter fun (_, i) =>
      RefersAt name ((span :: spans).map Spanned.token) i).map Prod.fst =
        referenceSpans name spans := by
    rw [List.zipIdx_succ, List.filter_map, List.map_map]
    simp only [referenceSpans, List.map_cons, Function.comp_def, refersAt_succ]
  rw [← hrest, referenceSpans, List.zipIdx_cons, List.filter_cons]
  simp only [decide_eq_true_eq]
  split <;> simp

end Places

section Substituting

variable {old new : String} {ls : List Lexeme}

/-- Only the places of the references have another token. -/
theorem getElem?_renamed (i : Nat) : ((renamed old new ls).map Lexeme.token)[i]? =
    if RefersAt old (ls.map Lexeme.token) i then some (.atom new)
    else (ls.map Lexeme.token)[i]? := by
  induction ls generalizing i with
  | nil => simp [renamed, RefersAt]
  | cons l rest ih =>
    cases i with
    | zero =>
      rw [renamed]
      by_cases h : refersTo old l rest = true
      · rw [if_pos h, if_pos (refersAt_zero.mpr h)]
        rfl
      · rw [if_neg h, if_neg (refersAt_zero.not.mpr h)]
        rfl
    | succ i =>
      rw [renamed, List.map_cons, List.map_cons, List.getElem?_cons_succ, ih]
      simp only [refersAt_succ, List.getElem?_cons_succ]

/-- The characters of the lexemes are written but for those at the references. -/
theorem overwrite_referenceSpans {formula : String} (done kept : List Char) {tail : List Char}
    (text : formula.toList = done ++ kept ++ (ls.flatMap Lexeme.text ++ tail)) :
    overwrite new formula (byteLength done)
      (referenceSpans old (spansFrom (byteLength (done ++ kept)) ls)) =
        String.ofList (kept ++ (substitute old new ls ++ tail)) := by
  induction ls generalizing done kept with
  | nil =>
    have hend : formula.rawEndPos = ⟨byteLength (done ++ (kept ++ tail))⟩ := by
      rw [← String.ofList_toList (s := formula), String.rawEndPos_ofList, byteLength_eq, text]
      simp
    have hall : formula.toList = done ++ (kept ++ tail) ++ [] := by simp [text]
    rw [spansFrom, referenceSpans, List.zipIdx_nil, List.filter_nil, List.map_nil, overwrite, hend,
      extract_byteLength hall]
    rfl
  | cons l rest ih =>
    have hstart : byteLength (done ++ kept) + byteLength l.gap =
        byteLength (done ++ (kept ++ l.gap)) := by
      simp only [byteLength_append, Nat.add_assoc]
    rw [List.flatMap_cons, Lexeme.text] at text
    rw [spansFrom, referenceSpans_cons, hstart, List.map_cons, map_token_spansFrom,
      ← byteLength_append]
    simp only [← List.map_cons, refersAt_zero]
    by_cases h : refersTo old l rest = true
    · have hhere : formula.toList = done ++ (kept ++ l.gap) ++
          (l.chars ++ rest.flatMap Lexeme.text ++ tail) := by simp [text]
      have hthere : formula.toList = done ++ (kept ++ l.gap) ++ l.chars ++ [] ++
          (rest.flatMap Lexeme.text ++ tail) := by simp [text]
      have hrest := ih _ _ hthere
      rw [List.append_nil] at hrest
      rw [if_pos h, List.singleton_append, overwrite, extract_byteLength hhere, hrest, substitute,
        if_pos h]
      simp [String.ofList_append, String.append_assoc]
    · have hthere : formula.toList = done ++ (kept ++ l.gap ++ l.chars) ++
          (rest.flatMap Lexeme.text ++ tail) := by simp [text]
      have hrest := ih _ _ hthere
      rw [if_neg h, List.nil_append, List.append_assoc done, hrest, substitute, if_neg h]
      simp

theorem opensParen_renamed (ls : List Lexeme) :
    opensParen (renamed old new ls) = opensParen ls := by
  cases ls with
  | nil => rfl
  | cons l rest =>
    rw [renamed]
    split
    next h => simp [opensParen, (refersTo_eq_true h).1]
    next => rfl

theorem refersTo_renamed (name : String) (l : Lexeme) (rest : List Lexeme) :
    refersTo name l (renamed old new rest) = refersTo name l rest := by
  rw [refersTo, refersTo, opensParen_renamed]

theorem refersAt_renamed {i : Nat} (h : RefersAt old (ls.map Lexeme.token) i) :
    RefersAt new ((renamed old new ls).map Lexeme.token) i := by
  refine ⟨by rw [getElem?_renamed, if_pos h], ?_⟩
  rw [getElem?_renamed]
  split
  next => simp
  next => exact h.2

/-- Where the new name was not used, renaming back restores what each lexeme was. -/
theorem substitute_renamed (proper : ∀ l ∈ ls, l.Proper) (unused : mentions new ls = false) :
    substitute new old (renamed old new ls) = ls.flatMap Lexeme.text := by
  induction ls with
  | nil => rfl
  | cons l rest ih =>
    obtain ⟨hl, hrest⟩ := List.forall_mem_cons.mp proper
    obtain ⟨hhere, hthere⟩ := Bool.or_eq_false_iff.mp unused
    rw [renamed, substitute, ih hrest hthere, refersTo_renamed, List.flatMap_cons, Lexeme.text]
    by_cases h : refersTo old l rest = true
    · obtain ⟨htoken, hparen⟩ := refersTo_eq_true h
      have hback : refersTo new ⟨l.gap, new.toList, .atom new⟩ rest = true := by
        simp [refersTo, hparen]
      have hchars : l.chars = old.toList := by
        rw [hl.written, htoken]
        rfl
      rw [if_pos h, if_pos hback, hchars]
    · rw [if_neg h, hhere, if_neg Bool.false_ne_true]

end Substituting

/-- Renaming the references to a name writes the new name over each of them and changes nothing
else; where the new name was not used it can be undone. -/
theorem renameReference?_exact (formula : String) {old new : String}
    (hold : isValidName old = true) (hnew : isValidName new = true) :
    (renameReference? formula old new = none ↔ ∀ i, ¬RefersAt old (tokenize formula) i) ∧
      ∀ result, renameReference? formula old new = some result →
        (∀ i, (tokenize result)[i]? = if RefersAt old (tokenize formula) i then some (.atom new)
          else (tokenize formula)[i]?) ∧
        result = overwrite new formula 0 (referenceSpans old (tokenizeSpanned formula)) ∧
        ((∀ i, ¬RefersAt new (tokenize formula) i) →
          renameReference? result new old = some formula) := by
  obtain ⟨proper, -⟩ := scan_proper formula.toList
  have htext := scan_append formula.toList
  have hscan := scan_renamedText (beginsAtom_of_isValidName hold) hnew formula.toList
  have hnone : ∀ name, mentions name (scan formula.toList).1 = false ↔
      ∀ i, ¬RefersAt name (tokenize formula) i := by
    intro name
    rw [← Bool.not_eq_true, mentions_iff, not_exists]
    rfl
  by_cases hm : mentions old (scan formula.toList).1 = true
  · have hsome : renameReference? formula old new =
        some (String.ofList (renamedText old new formula.toList)) := if_pos hm
    rw [hsome]
    refine ⟨⟨fun h => (by cases h), fun h => ?_⟩, fun result hresult => ?_⟩
    · rw [(hnone old).mpr h] at hm
      cases hm
    · cases hresult
      refine ⟨fun i => ?_, ?_, fun unused => ?_⟩
      · rw [tokenize, String.toList_ofList, hscan]
        exact getElem?_renamed i
      · exact (overwrite_referenceSpans [] [] htext.symm).symm
      · have hback : mentions new (renamed old new (scan formula.toList).1) = true := by
          obtain ⟨i, hi⟩ := mentions_iff.mp hm
          exact mentions_iff.mpr ⟨i, refersAt_renamed hi⟩
        have hrestore : substitute new old (renamed old new (scan formula.toList).1) =
            (scan formula.toList).1.flatMap Lexeme.text :=
          substitute_renamed proper ((hnone new).mpr unused)
        rw [renameReference?, String.toList_ofList, hscan]
        dsimp only
        rw [if_pos hback, hrestore, htext, String.ofList_toList]
  · have hn : renameReference? formula old new = none := if_neg hm
    rw [hn]
    refine ⟨⟨fun _ => (hnone old).mp (by simpa using hm), fun _ => rfl⟩, fun _ h => (by cases h)⟩

/-- The name of a function stays, though a space stands before its parenthesis. -/
theorem renameReference?_exact_call :
    isValidName "a" = true ∧ isValidName "b" = true ∧
      renameReference? "a (1)+a" "a" "b" = some "a (1)+b" ∧
      (∀ i, ¬RefersAt "b" (tokenize "a (1)+a") i) ∧
      renameReference? "a (1)+b" "b" "a" = some "a (1)+a" := by
  have ha : isValidName "a" = true := by decide +kernel
  have hb : isValidName "b" = true := by decide +kernel
  have hresult : renameReference? "a (1)+a" "a" "b" = some "a (1)+b" := by decide +kernel
  have hnone : renameReference? "a (1)+a" "b" "a" = none := by decide +kernel
  have hunused := (renameReference?_exact "a (1)+a" hb ha).1.mp hnone
  have hback := ((renameReference?_exact "a (1)+a" ha hb).2 _ hresult).2.2 hunused
  exact ⟨ha, hb, hresult, hunused, hback⟩

end LiveSheet
