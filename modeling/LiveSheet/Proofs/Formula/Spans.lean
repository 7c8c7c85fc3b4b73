import Mathlib.Data.String.Basic
import LiveSheet.Proofs.Formula.Relexing

namespace LiveSheet

theorem byteLength_eq (cs : List Char) : byteLength cs = String.utf8Len cs := by
  have hfrom : ∀ n, cs.foldl (fun n c => n + c.utf8Size) n = n + String.utf8Len cs := by
    induction cs with
    | nil => exact fun n => rfl
    | cons c cs ih =>
      intro n
      rw [List.foldl_cons, ih, String.utf8Len_cons]
      omega
  rw [byteLength, hfrom, Nat.zero_add]

theorem byteLength_append (cs ds : List Char) :
    byteLength (cs ++ ds) = byteLength cs + byteLength ds := by
  simp only [byteLength_eq, String.utf8Len_append]

theorem byteLength_pos {cs : List Char} (h : cs ≠ []) : 0 < byteLength cs := by
  obtain ⟨c, tail, rfl⟩ := List.exists_cons_of_ne_nil h
  have hc := c.utf8Size_pos
  rw [byteLength_eq, String.utf8Len_cons]
  omega

/-- A part with no more bytes at the front of a text is in front of the other part. -/
theorem exists_append_of_byteLength_le {xs ys before after : List Char}
    (h : xs ++ ys = before ++ after) (le : byteLength before ≤ byteLength xs) :
    ∃ mid, xs = before ++ mid ∧ after = mid ++ ys := by
  rcases List.append_eq_append_iff.mp h with ⟨mid, rfl, rfl⟩ | ⟨mid, rfl, rfl⟩
  · have hnil : mid = [] := by
      by_contra hne
      have hpos := byteLength_pos hne
      rw [byteLength_append] at le
      omega
    exact ⟨[], by simp [hnil], by simp [hnil]⟩
  · exact ⟨mid, rfl, rfl⟩

section Positions

variable {s : String} {front mid rest : List Char}

theorem isValid_byteLength (h : s.toList = front ++ rest) :
    String.Pos.Raw.IsValid s ⟨byteLength front⟩ := by
  apply String.Pos.Raw.isValid_iff_exists_append.mpr
  refine ⟨String.ofList front, String.ofList rest, ?_, ?_⟩
  · rw [← String.ofList_append, ← h, String.ofList_toList]
  · rw [String.rawEndPos_ofList, byteLength_eq]

theorem extract_byteLength (h : s.toList = front ++ mid ++ rest) :
    String.Pos.Raw.extract s ⟨byteLength front⟩ ⟨byteLength (front ++ mid)⟩ =
      String.ofList mid := by
  rw [← String.ofList_toList (s := s), h, byteLength_append, byteLength_eq, byteLength_eq]
  exact String.extract_of_valid front mid rest

end Positions

/-- A character of a text of two parts is in the first or in the second. -/
theorem append_eq_append_cons {xs ys before after : List Char} {c : Char}
    (h : xs ++ ys = before ++ c :: after) :
    (∃ mid, xs = before ++ c :: mid) ∨ ∃ mid, before = xs ++ mid ∧ ys = mid ++ c :: after := by
  rcases List.append_eq_append_iff.mp h with ⟨mid, rfl, rfl⟩ | ⟨mid, rfl, hmid⟩
  · exact .inr ⟨mid, rfl, rfl⟩
  · cases mid with
    | nil => exact .inr ⟨[], by simp, hmid.symm⟩
    | cons d mid =>
      obtain ⟨rfl, -⟩ := List.cons.inj hmid
      exact .inl ⟨mid, rfl⟩

/-- The lexeme is as scanning gives it: blanks, and then a token as it is written. -/
structure Lexeme.Proper (l : Lexeme) : Prop where
  blank : ∀ c ∈ l.gap, isBlank c = true
  written : l.chars = l.token.chars
  nonempty : l.chars ≠ []

theorem scan_proper (cs : List Char) :
    (∀ l ∈ (scan cs).1, l.Proper) ∧ ∀ c ∈ (scan cs).2, isBlank c = true := by
  induction cs using scan_induction with
  | blank cs blank =>
    rw [scan_of_blank blank]
    exact ⟨by simp, blank⟩
  | lead gap c rest blank hc ih =>
    rw [scan_gap blank hc]
    have hlead : Lexeme.Proper ⟨gap, (leadOf c rest).chars, (leadOf c rest).token⟩ :=
      ⟨blank, leadOf_chars c rest, leadOf_chars_ne_nil c rest⟩
    exact ⟨List.forall_mem_cons.mpr ⟨hlead, ih.1⟩, ih.2⟩

theorem length_le_of_proper {ls : List Lexeme} (proper : ∀ l ∈ ls, l.Proper) :
    ls.length ≤ (ls.flatMap Lexeme.text).length := by
  induction ls with
  | nil => exact Nat.le_refl 0
  | cons l rest ih =>
    obtain ⟨hl, hrest⟩ := List.forall_mem_cons.mp proper
    have hpos := List.length_pos_iff.mpr hl.nonempty
    have hle := ih hrest
    simp only [List.flatMap_cons, Lexeme.text, List.length_append, List.length_cons]
    omega

section Spans

variable {ls : List Lexeme} {span : Spanned}

theorem map_token_spansFrom (offset : Nat) (ls : List Lexeme) :
    (spansFrom offset ls).map Spanned.token = ls.map Lexeme.token := by
  induction ls generalizing offset with
  | nil => rfl
  | cons l rest ih => simp [spansFrom, ih]

/-- A span is where its lexeme stands behind the lexemes in front of it. -/
theorem mem_spansFrom (before : List Char) (h : span ∈ spansFrom (byteLength before) ls) :
    ∃ front l rest, ls = front ++ l :: rest ∧ span.token = l.token ∧
      span.start = byteLength (before ++ front.flatMap Lexeme.text ++ l.gap) ∧
      span.stop = byteLength (before ++ front.flatMap Lexeme.text ++ l.gap ++ l.chars) := by
  induction ls generalizing before with
  | nil => cases h
  | cons l rest ih =>
    rcases List.mem_cons.mp h with rfl | h
    · exact ⟨[], l, rest, rfl, rfl, by simp [byteLength_append],
        by simp [byteLength_append, Nat.add_assoc]⟩
    · have hoffset : byteLength before + byteLength l.gap + byteLength l.chars =
          byteLength (before ++ l.text) := by
        simp only [Lexeme.text, byteLength_append, Nat.add_assoc]
      rw [hoffset] at h
      obtain ⟨front, l', rest', rfl, htoken, hstart, hstop⟩ := ih (before ++ l.text) h
      rw [List.append_assoc before] at hstart hstop
      exact ⟨l :: front, l', rest', rfl, htoken, hstart, hstop⟩

theorem le_start_of_mem_spansFrom {offset : Nat} (h : span ∈ spansFrom offset ls) :
    offset ≤ span.start := by
  induction ls generalizing offset with
  | nil => cases h
  | cons l rest ih =>
    rcases List.mem_cons.mp h with rfl | h
    · exact Nat.le_add_right ..
    · have hstop := ih h
      omega

theorem pairwise_spansFrom (offset : Nat) (ls : List Lexeme) :
    (spansFrom offset ls).Pairwise fun s t => s.stop ≤ t.start := by
  induction ls generalizing offset with
  | nil => exact .nil
  | cons l rest ih => exact .cons (fun _ h => le_start_of_mem_spansFrom h) (ih _)

/-- What no span covers is blank. -/
theorem isBlank_of_uncovered (offset : Nat) {tail before after : List Char} {c : Char}
    (proper : ∀ l ∈ ls, l.Proper) (blank : ∀ d ∈ tail, isBlank d = true)
    (text : ls.flatMap Lexeme.text ++ tail = before ++ c :: after)
    (uncovered : ∀ span ∈ spansFrom offset ls, ¬(span.start ≤ offset + byteLength before ∧
      offset + byteLength before < span.stop)) : isBlank c = true := by
  induction ls generalizing offset before with
  | nil => exact blank c (by rw [show tail = _ from text]; simp)
  | cons l rest ih =>
    obtain ⟨hl, hrest⟩ := List.forall_mem_cons.mp proper
    obtain ⟨hhere, hthere⟩ := List.forall_mem_cons.mp uncovered
    rw [List.flatMap_cons, Lexeme.text, List.append_assoc, List.append_assoc] at text
    rcases append_eq_append_cons text with ⟨mid, hgap⟩ | ⟨mid, rfl, behind⟩
    · exact hl.blank c (by simp [hgap])
    rcases append_eq_append_cons behind with ⟨mid', hchars⟩ | ⟨mid', rfl, hmore⟩
    · -- In the token itself the character would be covered.
      have hpos := byteLength_pos (List.cons_ne_nil c mid')
      simp only [hchars, byteLength_append] at hhere
      omega
    · refine ih (offset + byteLength l.gap + byteLength l.chars) hrest hmore fun span hspan => ?_
      have hspan' := hthere span hspan
      rwa [byteLength_append, byteLength_append, ← Nat.add_assoc, ← Nat.add_assoc] at hspan'

/-- A span is where a lexeme of the formula stands, with the rest of the formula around it. -/
theorem mem_tokenizeSpanned {formula : String} (h : span ∈ tokenizeSpanned formula) :
    ∃ front l rest, (scan formula.toList).1 = front ++ l :: rest ∧ span.token = l.token ∧
      span.start = byteLength (front.flatMap Lexeme.text ++ l.gap) ∧
      span.stop = byteLength (front.flatMap Lexeme.text ++ l.gap ++ l.chars) ∧
      formula.toList = front.flatMap Lexeme.text ++ l.gap ++ l.chars ++
        (rest.flatMap Lexeme.text ++ (scan formula.toList).2) := by
  obtain ⟨front, l, rest, hls, htoken, hstart, hstop⟩ := mem_spansFrom [] h
  refine ⟨front, l, rest, hls, htoken, hstart, hstop, ?_⟩
  conv_lhs => rw [← scan_append formula.toList, hls]
  simp [Lexeme.text]

end Spans

/-- The tokens of a formula stand in it as they are written, one behind the other with only blanks
between them and around them. -/
theorem tokenizeSpanned_lossless (formula : String) :
    (tokenizeSpanned formula).map Spanned.token = tokenize formula ∧
      (tokenizeSpanned formula).length ≤ formula.length ∧
      (∀ span ∈ tokenizeSpanned formula, span.start < span.stop ∧
        String.Pos.Raw.IsValid formula ⟨span.start⟩ ∧
        String.Pos.Raw.IsValid formula ⟨span.stop⟩ ∧
        String.Pos.Raw.extract formula ⟨span.start⟩ ⟨span.stop⟩ = span.token.display) ∧
      (tokenizeSpanned formula).Pairwise (fun s t => s.stop ≤ t.start) ∧
      ∀ before c after, formula.toList = before ++ c :: after →
        (∀ span ∈ tokenizeSpanned formula, ¬(span.start ≤ byteLength before ∧
          byteLength before < span.stop)) → isBlank c = true := by
  obtain ⟨proper, blank⟩ := scan_proper formula.toList
  have htokens := map_token_spansFrom 0 (scan formula.toList).1
  refine ⟨htokens, ?_, fun span hspan => ?_, pairwise_spansFrom 0 _,
    fun before c after htext uncovered => ?_⟩
  · have hlength := congrArg List.length htokens
    have happend := congrArg List.length (scan_append formula.toList)
    have hle := length_le_of_proper proper
    simp only [List.length_map, List.length_append, String.length_toList] at hlength happend
    rw [tokenizeSpanned]
    omega
  · obtain ⟨front, l, rest, hls, htoken, hstart, hstop, htext⟩ := mem_tokenizeSpanned hspan
    have hl : l.Proper := proper l (by simp [hls])
    have hpos := byteLength_pos hl.nonempty
    rw [hstart, hstop, htoken, Token.display, ← hl.written]
    refine ⟨?_, ?_, isValid_byteLength htext, extract_byteLength htext⟩
    · rw [byteLength_append _ l.chars]
      omega
    · rw [List.append_assoc _ l.chars] at htext
      exact isValid_byteLength htext
  · apply isBlank_of_uncovered 0 proper blank ((scan_append _).trans htext)
    rw [Nat.zero_add]
    exact uncovered

/-- A quote in a string literal stands in the formula twice. -/
theorem tokenizeSpanned_lossless_quote :
    ⟨.text "é\"", 1, 7⟩ ∈ tokenizeSpanned "-\"é\"\"\"" ∧
      String.Pos.Raw.extract "-\"é\"\"\"" ⟨1⟩ ⟨7⟩ = "\"é\"\"\"" := by
  have hmem : ⟨.text "é\"", 1, 7⟩ ∈ tokenizeSpanned "-\"é\"\"\"" := by
    have hspans : tokenizeSpanned "-\"é\"\"\"" = [⟨.operator "-", 0, 1⟩, ⟨.text "é\"", 1, 7⟩] := by
      decide +kernel
    simp [hspans]
  exact ⟨hmem, ((tokenizeSpanned_lossless _).2.2.1 _ hmem).2.2.2⟩

end LiveSheet
