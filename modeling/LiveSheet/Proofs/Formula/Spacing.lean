import Mathlib.Data.List.Forall2
import LiveSheet.Proofs.Formula.Spans

namespace LiveSheet

/-- The lexeme is the same token with other blanks before it. Where it has no blank the other one
had none. -/
structure Lexeme.Respaced (l m : Lexeme) : Prop where
  token : m.token = l.token
  chars : m.chars = l.chars
  blank : ∀ c ∈ m.gap, isBlank c = true
  kept : m.gap = [] → l.gap = []

theorem Lexeme.Proper.respaced {l : Lexeme} (h : l.Proper) : l.Respaced l :=
  ⟨rfl, rfl, h.blank, id⟩

section Respacing

variable {cs tail : List Char} {ms : List Lexeme}

theorem stopAlike_respaced (spaced : (scan cs).1.Forall₂ Lexeme.Respaced ms)
    (blank : ∀ c ∈ tail, isBlank c = true) (ends : (scan cs).2 = [] → tail = []) :
    StopAlike cs (ms.flatMap Lexeme.text ++ tail) := by
  rcases scan_cases cs with hblank | ⟨gap, c, rest, rfl, hgap, hc⟩
  · rw [scan_of_blank hblank] at spaced ends
    cases spaced
    cases cs with
    | nil => exact .inl (.inl (by simp [ends rfl]))
    | cons d ds =>
      refine .inr ⟨List.cons_ne_nil d ds, fun c hc => blank c ?_⟩
      exact List.mem_of_mem_head? hc
  · rw [scan_gap hgap hc] at spaced
    obtain ⟨m, ms, hm, -, rfl⟩ := List.forall₂_cons_left_iff.mp spaced
    rw [List.flatMap_cons, Lexeme.text, List.append_assoc]
    cases hgap' : m.gap with
    | nil =>
      obtain rfl : gap = [] := hm.kept hgap'
      have hchars := hm.chars.trans (leadOf_chars_eq_cons c rest)
      exact .inl (.inl (by simp [hchars]))
    | cons d more =>
      have hd : isBlank d = true := hm.blank d (by simp [hgap'])
      exact .inr ⟨by simp, by simpa [BeginsBlank] using hd⟩

/-- A text is read as the same tokens with other blanks between them. -/
theorem scan_respaced (spaced : (scan cs).1.Forall₂ Lexeme.Respaced ms)
    (blank : ∀ c ∈ tail, isBlank c = true) (ends : (scan cs).2 = [] → tail = []) :
    scan (ms.flatMap Lexeme.text ++ tail) = (ms, tail) := by
  induction cs using scan_induction generalizing ms with
  | blank cs hblank =>
    rw [scan_of_blank hblank] at spaced
    cases spaced
    exact scan_of_blank blank
  | lead gap c rest hgap hc ih =>
    rw [scan_gap hgap hc] at spaced ends
    obtain ⟨⟨gap', chars, token⟩, ms, hm, hms, rfl⟩ := List.forall₂_cons_left_iff.mp spaced
    obtain ⟨rfl, rfl, hblank, -⟩ := hm
    have hlead := leadOf_append_rest (stopAlike_respaced hms blank ends)
    have hchars := leadOf_chars_eq_cons c rest
    rw [List.flatMap_cons, Lexeme.text, List.append_assoc, List.append_assoc]
    dsimp only
    rw [hchars, List.cons_append, scan_gap hblank hc, hlead, ih hms ends, ← hchars]

/-- Blanks before a text make no difference to its tokens. -/
theorem tokens_of_gap {gap : List Char} (blank : ∀ c ∈ gap, isBlank c = true) (cs : List Char) :
    (scan (gap ++ cs)).1.map Lexeme.token = (scan cs).1.map Lexeme.token := by
  rcases scan_cases cs with hblank | ⟨gap', c, rest, rfl, hgap', hc⟩
  · have hall : ∀ c ∈ gap ++ cs, isBlank c = true := List.forall_mem_append.mpr ⟨blank, hblank⟩
    rw [scan_of_blank hall, scan_of_blank hblank]
  · have hall : ∀ c ∈ gap ++ gap', isBlank c = true := List.forall_mem_append.mpr ⟨blank, hgap'⟩
    rw [← List.append_assoc, scan_gap hall hc, scan_gap hgap' hc]
    rfl

end Respacing

section Joining

/-- The lexeme with one space before it. -/
def Lexeme.spaced (l : Lexeme) : Lexeme :=
  ⟨[' '], l.chars, l.token⟩

theorem Lexeme.respaced_spaced (l : Lexeme) : l.Respaced l.spaced :=
  ⟨rfl, rfl, by simp [spaced, show isBlank ' ' = true by decide], fun h => nomatch h⟩

theorem intercalate_cons_eq_append (sep xs : List Char) (yss : List (List Char)) :
    sep.intercalate (xs :: yss) = xs ++ yss.flatMap (sep ++ ·) := by
  induction yss generalizing xs with
  | nil => simp
  | cons ys yss ih => rw [List.intercalate_cons_cons, ih]; simp

theorem flatMap_text_spaced {ls : List Lexeme} (proper : ∀ l ∈ ls, l.Proper) :
    (ls.map Lexeme.spaced).flatMap Lexeme.text =
      (ls.map fun l => l.token.chars).flatMap ([' '] ++ ·) := by
  rw [List.flatMap_map, List.flatMap_map]
  apply List.flatMap_congr
  intro l hl
  simp [Lexeme.text, Lexeme.spaced, (proper l hl).written]

theorem tokenize_joined (formula : String) :
    tokenize (" ".intercalate ((tokenize formula).map Token.display)) = tokenize formula := by
  obtain ⟨proper, -⟩ := scan_proper formula.toList
  have hjoined : (" ".intercalate ((tokenize formula).map Token.display)).toList =
      [' '].intercalate ((scan formula.toList).1.map fun l => l.token.chars) := by
    simp [String.toList_intercalate, tokenize, Token.display, Function.comp_def]
  rw [tokenize, hjoined, tokenize]
  cases hls : (scan formula.toList).1 with
  | nil =>
    have hnil : scan [] = ([], []) := scan_of_blank (by simp)
    simp [hnil]
  | cons l rest =>
    rw [hls] at proper
    obtain ⟨hl, hrest⟩ := List.forall_mem_cons.mp proper
    have hms : (scan formula.toList).1.Forall₂ Lexeme.Respaced (l :: rest.map Lexeme.spaced) := by
      rw [hls]
      refine .cons hl.respaced (List.forall₂_map_right_iff.mpr (List.forall₂_same.mpr ?_))
      exact fun m _ => m.respaced_spaced
    have hscan := scan_respaced hms (List.forall_mem_nil _) fun _ => rfl
    rw [List.append_nil, List.flatMap_cons, flatMap_text_spaced hrest, Lexeme.text,
      List.append_assoc, hl.written, ← intercalate_cons_eq_append] at hscan
    rw [List.map_cons, ← tokens_of_gap hl.blank, hscan]
    simp [Lexeme.spaced, Function.comp_def]

end Joining

section Insertion

/-- A text that is divided inside no token is divided in the gap before a token. -/
theorem divided_of_apart {ls : List Lexeme} (offset : Nat) {tail before after : List Char}
    (proper : ∀ l ∈ ls, l.Proper) (text : ls.flatMap Lexeme.text ++ tail = before ++ after)
    (behind : ∃ span ∈ spansFrom offset ls, offset + byteLength before ≤ span.start)
    (apart : ∀ span ∈ spansFrom offset ls, offset + byteLength before ≤ span.start ∨
      span.stop ≤ offset + byteLength before) :
    ∃ front l rest gap mid, ls = front ++ l :: rest ∧ l.gap = gap ++ mid ∧
      before = front.flatMap Lexeme.text ++ gap ∧
      after = mid ++ l.chars ++ (rest.flatMap Lexeme.text ++ tail) := by
  induction ls generalizing offset before with
  | nil => obtain ⟨_, h, -⟩ := behind; cases h
  | cons l rest ih =>
    rw [List.flatMap_cons, List.append_assoc] at text
    obtain ⟨hl, hrest⟩ := List.forall_mem_cons.mp proper
    obtain ⟨hhere, hthere⟩ := List.forall_mem_cons.mp apart
    dsimp only at hhere
    rcases hhere with hle | hle
    · rw [Lexeme.text, List.append_assoc] at text
      obtain ⟨mid, hgap, hafter⟩ := exists_append_of_byteLength_le text (by omega)
      exact ⟨[], l, rest, before, mid, rfl, hgap, rfl, by rw [hafter, List.append_assoc]⟩
    · have hpos := byteLength_pos hl.nonempty
      have hsize : byteLength l.text = byteLength l.gap + byteLength l.chars :=
        byteLength_append l.gap l.chars
      obtain ⟨mid, rfl, hmore⟩ := exists_append_of_byteLength_le text.symm (by omega)
      have hoffset : offset + byteLength (l.text ++ mid) =
          offset + byteLength l.gap + byteLength l.chars + byteLength mid := by
        rw [byteLength_append, hsize, Nat.add_assoc, Nat.add_assoc, Nat.add_assoc]
      rw [hoffset] at hle hthere behind
      obtain ⟨span, hspan, hbehind⟩ := behind
      rcases List.mem_cons.mp hspan with rfl | hspan
      · -- The token behind the division is not the one in front of it.
        dsimp only at hbehind
        omega
      · obtain ⟨front, l', rest', gap, mid', rfl, hgap, rfl, hafter⟩ :=
          ih _ hrest hmore ⟨span, hspan, hbehind⟩ hthere
        exact ⟨l :: front, l', rest', gap, mid', rfl, hgap, by simp, hafter⟩

theorem tokenize_insert {formula before after blanks : String} (text : formula = before ++ after)
    (blank : ∀ c ∈ blanks.toList, isBlank c = true)
    (behind : ∃ span ∈ tokenizeSpanned formula, before.utf8ByteSize ≤ span.start)
    (apart : ∀ span ∈ tokenizeSpanned formula, before.utf8ByteSize ≤ span.start ∨
      span.stop ≤ before.utf8ByteSize) :
    tokenize (before ++ blanks ++ after) = tokenize formula := by
  have hsize : before.utf8ByteSize = 0 + byteLength before.toList := by
    rw [byteLength_eq, String.utf8Len_toList, Nat.zero_add]
  rw [hsize] at behind apart
  obtain ⟨proper, htail⟩ := scan_proper formula.toList
  obtain ⟨front, l, rest, gap, mid, hls, hgap, hbefore, hafter⟩ :=
    divided_of_apart 0 proper ((scan_append _).trans (by rw [text, String.toList_append]))
      behind apart
  rw [hls] at proper
  have hl : l.Proper := proper l (by simp)
  have hms : (scan formula.toList).1.Forall₂ Lexeme.Respaced
      (front ++ ⟨gap ++ blanks.toList ++ mid, l.chars, l.token⟩ :: rest) := by
    have hlr : l.Respaced ⟨gap ++ blanks.toList ++ mid, l.chars, l.token⟩ := by
      have hblank := hl.blank
      rw [hgap, List.forall_mem_append] at hblank
      refine ⟨rfl, rfl, ?_, fun hnil => ?_⟩
      · exact List.forall_mem_append.mpr ⟨List.forall_mem_append.mpr ⟨hblank.1, blank⟩, hblank.2⟩
      · simp only [List.append_eq_nil_iff] at hnil
        rw [hgap, hnil.1.1, hnil.2, List.append_nil]
    have hsame : ∀ {ms : List Lexeme}, (∀ m ∈ ms, m.Proper) → ms.Forall₂ Lexeme.Respaced ms :=
      fun h => List.forall₂_same.mpr fun m hm => (h m hm).respaced
    obtain ⟨hfront, hrest⟩ := List.forall_mem_append.mp proper
    rw [hls]
    exact List.rel_append (hsame hfront) (.cons hlr (hsame (List.forall_mem_cons.mp hrest).2))
  have hscan := scan_respaced hms htail id
  have hinserted : (before ++ blanks ++ after).toList =
      (front ++ ⟨gap ++ blanks.toList ++ mid, l.chars, l.token⟩ :: rest).flatMap Lexeme.text ++
        (scan formula.toList).2 := by
    simp [hbefore, hafter, Lexeme.text]
  rw [tokenize, hinserted, hscan, tokenize, hls]
  simp

end Insertion

/-- A string literal is read from what it is written as. -/
theorem tokenize_display_text (content : String) :
    tokenize (Token.text content).display = [.text content] := by
  have hnil : scan [] = ([], []) := scan_of_blank (by simp)
  have hlead : leadOf '"' (doubleQuotes content.toList ++ ['"']) =
      ⟨.text content, (Token.text content).chars, []⟩ := by
    have hread : readText? (doubleQuotes content.toList ++ ['"']) = some (content.toList, []) :=
      readText?_doubleQuotes (by simp)
    simp [leadOf, leadText, hread]
  have hscan : scan ([] ++ (Token.text content).chars) =
      ([⟨[], (Token.text content).chars, .text content⟩], []) := by
    rw [Token.chars, List.cons_append, scan_gap (by simp) (by decide), hlead]
    dsimp only
    rw [hnil]
    rfl
  rw [tokenize, Token.display, String.toList_ofList, ← List.nil_append (Token.chars _), hscan]
  rfl

/-- Blanks between tokens make no difference, and tokens are read from what they are written as. A
blank behind the last token may belong to a string literal that is left open. -/
theorem tokenize_spacing (formula : String) :
    tokenize (" ".intercalate ((tokenize formula).map Token.display)) = tokenize formula ∧
      (∀ before after blanks : String, formula = before ++ after →
        (∀ c ∈ blanks.toList, isBlank c = true) →
        (∃ span ∈ tokenizeSpanned formula, before.utf8ByteSize ≤ span.start) →
        (∀ span ∈ tokenizeSpanned formula, before.utf8ByteSize ≤ span.start ∨
          span.stop ≤ before.utf8ByteSize) →
        tokenize (before ++ blanks ++ after) = tokenize formula) ∧
      ∀ content, tokenize (Token.text content).display = [.text content] := by
  refine ⟨tokenize_joined formula, fun before after blanks htext blank behind apart => ?_,
    tokenize_display_text⟩
  exact tokenize_insert htext blank behind apart

/-- A blank may stand before the sign of a number. -/
theorem tokenize_spacing_sign :
    tokenizeSpanned "a<-1e-3" = [⟨.atom "a", 0, 1⟩, ⟨.operator "<", 1, 2⟩, ⟨.operator "-", 2, 3⟩,
        ⟨.atom "1e-3", 3, 7⟩] ∧
      tokenize ("a<" ++ " " ++ "-1e-3") = tokenize "a<-1e-3" := by
  have hspans : tokenizeSpanned "a<-1e-3" = [⟨.atom "a", 0, 1⟩, ⟨.operator "<", 1, 2⟩,
      ⟨.operator "-", 2, 3⟩, ⟨.atom "1e-3", 3, 7⟩] := by decide +kernel
  have hblank : ∀ c ∈ " ".toList, isBlank c = true := by
    intro c hc
    obtain rfl := List.mem_singleton.mp hc
    decide
  refine ⟨hspans, (tokenize_spacing "a<-1e-3").2.1 "a<" "-1e-3" " " rfl hblank ?_ ?_⟩
  · rw [hspans]
    decide
  · rw [hspans]
    decide

end LiveSheet
