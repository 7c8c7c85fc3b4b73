import Mathlib.Data.List.TakeWhile
import LiveSheet.Proofs.Formula.Naming

namespace LiveSheet

/-- The texts are both empty, or begin with the same character or both with an atom. -/
def BeginAlike (xs ys : List Char) : Prop :=
  xs.head? = ys.head? ∨
    ∃ a b, xs.head? = some a ∧ ys.head? = some b ∧ isBoundary a = false ∧ isBoundary b = false

/-- The text is empty or begins with a blank. -/
def BeginsBlank (cs : List Char) : Prop :=
  ∀ c, cs.head? = some c → isBlank c = true

/-- A token stops before the one text where it stops before the other: they begin alike, or the
other one begins with a blank. At the end of a text a blank may matter, as a string literal may be
open there. -/
def StopAlike (xs ys : List Char) : Prop :=
  BeginAlike xs ys ∨ xs ≠ [] ∧ BeginsBlank ys

/-- An atom that is no number cannot go on into the text. -/
def EndsAtom (cs : List Char) : Prop :=
  ∀ c, cs.head? = some c → isBoundary c = true

theorem BeginAlike.nil {ys : List Char} (h : BeginAlike [] ys) : ys = [] := by
  rcases h with h | ⟨a, -, h, -⟩
  · exact List.head?_eq_none_iff.mp h.symm
  · cases h

/-- A text that ends an atom begins with the same character as what begins like it. -/
theorem BeginAlike.head?_eq {xs ys : List Char} (h : BeginAlike xs ys) (ends : EndsAtom xs) :
    xs.head? = ys.head? := by
  rcases h with h | ⟨a, -, ha, -, hs, -⟩
  · exact h
  · have hb := ends a ha
    rw [hs] at hb
    cases hb

theorem readAtom_endsAtom (numeric : Bool) (last : Char) (cs : List Char) :
    EndsAtom (readAtom numeric last cs).2 := by
  induction cs generalizing last with
  | nil => exact fun _ h => nomatch h
  | cons c rest ih =>
    simp only [readAtom]
    split
    next => exact ih c
    next h =>
      intro d hd
      obtain rfl : c = d := by simpa using hd
      cases hb : isBoundary c with
      | true => rfl
      | false => simp [hb] at h

theorem isBoundary_of_isBlank {c : Char} (h : isBlank c = true) : isBoundary c = true := by
  simp [isBoundary, h]

theorem readAtom_of_beginsBlank {numeric : Bool} {last : Char} {cs : List Char}
    (h : BeginsBlank cs) : readAtom numeric last cs = ([], cs) := by
  cases cs with
  | nil => rfl
  | cons c rest =>
    have hc := h c rfl
    have hplus : c ≠ '+' := by rintro rfl; revert hc; decide
    have hminus : c ≠ '-' := by rintro rfl; revert hc; decide
    simp [readAtom, isBoundary_of_isBlank hc, hplus, hminus]

theorem readAtom_append_rest {numeric : Bool} {last : Char} {cs after : List Char}
    (h : (readAtom numeric last cs).2.head? = after.head? ∨ BeginsBlank after) :
    readAtom numeric last ((readAtom numeric last cs).1 ++ after) =
      ((readAtom numeric last cs).1, after) := by
  induction cs generalizing last with
  | nil =>
    rcases h with h | h
    · have hnil := List.head?_eq_none_iff.mp h.symm
      rw [hnil]
      rfl
    · exact readAtom_of_beginsBlank h
  | cons c rest ih =>
    simp only [readAtom] at h ⊢
    split at h
    next hc =>
      rw [if_pos hc]
      simp only [List.cons_append, readAtom, if_pos hc, ih h]
    next hc =>
      rw [if_neg hc]
      rcases h with h | h
      · obtain ⟨tail, rfl⟩ := List.head?_eq_some_iff.mp h.symm
        simp only [List.nil_append, readAtom, if_neg hc]
      · exact readAtom_of_beginsBlank h

theorem readAtom_name {last : Char} {cs after : List Char}
    (name : ∀ c ∈ cs, isBoundary c = false) (ends : EndsAtom after) :
    readAtom false last (cs ++ after) = (cs, after) := by
  induction cs generalizing last with
  | nil =>
    cases after with
    | nil => rfl
    | cons d rest => simp [readAtom, ends d rfl]
  | cons c rest ih =>
    have hc := name c (by simp)
    simp [readAtom, hc, ih fun d hd => name d (by simp [hd])]

theorem readText?_head? {cs content after : List Char}
    (h : readText? cs = some (content, after)) : after.head? ≠ some '"' := by
  fun_induction readText? cs generalizing content with
  | case1 => cases h
  | case2 rest ih =>
    obtain ⟨⟨content', after'⟩, h, he⟩ := Option.map_eq_some_iff.mp h
    cases he
    exact ih h
  | case3 rest hrest =>
    cases h
    intro hq
    obtain ⟨tail, rfl⟩ := List.head?_eq_some_iff.mp hq
    exact hrest tail rfl
  | case4 c rest _ _ ih =>
    obtain ⟨⟨content', after'⟩, h, he⟩ := Option.map_eq_some_iff.mp h
    cases he
    exact ih h

theorem readText?_doubleQuotes {content after : List Char} (h : after.head? ≠ some '"') :
    readText? (doubleQuotes content ++ '"' :: after) = some (content, after) := by
  induction content with
  | nil =>
    simp only [doubleQuotes, List.nil_append]
    cases after with
    | nil => rfl
    | cons d rest =>
      have hd : d ≠ '"' := by simpa using h
      simp [readText?, hd]
  | cons c rest ih =>
    by_cases hc : c = '"'
    · simp [doubleQuotes, hc, readText?, ih]
    · simp [doubleQuotes, hc, readText?, ih]

theorem isOperatorPair_of_not_boundary {c d : Char} (h : isBoundary d = false) :
    isOperatorPair c d = false := by
  apply Bool.eq_false_iff.mpr
  intro hp
  have hb : isBoundary d = true := by
    unfold isOperatorPair at hp
    split at hp <;> first | decide | cases hp
  rw [h] at hb
  cases hb

theorem isOperatorPair_of_isBlank {c d : Char} (h : isBlank d = true) :
    isOperatorPair c d = false := by
  apply Bool.eq_false_iff.mpr
  intro hp
  unfold isOperatorPair at hp
  split at hp
  case h_6 => cases hp
  all_goals exact absurd h (by decide)

theorem readOperator_append_rest {c : Char} {cs after : List Char}
    (h : StopAlike (readOperator c cs).2 after) :
    readOperator c ((readOperator c cs).1.tail ++ after) = ((readOperator c cs).1, after) := by
  have hnone : BeginsBlank after → readOperator c after = ([c], after) := by
    intro h
    cases after with
    | nil => rfl
    | cons d rest => simp [readOperator, isOperatorPair_of_isBlank (h d rfl)]
  cases cs with
  | nil =>
    rcases h with h | ⟨-, h⟩
    · rw [h.nil]
      rfl
    · exact hnone h
  | cons d rest =>
    simp only [readOperator] at h ⊢
    split at h
    next hp => simp [hp]
    next hp =>
      rw [if_neg hp]
      rcases h with h | ⟨-, h⟩
      · cases after with
        | nil => rfl
        | cons d' rest' =>
          have hp' : isOperatorPair c d' = false := by
            rcases h with h | ⟨a, b, ha, hb, -, hs⟩
            · obtain rfl : d = d' := by simpa using h
              simpa using hp
            · obtain rfl : d' = b := by simpa using hb
              exact isOperatorPair_of_not_boundary hs
          simp [hp']
      · exact hnone h

theorem leadOf_of_not_boundary {c : Char} (h : isBoundary c = false) (rest : List Char) :
    leadOf c rest = ⟨.atom (String.ofList (c :: (readAtom (startsNumber c) c rest).1)),
      c :: (readAtom (startsNumber c) c rest).1, (readAtom (startsNumber c) c rest).2⟩ := by
  have hop : isOperatorChar c = false := by
    simp only [isBoundary, Bool.or_eq_false_iff] at h
    exact h.1.2
  unfold leadOf
  split
  case h_7 => rw [if_neg (by simp [hop])]
  all_goals exact absurd h (by decide)

/-- The first token is read in the same way before any text before which it stops. -/
theorem leadOf_append_rest {c : Char} {rest after : List Char}
    (h : StopAlike (leadOf c rest).rest after) :
    leadOf c ((leadOf c rest).chars.tail ++ after) =
      ⟨(leadOf c rest).token, (leadOf c rest).chars, after⟩ := by
  unfold leadOf at h ⊢
  split at h
  case h_6 =>
    unfold leadText at h ⊢
    cases hr : readText? rest with
    | none =>
      rw [hr] at h
      rcases h with h | ⟨hne, -⟩
      · rw [h.nil]
        simp [hr]
      · exact absurd rfl hne
    | some read =>
      obtain ⟨content, tail⟩ := read
      rw [hr] at h
      have hq : after.head? ≠ some '"' := by
        intro hq
        rcases h with (h | ⟨-, b, -, hb, -, hs⟩) | ⟨-, h⟩
        · exact readText?_head? hr (h.trans hq)
        · obtain rfl : '"' = b := by simpa using hq.symm.trans hb
          cases hs
        · cases h _ hq
      simp [Token.chars, readText?_doubleQuotes hq]
  case h_7 =>
    by_cases hop : isOperatorChar c = true
    · rw [if_pos hop] at h
      simp [hop, readOperator_append_rest h]
    · rw [if_neg hop] at h
      have hh := h.imp (fun h => h.head?_eq (readAtom_endsAtom _ c rest)) And.right
      simp [hop, readAtom_append_rest hh]
  all_goals simp

theorem takeWhile_append_of_gap {gap : List Char} (cs : List Char)
    (blank : ∀ c ∈ gap, isBlank c = true)
    (ends : ∀ c, cs.head? = some c → isBlank c = false) :
    (gap ++ cs).takeWhile isBlank = gap ∧ (gap ++ cs).dropWhile isBlank = cs := by
  rw [List.takeWhile_append_of_pos blank, List.dropWhile_append_of_pos blank]
  cases cs with
  | nil => simp
  | cons c rest =>
    have hc := ends c rfl
    simp [hc]

theorem scan_of_blank {cs : List Char} (blank : ∀ c ∈ cs, isBlank c = true) :
    scan cs = ([], cs) := by
  have htake : cs.takeWhile isBlank = cs := List.takeWhile_eq_self_iff.mpr blank
  have hdrop : cs.dropWhile isBlank = [] := List.dropWhile_eq_nil_iff.mpr blank
  rw [scan]
  split
  next => rw [htake]
  next h => rw [hdrop] at h; cases h

theorem scan_gap {gap rest : List Char} {c : Char} (blank : ∀ c ∈ gap, isBlank c = true)
    (hc : isBlank c = false) : scan (gap ++ c :: rest) =
      (⟨gap, (leadOf c rest).chars, (leadOf c rest).token⟩ :: (scan (leadOf c rest).rest).1,
        (scan (leadOf c rest).rest).2) := by
  obtain ⟨htake, hdrop⟩ := takeWhile_append_of_gap (c :: rest) blank (by simp [hc])
  rw [scan]
  split
  next h => rw [hdrop] at h; cases h
  next d rest' h =>
    rw [hdrop] at h
    cases h
    rw [htake]

/-- A text is blank, or has a gap, then a token and more text. -/
theorem scan_cases (cs : List Char) : (∀ c ∈ cs, isBlank c = true) ∨
    ∃ gap c rest, cs = gap ++ c :: rest ∧ (∀ d ∈ gap, isBlank d = true) ∧ isBlank c = false := by
  cases hd : cs.dropWhile isBlank with
  | nil => exact .inl (List.dropWhile_eq_nil_iff.mp hd)
  | cons c rest =>
    refine .inr ⟨cs.takeWhile isBlank, c, rest, ?_, fun d hm => ?_, ?_⟩
    · rw [← hd, List.takeWhile_append_dropWhile]
    · exact (List.mem_takeWhile_imp hm)
    · have hh := List.head?_dropWhile_not isBlank cs
      rw [hd] at hh
      simpa using hh

/-- What holds of blank texts, and of a text with a token in front if it holds of the text behind
that token, holds of all texts. -/
theorem scan_induction {Holds : List Char → Prop}
    (blank : ∀ cs, (∀ c ∈ cs, isBlank c = true) → Holds cs)
    (lead : ∀ gap c rest, (∀ d ∈ gap, isBlank d = true) → isBlank c = false →
      Holds (leadOf c rest).rest → Holds (gap ++ c :: rest)) (cs : List Char) : Holds cs := by
  rcases scan_cases cs with hblank | ⟨gap, c, rest, hcs, hgap, hc⟩
  · exact blank cs hblank
  · rw [hcs]
    exact lead gap c rest hgap hc (scan_induction blank lead (leadOf c rest).rest)
termination_by cs.length
decreasing_by
  have hl := leadOf_rest_length c rest
  rw [hcs, List.length_append, List.length_cons]
  omega

def Lexeme.text (l : Lexeme) : List Char :=
  l.gap ++ l.chars

/-- Scanning loses no character. -/
theorem scan_append (cs : List Char) : (scan cs).1.flatMap Lexeme.text ++ (scan cs).2 = cs := by
  induction cs using scan_induction with
  | blank cs blank => simp [scan_of_blank blank]
  | lead gap c rest blank hc ih =>
    rw [scan_gap blank hc, List.flatMap_cons, List.append_assoc, ih, Lexeme.text,
      List.append_assoc, leadOf_append]

/-- A token is read from what it is written as. -/
theorem leadOf_chars (c : Char) (rest : List Char) :
    (leadOf c rest).chars = (leadOf c rest).token.chars := by
  unfold leadOf
  split
  case h_6 =>
    unfold leadText
    split
    next => rfl
    next => simp [Token.chars]
  case h_7 => split <;> simp [Token.chars]
  all_goals rfl

theorem chars_of_atom {c : Char} {rest : List Char} {s : String}
    (h : (leadOf c rest).token = .atom s) : (leadOf c rest).chars = s.toList := by
  rw [leadOf_chars, h]
  rfl

section Renaming

variable (old new : String)

/-- The lexemes with `new` in place of each reference to `old`. -/
def renamed : List Lexeme → List Lexeme
  | [] => []
  | l :: rest =>
    (if refersTo old l rest then ⟨l.gap, new.toList, .atom new⟩ else l) :: renamed rest

/-- The text in which each reference to `old` is written as `new`. -/
def renamedText (cs : List Char) : List Char :=
  substitute old new (scan cs).1 ++ (scan cs).2

variable {old new}

theorem renamedText_of_blank {cs : List Char} (blank : ∀ c ∈ cs, isBlank c = true) :
    renamedText old new cs = cs := by
  simp [renamedText, scan_of_blank blank, substitute]

theorem renamedText_gap {gap rest : List Char} {c : Char} (blank : ∀ c ∈ gap, isBlank c = true)
    (hc : isBlank c = false) : renamedText old new (gap ++ c :: rest) =
      gap ++ ((if refersTo old ⟨gap, (leadOf c rest).chars, (leadOf c rest).token⟩
        (scan (leadOf c rest).rest).1 then new.toList else (leadOf c rest).chars) ++
        renamedText old new (leadOf c rest).rest) := by
  simp [renamedText, scan_gap blank hc, substitute]

theorem leadOf_chars_eq_cons (c : Char) (rest : List Char) :
    (leadOf c rest).chars = c :: (leadOf c rest).chars.tail := by
  have happend := leadOf_append c rest
  cases hchars : (leadOf c rest).chars with
  | nil => exact absurd hchars (leadOf_chars_ne_nil c rest)
  | cons d tail =>
    rw [hchars] at happend
    obtain ⟨rfl, -⟩ := List.cons.inj happend
    rfl

/-- The name begins as an atom does that is no string literal. -/
def BeginsAtom (name : String) : Prop :=
  ∃ c rest, name.toList = c :: rest ∧ isBoundary c = false

theorem beginsAtom_of_isValidName {name : String} (h : isValidName name = true) :
    BeginsAtom name := by
  obtain ⟨c, rest, hlist, hstart, -, -⟩ := toList_of_isValidName h
  exact ⟨c, rest, hlist, isBoundary_of_isNameStart hstart⟩

/-- A name in front of what ends an atom is one token. -/
theorem scan_of_isValidName {name : String} {after : List Char} (h : isValidName name = true)
    (ends : EndsAtom after) : scan (name.toList ++ after) =
      (⟨[], name.toList, .atom name⟩ :: (scan after).1, (scan after).2) := by
  obtain ⟨c, rest, hlist, hstart, hname, -⟩ := toList_of_isValidName h
  have hboundary := isBoundary_of_isNameStart hstart
  have hblank : isBlank c = false := by
    simp only [isBoundary, Bool.or_eq_false_iff] at hboundary
    exact hboundary.1.1
  have hread : readAtom false c (rest ++ after) = (rest, after) := readAtom_name hname ends
  have hlead : leadOf c (rest ++ after) = ⟨.atom name, name.toList, after⟩ := by
    rw [leadOf_of_not_boundary hboundary, startsNumber_of_isNameStart hstart, hread, ← hlist,
      String.ofList_toList]
  have hscan := @scan_gap [] (rest ++ after) c (by simp) hblank
  rw [hlead, List.nil_append] at hscan
  rw [hlist, List.cons_append, hscan, hlist]

theorem tokenize_of_isValidName {name : String} (h : isValidName name = true) :
    tokenize name = [.atom name] := by
  have hends : EndsAtom [] := fun _ hd => (by cases hd)
  have hscan := scan_of_isValidName h hends
  have hnil : scan [] = ([], []) := scan_of_blank (by simp)
  rw [List.append_nil, hnil] at hscan
  rw [tokenize, hscan]
  rfl

/-- A lexeme that refers to a name is that name, and what is behind it ends an atom. -/
theorem leadOf_of_refersTo (hold : BeginsAtom old) {gap rest : List Char} {c : Char}
    {after : List Lexeme}
    (h : refersTo old ⟨gap, (leadOf c rest).chars, (leadOf c rest).token⟩ after = true) :
    isBoundary c = false ∧ EndsAtom (leadOf c rest).rest := by
  have htoken : (leadOf c rest).token = .atom old := by
    simp only [refersTo, Bool.and_eq_true, decide_eq_true_eq] at h
    exact h.1
  obtain ⟨d, tail, hlist, hstart⟩ := hold
  have hchars := chars_of_atom htoken
  rw [leadOf_chars_eq_cons, hlist] at hchars
  obtain ⟨rfl, -⟩ := List.cons.inj hchars
  refine ⟨hstart, ?_⟩
  rw [leadOf_of_not_boundary hstart]
  exact readAtom_endsAtom _ c rest

theorem beginAlike_renamedText (hold : BeginsAtom old) (hnew : isValidName new = true)
    (cs : List Char) : BeginAlike cs (renamedText old new cs) := by
  rcases scan_cases cs with blank | ⟨gap, c, rest, rfl, blank, hc⟩
  · rw [renamedText_of_blank blank]
    exact .inl rfl
  · rw [renamedText_gap blank hc]
    cases gap with
    | cons d gap => exact .inl rfl
    | nil =>
      split
      next h =>
        obtain ⟨hstart, -⟩ := leadOf_of_refersTo hold h
        obtain ⟨d, tail, hlist, hstart'⟩ := beginsAtom_of_isValidName hnew
        exact .inr ⟨c, d, rfl, by simp [hlist], hstart, hstart'⟩
      next =>
        rw [leadOf_chars_eq_cons]
        exact .inl rfl

/-- The renamed text is read as the renamed lexemes. -/
theorem scan_renamedText (hold : BeginsAtom old) (hnew : isValidName new = true)
    (cs : List Char) :
    scan (renamedText old new cs) = (renamed old new (scan cs).1, (scan cs).2) := by
  induction cs using scan_induction with
  | blank cs blank =>
    rw [renamedText_of_blank blank, scan_of_blank blank]
    rfl
  | lead gap c rest blank hc ih =>
    have halike := beginAlike_renamedText hold hnew (leadOf c rest).rest
    rw [renamedText_gap blank hc, scan_gap blank hc, renamed]
    split
    next h =>
      obtain ⟨-, hends⟩ := leadOf_of_refersTo hold h
      obtain ⟨d, tail, hlist, hstart, hname, -⟩ := toList_of_isValidName hnew
      have hd : isBlank d = false := by
        have hb := isBoundary_of_isNameStart hstart
        simp only [isBoundary, Bool.or_eq_false_iff] at hb
        exact hb.1.1
      have hends' : EndsAtom (renamedText old new (leadOf c rest).rest) := by
        intro x hx
        exact hends x ((halike.head?_eq hends).trans hx)
      have hlead : leadOf d (tail ++ renamedText old new (leadOf c rest).rest) =
          ⟨.atom new, new.toList, renamedText old new (leadOf c rest).rest⟩ := by
        rw [leadOf_of_not_boundary (isBoundary_of_isNameStart hstart),
          startsNumber_of_isNameStart hstart, readAtom_name hname hends', hlist]
        rw [← hlist, String.ofList_toList]
      rw [hlist, List.cons_append, scan_gap blank hd, hlead, ih]
      simp [hlist]
    next =>
      have hlead := leadOf_append_rest (.inl halike)
      have hchars := leadOf_chars_eq_cons c rest
      rw [hchars, List.cons_append, scan_gap blank hc, hlead, ih, ← hchars]

end Renaming

end LiveSheet
