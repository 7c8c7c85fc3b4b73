import LiveSheet.Proofs.Formula.Descent
import LiveSheet.Proofs.Formula.Shunting

namespace LiveSheet

open Descent

/-- Whether a term of this level can begin with the token. -/
def Token.Starts (level : Nat) : Token → Prop
  | .atom _ | .text _ | .openParen => level ≤ closedLevel
  | .operator _ => level ≤ unaryLevel
  | _ => False

theorem Token.Starts.mono {t : Token} {level level' : Nat}
    (h : t.Starts level') (hle : level ≤ level') : t.Starts level := by
  cases t with
  | atom s => exact Nat.le_trans hle h
  | text s => exact Nat.le_trans hle h
  | openParen => exact Nat.le_trans hle h
  | operator symbol => exact Nat.le_trans hle h
  | _ => exact h

theorem Token.Starts.level_le {t : Token} {level : Nat} (h : t.Starts level) :
    level ≤ closedLevel := by
  cases t with
  | atom s => exact h
  | text s => exact h
  | openParen => exact h
  | operator symbol => exact Nat.le_trans h (by decide)
  | _ => exact h.elim

theorem Token.Starts.ne_closeParen {t : Token} {level : Nat} (h : t.Starts level) :
    t ≠ .closeParen := by
  rintro rfl
  exact h

theorem Token.Starts.ne_operator {t : Token} (h : t.Starts closedLevel) (symbol : String) :
    t ≠ .operator symbol := by
  rintro rfl
  have hle : closedLevel ≤ unaryLevel := h
  exact absurd hle (by decide)

/-- The first token of a term, at any rule that could have read it. -/
theorem Reads.starts {ts : List Token} {p : Phrase} (h : Reads ts p) :
    ∀ level t, p = .term level t → ∃ first rest, ts = first :: rest ∧ first.Starts level := by
  induction h with
  | atom s =>
    rintro level t ⟨⟩
    exact ⟨_, _, rfl, Nat.le_refl _⟩
  | text s =>
    rintro level t ⟨⟩
    exact ⟨_, _, rfl, Nat.le_refl _⟩
  | group =>
    rintro level t ⟨⟩
    exact ⟨_, _, rfl, Nat.le_refl _⟩
  | call =>
    rintro level t ⟨⟩
    exact ⟨_, _, rfl, Nat.le_refl _⟩
  | access _ _ _ table =>
    rintro level t ⟨⟩
    obtain ⟨first, rest, rfl, hfirst⟩ := table _ _ rfl
    exact ⟨_, _, rfl, hfirst⟩
  | unary =>
    rintro level t ⟨⟩
    exact ⟨_, _, rfl, Nat.le_refl _⟩
  | binary op _ _ left =>
    rintro level t ⟨⟩
    obtain ⟨first, rest, rfl, hfirst⟩ := left _ _ rfl
    exact ⟨_, _, rfl, hfirst⟩
  | loosen _ tighter =>
    rintro level t ⟨⟩
    obtain ⟨first, rest, rfl, hfirst⟩ := tighter _ _ rfl
    exact ⟨_, _, rfl, hfirst.mono (Nat.le_succ _)⟩
  | noArgs => rintro level t ⟨⟩
  | lastArg => rintro level t ⟨⟩
  | moreArgs => rintro level t ⟨⟩

theorem Reads.ne_nil {ts : List Token} {level : Nat} {t : Term}
    (h : Reads ts (.term level t)) : ts ≠ [] := by
  obtain ⟨first, rest, rfl, -⟩ := h.starts level t rfl
  exact List.cons_ne_nil _ _

theorem length_lt_append {ts : List Token} (h : ts ≠ []) (rest : List Token) :
    rest.length < (ts ++ rest).length := by
  have hpos := List.length_pos_iff.mpr h
  rw [List.length_append]
  omega

/-- How the recursive parser gets through the tokens of a phrase, whatever stands behind it. -/
def Phrase.Parses (ts : List Token) : Phrase → Prop
  | .term level t => ∀ rest, Ends (level + 1) rest → term? level (ts ++ rest) = more? level t rest
  | .args [] => ts = []
  | .args (t :: as) => (∃ first more, ts = first :: more ∧ first ≠ .closeParen) ∧
    ∀ rest, args? (ts ++ .closeParen :: rest) = some (t :: as, rest)

namespace Phrase

variable {ts us rs cs : List Token} {t u row col : Term} {as : List Term} {level : Nat}

/-- Before tokens that end it, a term is read as far as it gets. -/
theorem Parses.whole (h : (term level t).Parses ts) {rest : List Token} (hends : Ends level rest) :
    term? level (ts ++ rest) = some (t, rest) := by
  rw [h rest (hends.mono (Nat.le_succ _)), more?_stop hends]

theorem Parses.upTo (h : (term level t).Parses ts) (next : Token) (rest : List Token)
    (hparen : next ≠ .openParen) (hbracket : next ≠ .openBracket)
    (hop : ∀ symbol, next ≠ .operator symbol) :
    term? level (ts ++ next :: rest) = some (t, next :: rest) :=
  h.whole (.cons hparen hbracket hop)

theorem parses_atom (s : String) : (term closedLevel (.atom s)).Parses [.atom s] := by
  intro rest hends
  apply term?_atom
  intro hnext
  exact (hends _ hnext).1 rfl

theorem parses_text (s : String) : (term closedLevel (.text s)).Parses [.text s] :=
  fun _ _ => term?_text s

theorem Parses.group (h : (term 0 t).Parses ts) (hne : ts ≠ []) :
    (term closedLevel t).Parses (.openParen :: ts ++ [.closeParen]) := by
  intro rest _
  have hinner := h.upTo .closeParen rest (by simp) (by simp) (by simp)
  have hsplit : .openParen :: ts ++ [.closeParen] ++ rest =
      .openParen :: (ts ++ .closeParen :: rest) := by
    simp
  rw [hsplit, term?_group hinner (length_lt_append hne _)]

theorem Parses.call (name : String) (h : (args as).Parses ts) :
    (term closedLevel (.call name as)).Parses
      (.atom name :: .openParen :: ts ++ [.closeParen]) := by
  intro rest _
  have hsplit : .atom name :: .openParen :: ts ++ [.closeParen] ++ rest =
      .atom name :: .openParen :: (ts ++ .closeParen :: rest) := by
    simp
  rw [hsplit]
  cases as with
  | nil =>
    obtain rfl : ts = [] := h
    exact term?_emptyCall name
  | cons t as =>
    obtain ⟨⟨first, more, rfl, hfirst⟩, hargs⟩ := h
    apply term?_call name (hargs rest)
    · simp only [List.length_append, List.length_cons]
      omega
    · intro hhead
      exact hfirst (Option.some.inj hhead)

theorem Parses.access (table : (term closedLevel t).Parses ts) (first : (term 0 row).Parses rs)
    (hrow : rs ≠ []) (second : (term 0 col).Parses cs) (hcol : cs ≠ []) :
    (term closedLevel (.access t row col)).Parses
      (ts ++ .openBracket :: rs ++ .separator :: cs ++ [.closeBracket]) := by
  intro rest _
  have hbracket : Ends (closedLevel + 1)
      (.openBracket :: (rs ++ .separator :: (cs ++ .closeBracket :: rest))) := by
    rintro _ ⟨⟩
    exact ⟨by simp, fun hle => absurd hle (Nat.not_succ_le_self _), by simp⟩
  have hfirst := first.upTo .separator (cs ++ .closeBracket :: rest) (by simp) (by simp)
    (by simp)
  have hsecond := second.upTo .closeBracket rest (by simp) (by simp) (by simp)
  have hsplit : ts ++ .openBracket :: rs ++ .separator :: cs ++ [.closeBracket] ++ rest =
      ts ++ .openBracket :: (rs ++ .separator :: (cs ++ .closeBracket :: rest)) := by
    simp
  rw [hsplit, table _ hbracket, more?_access hfirst hsecond (length_lt_append hrow _)
    (length_lt_append hcol _)]

theorem Parses.unary (op : UnaryOp) (h : (term unaryLevel t).Parses ts) :
    (term unaryLevel (.unary op t)).Parses (.operator op.written :: ts) := by
  intro rest hends
  have hends' : Ends unaryLevel rest := hends.of_closed
  rw [List.cons_append, term?_prefix op (h.whole hends'), more?_stop hends']

theorem Parses.binary (op : BinaryOp) (left : (term op.precedence t).Parses ts)
    (right : (term (op.precedence + 1) u).Parses us) (hne : us ≠ []) :
    (term op.precedence (.binary op t u)).Parses (ts ++ .operator op.symbol :: us) := by
  intro rest hends
  rw [List.append_assoc, List.cons_append, left _ (.operator op _),
    more?_binary op (right.whole hends) (length_lt_append hne rest)]

theorem Parses.loosen (h : (term (level + 1) t).Parses ts) {first : Token} {more : List Token}
    (hts : ts = first :: more) (hfirst : first.Starts (level + 1)) : (term level t).Parses ts := by
  intro rest hends
  have hread := h.whole hends
  have hle := hfirst.level_le
  subst hts
  by_cases hlevel : level < unaryLevel
  · exact term?_binary hlevel hread (length_lt_append (List.cons_ne_nil _ _) rest)
  · obtain rfl : level = unaryLevel := by
      unfold closedLevel at hle
      unfold unaryLevel at hlevel ⊢
      omega
    have hfree : ∀ symbol more', first :: more ++ rest ≠ .operator symbol :: more' := by
      rintro symbol more' heq
      exact hfirst.ne_operator symbol (List.cons.inj heq).1
    rw [term?_unprefixed hfree, more?_stop (Ends.of_closed hends)]
    exact hread

theorem Parses.lastArg (h : (term 0 t).Parses ts) {first : Token} {more : List Token}
    (hts : ts = first :: more) (hfirst : first.Starts 0) : (args [t]).Parses ts := by
  subst hts
  refine ⟨⟨first, more, rfl, hfirst.ne_closeParen⟩, fun rest => ?_⟩
  have hread := h.upTo .closeParen rest (by simp) (by simp) (by simp)
  exact args?_last hread (length_lt_append (List.cons_ne_nil _ _) _)

theorem Parses.moreArgs (arg : (term 0 t).Parses ts) (others : (args (u :: as)).Parses us)
    {first : Token} {more : List Token} (hts : ts = first :: more) (hfirst : first.Starts 0) :
    (args (t :: u :: as)).Parses (ts ++ .separator :: us) := by
  subst hts
  refine ⟨⟨first, more ++ .separator :: us, rfl, hfirst.ne_closeParen⟩, fun rest => ?_⟩
  have hread := arg.upTo .separator (us ++ .closeParen :: rest) (by simp) (by simp) (by simp)
  rw [List.append_assoc, List.cons_append]
  exact args?_more hread (length_lt_append (List.cons_ne_nil _ _) _) (others.2 rest)

end Phrase

/-- By induction on how the tokens are read, for all tokens that may stand behind them. -/
theorem Reads.parses {ts : List Token} {p : Phrase} (h : Reads ts p) : p.Parses ts := by
  induction h with
  | atom s => exact Phrase.parses_atom s
  | text s => exact Phrase.parses_text s
  | group reads inner => exact inner.group reads.ne_nil
  | call name _ inner => exact inner.call name
  | access _ first' second' table first second =>
    exact table.access first first'.ne_nil second second'.ne_nil
  | unary op _ operand => exact operand.unary op
  | binary op _ right' left right => exact left.binary op right right'.ne_nil
  | loosen reads tighter =>
    obtain ⟨first, rest, hts, hfirst⟩ := reads.starts _ _ rfl
    exact tighter.loosen hts hfirst
  | noArgs => rfl
  | lastArg reads arg =>
    obtain ⟨first, rest, hts, hfirst⟩ := reads.starts _ _ rfl
    exact arg.lastArg hts hfirst
  | moreArgs reads _ arg others =>
    obtain ⟨first, rest, hts, hfirst⟩ := reads.starts _ _ rfl
    exact arg.moreArgs others hts hfirst

theorem parse?_of_reads {ts : List Token} {t : Term} (h : Reads ts (.term 0 t)) :
    parse? ts = some t := by
  have hread := h.parses.whole (.nil 0)
  rw [List.append_nil] at hread
  rw [parse?, hread]

/-- The postfix form of a formula lists the tree that the recursive parser finds in it, whichever
way the formula is read. -/
theorem toPostfix_of_isFormula {ts : List Token} {t : Term} (h : IsFormula ts t) :
    parse? ts = some t ∧ toPostfix ts = .ok t.postfixTokens :=
  ⟨parse?_of_reads h, toPostfix_eq_of_reads h⟩

/-- The formula `a - f(-x; 2) * (b)`. -/
theorem toPostfix_of_isFormula_product :
    let ts : List Token := [.atom "a", .operator "-", .atom "f", .openParen, .operator "-",
      .atom "x", .separator, .atom "2", .closeParen, .operator "*", .openParen, .atom "b",
      .closeParen]
    let t : Term := .binary .subtract (.atom "a") (.binary .multiply
      (.call "f" [.unary .minus (.atom "x"), .atom "2"]) (.atom "b"))
    IsFormula ts t ∧ parse? ts = some t ∧ toPostfix ts = .ok [.atom "a", .atom "x",
      .operator "u-", .atom "2", .function "f", .argCount 2, .atom "b", .operator "*",
      .operator "-"] := by
  intro ts t
  have hminus : Reads [.operator "-", .atom "x"] (.term 4 (.unary .minus (.atom "x"))) :=
    .unary .minus (.loosen (.atom "x"))
  have hcall : Reads [.atom "f", .openParen, .operator "-", .atom "x", .separator, .atom "2",
      .closeParen] (.term 5 (.call "f" [.unary .minus (.atom "x"), .atom "2"])) :=
    .call "f" (.moreArgs (.loosen (.loosen (.loosen (.loosen hminus))))
      (.lastArg (.loosen (.loosen (.loosen (.loosen (.loosen (.atom "2"))))))))
  have hgroup : Reads [.openParen, .atom "b", .closeParen] (.term 5 (.atom "b")) :=
    .group (.loosen (.loosen (.loosen (.loosen (.loosen (.atom "b"))))))
  have h : IsFormula ts t := .loosen (.loosen (.binary .subtract
    (.loosen (.loosen (.loosen (.atom "a"))))
    (.binary .multiply (.loosen (.loosen hcall)) (.loosen hgroup))))
  exact ⟨h, toPostfix_of_isFormula h⟩

end LiveSheet
