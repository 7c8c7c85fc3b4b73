import Mathlib
import LiveSheet.Proofs.Formula.Refusal
import LiveSheet.Proofs.Formula.Evaluation
import LiveSheet.Sheet.Cell

-- That numbers differ in their digits is reached through the whole library only.

namespace LiveSheet

section Spelling

variable {α : Type} {p : α → Bool} {a : α} {front front' rest rest' : List α}

/-- What is before the first thing that is not of some kind is known by the whole. -/
theorem append_cons_inj (h : front ++ a :: rest = front' ++ a :: rest')
    (before : ∀ c ∈ front, p c = true) (before' : ∀ c ∈ front', p c = true)
    (ends : p a = false) : front = front' ∧ rest = rest' := by
  have htake : ∀ {xs ys : List α}, (∀ c ∈ xs, p c = true) → (xs ++ a :: ys).takeWhile p = xs := by
    intro xs ys hxs
    rw [List.takeWhile_append_of_pos hxs, List.takeWhile_cons_of_neg (by simp [ends]),
      List.append_nil]
  have hfront : front = front' := by
    rw [← htake before, h, htake before']
  subst hfront
  exact ⟨rfl, (List.cons.inj (List.append_cancel_left h)).2⟩

theorem isDigit_of_mem_toString {n : Nat} : ∀ c ∈ (toString n).toList, c.isDigit = true := by
  intro c hc
  rw [Nat.toString_eq_ofList_toDigits, String.toList_ofList] at hc
  exact Nat.isDigit_of_mem_toDigits (by decide) (by decide) hc

/-- A number ends where its digits do. -/
theorem toString_append_inj {m n : Nat} {separator : String} {rest rest' : List Char}
    (h : (toString m).toList ++ (separator.toList ++ rest) =
      (toString n).toList ++ (separator.toList ++ rest'))
    (ends : separator.toList.head?.any (!Char.isDigit ·) = true) : m = n ∧ rest = rest' := by
  cases hs : separator.toList with
  | nil =>
    rw [hs] at ends
    cases ends
  | cons c cs =>
    rw [hs] at h ends
    have hc : c.isDigit = false := by simpa using ends
    obtain ⟨hdigits, hrest⟩ :=
      append_cons_inj h isDigit_of_mem_toString isDigit_of_mem_toString hc
    exact ⟨Nat.repr_injective (String.toList_inj.mp hdigits), List.append_cancel_left hrest⟩

theorem take_append_front {n : Nat} {front : String} (rest : String)
    (h : n ≤ front.toList.length) : (front ++ rest).toList.take n = front.toList.take n := by
  rw [String.toList_append, List.take_append_of_le_length h]

/-- Of some texts none of which begins as another one does, a text begins as at most one. -/
theorem front_eq {fronts : List String} {front front' text : String}
    (apart : ∀ x ∈ fronts, ∀ y ∈ fronts, x.toList <+: y.toList → x = y) (h : front ∈ fronts)
    (h' : front' ∈ fronts) (begins : front.toList <+: text.toList)
    (begins' : front'.toList <+: text.toList) : front = front' := by
  rcases List.prefix_or_prefix_of_prefix begins begins' with hprefix | hprefix
  · exact apart front h front' h' hprefix
  · exact (apart front' h' front h hprefix).symm

end Spelling

/-- A name has no quotation mark that could be taken for its end. -/
def Unquoted (name : String) : Prop :=
  ∀ c ∈ name.toList, (c != '\'') = true

theorem unquoted_of_isValidName {name : String} (h : isValidName name = true) : Unquoted name := by
  have hchar : ∀ c, isNameChar c = true → (c != '\'') = true := by
    intro c hc
    refine bne_iff_ne.mpr ?_
    rintro rfl
    revert hc
    decide +kernel
  unfold isValidName at h
  split at h
  next => cases h
  next c rest hlist =>
    simp only [Bool.and_eq_true] at h
    obtain ⟨⟨hstart, hrest⟩, -⟩ := h
    intro d hd
    rw [hlist] at hd
    rcases List.mem_cons.mp hd with rfl | hd
    · exact hchar d (isNameChar_of_isNameStart hstart)
    · exact hchar d (List.all_eq_true.mp hrest d hd)

section Messages

theorem Token.display_injective {t u : Token} (ht : t.Idle) (hu : u.Idle)
    (h : t.display = u.display) : t = u := by
  have hchars : t.chars = u.chars := String.ofList_injective h
  have hdigits : ∀ {n : Nat} {c : Char}, c.isDigit = false → Nat.toDigits 10 n ≠ [c] := by
    intro n c hc hn
    have hd := Nat.isDigit_of_mem_toDigits (by decide) (by decide) (hn ▸ List.mem_singleton_self c)
    rw [hc] at hd
    cases hd
  cases t with
  | argCount m =>
    cases u with
    | argCount n =>
      have hdisplay : toString m = toString n := by
        rw [Nat.toString_eq_ofList_toDigits, Nat.toString_eq_ofList_toDigits]
        exact h
      exact congrArg argCount (Nat.repr_injective hdisplay)
    | openParen | closeParen | separator | openBracket | closeBracket =>
      exact absurd hchars (hdigits (by decide))
    | atom | text | operator | function | tableAccess => exact hu.elim
  | openParen | closeParen | separator | openBracket | closeBracket =>
    cases u with
    | argCount n => exact absurd hchars.symm (hdigits (by decide))
    | openParen | closeParen | separator | openBracket | closeBracket =>
      first | rfl | exact absurd hchars (by decide)
    | atom | text | operator | function | tableAccess => exact hu.elim
  | atom | text | operator | function | tableAccess => exact ht.elim

namespace SyntaxFault

/-- What the messages begin with, whatever they are about. -/
def opening : SyntaxFault → String
  | .notInfix _ => "Unexpected token in infix input: "
  | .notPostfix _ => "Unexpected token: "
  | .noArgumentCount _ => "Missing argument count after "
  | .invalidNumber _ => "Invalid number: "
  | .unrecognized _ => "Unrecognized token: "
  | fault => fault.message

def openings : List String :=
  [.notInfix .openParen, .notPostfix .openParen, .unmatchedParen, .parenClosesBracket,
    .unclosedParen, .emptyParens, .missingBeforeParen, .missingBeforeSeparator, .straySeparator,
    .noArgumentCount "", .emptyFormula, .missingOperator, .invalidNumber "",
    .unrecognized ""].map opening

theorem opening_mem (fault : SyntaxFault) : fault.opening ∈ openings := by
  cases fault <;> simp [openings, opening]

theorem opening_prefix (fault : SyntaxFault) :
    fault.opening.toList <+: fault.message.toList := by
  cases fault with
  | notInfix | notPostfix | noArgumentCount | invalidNumber | unrecognized =>
    unfold message opening
    simp only [toString, String.toList_append]
    exact List.prefix_append _ _
  | _ => exact List.prefix_rfl

theorem opening_eq {a b : SyntaxFault} (h : a.message = b.message) : a.opening = b.opening :=
  front_eq (by decide) a.opening_mem b.opening_mem a.opening_prefix (h ▸ b.opening_prefix)

theorem message_injective {a b : SyntaxFault} (ha : a.Occurs) (hb : b.Occurs)
    (h : a.message = b.message) : a = b := by
  have hopening := opening_eq h
  cases a <;> cases b
  case notInfix.notInfix => exact ha.elim
  case notPostfix.notPostfix t u =>
    exact congrArg notPostfix (Token.display_injective ha hb ((String.append_right_inj _).mp h))
  case noArgumentCount.noArgumentCount =>
    exact congrArg noArgumentCount ((String.append_right_inj _).mp h)
  case invalidNumber.invalidNumber =>
    exact congrArg invalidNumber ((String.append_right_inj _).mp h)
  case unrecognized.unrecognized => exact congrArg unrecognized ((String.append_right_inj _).mp h)
  all_goals
    unfold opening message at hopening
    first | rfl | simp only [String.reduceEq] at hopening

end SyntaxFault

theorem AccessFault.message_injective {a b : AccessFault} (h : a.message = b.message) :
    a = b := by
  cases a <;> cases b <;> unfold message at h <;> first | rfl | (revert h; decide)

namespace LookupFault

def name : LookupFault → String
  | .noValue name | .notATable name | .failed name _ => name

/-- What is said of the name. -/
def finding : LookupFault → List Char
  | .noValue _ => " has no value".toList
  | .notATable _ => " is not a table".toList
  | .failed _ reason => ": ".toList ++ reason.toList

theorem toList_message (fault : LookupFault) :
    fault.message.toList = '\'' :: (fault.name.toList ++ '\'' :: fault.finding) := by
  cases fault <;> unfold message name finding <;>
    simp only [String.toList_append, List.append_assoc] <;> rfl

theorem message_injective {a b : LookupFault} (ha : Unquoted a.name) (hb : Unquoted b.name)
    (h : a.message = b.message) : a = b := by
  have hlist := congrArg String.toList h
  rw [toList_message, toList_message] at hlist
  obtain ⟨hname, hfinding⟩ := append_cons_inj (List.cons.inj hlist).2 ha hb (by decide)
  replace hname := String.toList_inj.mp hname
  cases a <;> cases b <;> dsimp only [LookupFault.name] at hname <;> subst hname
  case failed.failed name reason reason' =>
    rw [String.toList_inj.mp (List.append_cancel_left hfinding)]
  all_goals first | rfl | cases hfinding

end LookupFault

theorem ConversionError.message_injective {a b : ConversionError} (h : a.message = b.message) :
    a = b := by
  obtain ⟨source, target⟩ := a
  obtain ⟨source', target'⟩ := b
  have hlast : ∀ (source : String) (target : NumberKind),
      (message ⟨source, target⟩).toList.getLast? = target.name.toList.getLast? := by
    intro source target
    have hname : target.name.toList ≠ [] := by cases target <;> decide
    unfold message
    rw [String.toList_append]
    exact List.getLast?_append_of_ne_nil _ hname
  have htarget : target = target' := by
    have hends := (hlast source target).symm.trans
      ((congrArg (fun text : String => text.toList.getLast?) h).trans (hlast source' target'))
    revert hends
    cases target <;> cases target' <;> decide
  subst htarget
  have hsource : source = source' :=
    (String.append_right_inj _).mp
      ((String.append_left_inj _).mp ((String.append_left_inj _).mp h))
  rw [hsource]

theorem DataError.range_message_injective {row col rows cols row' col' rows' cols' : Nat}
    (h : (range row col rows cols).message = (range row' col' rows' cols').message) :
    row = row' ∧ col = col' ∧ rows = rows' ∧ cols = cols' := by
  have hlist := congrArg String.toList h
  unfold message at hlist
  simp only [String.toList_append, List.append_assoc] at hlist
  obtain ⟨hrow, hlist⟩ := toString_append_inj (List.append_cancel_left hlist) (by decide)
  obtain ⟨hcol, hlist⟩ := toString_append_inj hlist (by decide)
  obtain ⟨hrows, hlist⟩ := toString_append_inj hlist (by decide)
  have hcols := Nat.repr_injective (String.toList_inj.mp (List.append_cancel_right hlist))
  exact ⟨hrow, hcol, hrows, hcols⟩

namespace FormulaError

/-- An error that formulas and their trees can have. -/
def Legible : FormulaError → Prop
  | .malformed fault => fault.Occurs
  | .argumentCount function _ => ∃ f : Function, function = f.signature
  | .lookup fault => Unquoted fault.name
  | _ => True

/-- What the messages begin with, whatever they are about. -/
def opening : FormulaError → String
  | .malformed _ => "Syntax error: "
  | .unknownOperator _ => "Unknown operator: "
  | .unknownFunction _ => "Unknown function: "
  | .argumentCount _ _ => "Wrong number of arguments for "
  | .missingOperand _ => "Missing operand for '"
  | .malformedAccess _ => "Malformed table access: "
  | .unknownCell _ => "Unknown cell: "
  | .unterminatedString _ => "Unterminated string literal: "
  | .lookup _ => "Evaluation error: "
  | .conversion _ => "Cannot convert '"
  | .dangling _ => "Reference to deleted cell '"
  | .index (.negative _) => "Negative table index "
  | .index (.outside _ _ _ _) => "Index ("

def openings : List String :=
  [malformed .emptyFormula, unknownOperator "", unknownFunction "", argumentCount ⟨"", 0, none⟩ 0,
    missingOperand "", malformedAccess .noTableName, unknownCell "", unterminatedString "",
    lookup (.noValue ""), conversion ⟨"", .float⟩, dangling "", index (.negative 0),
    index (.outside 0 0 0 0)].map opening

theorem opening_mem (e : FormulaError) : e.opening ∈ openings := by
  cases e with
  | index fault => cases fault <;> simp [openings, opening]
  | _ => simp [openings, opening]

theorem opening_prefix (e : FormulaError) : e.opening.toList <+: e.message.toList := by
  cases e with
  | index fault =>
    unfold message IndexFault.message opening
    cases fault with
    | negative index =>
      simp only [toString, String.toList_append]
      exact List.prefix_append _ _
    | outside row col rows cols =>
      unfold DataError.message
      simp only [toString, String.toList_append, List.append_assoc]
      exact List.prefix_append _ _
  | conversion cause =>
    unfold message ConversionError.message opening
    simp only [toString, String.toList_append, List.append_assoc]
    exact List.prefix_append _ _
  | _ =>
    unfold message opening
    simp only [toString, String.toList_append, List.append_assoc]
    exact List.prefix_append _ _

theorem opening_eq {a b : FormulaError} (h : a.message = b.message) : a.opening = b.opening :=
  front_eq (by decide) a.opening_mem b.opening_mem a.opening_prefix (h ▸ b.opening_prefix)

theorem argumentCount_message_injective {f g : Function} {m n : Nat}
    (h : (argumentCount f.signature m).message = (argumentCount g.signature n).message) :
    f = g ∧ m = n := by
  have hname : ∀ (f : Function) (n : Nat),
      (argumentCount f.signature n).message.toList.take 32 =
        ("Wrong number of arguments for " ++ f.name).toList.take 32 := by
    intro f n
    unfold message
    refine (take_append_front _ ?_).trans ?_ <;> cases f <;> decide
  have hsame := (hname f m).symm.trans
    ((congrArg (fun text : String => text.toList.take 32) h).trans (hname g n))
  have hfunction : f = g := by
    revert hsame
    cases f <;> cases g <;> decide
  subst hfunction
  have hcount : toString m = toString n :=
    (String.append_right_inj _).mp ((String.append_right_inj _).mp h)
  exact ⟨rfl, Nat.repr_injective hcount⟩

/-- Errors that read alike are the same. -/
theorem message_injective {a b : FormulaError} (ha : a.Legible) (hb : b.Legible)
    (h : a.message = b.message) : a = b := by
  have hopening := opening_eq h
  -- Errors of different kinds begin differently, which leaves the pairs of one kind.
  cases a <;> cases b
  case malformed.malformed =>
    have hfault := (String.append_right_inj _).mp h
    exact congrArg malformed (SyntaxFault.message_injective ha hb hfault)
  case unknownOperator.unknownOperator =>
    exact congrArg unknownOperator ((String.append_right_inj _).mp h)
  case unknownFunction.unknownFunction =>
    exact congrArg unknownFunction ((String.append_right_inj _).mp h)
  case argumentCount.argumentCount =>
    obtain ⟨f, rfl⟩ := ha
    obtain ⟨g, rfl⟩ := hb
    obtain ⟨rfl, rfl⟩ := argumentCount_message_injective h
    rfl
  case missingOperand.missingOperand =>
    exact congrArg missingOperand ((String.append_right_inj _).mp ((String.append_left_inj _).mp h))
  case malformedAccess.malformedAccess =>
    have hfault := (String.append_right_inj _).mp h
    exact congrArg malformedAccess (AccessFault.message_injective hfault)
  case unknownCell.unknownCell => exact congrArg unknownCell ((String.append_right_inj _).mp h)
  case unterminatedString.unterminatedString =>
    exact congrArg unterminatedString ((String.append_right_inj _).mp h)
  case lookup.lookup =>
    exact congrArg lookup (LookupFault.message_injective ha hb ((String.append_right_inj _).mp h))
  case conversion.conversion => exact congrArg conversion (ConversionError.message_injective h)
  case dangling.dangling =>
    exact congrArg dangling ((String.append_right_inj _).mp ((String.append_left_inj _).mp h))
  case index.index fault fault' =>
    cases fault <;> cases fault' <;> simp only [opening, String.reduceEq] at hopening
    case negative.negative =>
      exact congrArg (index ∘ .negative) (Int.repr_injective ((String.append_right_inj _).mp h))
    case outside.outside =>
      obtain ⟨rfl, rfl, rfl, rfl⟩ := DataError.range_message_injective h
      rfl
  all_goals (try cases ‹IndexFault›) <;> simp only [opening, String.reduceEq] at hopening

end FormulaError

theorem Refused.legible {resolve : Resolver} {cause : FormulaError} (h : Refused resolve cause) :
    cause.Legible := by
  cases h with
  | malformed occurs => exact occurs
  | argumentCount f count => exact ⟨f, rfl⟩
  | _ => trivial

end Messages

section Evaluation

variable {ctx : Context} {cause : FormulaError}

/-- What goes wrong in the cell that a reference names can be told by its message. -/
structure Context.LegibleAt (ctx : Context) (ref : CellRef) : Prop where
  value : ∀ cause, ctx.value ref = .error cause → cause.Legible
  element : ∀ row col cause, ctx.element ref row col = .error cause → cause.Legible

theorem converted_legible {α : Type} {x : Except ConversionError α}
    (h : converted x = .error cause) : cause.Legible := by
  cases x with
  | ok => cases h
  | error e =>
    cases h
    trivial

theorem asIndex_legible {v : Value} (h : asIndex v = .error cause) : cause.Legible := by
  unfold asIndex at h
  split at h
  next =>
    cases h
    trivial
  next =>
    split_ifs at h
    cases h
    trivial

namespace Expr

mutual

/-- A tree fails for what goes wrong in the cells, or for what it makes of their values. -/
theorem eval_legible (e : Expr) (legible : ∀ ref ∈ e.refs, ctx.LegibleAt ref)
    (h : e.eval ctx = .error cause) : cause.Legible := by
  cases e with
  | literal v => cases h
  | cell ref => exact (legible ref (by simp [refs])).value cause h
  | element table row col =>
    simp only [refs, List.mem_cons, List.mem_append] at legible
    simp only [eval] at h
    rcases Except.of_bind_eq_error h with h | ⟨v, -, h⟩
    · exact eval_legible row (fun ref hm => legible ref (.inr (.inl hm))) h
    rcases Except.of_bind_eq_error h with h | ⟨i, -, h⟩
    · exact asIndex_legible h
    rcases Except.of_bind_eq_error h with h | ⟨w, -, h⟩
    · exact eval_legible col (fun ref hm => legible ref (.inr (.inr hm))) h
    rcases Except.of_bind_eq_error h with h | ⟨j, -, h⟩
    · exact asIndex_legible h
    · exact (legible table (.inl rfl)).element i j cause h
  | unary op x =>
    simp only [eval] at h
    rcases Except.of_bind_eq_error h with h | ⟨v, -, h⟩
    · exact eval_legible x legible h
    · exact converted_legible h
  | binary op l r =>
    simp only [refs, List.mem_append] at legible
    simp only [eval] at h
    rcases Except.of_bind_eq_error h with h | ⟨v, -, h⟩
    · exact eval_legible l (fun ref hm => legible ref (.inl hm)) h
    rcases Except.of_bind_eq_error h with h | ⟨w, -, h⟩
    · exact eval_legible r (fun ref hm => legible ref (.inr hm)) h
    · exact converted_legible h
  | call f args =>
    simp only [eval] at h
    rcases Except.of_bind_eq_error h with h | ⟨vs, -, h⟩
    · exact evalAll_legible args legible h
    · exact converted_legible h

theorem evalAll_legible (es : List Expr) (legible : ∀ ref ∈ refsAll es, ctx.LegibleAt ref)
    (h : evalAll ctx es = .error cause) : cause.Legible := by
  cases es with
  | nil => cases h
  | cons e es =>
    simp only [refsAll, List.mem_append] at legible
    simp only [evalAll] at h
    rcases Except.of_bind_eq_error h with h | ⟨v, -, h⟩
    · exact eval_legible e (fun ref hm => legible ref (.inl hm)) h
    rcases Except.of_bind_eq_error h with h | ⟨vs, -, h⟩
    · exact evalAll_legible es (fun ref hm => legible ref (.inr hm)) h
    · cases h

end

end Expr

end Evaluation

section Cells

/-- What two errors of cells agree in if they are taken for the same. -/
def CellError.facts (e : CellError) : ErrorKind × String :=
  (e.kind, e.message)

/-- An error that cells can have. -/
def CellError.Legible : CellError → Prop
  | .definition cause | .evaluation cause => cause.Legible
  | .noScalar _ => False
  | .circular _ | .carried _ => True

/-- Errors of cells that agree in kind and message are the same. -/
theorem CellError.facts_injective {a b : CellError} (ha : a.Legible) (hb : b.Legible)
    (h : a.facts = b.facts) : a = b := by
  obtain ⟨hkind, hmessage⟩ := Prod.mk.inj h
  cases a <;> cases b
  case definition.definition =>
    exact congrArg definition (FormulaError.message_injective ha hb hmessage)
  case evaluation.evaluation =>
    exact congrArg evaluation (FormulaError.message_injective ha hb hmessage)
  case circular.circular =>
    have hname := (String.append_left_inj _).mp hmessage
    exact congrArg circular ((String.append_right_inj _).mp hname)
  case carried.carried =>
    have hname := (String.append_left_inj _).mp hmessage
    exact congrArg carried ((String.append_right_inj _).mp hname)
  all_goals first | exact ha.elim | exact hb.elim | cases hkind

theorem CellError.map_facts_injective {a b : Option CellError}
    (ha : ∀ e, a = some e → e.Legible) (hb : ∀ e, b = some e → e.Legible)
    (h : a.map facts = b.map facts) : a = b := by
  cases a with
  | none => exact (Option.map_eq_none_iff.mp h.symm).symm
  | some a =>
    obtain ⟨b, rfl, hfacts⟩ := Option.map_eq_some_iff.mp h.symm
    exact congrArg some (facts_injective (ha a rfl) (hb b rfl) hfacts.symm)

end Cells

end LiveSheet
