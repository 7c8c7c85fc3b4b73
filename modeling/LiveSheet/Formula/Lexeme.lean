import LiveSheet.Text.Blank
import LiveSheet.Formula.Token

namespace LiveSheet

/-- A token with the characters it was read from and the blanks before them. -/
structure Lexeme where
  gap : List Char
  chars : List Char
  token : Token

/-- The first token of a text with its characters, and the text behind them. -/
structure Lead where
  token : Token
  chars : List Char
  rest : List Char

def isOperatorChar (c : Char) : Bool :=
  ['+', '-', '*', '/', '<', '>', '=', '!', '&', '|'].contains c

/-- Two operator characters that are read as one operator. -/
def isOperatorPair : Char → Char → Bool
  | '<', '=' | '<', '>' | '>', '=' | '&', '&' | '|', '|' => true
  | _, _ => false

def isBracket (c : Char) : Bool :=
  ['(', ')', '[', ']', '"', ';'].contains c

def isBoundary (c : Char) : Bool :=
  isBlank c || isOperatorChar c || isBracket c

/-- Whether an atom that begins with this character is read as a number. -/
def startsNumber (c : Char) : Bool :=
  c.isDigit || c = '.'

def isExponentMark (c : Char) : Bool :=
  c = 'e' || c = 'E'

/-- The rest of an atom after its character `last`. In a number, a sign behind an exponent mark
belongs to the number. -/
def readAtom (numeric : Bool) (last : Char) : List Char → List Char × List Char
  | [] => ([], [])
  | c :: rest =>
    if !isBoundary c || (numeric && isExponentMark last && (c = '+' || c = '-')) then
      let run := readAtom numeric c rest
      (c :: run.1, run.2)
    else ([], c :: rest)

/-- The rest of a string literal after its opening quote, and the text behind the closing one. -/
def readText? : List Char → Option (List Char × List Char)
  | [] => none
  | '"' :: '"' :: rest => (readText? rest).map fun (content, after) => ('"' :: content, after)
  | '"' :: rest => some ([], rest)
  | c :: rest => (readText? rest).map fun (content, after) => (c :: content, after)

def readOperator (c : Char) : List Char → List Char × List Char
  | d :: rest => if isOperatorPair c d then ([c, d], rest) else ([c], d :: rest)
  | [] => ([c], [])

/-- A string literal without its closing quote becomes one atom up to the end. -/
def leadText (rest : List Char) : Lead :=
  match readText? rest with
  | some (content, after) =>
    let token := Token.text (String.ofList content)
    ⟨token, token.chars, after⟩
  | none => ⟨.atom (String.ofList ('"' :: rest)), '"' :: rest, []⟩

/-- The first token of the text `c :: rest`, where `c` is no blank. -/
def leadOf (c : Char) (rest : List Char) : Lead :=
  match c with
  | '(' => ⟨.openParen, [c], rest⟩
  | ')' => ⟨.closeParen, [c], rest⟩
  | '[' => ⟨.openBracket, [c], rest⟩
  | ']' => ⟨.closeBracket, [c], rest⟩
  | ';' => ⟨.separator, [c], rest⟩
  | '"' => leadText rest
  | _ =>
    if isOperatorChar c then
      let run := readOperator c rest
      ⟨.operator (String.ofList run.1), run.1, run.2⟩
    else
      let run := readAtom (startsNumber c) c rest
      ⟨.atom (String.ofList (c :: run.1)), c :: run.1, run.2⟩

theorem readAtom_append (numeric : Bool) (last : Char) (cs : List Char) :
    (readAtom numeric last cs).1 ++ (readAtom numeric last cs).2 = cs := by
  induction cs generalizing last with
  | nil => rfl
  | cons c rest ih =>
    simp only [readAtom]
    split
    next => simp [ih c]
    next => rfl

theorem readText?_append {cs content after : List Char}
    (h : readText? cs = some (content, after)) : doubleQuotes content ++ '"' :: after = cs := by
  fun_induction readText? cs generalizing content with
  | case1 => simp at h
  | case2 rest ih =>
    simp only [Option.map_eq_some_iff, Prod.mk.injEq, Prod.exists] at h
    obtain ⟨content, _, h, rfl, rfl⟩ := h
    simp [doubleQuotes, ih h]
  | case3 rest _ =>
    simp only [Option.some.injEq, Prod.mk.injEq] at h
    obtain ⟨rfl, rfl⟩ := h
    rfl
  | case4 c rest _ hc ih =>
    simp only [Option.map_eq_some_iff, Prod.mk.injEq, Prod.exists] at h
    obtain ⟨content, _, h, rfl, rfl⟩ := h
    have := ih h
    simp_all [doubleQuotes]

theorem readOperator_ne_nil (c : Char) (cs : List Char) : (readOperator c cs).1 ≠ [] := by
  unfold readOperator
  split
  next => split <;> simp
  next => simp

theorem readOperator_append (c : Char) (cs : List Char) :
    (readOperator c cs).1 ++ (readOperator c cs).2 = c :: cs := by
  unfold readOperator
  split
  next => split <;> rfl
  next => rfl

/-- Reading a token loses no character. -/
theorem leadOf_append (c : Char) (rest : List Char) :
    (leadOf c rest).chars ++ (leadOf c rest).rest = c :: rest := by
  unfold leadOf
  split
  case h_6 =>
    unfold leadText
    split
    next h => simp [Token.chars, readText?_append h]
    next => simp
  case h_7 =>
    split
    next => exact readOperator_append c rest
    next => simp [readAtom_append]
  all_goals rfl

theorem leadOf_chars_ne_nil (c : Char) (rest : List Char) : (leadOf c rest).chars ≠ [] := by
  unfold leadOf
  split
  case h_6 =>
    unfold leadText
    split <;> simp [Token.chars]
  case h_7 =>
    split
    next => exact readOperator_ne_nil c rest
    next => simp
  all_goals simp

theorem leadOf_rest_length (c : Char) (rest : List Char) :
    (leadOf c rest).rest.length < rest.length + 1 := by
  have hl := congrArg List.length (leadOf_append c rest)
  have hp := List.length_pos_iff.mpr (leadOf_chars_ne_nil c rest)
  simp only [List.length_append, List.length_cons] at hl
  omega

theorem length_dropWhile_le {α : Type} (p : α → Bool) (xs : List α) :
    (xs.dropWhile p).length ≤ xs.length :=
  (List.dropWhile_sublist p).length_le

/-- The lexemes of a text, and the blanks behind the last one. -/
def scan (cs : List Char) : List Lexeme × List Char :=
  let gap := cs.takeWhile isBlank
  match _h : cs.dropWhile isBlank with
  | [] => ([], gap)
  | c :: rest =>
    let lead := leadOf c rest
    let following := scan lead.rest
    (⟨gap, lead.chars, lead.token⟩ :: following.1, following.2)
termination_by cs.length
decreasing_by
  have hl := leadOf_rest_length c rest
  have hd := length_dropWhile_le isBlank cs
  simp only [_h, List.length_cons] at hd
  omega

def tokenize (formula : String) : List Token :=
  (scan formula.toList).1.map Lexeme.token

def byteLength (cs : List Char) : Nat :=
  cs.foldl (fun n c => n + c.utf8Size) 0

/-- A token and the bytes it was read from, by the offsets of the first and of the one behind. -/
structure Spanned where
  token : Token
  start : Nat
  stop : Nat
  deriving DecidableEq, Repr

def spansFrom (offset : Nat) : List Lexeme → List Spanned
  | [] => []
  | l :: rest =>
    let start := offset + byteLength l.gap
    let stop := start + byteLength l.chars
    ⟨l.token, start, stop⟩ :: spansFrom stop rest

def tokenizeSpanned (formula : String) : List Spanned :=
  spansFrom 0 (scan formula.toList).1

/-- Whether the next token opens a parenthesis, which makes an atom before it a function name. -/
def opensParen : List Lexeme → Bool
  | l :: _ => l.token = .openParen
  | [] => false

def refersTo (name : String) (l : Lexeme) (rest : List Lexeme) : Bool :=
  l.token = .atom name && !opensParen rest

def mentions (name : String) : List Lexeme → Bool
  | [] => false
  | l :: rest => refersTo name l rest || mentions name rest

/-- The text of the lexemes with `new` in place of each reference to `old`. -/
def substitute (old new : String) : List Lexeme → List Char
  | [] => []
  | l :: rest =>
    l.gap ++ (if refersTo old l rest then new.toList else l.chars) ++ substitute old new rest

/-- The formula with its references to `old` renamed, if it has any. -/
def renameReference? (formula old new : String) : Option String :=
  let scanned := scan formula.toList
  if mentions old scanned.1 then
    some (String.ofList (substitute old new scanned.1 ++ scanned.2))
  else none

end LiveSheet
