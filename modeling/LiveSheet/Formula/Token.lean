namespace LiveSheet

/-- A piece of a formula. A function with its argument count and a table access stand in postfix
order only. -/
inductive Token
  | atom (text : String)
  | text (content : String)
  | operator (symbol : String)
  | openParen
  | closeParen
  | separator
  | openBracket
  | closeBracket
  | function (name : String)
  | argCount (count : Nat)
  | tableAccess
  deriving DecidableEq, Repr

def doubleQuotes : List Char → List Char
  | [] => []
  | c :: rest => if c = '"' then '"' :: '"' :: doubleQuotes rest else c :: doubleQuotes rest

def Token.chars : Token → List Char
  | .atom s | .operator s | .function s => s.toList
  | .text s => '"' :: doubleQuotes s.toList ++ ['"']
  | .openParen => ['(']
  | .closeParen => [')']
  | .separator => [';']
  | .openBracket => ['[']
  | .closeBracket => [']']
  | .argCount n => Nat.toDigits 10 n
  | .tableAccess => ['[', ']']

def Token.display (t : Token) : String :=
  String.ofList t.chars

end LiveSheet
