import LiveSheet.Text.Letter
import LiveSheet.Number.Decimal

namespace LiveSheet

/-- The words that stand for the booleans, in any case. -/
def isBooleanWord (cs : List Char) : Bool :=
  sameLetters cs "true".toList || sameLetters cs "false".toList

def isNameStart (c : Char) : Bool :=
  isLetter c || c = '_'

def isNameChar (c : Char) : Bool :=
  isLetter c || isNumeral c || c = '_' || c = '.'

/-- Whether a cell may have this name: a letter or underscore, then letters, numerals, underscores
and points, and not a boolean. -/
def isValidName (name : String) : Bool :=
  match name.toList with
  | [] => false
  | c :: rest => isNameStart c && rest.all isNameChar && !isBooleanWord (c :: rest)

end LiveSheet
