import LiveSheet.Text.Hexadecimal

namespace LiveSheet

def hexByte? (high low : Char) : Option UInt8 := do
  return UInt8.ofNat (16 * (← hexValue? high) + (← hexValue? low))

/-- The bytes of a text in which a percent sign and two digits stand for a byte. A zero byte ends
the text. -/
def percentBytes : List Char → List UInt8
  | [] => []
  | '%' :: high :: low :: rest =>
    match hexByte? high low with
    | some byte => if byte = 0 then [] else byte :: percentBytes rest
    | none => String.utf8EncodeChar '%' ++ percentBytes (high :: low :: rest)
  | c :: rest => String.utf8EncodeChar c ++ percentBytes rest

/-- Bytes as a text. If they are none, those beyond ASCII become replacement characters. -/
def textOfBytes (bytes : List UInt8) : String :=
  match String.fromUTF8? ⟨bytes.toArray⟩ with
  | some text => text
  | none => String.ofList (bytes.map fun b => if b < 128 then Char.ofNat b.toNat else '\ufffd')

def percentDecoded (cs : List Char) : String :=
  textOfBytes (percentBytes cs)

end LiveSheet
