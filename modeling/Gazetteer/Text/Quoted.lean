import Gazetteer.Text.Extending
import Gazetteer.Text.Unprintable

/-! A character shown between quotation marks, so that every character can be told from its
neighbours on the screen: those that show nothing, or would attach to the quotation mark, are shown
by their code point. -/
namespace Gazetteer.Text

/-- A code point in lower-case hexadecimal, as many digits as it needs, between braces. -/
def codePoint (c : Char) : String :=
  "\\u\x7b" ++ String.ofList (Nat.toDigits 16 c.toNat) ++ "\x7d"

def isHidden (c : Char) : Bool :=
  extending.contains c || unprintable.contains c || fillers.contains c

/-- What stands between the quotation marks. A double quotation mark stands for itself. -/
def escaped (c : Char) : String :=
  match c with
  | '\x00' => "\\0"
  | '\t' => "\\t"
  | '\r' => "\\r"
  | '\n' => "\\n"
  | '\x27' => "\\'"
  | '\\' => "\\\\"
  | c => if isHidden c then codePoint c else c.toString

def quoted (c : Char) : String := "'" ++ escaped c ++ "'"

end Gazetteer.Text
