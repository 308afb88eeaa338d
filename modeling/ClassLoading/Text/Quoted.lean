import ClassLoading.Access
import ClassLoading.Text.Hidden

/-! Texts between quotes. A quote or a backslash inside has a backslash before it, the common
controls have letters of their own, and other hidden characters are written by their number. -/
namespace ClassLoading.Text

def quotedChar (c : Char) : String :=
  match c with
  | '"' => "\\\""
  | '\\' => "\\\\"
  | '\t' => "\\t"
  | '\n' => "\\n"
  | '\r' => "\\r"
  | c =>
    if c.toNat = 0 then "\\0"
    else if isHidden c then "\\u\x7b" ++ hexDigits c.toNat ++ "\x7d"
    else String.singleton c

def quoted (text : String) : String := "\"" ++ String.join (text.toList.map quotedChar) ++ "\""

end ClassLoading.Text
