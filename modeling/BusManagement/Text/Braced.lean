/-! The notation in which values are shown to developers: named groups of fields in braces, lists in
brackets, and strings in quotes with the characters escaped that would not show. Of the characters beyond
ASCII, these are the ones that cannot be printed and the ones that extend the character in front of them.
Which ones they are changes with the version of Unicode, so that is a parameter. -/

namespace BusManagement.Text

/-- A character within a quoted string. Quotes, backslashes and control characters are escaped, the
common ones by a letter and the others by their hexadecimal number, and so are the characters beyond ASCII
that are hidden. -/
def quotedChar (hidden : Char → Bool) (c : Char) : String :=
  match c with
  | '"' => "\\\""
  | '\\' => "\\\\"
  | '\n' => "\\n"
  | '\r' => "\\r"
  | '\t' => "\\t"
  | '\x00' => "\\0"
  | c =>
    if c < ' ' ∨ c = '\x7f' ∨ '\x7f' < c ∧ hidden c then
      "\\u\x7b" ++ String.ofList (Nat.toDigits 16 c.toNat) ++ "\x7d"
    else String.singleton c

def quoted (hidden : Char → Bool) (s : String) : String :=
  "\"" ++ String.join (s.toList.map (quotedChar hidden)) ++ "\""

def braced (name : String) (fields : List (String × String)) : String :=
  name ++ " \x7b " ++ String.intercalate ", " (fields.map fun (k, v) => k ++ ": " ++ v) ++ " \x7d"

def bracketed (items : List String) : String := "[" ++ String.intercalate ", " items ++ "]"

end BusManagement.Text
