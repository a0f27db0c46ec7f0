import ScriptTree.Text.DefaultIgnorable
import ScriptTree.Text.ExtendingMark
import ScriptTree.Text.Unprintable
/-! Characters as messages show them: between single quotes, with short escapes for the
commonest controls and a code point in braces for whatever prints badly. -/
namespace ScriptTree.Text

/-- A character that shows nothing, or one that would be drawn on the quote. -/
def printsBadly (c : Char) : Bool :=
  unprintable.holds c || defaultIgnorable.holds c || extendingMark.holds c

def escaped (c : Char) : String :=
  if c = '\x00' then "\\0"
  else if c = '\t' then "\\t"
  else if c = '\r' then "\\r"
  else if c = '\n' then "\\n"
  else if c = '\x27' then "\\'"
  else if c = '\\' then "\\\\"
  else if printsBadly c then
    "\\u\x7b" ++ String.ofList (Nat.toDigits 16 c.toNat) ++ "\x7d"
  else String.singleton c

def quoted (c : Char) : String := "'" ++ escaped c ++ "'"

end ScriptTree.Text
