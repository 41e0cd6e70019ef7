import SourceDebugger.Text.Hidden
import SourceDebugger.Text.Numeral
/-!
Quoted text: between quotation marks, with the mark, the backslash and what cannot be seen written
as escapes.
-/
namespace SourceDebugger.Text

/-- One character inside quotation marks of the given kind. -/
def escaped (mark : Char) (c : Char) : String :=
  if c = '\x00' then "\\0"
  else if c = '\t' then "\\t"
  else if c = '\r' then "\\r"
  else if c = '\n' then "\\n"
  else if c = '\\' || c = mark then String.ofList ['\\', c]
  else if isHidden c then "\\u\x7b" ++ hex c.toNat ++ "\x7d"
  else String.singleton c

def quoted (s : String) : String :=
  "\"" ++ String.join (s.toList.map (escaped '"')) ++ "\""

def quotedChar (c : Char) : String := "'" ++ escaped '\'' c ++ "'"

end SourceDebugger.Text
