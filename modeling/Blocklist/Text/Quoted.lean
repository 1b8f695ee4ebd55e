import Blocklist.Number.Digits
import Blocklist.Text.Visible

/-!
# Quoted text

How a text is shown inside a message: in double quotes, a backslash before a quote or a backslash,
short escapes for the common controls, and the code point in braces for every other character that
shows no mark of its own.
-/

namespace Blocklist.Text

def quoteChar (c : Char) : List Char :=
  match c with
  | '\x00' => ['\\', '0']
  | '\t' => ['\\', 't']
  | '\r' => ['\\', 'r']
  | '\n' => ['\\', 'n']
  | '"' => ['\\', '"']
  | '\\' => ['\\', '\\']
  | c => if isVisible c then [c] else ['\\', 'u', '\x7b'] ++ hexDigits c.toNat ++ ['\x7d']

def quoted (text : String) : String :=
  String.ofList ('"' :: text.toList.flatMap quoteChar ++ ['"'])

example : quoted "a\"\\\t\u200b'é" = "\"a\\\"\\\\\\t\\u\x7b200b\x7d'é\"" := by decide +kernel

end Blocklist.Text
