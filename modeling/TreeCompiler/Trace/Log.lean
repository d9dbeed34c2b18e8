import TreeCompiler.Text.Lowercase
import TreeCompiler.Text.Quoted

/-!
# Log records

A `LogRecord` is a message with named values. `line` writes it as pairs; a value is quoted when it would not read as one
word.
-/

namespace TreeCompiler

inductive LogLevel
  | debug
  | warn
deriving DecidableEq, Repr, Inhabited

def LogLevel.name : LogLevel → String
  | .debug => "DEBUG"
  | .warn => "WARN"

structure LogRecord where
  level : LogLevel
  message : String
  fields : List (String × String) := []
deriving DecidableEq, Repr, Inhabited

namespace LogRecord

/-- Characters that a value may hold without quotes. -/
def isPlain (c : Char) : Bool :=
  if c.toNat < 0x80 then 0x20 < c.toNat && c ≠ '=' && c.toNat ≠ 0x22
  else isPrintable c && !isBlank c && c ≠ Utf8.replacement

def shown (s : String) : String := if s ≠ "" && s.toList.all isPlain then s else quote s

def line (r : LogRecord) : String :=
  let pairs := ("level", r.level.name) :: ("msg", r.message) :: r.fields
  String.intercalate " " (pairs.map fun (k, v) => shown k ++ "=" ++ shown v) ++ "\n"

end LogRecord

end TreeCompiler
