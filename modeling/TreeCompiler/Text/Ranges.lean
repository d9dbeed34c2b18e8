import TreeCompiler.Text.Utf8

/-!
# Sets of characters given by ranges

`Ranges` is a list of inclusive ranges; `ofText` reads one from hexadecimal text, `first-last` or a single code for each
range, divided by blanks.
-/

namespace TreeCompiler

structure Ranges where
  bounds : Array (Nat × Nat) := #[]
deriving Inhabited

namespace Ranges

def hexNumber (s : String) : Nat := s.toList.foldl (fun n c => n * 16 + (hexValue? c).getD 0) 0

def ofText (s : String) : Ranges :=
  { bounds := ((words s).filterMap fun item =>
      match item.splitOn "-" with
      | [a] => some (hexNumber a, hexNumber a)
      | [a, b] => some (hexNumber a, hexNumber b)
      | _ => none).toArray }

def contains (r : Ranges) (c : Nat) : Bool := r.bounds.any fun b => b.1 ≤ c && c ≤ b.2

end Ranges

end TreeCompiler
