import TreeCompiler.Text.Compose

/-!
# Interned names

`NameTable` numbers the names of a unit in the order they are first seen; the empty name is 0. Names are compared in
canonical composed form, so two spellings of one name get one number.
-/

namespace TreeCompiler

abbrev NameId := Nat

structure NameTable where
  texts : Array String := #[""]
deriving Inhabited

namespace NameTable

def find? (t : NameTable) (normal : String) : Option NameId := t.texts.findIdx? (· == normal)

/-- The number of a name, a new one on first sight. -/
def intern (t : NameTable) (s : String) : NameId × NameTable :=
  let n := Compose.normalize s
  match t.find? n with
  | some id => (id, t)
  | none => (t.texts.size, { texts := t.texts.push n })

def text? (t : NameTable) (id : NameId) : Option String := t.texts[id]?

def text (t : NameTable) (id : NameId) : String := (t.text? id).getD ""

def size (t : NameTable) : Nat := t.texts.size

end NameTable

end TreeCompiler
