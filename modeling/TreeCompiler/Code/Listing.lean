import TreeCompiler.Code.Program
import TreeCompiler.Text.Quoted

/-!
# Listings

`Program.listing` is the readable text of a program: the tables, then the code with a header where a function or the
entry block starts. Unless it is raw, a line names what its operands refer to; where a position is known it stands at
the end.
-/

namespace TreeCompiler

structure ListingOptions where
  position : Nat → String := fun _ => ""
  raw : Bool := false

namespace Program

def numbered (mark : String) (rows : List String) : List String :=
  rows.zipIdx.map fun (row, i) => "  " ++ mark ++ toString i ++ ": " ++ row

def typeLine (t : TypeRow) : String :=
  t.kind ++ " " ++ t.name ++ (if t.fields.isEmpty then "" else " \x7b" ++ String.intercalate ", " t.fields ++ "\x7d")

/-- The header of the code at an address. Of several functions that start there the last one gives it. -/
def header? (p : Program) (ip : Nat) : Option String :=
  match (p.funcs.toList.zipIdx.filter fun (f, _) => f.entry = ip).getLast? with
  | some (f, i) =>
    some ("f" ++ toString i ++ " " ++ f.name ++ " params=" ++ toString f.params ++ " captures=" ++
      toString f.captures ++ " frame=" ++ toString f.frame)
  | none => if p.entry = ip then some "entry" else none

def noteOf (p : Program) (op : Opcode) (o : Operand) : Option String :=
  if o.val < 0 then none
  else
    let i := o.val.toNat
    match o.kind with
    | .text => p.strings[i]?.map quote
    | .func => p.funcs[i]?.map (·.name)
    | .native => p.natives[i]?.map (·.symbol)
    | .type => if op = .cast then none else p.types[i]?.map (·.name)
    | _ => none

/-- What the operands of an instruction refer to. -/
def operandNotes (p : Program) (i : Instr) : String := String.intercalate " " (i.operands.filterMap (p.noteOf i.op))

def codeLine (p : Program) (o : ListingOptions) (ip : Nat) (i : Instr) : String :=
  let line := "  " ++ padLeft 5 (toString ip) ++ "  " ++ i.render
  let note := if o.raw then "" else p.operandNotes i
  let line := if note = "" then line else line ++ "  ; " ++ note
  let pos := o.position ip
  if pos = "" then line else padRight 48 line ++ "  # " ++ pos

def listing (p : Program) (o : ListingOptions) : String :=
  let table (title mark : String) (rows : List String) : List String :=
    if rows.isEmpty then [] else (title ++ "=" ++ toString rows.length) :: numbered mark rows
  let code := p.code.toList.zipIdx.flatMap fun (i, ip) =>
    (match p.header? ip with
     | some h => [h ++ ":"]
     | none => []) ++ [p.codeLine o ip i]
  let lines :=
    ["version=" ++ toString p.version ++ " globals=" ++ toString p.globals ++ " entry=@" ++ toString p.entry] ++
    table "strings" "s" (p.strings.toList.map quote) ++
    table "natives" "n" (p.natives.toList.map fun n => n.library ++ "!" ++ n.symbol) ++
    table "types" "ty" (p.types.toList.map typeLine) ++
    ["code=" ++ toString p.code.size] ++ code
  String.join (lines.map (· ++ "\n"))

end Program

end TreeCompiler
