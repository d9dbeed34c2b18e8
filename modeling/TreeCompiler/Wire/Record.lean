import TreeCompiler.Wire.Value

/-!
# Records on the wire

A record is a map from field names to values. Writing leaves out the fields that are marked so and empty. Reading takes
the fields in any order, skips names it does not know, and also takes an array that holds every field in order.

A record is read over an older value, whose fields it keeps where it has none itself. So a name that comes twice is read
over what it gave the first time; nil and the empty array give the value without anything in it.

* `Wire.ofText`, `ofNats`, `record` : building values;
* `toInt?`, `toNat?`, `toText?`, `elements?` : reading values that replace older ones; `none` for one of another kind;
* `overRecord?`, `overOptional?`, `overTexts?`, `Slots.over?` : reading values over older ones.
-/

namespace TreeCompiler.Wire

/-! ## Writing -/

def ofText (s : String) : Wire := text (Utf8.encode s)

def ofNat (n : Nat) : Wire := int n

def ofNats (ns : List Nat) : Wire := array (ns.map ofNat)

def ofTexts (ss : List String) : Wire := array (ss.map ofText)

/-- A list that is written as nil when it is empty. -/
def orNil {α : Type} (make : List α → Wire) : List α → Wire
  | [] => nil
  | xs => make xs

def record (fields : List (String × Wire)) : Wire := map (fields.map fun (k, v) => (ofText k, v))

/-- The field unless it is empty. -/
def unlessEmpty (name : String) (empty : Bool) (value : Wire) : List (String × Wire) :=
  if empty then [] else [(name, value)]

/-! ## Reading -/

def toInt? : Wire → Option Int
  | nil => some 0
  | int n => some n
  | _ => none

/-- The value in `bits` bits, high bits dropped. -/
def toNat? (bits : Nat) (w : Wire) : Option Nat := w.toInt?.map fun (n : Int) => (n % ((Nat.pow 2 bits : Nat) : Int)).toNat

/-- The value as a signed number of `bits` bits, high bits dropped. -/
def toSigned? (bits : Nat) (w : Wire) : Option Int := w.toInt?.map fun n => n.bmod (Nat.pow 2 bits)

def toBool? : Wire → Option Bool
  | nil => some false
  | bool b => some b
  | _ => none

/-- Octets of a text or blob, none inside for nil. -/
def toBytes? : Wire → Option (Option Bytes)
  | nil => some none
  | text bs | blob bs => some (some bs)
  | _ => none

def toText? (w : Wire) : Option String := w.toBytes?.map fun bs => Utf8.decode (bs.getD [])

/-- The bits of a single in double precision. What is no number keeps its sign and its payload, and is made quiet. -/
def widen (bits : UInt32) : UInt64 :=
  let wide := bits.toUInt64
  if bits &&& 0x7FFFFFFF ≤ 0x7F800000 then (Float32.ofBits bits).toFloat.toBits
  else ((wide >>> 31) <<< 63) ||| ((wide &&& 0x7FFFFF) <<< 29) ||| (0x7FF8000000000000 : UInt64)

/-- The bits of a real; whole numbers are converted. -/
def toReal? : Wire → Option UInt64
  | nil => some 0
  | real bits => some bits
  | single bits => some (widen bits)
  | int n => some (Float.ofInt n.toInt64.toInt).toBits
  | _ => none

/-- The elements of a list that replaces an older one; nil is an empty list. -/
def elements? {α : Type} (read : Wire → Option α) : Wire → Option (List α)
  | nil => some []
  | array items => items.mapM read
  | _ => none

/-! ## Reading over older values -/

/-- Texts replace older ones, and nil leaves these as they are. -/
def overTexts? (old : List String) : Wire → Option (List String)
  | nil => some old
  | w => elements? toText? w

/-- A part that may be missing: nil stands for none. -/
def overOptional? {α : Type} (zero : α) (read : α → Wire → Option α) (old : Option α) : Wire → Option (Option α)
  | nil => some none
  | w => (read (old.getD zero) w).map some

/-- Reads a record field by field; `set` takes each known name and leaves others alone. -/
def overRecord? {α : Type} (names : List String) (zero : α) (set : String → Wire → α → Option α) (old : α) :
    Wire → Option α
  | nil => some zero
  | map entries => entries.foldlM (fun r (k, v) => do set (← k.toText?) v r) old
  | array [] => some zero
  | array items =>
    if items.length = names.length then (names.zip items).foldlM (fun r (k, v) => set k v r) old else none
  | _ => none

/-- A list of records. The rows that an older, longer list had beyond its end are kept, and a list that is longer again is
read over them. -/
structure Slots (α : Type) where
  rows : List α := []
  spare : List α := []
deriving Inhabited

namespace Slots

/-- Values read one by one over older ones, and over `zero` where these end. -/
def overEach? {α : Type} (zero : α) (read : α → Wire → Option α) : List α → List Wire → Option (List α)
  | _, [] => some []
  | old, w :: ws => do
    let row ← read (old.headD zero) w
    return row :: (← overEach? zero read old.tail ws)

def over? {α : Type} (zero : α) (read : α → Wire → Option α) (old : Slots α) : Wire → Option (Slots α)
  | nil => some {}
  | array ws => do
    let held := old.rows ++ old.spare
    return { rows := ← overEach? zero read held ws, spare := held.drop ws.length }
  | _ => none

end Slots

end TreeCompiler.Wire
