import TreeCompiler.Text.Ranges
import TreeCompiler.Text.WidthData

/-!
# Display width

A text is shown cluster by cluster, a cluster being what a reader takes for one character.

* `cells` : terminal cells of one character;
* `clusters` : the text cut into clusters; a sequence that breaks off at the end belongs to the last one;
* `width` : cells of a text, a cluster counting as much as its first character that has any width;
* `truncate` : the text cut to a number of cells, with a mark where something was left out.
-/

namespace TreeCompiler

namespace Width

def doubleRanges : Ranges := Ranges.ofText doubleData
def zeroRanges : Ranges := Ranges.ofText zeroData
def extendRanges : Ranges := Ranges.ofText extendData
def spacingRanges : Ranges := Ranges.ofText spacingData
def prependRanges : Ranges := Ranges.ofText prependData
def controlRanges : Ranges := Ranges.ofText controlData
def pictographRanges : Ranges := Ranges.ofText pictographData

/-- Mathematical brackets, which stay narrow. -/
def isNarrowBracket (n : Nat) : Bool := (0x27E6 ≤ n && n ≤ 0x27ED) || (0x2985 ≤ n && n ≤ 0x2986)

def cells (c : Char) : Nat :=
  let n := c.toNat
  if n < 0x20 || (0x7F ≤ n && n ≤ 0x9F) || n = 0xAD then 0
  else if n < 0x300 || isNarrowBracket n then 1
  else if zeroRanges.contains n then 0
  else if doubleRanges.contains n then 2
  else 1

/-- What a character does at the edge of a cluster. -/
inductive Edge
  | carriage
  | feed
  | control
  | extend
  | joiner
  | spacing
  | prepend
  | leading
  | vowel
  | trailing
  | syllable
  | closedSyllable
  | pictograph
  | regional
  | other
deriving DecidableEq, Repr, Inhabited

def edge (c : Char) : Edge :=
  let n := c.toNat
  if n = 13 then .carriage
  else if n = 10 then .feed
  else if n = 0x200D then .joiner
  else if 0x20 ≤ n && n < 0x7F then .other
  else if controlRanges.contains n then .control
  else if extendRanges.contains n then .extend
  else if spacingRanges.contains n then .spacing
  else if prependRanges.contains n then .prepend
  else if (0x1100 ≤ n && n ≤ 0x115F) || (0xA960 ≤ n && n ≤ 0xA97C) then .leading
  else if (0x1160 ≤ n && n ≤ 0x11A7) || (0xD7B0 ≤ n && n ≤ 0xD7C6) then .vowel
  else if (0x11A8 ≤ n && n ≤ 0x11FF) || (0xD7CB ≤ n && n ≤ 0xD7FB) then .trailing
  else if 0xAC00 ≤ n && n ≤ 0xD7A3 then (if (n - 0xAC00) % 28 = 0 then .syllable else .closedSyllable)
  else if 0x1F1E6 ≤ n && n ≤ 0x1F1FF then .regional
  else if pictographRanges.contains n then .pictograph
  else .other

/-- How far a pictograph sequence has come, up to the last character. -/
inductive Picture
  | none
  | open
  | joined
deriving DecidableEq, Repr, Inhabited

/-- What is known of the text before a possible edge. -/
structure Before where
  last : Edge
  picture : Picture := .none
  oddRegional : Bool := false

def Picture.next (p : Picture) : Edge → Picture
  | .pictograph => .open
  | .extend => if p = .open then .open else .none
  | .joiner => if p = .open then .joined else .none
  | _ => .none

def Before.next (b : Before) (e : Edge) : Before :=
  { last := e, picture := b.picture.next e, oddRegional := e = .regional && !(b.last = .regional && b.oddRegional) }

def Before.first (e : Edge) : Before := { last := e, picture := Picture.none.next e, oddRegional := e = .regional }

/-- Whether the next character belongs to the same cluster. -/
def Before.joins (b : Before) (e : Edge) : Bool :=
  match b.last, e with
  | .carriage, .feed => true
  | .carriage, _ | .feed, _ | .control, _ => false
  | _, .carriage | _, .feed | _, .control => false
  | _, .extend | _, .joiner | _, .spacing => true
  | .prepend, _ => true
  | .leading, .leading | .leading, .vowel | .leading, .syllable | .leading, .closedSyllable => true
  | .syllable, .vowel | .syllable, .trailing | .vowel, .vowel | .vowel, .trailing => true
  | .closedSyllable, .trailing | .trailing, .trailing => true
  | .joiner, .pictograph => b.picture = .joined
  | .regional, .regional => b.oddRegional
  | _, _ => false

/-! ## Cutting octets into clusters -/

/-- How many octets the first octet of a sequence announces. -/
def announced (b : UInt8) : Nat :=
  if b < 0xC2 then 1 else if b < 0xE0 then 2 else if b < 0xF0 then 3 else if b < 0xF8 then 4 else 1

/-- The length of the sequence at the front: up to the first octet that cannot continue it. -/
def sequenceLength (bs : Bytes) : Nat :=
  match bs with
  | [] => 0
  | b :: rest => 1 + ((rest.take (announced b - 1)).takeWhile Utf8.isCont).length

def edgeOf (sequence : Bytes) : Edge :=
  match Utf8.nextChar sequence with
  | some (some c, []) => edge c
  | _ => .other

/-- The sequences of a text with their edges, and what is left when the last one breaks off. -/
def sequences : Nat → Bytes → List (Edge × Bytes) × Bytes
  | 0, bs => ([], bs)
  | _ + 1, [] => ([], [])
  | fuel + 1, b :: rest =>
    if (b :: rest).length < announced b then ([], b :: rest)
    else
      let n := sequenceLength (b :: rest)
      let (more, left) := sequences fuel ((b :: rest).drop n)
      ((edgeOf ((b :: rest).take n), (b :: rest).take n) :: more, left)

/-- The cluster begun in `held` and those of the rest; what is left at the end belongs to the last one. -/
def clustersFrom (left : Bytes) (b : Before) (held : Bytes) : List (Edge × Bytes) → List Bytes
  | [] => [held ++ left]
  | (e, part) :: rest =>
    if b.joins e then clustersFrom left (b.next e) (held ++ part) rest
    else held :: clustersFrom left (Before.first e) part rest

def clusters (bs : Bytes) : List Bytes :=
  match sequences bs.length bs with
  | ([], left) => if left.isEmpty then [] else [left]
  | ((e, part) :: rest, left) => clustersFrom left (Before.first e) part rest

/-- The cells of a cluster are those of its first character that takes any. -/
def clusterCells (cluster : Bytes) : Nat :=
  (((Utf8.chars cluster).map fun c => cells (c.getD Utf8.replacement)).find? (0 < ·)).getD 0

def width (bs : Bytes) : Nat := (clusters bs).foldl (· + clusterCells ·) 0

/-- The clusters that fit into a number of cells. -/
def fitting (room : Nat) : List Bytes → List Bytes
  | [] => []
  | c :: rest => if clusterCells c ≤ room then c :: fitting (room - clusterCells c) rest else []

/-- The text itself if it fits, else as much of it as leaves room for the mark, and the mark. -/
def truncate (bs : Bytes) (room : Nat) (mark : String) : Bytes :=
  let tail := Utf8.encode mark
  if width bs ≤ room then bs
  else if room < width tail then tail
  else (fitting (room - width tail) (clusters bs)).flatten ++ tail

end Width

end TreeCompiler
