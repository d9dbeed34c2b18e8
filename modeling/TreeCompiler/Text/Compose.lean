import TreeCompiler.Text.Ranges
import TreeCompiler.Text.ComposeData

/-!
# Canonical composition of text

`normalize` gives the canonical composed form of a text: every character is decomposed, runs of combining marks are
put in the order of their classes, and what composes is composed again. Two spellings of a name that are canonically
equivalent have the same normal form, as long as no character has more marks than `maxMarks`: a longer run of marks is
broken by a joiner, and marks on different sides of it stay there.

* `settledFront` : the part of a text that is in its normal form as it stands, which is seen from the characters alone;
* `segment` : the normal form of a character with the marks behind it;
* `normalizeCodes` : one after the other, until the text ends.
-/

namespace TreeCompiler.Compose

/-- What a character decomposes into in one step. -/
def decomposition? (c : Nat) : Option (List Nat) :=
  match pairData.lookup c with
  | some (a, b) => some [a, b]
  | none => oneWayData.lookup c

/-- The low sixteen bits of a character, by which the parts of a pair are looked up. -/
def lowBits (c : Nat) : Nat := c % Nat.pow 2 16

/-- What a pair composes to. -/
def composition? (a b : Nat) : Option Nat :=
  (pairData.find? fun (_, x, y) => lowBits x = lowBits a && lowBits y = lowBits b).map (·.1)

/-- Characters that are the second of a pair. -/
def isSecond (c : Nat) : Bool := pairData.any fun (_, _, b) => b = c

/-- Characters that decompose and are not composed again. -/
def isOneWay (c : Nat) : Bool := oneWayData.any fun (x, _) => x = c

def oneMarkRanges : Ranges := { bounds := oneMarkData.toArray }
def twoMarkRanges : Ranges := { bounds := twoMarkData.toArray }
def markLikeRanges : Ranges := { bounds := markLikeData.toArray }

def classOf (c : Nat) : Nat :=
  ((classData.find? fun (first, last, _) => first ≤ c && c ≤ last).map (·.2.2)).getD 0

/-- Parts of a character, worked off until none decomposes further. -/
def decomposeAux : Nat → Nat → List Nat
  | 0, c => [c]
  | fuel + 1, c =>
    if 0xAC00 ≤ c && c ≤ 0xD7A3 then
      let i := c - 0xAC00
      let head := [0x1100 + i / 588, 0x1161 + i % 588 / 28]
      if i % 28 = 0 then head else head ++ [0x11A7 + i % 28]
    else match decomposition? c with
      | none => [c]
      | some parts => parts.flatMap (decomposeAux fuel)

/-- The character that two adjacent ones compose to. -/
def pair? (a b : Nat) : Option Nat :=
  if 0x1100 ≤ a && a < 0x1113 && 0x1161 ≤ b && b < 0x1176 then
    some (0xAC00 + ((a - 0x1100) * 21 + (b - 0x1161)) * 28)
  else if 0xAC00 ≤ a && a ≤ 0xD7A3 && (a - 0xAC00) % 28 = 0 && 0x11A8 ≤ b && b < 0x11C3 then
    some (a + (b - 0x11A7))
  else composition? a b

/-! ## Marks -/

def parts (c : Nat) : List Nat := decomposeAux 8 c

/-- The class of the first part of a character. -/
def leadClass (c : Nat) : Nat := classOf ((parts c).headD c)

/-- Whether a character may compose with one before it. -/
def joinsBack (c : Nat) : Bool :=
  (0x1161 ≤ c && c < 0x1176) || (0x11A8 ≤ c && c < 0x11C3) || isSecond c

/-- Characters that belong to the one before them. -/
def isMark (c : Nat) : Bool := 0 < classOf c || joinsBack c

/-- How many marks a character begins with. -/
def leadingMarks (c : Nat) : Nat :=
  if markLikeRanges.contains c then 1 else ((parts c).takeWhile isMark).length

/-- How many marks a character ends with. -/
def trailingMarks (c : Nat) : Nat :=
  if markLikeRanges.contains c || oneMarkRanges.contains c then 1
  else if twoMarkRanges.contains c then 2
  else ((parts c).reverse.takeWhile isMark).length

/-- Whether a character stays as it is, whatever stands before it. -/
def isSettled (c : Nat) : Bool := !joinsBack c && !isOneWay c

/-- The most marks in a row. -/
def maxMarks : Nat := 30

/-- The character that breaks a run of marks. -/
def joiner : Nat := 0x034F

/-! ## What is settled already -/

/-- The settled part of a text up to the last character that begins a segment, and the rest. `marks` counts the marks so
far, `last` is the class of the last character, `done` and `held` are the segments before this one and this one, both
reversed. -/
def settledFrom (marks last : Nat) (done held : List Nat) : List Nat → List Nat × List Nat
  | [] => ((held ++ done).reverse, [])
  | c :: rest =>
    let lead := leadingMarks c
    if lead = 0 then
      if isSettled c then settledFrom (trailingMarks c) (leadClass c) (held ++ done) [c] rest
      else ((held ++ done).reverse, c :: rest)
    else if maxMarks < marks + lead || leadClass c < last || !isSettled c then
      (done.reverse, held.reverse ++ c :: rest)
    else settledFrom (marks + lead) (leadClass c) done (c :: held) rest

def settledFront (cs : List Nat) : List Nat × List Nat := settledFrom 0 0 [] [] cs

/-! ## Segments -/

/-- Composes onto `base`; `held` are the characters after it that did not compose, and `before` those before it, both
latest first. A mark is blocked from the base by another of its class or a higher one. -/
def composeFrom (before : List Nat) (base : Nat) (held : List Nat) : List Nat → List Nat
  | [] => before.reverse ++ base :: held.reverse
  | c :: rest =>
    if !joinsBack c then composeFrom before base (c :: held) rest
    else match held with
      | [] =>
        match pair? base c with
        | some p => composeFrom before p [] rest
        | none => composeFrom before base [c] rest
      | m :: ms =>
        if classOf m = 0 then
          match pair? m c with
          | some p => composeFrom (ms ++ base :: before) p [] rest
          | none => composeFrom (ms ++ base :: before) m [c] rest
        else match (if classOf m < classOf c then pair? base c else none) with
          | some p => composeFrom before p held rest
          | none => composeFrom before base (c :: held) rest

def compose : List Nat → List Nat
  | [] => []
  | c :: rest => composeFrom [] c [] rest

/-- A segment under construction: what is finished, and the parts since then, latest first. -/
structure Draft where
  done : List Nat := []
  held : List Nat := []

namespace Draft

def flush (d : Draft) : Draft := { done := d.done ++ compose d.held.reverse, held := [] }

/-- Puts a part behind those of no higher class. -/
def place (d : Draft) (c : Nat) : Draft :=
  let above := if classOf c = 0 then [] else d.held.takeWhile fun m => classOf c < classOf m
  { d with held := above ++ c :: d.held.drop above.length }

/-- Adds a part of a character that decomposes; what is no mark begins anew. -/
def addPart (d : Draft) (c : Nat) : Draft := (if isMark c then d else d.flush).place c

def add (d : Draft) (c : Nat) : Draft :=
  match parts c with
  | [_] | [] => d.place ((parts c).headD c)
  | cs => cs.foldl addPart d

end Draft

/-- Adds the marks that follow. One mark too many ends the segment with a joiner. -/
def extend (marks : Nat) (d : Draft) : List Nat → List Nat × List Nat
  | [] => (d.flush.done, [])
  | c :: rest =>
    let lead := leadingMarks c
    if maxMarks < marks + lead then ((d.place joiner).flush.done, c :: rest)
    else if lead = 0 then (d.flush.done, c :: rest)
    else extend (marks + lead) (d.add c) rest

/-- The normal form of the first character with its marks, and the rest. -/
def segment : List Nat → List Nat × List Nat
  | [] => ([], [])
  | c :: rest =>
    let lead := leadingMarks c
    extend (if lead = 0 then trailingMarks c else lead) (({} : Draft).add c) rest

/-- Every round takes a character at least, so the length bounds their number. -/
def normalizeAux : Nat → List Nat → List Nat
  | 0, cs => cs
  | fuel + 1, cs =>
    match settledFront cs with
    | (front, []) => front
    | (front, rest) =>
      let (out, rest) := segment rest
      front ++ out ++ normalizeAux fuel rest

def normalizeCodes (cs : List Nat) : List Nat := normalizeAux (cs.length + 1) cs

/-- The canonical composed form. Characters below U+0300 are in that form already. -/
def normalize (s : String) : String :=
  if s.toList.all (·.toNat < 0x300) then s
  else String.ofList ((normalizeCodes (s.toList.map (·.toNat))).map Char.ofNat)

end TreeCompiler.Compose
