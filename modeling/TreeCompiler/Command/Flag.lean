import TreeCompiler.Number.Integer

/-!
# Flags of a command line

* `Flag` : a named option with the kind of its value;
* `FlagValues.parse` : reads arguments. `--name value`, `--name=value` and, by letter, `-n value`, `-nvalue` and `-n=value`
  set a flag; a flag with a value of its own takes none from the next argument; `--` ends the flags.
-/

namespace TreeCompiler

inductive FlagKind
  | text
  | int
  | bool
deriving DecidableEq, Repr, Inhabited

structure Flag where
  name : String
  usage : String
  kind : FlagKind := .text
  letter : Option Char := none
  default : String := ""
  /-- The value of the flag without one; empty when it needs one. -/
  bare : String := ""
deriving DecidableEq, Repr, Inhabited

namespace Flag

/-- A switch, off unless it is given. -/
def switch (name usage : String) (letter : Option Char := none) : Flag :=
  { name, usage, kind := .bool, letter, default := "false", bare := "true" }

/-- The name under which a flag is shown. -/
def shownName (f : Flag) : String :=
  match f.letter with
  | some c => "-" ++ String.singleton c ++ ", --" ++ f.name
  | none => "--" ++ f.name

def boolWords : List (String × Bool) :=
  [("1", true), ("t", true), ("T", true), ("TRUE", true), ("true", true), ("True", true), ("0", false), ("f", false),
   ("F", false), ("FALSE", false), ("false", false), ("False", false)]

/-- Why a value does not fit the flag. -/
def refuse? (f : Flag) (value : String) : Option String :=
  match f.kind with
  | .text => none
  | .bool =>
    if (boolWords.lookup value).isSome then none
    else some ("strconv.ParseBool: parsing " ++ quote value ++ ": invalid syntax")
  | .int =>
    match readInteger value with
    | .ok _ => none
    | .error e => some ("strconv.ParseInt: parsing " ++ quote value ++ ": " ++ e.text)

end Flag

inductive FlagError
  | badSyntax (arg : String)
  | unknown (name : String)
  | unknownLetter (letter : Char) (letters : String)
  | needsValue (name : String)
  | letterNeedsValue (letter : Char) (letters : String)
  | badValue (flag : Flag) (value reason : String)
deriving DecidableEq, Repr, Inhabited

namespace FlagError

/-- The first octet of a letter, read as a character of that number. -/
def leadOctet (c : Char) : Char := Char.ofNat ((Utf8.encode (String.singleton c)).headD 0).toNat

/-- A letter between single quotes. A letter is one octet; of an octet beyond ASCII that is no letter of its own, the
first octet of its encoding is shown. -/
def quoteLetter (letter : Char) : String :=
  let c := leadOctet (leadOctet letter)
  let body := if c.toNat = 0x27 then "\\'" else if c.toNat = 0x22 then "\"" else quoteChar c
  "'" ++ body ++ "'"

def message : FlagError → String
  | badSyntax arg => "bad flag syntax: " ++ arg
  | unknown name => "unknown flag: --" ++ name
  | unknownLetter c letters => "unknown shorthand flag: " ++ quoteLetter c ++ " in -" ++ letters
  | needsValue name => "flag needs an argument: --" ++ name
  | letterNeedsValue c letters => "flag needs an argument: " ++ quoteLetter c ++ " in -" ++ letters
  | badValue f value reason =>
    "invalid argument " ++ quote value ++ " for " ++ quote f.shownName ++ " flag: " ++ reason

end FlagError

/-- The flags that were given, the latest first, and the other arguments. -/
structure FlagValues where
  given : List (String × String) := []
  args : List String := []
deriving DecidableEq, Repr, Inhabited

namespace FlagValues

def isGiven (v : FlagValues) (name : String) : Bool := (v.given.lookup name).isSome

/-- The text of a flag, or a default. -/
def text (v : FlagValues) (name : String) (default : String := "") : String := (v.given.lookup name).getD default

def isOn (v : FlagValues) (name : String) : Bool := (Flag.boolWords.lookup (v.text name)).getD false

def number (v : FlagValues) (name : String) : Int := (readInteger (v.text name)).toOption.getD 0

def set (v : FlagValues) (f : Flag) (value : String) : Except FlagError FlagValues :=
  match f.refuse? value with
  | some reason => .error (.badValue f value reason)
  | none => .ok { v with given := (f.name, value) :: v.given }

/-- Where a flag takes its value from: its own argument, or the next one. -/
inductive Source
  | own (value : String)
  | next

def longSource (f : Flag) (parts : List String) : Source :=
  match parts with
  | [_] => if f.bare ≠ "" then .own f.bare else .next
  | _ :: value => .own (String.intercalate "=" value)
  | [] => .next

/-- Whether the letters are an argument for a test run, which is passed over. -/
def isForTests (letters : List Char) : Bool := "test.".toList.isPrefixOf letters

/-- Sets the flags of a group of letters and says whether the last one takes the next argument. -/
def setLetters (flags : List Flag) :
    FlagValues → List Char → Except FlagError (FlagValues × Option (Flag × Char × String))
  | v, [] => .ok (v, none)
  | v, c :: rest =>
    if isForTests (c :: rest) then .ok (v, none)
    else match flags.find? (·.letter = some c) with
    | none => .error (.unknownLetter c (String.ofList (c :: rest)))
    | some f =>
      match rest with
      | '=' :: d :: value => do return (← v.set f (String.ofList (d :: value)), none)
      | _ =>
        if f.bare ≠ "" then do setLetters flags (← v.set f f.bare) rest
        else if rest.isEmpty then .ok (v, some (f, c, String.ofList [c]))
        else do return (← v.set f (String.ofList rest), none)

def parseFrom (flags : List Flag) : Nat → FlagValues → List String → Except FlagError FlagValues
  | 0, v, _ | _, v, [] => .ok v
  | fuel + 1, v, arg :: rest =>
    match arg.toList with
    | '-' :: '-' :: [] => .ok { v with args := v.args ++ rest }
    | '-' :: '-' :: c :: _ =>
      if c = '-' || c = '=' then .error (.badSyntax arg)
      else
        let parts := ((arg.drop 2).toString.splitOn "=")
        let name := parts.headD ""
        match flags.find? (·.name == name) with
        | none => .error (.unknown name)
        | some f =>
          match longSource f parts, rest with
          | .own value, _ => do parseFrom flags fuel (← v.set f value) rest
          | .next, value :: rest => do parseFrom flags fuel (← v.set f value) rest
          | .next, [] => .error (.needsValue name)
    | '-' :: c :: letters => do
      match ← setLetters flags v (c :: letters), rest with
      | (v, none), rest => parseFrom flags fuel v rest
      | (v, some (f, _, _)), value :: rest => do parseFrom flags fuel (← v.set f value) rest
      | (_, some (_, c, group)), [] => .error (.letterNeedsValue c group)
    | _ => parseFrom flags fuel { v with args := v.args ++ [arg] } rest

def parse (flags : List Flag) (args : List String) : Except FlagError FlagValues :=
  parseFrom flags (args.length + 1) {} args

end FlagValues

end TreeCompiler
