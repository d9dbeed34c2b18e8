import TreeCompiler.Command.Basic

/-!
# Help texts

* `Command.usage` : how a command is used, with its sub-commands and flags;
* `Command.helpText` : what it does, followed by its usage.
-/

namespace TreeCompiler

namespace Flag

/-- Name and kind of value, as they stand on the left of a help line. -/
def left (f : Flag) : String :=
  let kind := match f.kind with
    | .text => " string"
    | .int => " int"
    | .bool => ""
  let bare := if f.kind = .text && f.bare ≠ "" then "[=\"" ++ f.bare ++ "\"]" else ""
  (if f.letter.isSome then "  " else "      ") ++ f.shownName ++ kind ++ bare

/-- What the flag does, with its default unless that is empty. -/
def right (f : Flag) : String :=
  let default := if f.kind = .text then quote f.default else f.default
  f.usage ++ if ["", "0", "false"].contains f.default then "" else " (default " ++ default ++ ")"

/-- Help lines for flags, by name, with their right sides aligned. -/
def table (flags : List Flag) : String :=
  let width := (flags.map (·.left.length)).foldl max 0
  let sorted := flags.mergeSort fun a b => !(b.name < a.name)
  String.intercalate "\n" (sorted.map fun f => padRight (width + 3) f.left ++ f.right)

end Flag

namespace Command

/-- The command as it is typed. Its flags are mentioned, except where a script is asked for the first of the shells. -/
def useLine (c : Command) : String := if c = shell "bash" then c.use else c.use ++ " [flags]"

/-- The usage of a command; `withMeta` adds the flags that ask for help and version. -/
def usage (c : Command) (withMeta : Bool := true) : String :=
  let isLocal := c.ownFlags ++ (if withMeta then c.metaFlags else []) ++ (if c = root then sharedFlags else [])
  let children := c.children.mergeSort fun a b => !(b.name < a.name)
  "Usage:" ++ (if c.isRunnable then "\n  " ++ c.useLine else "") ++
    (if children.isEmpty then ""
     else "\n  " ++ c.path ++ " [command]\n\nAvailable Commands:" ++
      String.join (children.map fun child => "\n  " ++ padRight 11 child.name ++ " " ++ child.short)) ++
    (if isLocal.isEmpty then "" else "\n\nFlags:\n" ++ Flag.table isLocal) ++
    (if c = root then "" else "\n\nGlobal Flags:\n" ++ Flag.table sharedFlags) ++
    (if children.isEmpty then ""
     else "\n\nUse \"" ++ c.path ++ " [command] --help\" for more information about a command.") ++ "\n"

def helpText (c : Command) : String := c.long ++ "\n\n" ++ c.usage

/-- The answer to a question for help on words that name a command or not. -/
def helpOn (words : List String) : String :=
  match resolve words with
  | .ok (c, _) => c.helpText
  | .error _ =>
    "Unknown help topic [" ++ String.intercalate " " (words.map quoteRaw) ++ "]\n" ++ root.usage false

end Command

end TreeCompiler
