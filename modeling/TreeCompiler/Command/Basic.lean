import TreeCompiler.Command.Flag
import TreeCompiler.Text.Lowercase

/-!
# Commands

`Command` lists what the tool can be asked to do, with the texts and flags of each.

* `Command.resolve` : the command that arguments name, and the arguments left for it;
* `Command.checkArgs` : whether a command takes that many arguments;
* `Command.suggestions` : commands that a misspelt name may have meant.
-/

namespace TreeCompiler

inductive Command
  | root
  | build
  | check
  | disasm
  | version
  | help
  | completion
  | shell (name : String)
deriving DecidableEq, Repr, Inhabited

namespace Command

/-- The name of the tool. -/
def tool : String := "loomc"

def name : Command → String
  | root => tool
  | build => "build"
  | check => "check"
  | disasm => "disasm"
  | version => "version"
  | help => "help"
  | completion => "completion"
  | shell name => name

def path : Command → String
  | root => tool
  | shell name => tool ++ " completion " ++ name
  | c => tool ++ " " ++ c.name

/-- The command with its arguments. -/
def use : Command → String
  | build => path build ++ " [units...]"
  | check => path check ++ " [units...]"
  | disasm => path disasm ++ " <program.lbc>"
  | help => path help ++ " [command]"
  | c => c.path

def short : Command → String
  | root => "Loom semantic analyzer and bytecode compiler"
  | build => "Compile units to bytecode programs"
  | check => "Analyze units and report diagnostics without emitting code"
  | disasm => "Print a listing of a compiled program"
  | version => "Show loomc build information"
  | help => "Help about any command"
  | completion => "Generate the autocompletion script for the specified shell"
  | shell name => "Generate the autocompletion script for " ++ name

/-- The last line of the help on a script that new shells read. -/
def newShell : String := "\n\nYou will need to start a new shell for this setup to take effect."

/-- How the script for a shell is loaded, now and for every new session. -/
def loading : String → String
  | "bash" =>
    "This script depends on the 'bash-completion' package.\n" ++
    "If it is not installed already, you can install it via your OS's package manager.\n\n" ++
    "To load completions in your current shell session:\n\n\tsource <(loomc completion bash)\n\n" ++
    "To load completions for every new session, execute once:\n\n" ++
    "#### Linux:\n\n\tloomc completion bash > /etc/bash_completion.d/loomc\n\n" ++
    "#### macOS:\n\n\tloomc completion bash > $(brew --prefix)/etc/bash_completion.d/loomc" ++ newShell
  | "fish" =>
    "To load completions in your current shell session:\n\n\tloomc completion fish | source\n\n" ++
    "To load completions for every new session, execute once:\n\n" ++
    "\tloomc completion fish > ~/.config/fish/completions/loomc.fish" ++ newShell
  | "powershell" =>
    "To load completions in your current shell session:\n\n" ++
    "\tloomc completion powershell | Out-String | Invoke-Expression\n\n" ++
    "To load completions for every new session, add the output of the above command\n" ++
    "to your powershell profile."
  | "zsh" =>
    "If shell completion is not already enabled in your environment you will need\n" ++
    "to enable it.  You can execute the following once:\n\n" ++
    "\techo \"autoload -U compinit; compinit\" >> ~/.zshrc\n\n" ++
    "To load completions in your current shell session:\n\n\tsource <(loomc completion zsh)\n\n" ++
    "To load completions for every new session, execute once:\n\n" ++
    "#### Linux:\n\n\tloomc completion zsh > \"$\x7bfpath[1]\x7d/_loomc\"\n\n" ++
    "#### macOS:\n\n\tloomc completion zsh > $(brew --prefix)/share/zsh/site-functions/_loomc" ++ newShell
  | _ => ""

def long : Command → String
  | root => "loomc analyzes encoded AST units (.lasts) and compiles them to register bytecode (.lbc)"
  | build => "Compile encoded AST units (.lasts files, or directories containing them)\n" ++
      "to .lbc programs. Units are independent and compiled in parallel."
  | help => "Help provides help for any command in the application.\n" ++
      "Simply type loomc help [path to command] for full details."
  | completion => "Generate the autocompletion script for loomc for the specified shell.\n" ++
      "See each sub-command's help for details on how to use the generated script."
  | shell "powershell" => short (shell "powershell") ++ ".\n\n" ++ loading "powershell"
  | shell name => "Generate the autocompletion script for the " ++ name ++ " shell.\n\n" ++ loading name
  | c => c.short

/-- In the order in which a misspelt name is compared with them. -/
def children : Command → List Command
  | root => [build, check, disasm, version, help, completion]
  | completion => [shell "bash", shell "fish", shell "powershell", shell "zsh"]
  | _ => []

/-- Whether the command does something itself, rather than only lead to others. -/
def isRunnable : Command → Bool
  | root | completion => false
  | _ => true

/-- Flags that hold for every command. -/
def sharedFlags : List Flag :=
  [{ name := "color", usage := "colorize output (auto|on|off)", default := "auto" },
   { name := "config", usage := "path to loom.toml (default: nearest above the working directory)" },
   { name := "cpu-profile", usage := "write a CPU profile to this file" },
   { name := "diag-format", usage := "diagnostics format (pretty|json|summary; default from config)" },
   { name := "log-file", usage := "also write JSON logs to this file" },
   { name := "max-diagnostics", usage := "maximum number of diagnostics per unit (0 = from config)", kind := .int,
     default := "0" },
   { name := "mem-profile", usage := "write a heap profile to this file on exit" },
   .switch "quiet" "suppress non-essential output",
   { name := "runtime-trace", usage := "write a Go runtime trace to this file" },
   .switch "timings" "show timing information",
   { name := "trace", usage := "trace output file (- for stderr)" },
   { name := "trace-level", usage := "trace level (off|error|phase|detail|debug)" },
   { name := "trace-mode", usage := "trace storage mode (ring|stream|both)" },
   .switch "verbose" "log debug messages"]

def jobsFlag : Flag := { name := "jobs", usage := "parallel units (0 = from config)", kind := .int, default := "0" }

/-- Flags of the command alone, but for those that every command has. -/
def ownFlags : Command → List Flag
  | build =>
    [jobsFlag, .switch "no-cache" "neither read nor write the disk cache",
     { name := "out", usage := "output directory (default: next to each unit)", letter := some 'o' },
     { name := "ui", usage := "progress view (auto|on|off)", default := "off", bare := "on" }]
  | check => [jobsFlag]
  | disasm => [.switch "no-pos" "omit source positions", .switch "raw" "omit string, function and native annotations"]
  | version => [{ name := "format", usage := "output format (pretty|json)", default := "pretty" }]
  | shell _ => [.switch "no-descriptions" "disable completion descriptions"]
  | _ => []

/-- Flags that ask about the command instead of running it. -/
def metaFlags (c : Command) : List Flag :=
  .switch "help" ("help for " ++ c.name) (some 'h') ::
    (if c = root then [.switch "version" ("version for " ++ tool) (some 'v')] else [])

/-- Flags known while the command is being looked for. -/
def knownFlags (c : Command) : List Flag := c.ownFlags ++ sharedFlags

def allFlags (c : Command) : List Flag := c.ownFlags ++ c.metaFlags ++ sharedFlags

/-! ## Finding the command -/

/-- Whether an argument is a flag that takes the next one as its value, as far as the flags are known. -/
def takesNext (flags : List Flag) (arg : String) : Bool :=
  let hasBare (f : Flag) : Bool := f.bare ≠ ""
  if arg.toList.contains '=' then false
  else match arg.toList with
    | '-' :: '-' :: name => !(flags.any fun f => f.name == String.ofList name && hasBare f)
    | ['-', c] => c.toNat < 0x80 && !(flags.any fun f => f.letter = some c && hasBare f)
    | _ => false

/-- The arguments that are neither flags nor their values. -/
def plainArgs (flags : List Flag) : List String → List String
  | [] => []
  | arg :: rest =>
    if arg = "--" then []
    else if takesNext flags arg then
      match rest with
      | _ :: next :: more => plainArgs flags (next :: more)
      | _ => []
    else if arg ≠ "" && !arg.startsWith "-" then arg :: plainArgs flags rest
    else plainArgs flags rest

/-- The arguments without the first one that is plain and equal to `name`. -/
def withoutFirst (flags : List Flag) (name : String) : List String → List String
  | [] => []
  | arg :: rest =>
    if arg = "--" then arg :: rest
    else if takesNext flags arg then
      match rest with
      | value :: more => arg :: value :: withoutFirst flags name more
      | [] => [arg]
    else if arg = name then rest
    else arg :: withoutFirst flags name rest

/-- Descends through the names of commands; none is deeper than two. -/
def descend : Nat → Command → List String → Command × List String
  | 0, c, args => (c, args)
  | fuel + 1, c, args =>
    match plainArgs c.knownFlags args with
    | [] => (c, args)
    | name :: _ =>
      match c.children.find? (·.name == name) with
      | some child => descend fuel child (withoutFirst c.knownFlags name args)
      | none => (c, args)

/-! ## Misspelt names -/

/-- The next row of the table of edit distances, from the row above it. -/
def distanceRow (c : UInt8) (left : Nat) : Bytes → List Nat → List Nat
  | d :: ds, diagonal :: above :: rest =>
    let here := min (min (above + 1) (left + 1)) (if c = d then diagonal else diagonal + 1)
    here :: distanceRow c here ds (above :: rest)
  | _, _ => []

/-- How many octets have to be changed, added or removed, whatever the case of the letters. -/
def editDistance (a b : String) : Nat :=
  let bs := Utf8.encode (lower b)
  let row := (Utf8.encode (lower a)).foldl (fun row c =>
    let left := row.headD 0 + 1
    left :: distanceRow c left bs row) (List.range (bs.length + 1))
  row.getLastD 0

def suggestions (typed : String) : List String :=
  ((root.children.filter (· ≠ help)).map name).filter fun n => editDistance typed n ≤ 2 || n.startsWith (lower typed)

inductive UseError
  | unknownCommand (word path : String) (hints : List String)
  | argCount (expected got : Nat)
deriving DecidableEq, Repr, Inhabited

def UseError.message : UseError → String
  | .unknownCommand word path hints =>
    "unknown command " ++ quote word ++ " for " ++ quote path ++
      (if hints.isEmpty then "" else "\n\nDid you mean this?\n" ++ String.join (hints.map fun h => "\t" ++ h ++ "\n"))
  | .argCount expected got => "accepts " ++ toString expected ++ " arg(s), received " ++ toString got

/-- The command that arguments name. A word that names none is refused at the root. -/
def resolve (args : List String) : Except UseError (Command × List String) :=
  let (c, rest) := descend 3 root args
  match c, plainArgs c.knownFlags rest with
  | root, word :: _ => .error (.unknownCommand word tool (suggestions word))
  | _, _ => .ok (c, rest)

def checkArgs (c : Command) (args : List String) : Except UseError Unit :=
  match c, args with
  | disasm, [_] => .ok ()
  | disasm, _ => .error (.argCount 1 args.length)
  | version, word :: _ | shell _, word :: _ => .error (.unknownCommand word c.path [])
  | _, _ => .ok ()

end Command

end TreeCompiler
