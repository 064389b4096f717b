import SwiftDecl.Manifest.Emission

/-!
# SwiftDecl.CommandLine.Arguments

The arguments of the command line. They are read from the left, and the first one that is wrong or
that asks for help or the version settles the matter. A value may stand in the argument after its
option or, perhaps after an equals sign, in the same one; it may start with a dash only there.
-/

namespace SwiftDecl
namespace CommandLine

inductive Shell where
  | bash
  | elvish
  | fish
  | powershell
  | zsh
  deriving DecidableEq

inductive Command where
  | emit (manifest : String) (dumpModel : Bool) (options : Manifest.EmitOptions)
  | check (manifest : String)
  | completions (shell : Shell)
  | help
  | version

def defaultManifest : String := "lantern.toml"

inductive OptionKind where
  | help
  | flag
  | value

/-- An option of a subcommand. -/
structure OptionSpec where
  name : String
  letter : Option Char := none
  kind : OptionKind
  /-- What its value must look like. -/
  accepts : String → Bool := fun _ => true

/-- What the arguments of a subcommand said. -/
structure Given where
  values : List (String × String) := []
  positionals : List String := []

inductive Reading where
  | done (given : Given)
  | help
  | wrong

namespace Given

def has (g : Given) (name : String) : Bool := (g.values.lookup name).isSome

/-- An option may be given once. -/
def add (spec : OptionSpec) (value : String) (g : Given) : Option Given :=
  if g.has spec.name || !spec.accepts value then none
  else some { g with values := (spec.name, value) :: g.values }

end Given

/-- The text before the first equals sign and, if there is one, the text after it. -/
def splitEquals : List Char → List Char × Option (List Char)
  | [] => ([], none)
  | c :: cs =>
    if c = '=' then ([], some cs) else (c :: (splitEquals cs).1, (splitEquals cs).2)

/-- The options that a single argument names, with a value if it holds one. -/
inductive Token where
  | long (name : String) (value : Option String)
  | short (letters : List Char)
  | separator
  | plain (text : String)

def token (arg : String) : Token :=
  match arg.toList with
  | ['-', '-'] => .separator
  | '-' :: '-' :: cs =>
    .long (String.ofList (splitEquals cs).1) ((splitEquals cs).2.map String.ofList)
  | '-' :: c :: cs => .short (c :: cs)
  | _ => .plain arg

/-- What is left to do after an argument. -/
inductive After where
  | go (given : Given)
  /-- The next argument is the value of an option. -/
  | awaits (spec : OptionSpec) (given : Given)
  /-- All further arguments are positional. -/
  | positionals (given : Given)
  | help
  | wrong

def afterAdding (g : Option Given) : After :=
  match g with
  | none => .wrong
  | some g => .go g

def long (specs : List OptionSpec) (name : String) (value : Option String) (g : Given) : After :=
  match specs.find? (·.name == name) with
  | none => .wrong
  | some spec =>
    match spec.kind, value with
    | .help, none => .help
    | .flag, none => afterAdding (g.add spec "")
    | .value, none => .awaits spec g
    | .value, some value => afterAdding (g.add spec value)
    | _, some _ => .wrong

/-- Letters after a single dash. What follows the letter of an option with a value is the
value. -/
def short (specs : List OptionSpec) : List Char → Given → After
  | [], g => .go g
  | c :: cs, g =>
    match specs.find? (·.letter == some c) with
    | none => .wrong
    | some spec =>
      match spec.kind, cs with
      | .help, _ => .help
      | .flag, cs =>
        match g.add spec "" with
        | none => .wrong
        | some g => short specs cs g
      | .value, [] => .awaits spec g
      | .value, '=' :: cs => afterAdding (g.add spec (String.ofList cs))
      | .value, cs => afterAdding (g.add spec (String.ofList cs))

/-- Adds positional arguments, if there is room for them. -/
def place (accepts : String → Bool) (room : Nat) (args : List String) (g : Given) :
    Option Given :=
  let positionals := g.positionals ++ args
  if positionals.length ≤ room && args.all accepts then some { g with positionals } else none

/-- Reads the arguments of a subcommand that takes up to `room` positional ones. -/
def read (specs : List OptionSpec) (accepts : String → Bool) (room : Nat) :
    List String → Given → Reading
  | [], g => .done g
  | arg :: args, g =>
    let after : After :=
      match token arg with
      | .separator => .positionals g
      | .plain text => afterAdding (place accepts room [text] g)
      | .long name value => long specs name value g
      | .short letters => short specs letters g
    match after with
    | .help => .help
    | .wrong => .wrong
    | .go g => read specs accepts room args g
    | .positionals g =>
      match place accepts room args g with
      | none => .wrong
      | some g => .done g
    | .awaits spec g =>
      match args with
      | [] => .wrong
      | value :: args =>
        match token value, g.add spec value with
        | .plain _, some g => read specs accepts room args g
        | _, _ => .wrong

def isPath (s : String) : Bool := !s.isEmpty

def helpOption : OptionSpec := { name := "help", letter := some 'h', kind := .help }

def manifestOption : OptionSpec :=
  { name := "manifest", letter := some 'm', kind := .value, accepts := isPath }

def emitOptions : List OptionSpec := [
  manifestOption,
  { name := "output", letter := some 'o', kind := .value, accepts := isPath },
  { name := "indent", kind := .value, accepts := fun s => (Indent.parse s).isSome },
  { name := "keep-existing", kind := .flag },
  { name := "dump-model", kind := .flag },
  helpOption]

def shells : List (String × Shell) := [
  ("bash", .bash), ("elvish", .elvish), ("fish", .fish), ("powershell", .powershell),
  ("zsh", .zsh)]

/-- Keeping an existing file needs a file to write, and the model goes to no file. -/
def emitCommand (g : Given) : Option Command :=
  let keepsExisting := g.has "keep-existing"
  let dumpModel := g.has "dump-model"
  if keepsExisting && !g.has "output" || dumpModel && g.has "output" then none
  else
    some (.emit ((g.values.lookup "manifest").getD defaultManifest) dumpModel {
      output := g.values.lookup "output"
      indent := (g.values.lookup "indent").bind Indent.parse
      keepsExisting })

def checkCommand (g : Given) : Option Command :=
  some (.check ((g.values.lookup "manifest").getD defaultManifest))

def completionsCommand (g : Given) : Option Command :=
  (g.positionals.head?.bind fun name => shells.lookup name).map .completions

def finish (command : Given → Option Command) : Reading → Option Command
  | .done g => command g
  | .help => some .help
  | .wrong => none

/-- The command that the arguments stand for, if they stand for one. -/
def parse : List String → Option Command
  | "emit" :: args => finish emitCommand (read emitOptions (fun _ => true) 0 args {})
  | "check" :: args =>
    finish checkCommand (read [manifestOption, helpOption] (fun _ => true) 0 args {})
  | "completions" :: args =>
    finish completionsCommand
      (read [helpOption] (fun s => (shells.lookup s).isSome) 1 args {})
  | "help" :: args =>
    match args with
    | [] => some .help
    | [name] => if name ∈ ["emit", "check", "completions", "help"] then some .help else none
    | _ => none
  | arg :: _ =>
    match token arg with
    | .long "help" none => some .help
    | .long "version" none => some .version
    | .short ('h' :: _) => some .help
    | .short ('V' :: _) => some .version
    | _ => none
  | [] => none

end CommandLine
end SwiftDecl
