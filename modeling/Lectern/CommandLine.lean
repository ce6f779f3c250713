import Lectern.Compile

/-!
# The command line

The arguments and the environment of a run are read into a request, which is carried out on a
disk. A run ends with code 0 if it did what was asked, with 1 if the source could not be compiled,
and with 2 if the request was not understood.
-/

namespace Lectern

namespace CommandLine

/-- What a run finds besides its arguments: the variables that are set, and whether its output is
shown on a terminal. -/
structure Environment where
  lookup : String → Option String
  terminal : Bool := false

/-! ## Words -/

/-- An option that takes a value. -/
inductive Setting where
  | input
  | output
  | base
deriving DecidableEq, Repr

/-- An option without a value. -/
inductive Switch where
  | play
  | notes
deriving DecidableEq, Repr

/-- What an argument is on its own. -/
inductive Word where
  | setting (s : Setting)
  | assignment (s : Setting) (value : List Char)
  | switch (s : Switch)
  | help
  | version
  | ending
  | unknown
  | value (text : List Char)
deriving DecidableEq, Repr

/-- The option with a long name. -/
def ofLongName (name : List Char) : Word :=
  if name = "in".toList then .setting .input
  else if name = "out".toList then .setting .output
  else if name = "base".toList then .setting .base
  else if name = "play".toList then .switch .play
  else if name = "notes".toList then .switch .notes
  else if name = "help".toList then .help
  else if name = "version".toList then .version
  else .unknown

/-- The word that an argument is: a long option, perhaps with its value behind `=`; a short one; or
a value. A lone `-` is a value. -/
def Word.of (argument : List Char) : Word :=
  match argument with
  | ['-', '-'] => .ending
  | '-' :: '-' :: rest =>
      match ofLongName (rest.takeWhile (· ≠ '=')), rest.dropWhile (· ≠ '=') with
      | word, [] => word
      | .setting s, _ :: text => .assignment s text
      | _, _ => .unknown
  | '-' :: 'h' :: _ => .help
  | '-' :: 'V' :: _ => .version
  | '-' :: _ :: _ => .unknown
  | text => .value text

/-! ## Requests -/

/-- What the arguments have given so far. -/
structure Given where
  input : Option Path := none
  output : Option Path := none
  base : Option Path := none
  play : Bool := false
  notes : Bool := false

namespace Given

/-- Records the value of an option, which must not be empty and must not be given before. -/
def set? (g : Given) (s : Setting) (value : List Char) : Option Given :=
  if value.isEmpty then none
  else
    match s with
    | .input => if g.input.isSome then none else some { g with input := some ⟨value⟩ }
    | .output => if g.output.isSome then none else some { g with output := some ⟨value⟩ }
    | .base => if g.base.isSome then none else some { g with base := some ⟨value⟩ }

/-- Records an option without a value, which must not be given before. -/
def switchOn? (g : Given) : Switch → Option Given
  | .play => if g.play then none else some { g with play := true }
  | .notes => if g.notes then none else some { g with notes := true }

end Given

/-- What is asked for. -/
inductive Request where
  | help
  | version
  | compile (c : Compiler) (input : Path) (output : Option Path)

/-- The variable that stands in for the base directory. -/
def baseVariable : String := "PRESENT_BASE"

/-- The variable that stands in for the switch that makes excerpts runnable. -/
def playVariable : String := "PRESENT_PLAY"

/-- The base directory: the one that is given, or that of the environment. -/
def baseOf? (env : Environment) (g : Given) : Option (Option Path) :=
  match g.base, env.lookup baseVariable with
  | some base, _ => some (some base)
  | none, none => some none
  | none, some value => if value.isEmpty then none else some (some (.ofString value))

/-- Are excerpts runnable? The environment tells it in the words `true` and `false` alone. -/
def playOf? (env : Environment) (g : Given) : Option Bool :=
  match g.play, env.lookup playVariable with
  | true, _ => some true
  | false, none => some false
  | false, some value =>
      if value = "true" then some true else if value = "false" then some false else none

/-- The request that is complete with what is given. -/
def Given.request? (env : Environment) (g : Given) : Option Request := do
  let base ← baseOf? env g
  let play ← playOf? env g
  let input ← g.input
  pure (.compile { base := base, options := ⟨play, g.notes⟩ } input g.output)

/-- Reads words into a request. An option that asks for information ends the reading; an option
that needs a value takes the next word, which must be one. -/
def readWords (env : Environment) : Given → List Word → Option Request
  | g, [] => g.request? env
  | g, .setting s :: .value v :: rest => do readWords env (← g.set? s v) rest
  | g, .assignment s v :: rest => do readWords env (← g.set? s v) rest
  | g, .switch s :: rest => do readWords env (← g.switchOn? s) rest
  | _, .help :: _ => some .help
  | _, .version :: _ => some .version
  | g, [.ending] => g.request? env
  | _, _ => none

/-- The request of some arguments, if they are understood. -/
def Request.ofArguments? (env : Environment) (arguments : List String) : Option Request :=
  readWords env {} (arguments.map fun a => Word.of a.toList)

/-! ## Carrying out a request -/

/-- What a run leaves behind besides its changes to the disk. -/
structure Outcome where
  exitCode : Nat
  stdout : String := ""
  stderr : String := ""
deriving DecidableEq, Repr

/-- Is a variable set to anything but `0`? -/
def isOn (env : Environment) (name : String) : Bool := (env.lookup name).any (· ≠ "0")

/-- Is the output coloured? A terminal shows colours unless it is told not to, and anything else
only if it is told to. -/
def wantsColours (env : Environment) : Bool :=
  isOn env "CLICOLOR_FORCE" ||
    env.terminal && (env.lookup "NO_COLOR").isNone && env.lookup "CLICOLOR" ≠ some "0"

/-- A text in the manner of a terminal code, if colours are wanted. -/
def painted (env : Environment) (code text : String) : String :=
  if wantsColours env then "\x1b[" ++ code ++ "m" ++ text ++ "\x1b[0m" else text

/-- The name and the version of the program. -/
def versionText : String := "present-html 0.1.0\n"

/-- How the program is called. -/
def usage : String := "Usage: present-html [OPTIONS] --in <FILE>\n"

/-- The default of an option as help shows it. -/
def fromVariable (env : Environment) (name : String) : String :=
  " [env: " ++ name ++ "=" ++ (env.lookup name).getD "" ++ "]\n"

/-- The description of the options. -/
def helpText (env : Environment) : String :=
  "Compile .slide and .article files into static HTML\n\n" ++ usage ++ "\nOptions:\n" ++
  "      --in <FILE>   The .slide or .article file to be processed\n" ++
  "      --out <FILE>  The file to write the rendered HTML to " ++
  "(defaults to the input with .html)\n" ++
  "      --base <DIR>  Directory holding templates/ and assets/ (built-in copies when unset)" ++
  fromVariable env baseVariable ++
  "      --play        Make Go code excerpts marked with .play runnable" ++
  fromVariable env playVariable ++
  "      --notes       Include speaker notes in the output\n" ++
  "  -h, --help        Print help\n" ++
  "  -V, --version     Print version\n"

/-- What is said about arguments that are not understood. -/
def refusal : String :=
  "error: the arguments are not understood\n\n" ++ usage ++
  "\nFor more information, try '--help'.\n"

/-- The outcome of compiling a source. -/
def outcomeOf (env : Environment) : Except Failure Path → Outcome
  | .ok path =>
      { exitCode := 0
        stdout := painted env "32" "Saved to" ++ " " ++ path.toString ++ "\n" }
  | .error why =>
      { exitCode := 1
        stderr := painted env "1;31" "Error" ++ ": " ++ why.message ++ "\n" }

/-- Carries out the request of some arguments on a disk. -/
def run (env : Environment) (arguments : List String) : StateM Disk Outcome := do
  match Request.ofArguments? env arguments with
  | none => pure { exitCode := 2, stderr := refusal }
  | some .help => pure { exitCode := 0, stdout := helpText env }
  | some .version => pure { exitCode := 0, stdout := versionText }
  | some (.compile c input output) => outcomeOf env <$> (Lectern.compile c input output).run

end CommandLine

end Lectern
