import TensorLang.Compilation

/-!
# Command line

The command takes the path of a source file and options: `--emit` with a stage, `--opt`, `--entry`
with a function and `--trace-passes`.  Each may be given once, and a value may follow its option
after a blank or after `=`.
-/

namespace TensorLang

namespace CommandLine

/-- The arguments read so far. -/
structure Arguments where
  /-- The source file. -/
  path : Option String
  /-- The stage to emit. -/
  stage : Option Stage
  /-- Whether dataflow is optimised before it is shown. -/
  optimize : Bool
  /-- The entry function. -/
  entry : Option String
  /-- Whether modules are shown after every pass. -/
  trace : Bool

/-- No arguments at all. -/
def Arguments.none : Arguments := ⟨.none, .none, false, .none, false⟩

/-- The stage with a name. -/
def stageOf? : String → Option Stage
  | "tokens" => some .tokens
  | "ast" => some .outline
  | "ir" => some .dataflow
  | "loops" => some .loops
  | "run" => some .run
  | _ => .none

/-- Whether an argument is an option and not a value. -/
def isOption (argument : String) : Bool :=
  argument.toList.head? == some '-' && 1 < argument.length

namespace Arguments

/-- Takes the source file, once. -/
def takePath? (arguments : Arguments) (path : String) : Option Arguments :=
  if arguments.path.isSome || path.isEmpty then .none else some { arguments with path := some path }

/-- Takes the stage, once. -/
def takeStage? (arguments : Arguments) (name : String) : Option Arguments :=
  match arguments.stage, stageOf? name with
  | .none, some stage => some { arguments with stage := some stage }
  | _, _ => .none

/-- Takes the entry function, once. -/
def takeEntry? (arguments : Arguments) (name : String) : Option Arguments :=
  if arguments.entry.isSome then .none else some { arguments with entry := some name }

/-- Takes an option without a value, once. -/
def takeFlag? (arguments : Arguments) : String → Option Arguments
  | "--opt" => if arguments.optimize then .none else some { arguments with optimize := true }
  | "--trace-passes" => if arguments.trace then .none else some { arguments with trace := true }
  | _ => .none

/-- Takes an option and its value. -/
def takeValue? (arguments : Arguments) (option value : String) : Option Arguments :=
  match option with
  | "--emit" => arguments.takeStage? value
  | "--entry" => arguments.takeEntry? value
  | _ => .none

end Arguments

/-- Whether an option has a value. -/
def hasValue (option : String) : Bool := option == "--emit" || option == "--entry"

/-- Reads arguments in order; there is no answer if one of them is wrong. -/
def read? (arguments : Arguments) : List String → Option Arguments
  | [] => some arguments
  | "--" :: rest => rest.foldlM Arguments.takePath? arguments
  | [argument] => readOne? arguments argument
  | argument :: value :: rest =>
      if hasValue argument then
        if isOption value then .none
        else (arguments.takeValue? argument value).bind fun arguments => read? arguments rest
      else
        (readOne? arguments argument).bind fun arguments => read? arguments (value :: rest)
where
  /-- Reads one argument that needs no further one. -/
  readOne? (arguments : Arguments) (argument : String) : Option Arguments :=
    if isOption argument then
      let option := String.ofList (argument.toList.takeWhile (· ≠ '='))
      match argument.toList.dropWhile (· ≠ '=') with
      | [] => arguments.takeFlag? option
      | _ :: value => arguments.takeValue? option (String.ofList value)
    else
      arguments.takePath? argument

/-- What the path of the source file leads to. -/
inductive Input where
  /-- A file with a text. -/
  | file (contents : String)
  /-- Anything else. -/
  | unusable

/-- What the command answers. -/
structure Response where
  /-- The exit code. -/
  exitCode : Nat
  /-- The text for standard output. -/
  output : String
  /-- The text for standard error. -/
  diagnostics : String

/-- The answer to arguments or a file that the command cannot use. -/
def usageError (message : String) : Response := ⟨2, "", s!"error: {message}\n"⟩

/-- The answer when a promise between the stages is broken. -/
def internalFault (diagnostics : String) : Response :=
  ⟨101, "", diagnostics ++ "internal fault\n"⟩

/-- Output ends its last line; empty output has none. -/
def closeLine (text : String) : String :=
  if text.isEmpty || text.toList.getLast? == some '\n' then text else text ++ "\n"

/-- Compiles a source text as the arguments say. -/
def compile (arguments : Arguments) (source : Source) (ink : Ink) : Response :=
  let options : Options :=
    { entry := arguments.entry.getD defaultEntry
      optimize := arguments.optimize
      trace := arguments.trace }
  let compilation := source.compile (arguments.stage.getD .run) options
  match compilation.snapshots.mapM (Snapshot.text ink) with
  | .error _ => internalFault ""
  | .ok snapshots =>
      let trace := String.join snapshots
      match compilation.outcome >>= Artifact.text ink with
      | .ok text => ⟨0, closeLine text, trace⟩
      | .error (.error error) => ⟨1, "", trace ++ error.diagnostic source ink⟩
      | .error .fault => internalFault trace

/-- Answers arguments, given what their path leads to. -/
def respond (arguments : List String) (input : String → Input) (ink : Ink) : Response :=
  match read? .none arguments with
  | .none => usageError "invalid arguments"
  | some read =>
      match read.path with
      | .none => usageError "a source file is required"
      | some path =>
          match input path with
          | .unusable => usageError s!"cannot read a text from {path}"
          | .file contents => compile read ⟨contents, .file path⟩ ink

/-- The settings that decide whether colour is used, as the environment gives them. -/
structure ColourSettings where
  /-- Forces colour, unless it is `0`. -/
  forced : Option String
  /-- Refuses colour, whatever it is. -/
  refused : Option String
  /-- Allows colour on a terminal, unless it is `0`. -/
  allowed : Option String
  /-- Whether the output goes to a terminal. -/
  onTerminal : Bool

/-- Colour is used when it is forced, and otherwise on a terminal where it is allowed and not
refused. -/
def ColourSettings.ink (settings : ColourSettings) : Ink :=
  if settings.forced.any (· != "0") then .coloured
  else if settings.refused.isSome then .plain
  else if settings.onTerminal && settings.allowed.all (· != "0") then .coloured
  else .plain

end CommandLine

end TensorLang
