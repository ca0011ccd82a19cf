import TinyScript.Number.Reader
import TinyScript.Text.Escape

/-!
# Command line options

Options are flags with one or two dashes, followed by program files. A flag takes its value from
behind an equals sign or from the next argument; switches take one only from behind an equals sign.
-/

namespace TinyScript.CommandLine

/-- The flags. -/
inductive Flag where
  | command
  | config
  | docs
  | interactive
  | logLevel
  | maxDepth
  | maxSource
  | maxSteps
  | repl
  | trace
  | watch
deriving DecidableEq, Inhabited

namespace Flag

/-- The name of a flag. -/
def name : Flag → String
  | command => "c"
  | config => "config"
  | docs => "docs"
  | interactive => "i"
  | logLevel => "log-level"
  | maxDepth => "max-depth"
  | maxSource => "max-source"
  | maxSteps => "max-steps"
  | repl => "repl"
  | trace => "trace"
  | watch => "watch"

/-- All flags. -/
def all : List Flag :=
  [command, config, docs, interactive, logLevel, maxDepth, maxSource, maxSteps, repl, trace, watch]

/-- The flag with a name. -/
def ofName? (t : Text) : Option Flag := all.find? fun f => Text.ofString f.name == t

/-- Whether a flag is a switch. -/
def isSwitch : Flag → Bool
  | interactive | repl | watch => true
  | _ => false

end Flag

/-- What the command line asks for. Numbers below zero and empty texts ask for nothing. -/
structure Options where
  commands : List Text
  repl : Bool
  watch : Bool
  config : Text
  trace : Text
  docs : Text
  maxSteps : Int
  maxDepth : Int
  maxSource : Text
  logLevel : Text
  files : List Text
deriving DecidableEq, Inhabited

/-- Why a command line is refused; asking for the usage counts as such. -/
inductive OptionsFault where
  | usage
  | badSyntax (argument : Text)
  | unknownFlag (name : Text)
  | missingValue (flag : Flag)
  | badValue (flag : Flag) (value : Text) (fault : Number.ReadFault)
deriving DecidableEq, Inhabited

/-- The words for a number that is not read. -/
def readFaultMessage : Number.ReadFault → Text
  | .notNumber => "parse error"
  | .outOfRange => "value out of range"

/-- The words for a fault. -/
def OptionsFault.message : OptionsFault → Text
  | usage => Text.empty
  | badSyntax argument => "bad flag syntax: " ++ argument
  | unknownFlag name => "flag provided but not defined: -" ++ name
  | missingValue flag => "flag needs an argument: -" ++ Text.ofString flag.name
  | badValue flag value fault =>
    if flag.isSwitch then
      "invalid boolean value " ++ value.quote ++ " for -" ++ Text.ofString flag.name ++ ": " ++
        readFaultMessage fault
    else
      "invalid value " ++ value.quote ++ " for flag -" ++ Text.ofString flag.name ++ ": " ++
        readFaultMessage fault

/-- How the program is used. -/
def usageText : Text :=
  "Usage of egg:\n" ++
  "  -c value\n    \tExecute egg program (repeatable)\n" ++
  "  -config string\n    \tYAML configuration file\n" ++
  "  -docs string\n    \tWrite Markdown documentation of all builtins into this folder and exit\n" ++
  "  -i\tStart the REPL after files and commands ran\n" ++
  "  -log-level string\n    \tdebug, info, warn or error (default from config)\n" ++
  "  -max-depth int\n    \tMaximum nesting depth, 0 = unlimited (default from config) (default -1)\n" ++
  "  -max-source string\n    \tLargest accepted program file, e.g. 16MB (default from config)\n" ++
  "  -max-steps int\n    \tEvaluation step budget per program, 0 = unlimited (default from config) (default -1)\n" ++
  "  -repl\n    \tSame as -i\n" ++
  "  -trace string\n    \tWrite a chrome trace of all function calls into this file\n" ++
  "  -watch\n    \tRerun the program files whenever they change\n"

/-- What an argument is: the first of the program files, the end of the flags, a flag with the value
behind its equals sign, or none of these. -/
inductive Argument where
  | operand
  | endOfFlags
  | flag (name : Text) (value : Option Text)
  | malformed
deriving DecidableEq

/-- The name and the value of a flag without its dashes. -/
def splitValue (body : List UInt8) : Argument :=
  match body with
  | [] => .malformed
  | b :: rest =>
    if b = 45 ∨ b = 61 then .malformed
    else
      let name := b :: rest.takeWhile (· != 61)
      match rest.dropWhile (· != 61) with
      | [] => .flag (Text.ofBytes name) none
      | _ :: value => .flag (Text.ofBytes name) (some (Text.ofBytes value))

/-- What an argument is. -/
def Argument.ofText (t : Text) : Argument :=
  match t.bytes with
  | 45 :: 45 :: [] => .endOfFlags
  | 45 :: 45 :: body => splitValue body
  | 45 :: b :: body => splitValue (b :: body)
  | _ => .operand

/-- The truth value that a text stands for. -/
def readBool? (t : Text) : Option Bool :=
  let yes : List Text := ["1", "t", "T", "TRUE", "true", "True"]
  let no : List Text := ["0", "f", "F", "FALSE", "false", "False"]
  if yes.contains t then some true else if no.contains t then some false else none

namespace Options

/-- The options of an empty command line. -/
def none : Options where
  commands := []
  repl := false
  watch := false
  config := Text.empty
  trace := Text.empty
  docs := Text.empty
  maxSteps := -1
  maxDepth := -1
  maxSource := Text.empty
  logLevel := Text.empty
  files := []

/-- Set a switch. -/
def switch (o : Options) (flag : Flag) (b : Bool) : Options :=
  match flag with
  | .watch => { o with watch := b }
  | _ => { o with repl := b }

/-- Give a flag its value. -/
def set (o : Options) (flag : Flag) (value : Text) : Except OptionsFault Options :=
  match flag with
  | .command => .ok { o with commands := o.commands ++ [value] }
  | .config => .ok { o with config := value }
  | .docs => .ok { o with docs := value }
  | .logLevel => .ok { o with logLevel := value }
  | .maxSource => .ok { o with maxSource := value }
  | .trace => .ok { o with trace := value }
  | .maxDepth =>
    match Number.readInteger value.chars with
    | .ok n => .ok { o with maxDepth := n }
    | .error fault => .error (.badValue flag value fault)
  | .maxSteps =>
    match Number.readInteger value.chars with
    | .ok n => .ok { o with maxSteps := n }
    | .error fault => .error (.badValue flag value fault)
  | .interactive | .repl | .watch =>
    match readBool? value with
    | some b => .ok (o.switch flag b)
    | Option.none => .error (.badValue flag value .notNumber)

/-- Read the arguments; the first fault counts. -/
def read (o : Options) : List Text → Except OptionsFault Options
  | [] => .ok o
  | argument :: rest =>
    match Argument.ofText argument with
    | .operand => .ok { o with files := argument :: rest }
    | .endOfFlags => .ok { o with files := rest }
    | .malformed => .error (.badSyntax argument)
    | .flag name value =>
      match Flag.ofName? name with
      | Option.none =>
        if name = "help" ∨ name = "h" then .error .usage else .error (.unknownFlag name)
      | some flag =>
        match value with
        | some v =>
          match o.set flag v with
          | .ok o => read o rest
          | .error fault => .error fault
        | Option.none =>
          if flag.isSwitch then read (o.switch flag true) rest
          else
            match rest with
            | [] => .error (.missingValue flag)
            | v :: rest =>
              match o.set flag v with
              | .ok o => read o rest
              | .error fault => .error fault

/-- The options of a command line. -/
def ofArguments (arguments : List Text) : Except OptionsFault Options := none.read arguments

end Options

end TinyScript.CommandLine
