import AccessRules.Report.Printer
import AccessRules.Text.Split

/-!
# Arguments

Without a command the program answers a request to a generator; the commands extract from a set of
definition files and write a settings file. Options may be given before or after the command where
both know them, and the later one counts.

Options are read from left to right. The first that is wrong ends the reading, and so does a
request for help.
-/

namespace AccessRules.CommandLine

/-! ## What is asked for -/

/-- The arguments of the command that extracts. -/
structure ExtractArguments where
  /-- The file that holds the set of definition files. -/
  set : String
  /-- The files to extract; all with services if there are none. -/
  targets : List String := []
  /-- Roots that replace the configured ones. -/
  roots : List String := []
  style : Report.Style := .text
  strict : Bool := false
deriving DecidableEq, Repr

/-- What the program is to do. -/
inductive Command where
  /-- Answer the request on standard input. -/
  | answer
  | extract (arguments : ExtractArguments)
  /-- Write a settings file, also over another one if `force` is set. -/
  | init (force : Bool)
deriving DecidableEq, Repr

/-- The arguments of a run. -/
structure Invocation where
  /-- The settings file. -/
  settings? : Option String
  command : Command
deriving DecidableEq, Repr

/-- Why there is nothing to run. -/
inductive Stop where
  | help
  | version
  /-- The arguments are wrong. -/
  | usage
deriving DecidableEq, Repr

/-! ## Options -/

/-- The groups of options. -/
inductive Level where
  /-- Before the command. -/
  | main
  | extract
  | init
deriving DecidableEq, Repr

/-- An option. -/
inductive Opt where
  | verbose
  | help
  | version
  | strict
  | force
  | settings
  | set
  | target
  | root
  | style
deriving DecidableEq, Repr

namespace Opt

/-- Whether the option has a value. -/
def hasValue : Opt → Bool
  | settings | set | target | root | style => true
  | verbose | help | version | strict | force => false

/-- Whether the option may be given more than once. -/
def isRepeatable : Opt → Bool
  | target | root => true
  | _ => false

/-- Whether the option takes this value. Paths must not be empty. -/
def accepts (value : String) : Opt → Bool
  | settings | set | root => value ≠ ""
  | style => (Report.Style.ofName? value).isSome
  | _ => true

/-- The letter of the option. -/
def letter? : Opt → Option Char
  | verbose => some 'v'
  | help => some 'h'
  | version => some 'V'
  | settings => some 'c'
  | set => some 'd'
  | root => some 'I'
  | style => some 'f'
  | strict | force | target => none

/-- The name of the option. -/
def name : Opt → String
  | verbose => "verbose"
  | help => "help"
  | version => "version"
  | strict => "strict"
  | force => "force"
  | settings => "config"
  | set => "descriptor-set"
  | target => "file"
  | root => "source-root"
  | style => "format"

end Opt

/-- The options of a group. -/
def Level.options : Level → List Opt
  | main => [.verbose, .settings, .help, .version]
  | extract => [.verbose, .settings, .help, .set, .target, .root, .style, .strict]
  | init => [.verbose, .settings, .help, .force]

/-! ## Reading one argument -/

/-- What an argument says after the options in it. -/
inductive Ending where
  /-- Nothing more. -/
  | complete
  /-- The value of an option is the next argument. -/
  | awaits (option : Opt)
  /-- Options end here. -/
  | endOfOptions
  /-- A command. -/
  | command (name : String)
  | unknown
deriving DecidableEq, Repr

/-- An option with its value, which is empty where it has none. -/
abbrev Given := Opt × String

/-- Reads letters of options that were written together. What follows the letter of an option with
a value is its value. -/
def readLetters (level : Level) : Text → List Given × Ending
  | [] => ([], .complete)
  | c :: rest =>
    match level.options.find? (·.letter? = some c) with
    | none => ([], .unknown)
    | some option =>
      if option.hasValue then
        match rest with
        | [] => ([], .awaits option)
        | '=' :: value => ([(option, String.ofList value)], .complete)
        | value => ([(option, String.ofList value)], .complete)
      else
        let (given, ending) := readLetters level rest
        ((option, "") :: given, ending)

/-- Reads the name of an option, perhaps with its value. -/
def readName (level : Level) (text : Text) : List Given × Ending :=
  let (name, value?) := match Text.splitOnce? '=' text with
    | some (name, value) => (name, some (String.ofList value))
    | none => (text, none)
  match level.options.find? (·.name = String.ofList name), value? with
  | none, _ => ([], .unknown)
  | some option, none =>
    if option.hasValue then ([], .awaits option) else ([(option, "")], .complete)
  | some option, some value =>
    if option.hasValue then ([(option, value)], .complete) else ([], .unknown)

/-- Reads one argument. -/
def readArgument (level : Level) (argument : String) : List Given × Ending :=
  match argument.toList with
  | ['-', '-'] => ([], .endOfOptions)
  | '-' :: '-' :: name => readName level name
  | '-' :: c :: letters => readLetters level (c :: letters)
  | _ => ([], .command argument)

/-- Whether an argument can be the value of an option before it. -/
def canBeValue (argument : String) : Bool :=
  match argument.toList with
  | '-' :: _ :: _ => false
  | _ => true

/-! ## Reading all arguments -/

/-- Adds an option to those given before. -/
def addOption (given : List Given) (new : Given) : Except Stop (List Given) :=
  match new.1 with
  | .help => .error .help
  | .version => .error .version
  | option =>
    if !option.isRepeatable && given.any (·.1 = option) then .error .usage
    else if option.accepts new.2 then .ok (given ++ [new])
    else .error .usage

/-- Reads the options of a group up to a command. Gives them, and the command with the arguments
behind it. -/
def readOptions (level : Level) (given : List Given) :
    List String → Except Stop (List Given × Option (String × List String))
  | [] => .ok (given, none)
  | argument :: rest =>
    let (new, ending) := readArgument level argument
    match new.foldlM addOption given with
    | .error stop => .error stop
    | .ok given =>
      match ending, rest with
      | .complete, rest => readOptions level given rest
      | .awaits _, [] => .error .usage
      | .awaits option, value :: rest =>
        if canBeValue value then
          match addOption given (option, value) with
          | .error stop => .error stop
          | .ok given => readOptions level given rest
        else .error .usage
      | .endOfOptions, [] => .ok (given, none)
      | .endOfOptions, _ :: _ => .error .usage
      | .command name, rest => .ok (given, some (name, rest))
      | .unknown, _ => .error .usage

/-- The value of an option that was given. -/
def value? (given : List Given) (option : Opt) : Option String :=
  given.findSome? fun (other, value) => if other = option then some value else none

/-- The values of an option that can be given more than once. -/
def values (given : List Given) (option : Opt) : List String :=
  given.filterMap fun (other, value) => if other = option then some value else none

/-- Whether an option was given. -/
def isGiven (given : List Given) (option : Opt) : Bool :=
  given.any (·.1 = option)

/-- Reads the options of a command; nothing may follow them. -/
def readCommand (level : Level) (arguments : List String) : Except Stop (List Given) :=
  match readOptions level [] arguments with
  | .error stop => .error stop
  | .ok (_, some _) => .error .usage
  | .ok (given, none) => .ok given

/-- The names of the commands. -/
def commandNames : List String :=
  ["extract", "init", "help"]

/-- The invocation that the arguments spell. -/
def read (arguments : List String) : Except Stop Invocation := do
  let (outer, command?) ← readOptions .main [] arguments
  let settings? (inner : List Given) := (value? inner .settings).or (value? outer .settings)
  match command? with
  | none => return ⟨settings? [], .answer⟩
  | some ("extract", rest) =>
    let given ← readCommand .extract rest
    match value? given .set with
    | none => throw .usage
    | some set =>
      return ⟨settings? given, .extract {
        set
        targets := values given .target
        roots := values given .root
        style := ((value? given .style).bind Report.Style.ofName?).getD .text
        strict := isGiven given .strict }⟩
  | some ("init", rest) =>
    let given ← readCommand .init rest
    return ⟨settings? given, .init (isGiven given .force)⟩
  | some ("help", names) =>
    match names with
    | [] => throw .help
    | [name] => throw (if name ∈ commandNames then .help else .usage)
    | _ => throw .usage
  | some _ => throw .usage

end AccessRules.CommandLine
